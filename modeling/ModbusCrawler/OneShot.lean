import ModbusCrawler.CrawlerMain
import ModbusCrawler.ReadFailures
import ModbusCrawler.ScriptPlans
import ModbusCrawler.SingleRead

set_option autoImplicit false

/-!
# The one-shot modes of `crawler/main.cpp`

What `main` puts on the line and how it ends, from the options that `getopt`
delivers and the operands that are left in `argv`.
-/
namespace ModbusCrawler.OneShot
open CNumerals FailStop ModbusTypes ModbusSlave ModbusOps FileTransfer FlashPlan FlashDevice FlashRuns
open CrawlerMain ScriptPlans SingleRead
open ReadFailures (toVal_supported)

/-- An exception that leaves `main` ends it, and so does a failing assertion. -/
inductive Ending where
  | returned (status : ℤ)
  | usage (res : ℤ) (msg : String)
  | terminated (e : Exception)
  | aborted
  | measureMode (o : Options)
  deriving DecidableEq, Repr

/-- The exit status of a call that `main` returns from: the low byte of its value. -/
def Ending.status : Ending → Option ℤ
  | .returned status => some (status % 256)
  | .usage res _ => some (res % 256)
  | .terminated _ | .aborted | .measureMode _ => none

theorem usage_status (msg : String) : (Ending.usage (-1) msg).status = some 255 := rfl

/-- The `try` block around an operation, with its handler. -/
def guarded {α : Type} (operation : Line α) (log : Log Request Reply) : Ending × Log Request Reply :=
  match operation.run log with
  | .ok _ log => (.returned 0, log)
  | .error (.invalidArgument what) log => (.usage (-1) what, log)
  | .error e log => (.terminated e, log)

def rtuParameters (o : Options) : RtuParameters :=
  ⟨o.slaveId, o.serialDevice, o.serialConfig, o.answeringTime⟩

def missing (mode : String) : Ending :=
  .usage (-1) ("missing mandatory parameters for " ++ mode ++ " mode")

/-- From the end of the option loop to the measure mode. -/
def dispatch (bus : Bus) (files : Files) (o : Options) (argv : List String)
    (log : Log Request Reply) : Ending × Log Request Reply :=
  match o.mode with
  | .singleRead =>
    match argv with
    | address :: regspec :: _ =>
      if o.slaveId < 0 then (missing "single_read", log)
      else match singleRead bus (rtuParameters o) (strtolInt address) regspec with
        | none => (.aborted, log)
        | some operation => guarded operation log
    | _ => (missing "single_read", log)
  | .singleWrite =>
    match argv with
    | address :: value :: _ =>
      if o.slaveId < 0 then (missing "single_write", log)
      else guarded (singleWrite bus (rtuParameters o) (strtolInt address)
        (strtoimax (cString value)).1) log
    | _ => (missing "single_write", log)
  | .fileTransfer =>
    match argv with
    | address :: filename :: _ =>
      if o.slaveId < 0 then (missing "file_transfer", log)
      else guarded (fileTransfer bus files (rtuParameters o) (strtolInt address) filename) log
    | _ => (missing "file_transfer", log)
  | .flashUpdate =>
    match argv with
    | filename :: _ =>
      if o.slaveId < 0 then (missing "flash_update", log)
      else guarded (flashUpdate bus files (rtuParameters o) filename) log
    | _ => (missing "flash_update", log)
  | _ =>
    if o.measconfigFile = "" then (.usage (-1) "missing measures config file parameter", log)
    else (.measureMode o, log)

/-- What stops the option loop. -/
def stopped : Stop → Ending
  | .usage res msg => .usage res msg
  | .exception e => .terminated e
  | .otherMode _ => .aborted

def main (bus : Bus) (files : Files) (args : List (Char × String)) (argv : List String) :
    Ending × Log Request Reply :=
  match parseOptions {} args with
  | .error stop => (stopped stop, [])
  | .ok o => dispatch bus files o argv []

/-- What a command line asks of the device: the requests, and what is thrown when all
    of them went through. -/
inductive Asked (files : Files) (device : Device) :
    Mode → List String → Plan Request Exception → Prop where
  | typedRead {address regspec : String} {rest : List String} {first last : Char} {middle : List Char} :
      regspec.toList = first :: (middle ++ [last]) → first ∈ ['1', '2', '4'] → last ∈ ['l', 'b'] →
      Asked files device .singleRead (address :: regspec :: rest)
        ⟨[.readRegisters (strtolInt address) (regsizeOf first)], none⟩
  | rawRead {address regspec : String} {rest : List String} {first : Char} {middle : List Char} :
      regspec.toList = first :: (middle ++ ['r']) → 0 ≤ strtolInt regspec →
      Asked files device .singleRead (address :: regspec :: rest)
        ⟨[.readRegisters (strtolInt address) (strtolInt regspec)], none⟩
  | negativeCount {address regspec : String} {rest : List String} {first : Char} {middle : List Char} :
      regspec.toList = first :: (middle ++ ['r']) → strtolInt regspec < 0 →
      Asked files device .singleRead (address :: regspec :: rest)
        ⟨[], some (.lengthError "cannot create std::vector larger than max_size()")⟩
  | write {address value : String} {rest : List String} :
      0 ≤ (strtoimax (cString value)).1 → (strtoimax (cString value)).1 ≤ 65535 →
      Asked files device .singleWrite (address :: value :: rest)
        ⟨[.writeRegister (strtolInt address) (UInt16.ofInt (strtoimax (cString value)).1)], none⟩
  | transfer {address filename : String} {rest : List String} {content : List UInt16 × UInt32} :
      registersFromFile files filename = .ok content →
      Asked files device .fileTransfer (address :: filename :: rest)
        ⟨(vectorSteps (strtolInt address) content.1).map Step.request, none⟩
  | update {filename : String} {rest : List String} {content : List UInt16} {checksum : UInt32} :
      registersFromFile files (imageName device filename) = .ok (content, checksum) →
      Asked files device .flashUpdate (filename :: rest)
        ⟨(flashSteps content checksum).map Step.request, none⟩
  | noImage {filename : String} {rest : List String} {e : Exception} :
      registersFromFile files (imageName device filename) = .error e →
      Asked files device .flashUpdate (filename :: rest) ⟨[versionRequest], some e⟩

/-- Every exchange is acknowledged, or a runtime error tells that one is not. -/
def line : Terms Request Reply Exception where
  good := Acknowledged
  unmet e := ∃ text, e = .runtimeError text

def oneShot : List Mode := [.singleRead, .singleWrite, .fileTransfer, .flashUpdate]

/-- The whole plan is acknowledged, and nothing is thrown after it. -/
def Done (plan : Plan Request Exception) (log : Log Request Reply) : Prop :=
  plan.thrown = none ∧ log.map Prod.fst = plan.requests ∧ ∀ exchange ∈ log, Acknowledged exchange

/-- The ending that a plan deserves. -/
def Earned (plan : Plan Request Exception) (run : Ending × Log Request Reply) : Prop :=
  (run.2.map Prod.fst = plan.requests ∧ (∀ exchange ∈ run.2, Acknowledged exchange) ∧
    run.1 = match plan.thrown with
      | none => .returned 0
      | some e => .terminated e) ∨
  Broken line plan.requests run.2 ∧ ∃ text, run.1 = .terminated (.runtimeError text)

section Operations

theorem typedRead_follows (device : Device) (log : Log Request Reply) (address : ℤ) {regsize : ℤ}
    (endianess : WordEndianess) (hsize : regsizeSupported regsize = true) :
    Follows line log ⟨[.readRegisters address regsize], none⟩
      (typedRead device address regsize endianess) := by
  refine Follows.map ?_ _
  unfold RTUSlave.readHoldingRegisters RTUSlave.readTyped
  simp only [hsize, Bool.not_true, Bool.false_eq_true, if_false]
  refine Follows.request device ⟨[], none⟩ ?_ ?_
  · intro hgood
    obtain ⟨val, hval⟩ := toVal_supported hsize endianess (device log (.readRegisters address regsize)).regs
    rw [if_neg (not_not.mpr (show _ = regsize from hgood)), hval]
    exact Follows.value _ val
  · intro hbad
    exact ⟨.runtimeError ("Failed modbus_read_registers: " ++
      (device log (.readRegisters address regsize)).strerror), ⟨_, rfl⟩, if_pos hbad⟩

theorem rawRead_follows (device : Device) (log : Log Request Reply) (address : ℤ) {numRegs : ℤ}
    (h : 0 ≤ numRegs) :
    Follows line log ⟨[.readRegisters address numRegs], none⟩ (rawRead device address numRegs) := by
  refine Follows.map ?_ _
  unfold RTUSlave.readHoldingRegistersVector
  rw [if_neg (by omega)]
  refine Follows.request device ⟨[], none⟩ ?_ ?_
  · intro hgood
    dsimp only
    rw [if_neg (not_not.mpr (show _ = numRegs from hgood))]
    exact Follows.value _ _
  · intro hbad
    exact ⟨.runtimeError ("Failed modbus_read_registers: " ++
      (device log (.readRegisters address numRegs)).strerror), ⟨_, rfl⟩, if_pos hbad⟩

theorem negativeCount_follows (device : Device) (log : Log Request Reply) (address : ℤ) {numRegs : ℤ}
    (h : numRegs < 0) :
    Follows line log ⟨[], some (.lengthError "cannot create std::vector larger than max_size()")⟩
      (rawRead device address numRegs) := by
  refine .inl ⟨[], rfl, by simp, ?_⟩
  rw [rawRead_negative device address h, List.append_nil]

theorem writeHoldingRegister_follows (device : Device) (log : Log Request Reply) (address : ℤ)
    (value : UInt16) :
    Follows line log ⟨[.writeRegister address value], none⟩
      (RTUSlave.writeHoldingRegister device address value) := by
  rw [writeHoldingRegister_eq, ← runAll_singleton]
  have single : ∀ step ∈ [holdingStep address value], step = holdingStep address value :=
    fun step hstep => List.mem_singleton.mp hstep
  have follows : Follows line log ⟨[holdingStep address value].map Step.request, none⟩
      (runAll device [holdingStep address value]) :=
    Follows.steps device log (fun step hstep => single step hstep ▸ holdingStep_checked address value)
      (fun step hstep answer => single step hstep ▸ ⟨_, rfl⟩)
  exact follows

theorem vectorSteps_unmet (address : ℤ) (registers : List UInt16) :
    ∀ step ∈ vectorSteps address registers, ∀ answer, line.unmet (step.failure answer) :=
  vectorSteps_all registers (fun _ _ _ _ => ⟨_, rfl⟩) (fun _ _ _ => ⟨_, rfl⟩) address

/-- The steps of every segment are writes that throw runtime errors. -/
theorem segmentBodies_unmet (left : ℕ) (regs : List UInt16) (flashOffset : UInt32) :
    ∀ body ∈ segmentBodies left regs flashOffset, ∀ step ∈ body, ∀ answer,
      line.unmet (step.failure answer) := by
  induction left generalizing regs flashOffset with
  | zero =>
    intro body hbody step hstep answer
    unfold segmentBodies at hbody
    split_ifs at hbody with hremaining
    · rw [List.mem_singleton.mp hbody, mem_remainingBody] at hstep
      rcases hstep with rfl | rfl | rfl | hstep
      · exact ⟨_, rfl⟩
      · exact ⟨_, rfl⟩
      · exact ⟨_, rfl⟩
      · split_ifs at hstep
        · rcases hstep with rfl | rfl <;> exact ⟨_, rfl⟩
        · exact hstep ▸ ⟨_, rfl⟩
    · cases hbody
  | succ left ih =>
    intro body hbody step hstep answer
    rcases List.mem_cons.mp hbody with rfl | hrest
    · rcases mem_lineBody.mp hstep with rfl | rfl | rfl | rfl | rfl <;> exact ⟨_, rfl⟩
    · exact ih _ _ body hrest step hstep answer

theorem flashSteps_unmet (content : List UInt16) (checksum : UInt32) :
    ∀ step ∈ flashSteps content checksum, ∀ answer, line.unmet (step.failure answer) := by
  intro step hstep answer
  rcases List.mem_cons.mp hstep with rfl | himage
  · exact ⟨_, rfl⟩
  rcases List.mem_append.mp himage with hbefore | hdone
  · rcases List.mem_append.mp hbefore with hsegments | hfinal
    · rcases List.mem_cons.mp hsegments with rfl | hsegment
      · exact ⟨_, rfl⟩
      obtain ⟨body, hbody, hclosed⟩ := List.mem_flatMap.mp hsegment
      rcases List.mem_append.mp hclosed with hinner | hclose
      · exact segmentBodies_unmet _ _ _ body hbody step hinner answer
      · exact List.mem_singleton.mp hclose ▸ ⟨_, rfl⟩
    · simp only [finalSteps, List.mem_cons, List.not_mem_nil, or_false] at hfinal
      rcases hfinal with rfl | rfl | rfl | rfl <;> exact ⟨_, rfl⟩
  · exact List.mem_singleton.mp hdone ▸ ⟨_, rfl⟩

theorem flashUpdate_follows {bus : Bus} {files : Files} {rp : RtuParameters} {filename : String}
    {device : Device} {plan : Plan Request Exception} {rest : List String}
    (hopen : openSlave bus rp = .ok device)
    (h : Asked files device .flashUpdate (filename :: rest) plan) :
    Follows line [] plan (flashUpdate bus files rp filename) := by
  cases h with
  | update hfile =>
    have run := flashUpdate_run hopen (fun _ => hfile)
    unfold Follows
    rw [run]
    exact Follows.steps device [] (flashSteps_checked _ _) (flashSteps_unmet _ _)
  | noImage hfile =>
    unfold Follows
    rw [flashUpdate_eq hopen, hfile, Step.run, bind_assoc]
    have accepts : versionStep.accepts (device [] versionRequest) = true ↔
        Acknowledged (versionRequest, device [] versionRequest) := decide_eq_true_iff
    refine Follows.request device ⟨[], some _⟩ ?_ ?_
    · intro hgood
      rw [if_pos (accepts.mpr hgood), pure_bind]
      exact Follows.throwing _ _
    · intro hbad
      rw [if_neg (mt accepts.mp hbad)]
      exact ⟨versionStep.failure (device [] versionRequest), ⟨_, rfl⟩, rfl⟩

end Operations

theorem registersFromFile_error {files : Files} {filename : String} {e : Exception}
    (h : registersFromFile files filename = .error e) :
    e = .runtimeError ("invalid filename " ++ filename) := by
  unfold registersFromFile at h
  split at h
  · exact (Except.error.inj h).symm
  · cases h

theorem Asked.thrown_not_invalid {files : Files} {device : Device} {mode : Mode}
    {argv : List String} {plan : Plan Request Exception} (h : Asked files device mode argv plan)
    (what : String) : plan.thrown ≠ some (.invalidArgument what) := by
  cases h with
  | noImage hfile =>
    rw [registersFromFile_error hfile]
    exact fun hsome => by cases hsome
  | _ => exact fun hsome => by cases hsome

/-- The handler keeps what the operation earned. -/
theorem guarded_earned {α : Type} {plan : Plan Request Exception} {operation : Line α}
    (h : Follows line [] plan operation)
    (hthrown : ∀ what, plan.thrown ≠ some (.invalidArgument what)) :
    Earned plan (guarded operation []) := by
  unfold guarded
  rcases h with ⟨sent, hsent, hall, hrun⟩ | ⟨sent, e, hbroken, ⟨text, rfl⟩, hrun⟩
  · refine .inl ?_
    cases hplan : plan.thrown with
    | none =>
      rw [hplan] at hrun
      obtain ⟨a, hrun⟩ := hrun
      rw [hrun]
      exact ⟨hsent, hall, rfl⟩
    | some e =>
      rw [hplan] at hrun
      rw [hrun]
      cases e with
      | invalidArgument what => exact absurd hplan (hthrown what)
      | _ => exact ⟨hsent, hall, rfl⟩
  · rw [hrun]
    exact .inr ⟨hbroken, text, rfl⟩

theorem Earned.done {plan : Plan Request Exception} {run : Ending × Log Request Reply}
    (h : Earned plan run) : run.1.status = some 0 ↔ Done plan run.2 := by
  rcases h with ⟨hsent, hall, hending⟩ | ⟨⟨before, bad, hlog, -, -, hbad⟩, text, hending⟩
  · cases hthrown : plan.thrown with
    | none =>
      rw [hthrown] at hending
      exact iff_of_true (by rw [hending]; rfl) ⟨hthrown, hsent, hall⟩
    | some e =>
      rw [hthrown] at hending
      exact iff_of_false (by rw [hending]; exact nofun) fun hdone => nomatch hthrown.symm.trans hdone.1
  · refine iff_of_false (by rw [hending]; exact nofun) fun hdone => hbad (hdone.2.2 bad ?_)
    exact hlog ▸ List.mem_append_right before (List.mem_singleton_self bad)

/-- No device was asked: nothing is on the line, and the call does not succeed. -/
def Silent (run : Ending × Log Request Reply) : Prop :=
  run.2 = [] ∧ run.1.status ≠ some 0

theorem guarded_silent {α : Type} {operation : Line α} {e : Exception}
    (h : operation.run [] = .error e []) : Silent (guarded operation []) := by
  unfold guarded
  rw [h]
  cases e with
  | invalidArgument what => exact ⟨rfl, by rw [usage_status]; decide⟩
  | _ => exact ⟨rfl, nofun⟩

/-- What the options and the operands come to. -/
def Requested (bus : Bus) (files : Files) (o : Options) (argv : List String)
    (plan : Plan Request Exception) : Prop :=
  0 ≤ o.slaveId ∧ ∃ device, openSlave bus (rtuParameters o) = .ok device ∧
    Asked files device o.mode argv plan

/-- The last character of the regspec tells typed reads from raw ones. -/
theorem Asked.unique {files : Files} {device : Device} {mode : Mode} {argv : List String}
    {plan plan' : Plan Request Exception} (h : Asked files device mode argv plan)
    (h' : Asked files device mode argv plan') : plan = plan' := by
  have ends {first first' last last' : Char} {middle middle' regspec : List Char}
      (hs : regspec = first :: (middle ++ [last])) (hs' : regspec = first' :: (middle' ++ [last'])) :
      first = first' ∧ last = last' := by
    obtain ⟨hfirst, htail⟩ := List.cons.inj (hs.symm.trans hs')
    exact ⟨hfirst, (List.cons.inj (List.append_inj' htail rfl).2).1⟩
  cases h with
  | typedRead hs hfirst hlast =>
    cases h' with
    | typedRead hs' => rw [(ends hs hs').1]
    | rawRead hs' | negativeCount hs' =>
      rw [(ends hs hs').2] at hlast
      exact absurd hlast (by decide)
  | rawRead hs hcount =>
    cases h' with
    | typedRead hs' _ hlast' =>
      rw [(ends hs' hs).2] at hlast'
      exact absurd hlast' (by decide)
    | rawRead => rfl
    | negativeCount _ hnegative => omega
  | negativeCount hs hnegative =>
    cases h' with
    | typedRead hs' _ hlast' =>
      rw [(ends hs' hs).2] at hlast'
      exact absurd hlast' (by decide)
    | rawRead _ hcount => omega
    | negativeCount => rfl
  | write =>
    cases h'
    rfl
  | transfer hfile =>
    cases h' with
    | transfer hfile' =>
      rw [hfile] at hfile'
      cases hfile'
      rfl
  | update hfile =>
    cases h' with
    | update hfile' =>
      rw [hfile] at hfile'
      cases hfile'
      rfl
    | noImage hfile' =>
      rw [hfile] at hfile'
      cases hfile'
  | noImage hfile =>
    cases h' with
    | update hfile' =>
      rw [hfile] at hfile'
      cases hfile'
    | noImage hfile' =>
      rw [hfile] at hfile'
      cases hfile'
      rfl

theorem Requested.unique {bus : Bus} {files : Files} {o : Options} {argv : List String}
    {plan plan' : Plan Request Exception} (h : Requested bus files o argv plan)
    (h' : Requested bus files o argv plan') : plan = plan' := by
  obtain ⟨-, device, hopen, hasked⟩ := h
  obtain ⟨-, device', hopen', hasked'⟩ := h'
  rw [hopen] at hopen'
  cases hopen'
  exact hasked.unique hasked'

def Settled (bus : Bus) (files : Files) (o : Options) (argv : List String)
    (run : Ending × Log Request Reply) : Prop :=
  (∃ plan, Requested bus files o argv plan ∧ Earned plan run) ∨
    (∀ plan, ¬ Requested bus files o argv plan) ∧ Silent run

section Dispatch
variable {bus : Bus} {files : Files} {o : Options} {argv : List String}

theorem Settled.refused {run : Ending × Log Request Reply} (hsilent : Silent run)
    (h : 0 ≤ o.slaveId → ∀ device plan, openSlave bus (rtuParameters o) = .ok device →
      ¬ Asked files device o.mode argv plan) : Settled bus files o argv run :=
  .inr ⟨fun plan ⟨hslave, device, hopen, hasked⟩ => h hslave device plan hopen hasked, hsilent⟩

/-- An operation that opens the slave, and then follows what was asked of it. -/
theorem Settled.opening {α : Type} {operation : Device → Line α} (hslave : 0 ≤ o.slaveId)
    (h : ∀ device, openSlave bus (rtuParameters o) = .ok device → ∃ plan,
      Asked files device o.mode argv plan ∧ Follows line [] plan (operation device)) :
    Settled bus files o argv
      (guarded (throwing (openSlave bus (rtuParameters o)) >>= operation) []) := by
  cases hopen : openSlave bus (rtuParameters o) with
  | error e =>
    refine Settled.refused (guarded_silent (e := e) rfl) ?_
    intro _ device plan hdevice
    rw [hopen] at hdevice
    cases hdevice
  | ok device =>
    obtain ⟨plan, hasked, hfollows⟩ := h device hopen
    exact .inl ⟨plan, ⟨hslave, device, hopen, hasked⟩,
      guarded_earned hfollows hasked.thrown_not_invalid⟩

/-- Only what `{1|2|4}..{l|b} | ..r` covers asks for a read. -/
theorem Asked.regspec {device : Device} {address regspec : String} {rest : List String}
    {plan : Plan Request Exception}
    (h : Asked files device .singleRead (address :: regspec :: rest) plan) :
    ∃ first middle last, regspec.toList = first :: (middle ++ [last]) ∧
      (last = 'r' ∨ first ∈ ['1', '2', '4'] ∧ last ∈ ['l', 'b']) := by
  cases h with
  | typedRead hs hfirst hlast => exact ⟨_, _, _, hs, .inr ⟨hfirst, hlast⟩⟩
  | rawRead hs _ => exact ⟨_, _, _, hs, .inl rfl⟩
  | negativeCount hs _ => exact ⟨_, _, _, hs, .inl rfl⟩

theorem singleRead_silent {address regspec : String} {rest : List String} {what : String}
    (hmode : o.mode = .singleRead) (h : ¬ ∃ first middle last,
      regspec.toList = first :: (middle ++ [last]) ∧
        (last = 'r' ∨ first ∈ ['1', '2', '4'] ∧ last ∈ ['l', 'b'])) :
    Settled bus files o (address :: regspec :: rest)
      (guarded (throw (.invalidArgument what) : Line Reading) []) := by
  refine Settled.refused (guarded_silent (e := .invalidArgument what) rfl) ?_
  intro _ device plan _ hasked
  rw [hmode] at hasked
  exact h hasked.regspec

theorem singleRead_settled {address regspec : String} {rest : List String}
    (hmode : o.mode = .singleRead) (hslave : 0 ≤ o.slaveId) {operation : Line Reading}
    (h : singleRead bus (rtuParameters o) (strtolInt address) regspec = some operation) :
    Settled bus files o (address :: regspec :: rest) (guarded operation []) := by
  rcases list_shape regspec.toList with hs | ⟨c, hs⟩ | ⟨first, middle, last, hs⟩
  · unfold singleRead at h
    rw [hs] at h
    cases h
  · rw [singleRead_one hs] at h
    cases h
    refine singleRead_silent hmode ?_
    rintro ⟨first, middle, last, hlong, _⟩
    rw [hs] at hlong
    simp at hlong
  · have same {first' last' : Char} {middle' : List Char}
        (hs' : regspec.toList = first' :: (middle' ++ [last'])) : first' = first ∧ last' = last := by
      rw [hs] at hs'
      obtain ⟨hfirst, htail⟩ := List.cons.inj hs'
      exact ⟨hfirst.symm, (List.cons.inj (List.append_inj' htail rfl).2).1.symm⟩
    by_cases hr : last = 'r'
    · subst hr
      rw [singleRead_raw hs] at h
      cases h
      refine Settled.opening hslave fun device _ => ?_
      rw [hmode]
      by_cases hcount : 0 ≤ strtolInt regspec
      · exact ⟨_, .rawRead hs hcount, rawRead_follows device [] _ hcount⟩
      · exact ⟨_, .negativeCount hs (by omega), negativeCount_follows device [] _ (by omega)⟩
    · by_cases hspec : first ∈ ['1', '2', '4'] ∧ last ∈ ['l', 'b']
      · rw [singleRead_typed hs hspec.1 hspec.2] at h
        cases h
        refine Settled.opening hslave fun device _ => ?_
        rw [hmode]
        refine ⟨_, .typedRead hs hspec.1 hspec.2, typedRead_follows device [] _ _ ?_⟩
        rcases (regsizeOf_supported first).mp hspec.1 with hsize | hsize | hsize <;> rw [hsize] <;> rfl
      · have refused : ∃ what, singleRead bus (rtuParameters o) (strtolInt address) regspec =
            some (throw (.invalidArgument what)) := singleRead_refused hs hr hspec
        obtain ⟨what, hthrow⟩ := refused
        rw [hthrow] at h
        cases h
        refine singleRead_silent hmode ?_
        rintro ⟨first', middle', last', hs', hcovered⟩
        obtain ⟨rfl, rfl⟩ := same hs'
        exact hcovered.elim hr hspec

theorem singleWrite_settled {address value : String} {rest : List String}
    (hmode : o.mode = .singleWrite) (hslave : 0 ≤ o.slaveId) :
    Settled bus files o (address :: value :: rest)
      (guarded (singleWrite bus (rtuParameters o) (strtolInt address)
        (strtoimax (cString value)).1) []) := by
  unfold singleWrite
  by_cases hrange : (strtoimax (cString value)).1 < 0 ∨
      (strtoimax (cString value)).1 > numericMax .uint16
  · rw [if_pos hrange]
    refine Settled.refused (guarded_silent (e := .invalidArgument
      "invalid value: must be [0..65535]") rfl) ?_
    intro _ device plan _ hasked
    rw [hmode] at hasked
    cases hasked with
    | write hlow hhigh =>
      change _ ∨ _ > 65535 at hrange
      omega
  · rw [if_neg hrange]
    change ¬ (_ ∨ _ > 65535) at hrange
    refine Settled.opening hslave fun device _ => ?_
    rw [hmode]
    exact ⟨_, .write (by omega) (by omega), writeHoldingRegister_follows device [] _ _⟩

theorem fileTransfer_settled {address filename : String} {rest : List String}
    (hmode : o.mode = .fileTransfer) (hslave : 0 ≤ o.slaveId) :
    Settled bus files o (address :: filename :: rest)
      (guarded (fileTransfer bus files (rtuParameters o) (strtolInt address) filename) []) := by
  unfold fileTransfer
  cases hfile : registersFromFile files filename with
  | error e =>
    refine Settled.refused (guarded_silent (e := e) rfl) ?_
    intro _ device plan _ hasked
    rw [hmode] at hasked
    cases hasked with
    | transfer hcontent =>
      rw [hfile] at hcontent
      cases hcontent
  | ok content =>
    refine Settled.opening hslave fun device _ => ?_
    rw [hmode]
    refine ⟨_, .transfer hfile, ?_⟩
    rw [writeMultipleRegistersVector_eq]
    exact Follows.steps device [] (vectorSteps_checked _ _) (vectorSteps_unmet _ _)

theorem flashUpdate_settled {filename : String} {rest : List String}
    (hmode : o.mode = .flashUpdate) (hslave : 0 ≤ o.slaveId) :
    Settled bus files o (filename :: rest)
      (guarded (flashUpdate bus files (rtuParameters o) filename) []) := by
  cases hopen : openSlave bus (rtuParameters o) with
  | error e =>
    refine Settled.refused (guarded_silent (e := e) ?_) ?_
    · unfold flashUpdate
      rw [hopen]
      rfl
    · intro _ device plan hdevice
      rw [hopen] at hdevice
      cases hdevice
  | ok device =>
    have asked : ∃ plan, Asked files device .flashUpdate (filename :: rest) plan := by
      cases hfile : registersFromFile files (imageName device filename) with
      | error e => exact ⟨_, .noImage hfile⟩
      | ok image => exact ⟨_, .update hfile⟩
    obtain ⟨plan, hasked⟩ := asked
    exact .inl ⟨plan, ⟨hslave, device, hopen, hmode ▸ hasked⟩,
      guarded_earned (flashUpdate_follows hopen hasked) hasked.thrown_not_invalid⟩

theorem dispatch_settled (bus : Bus) (files : Files) {o : Options} (argv : List String)
    (honeShot : o.mode ∈ oneShot) : Settled bus files o argv (dispatch bus files o argv []) := by
  have usage (mode : String)
      (h : 0 ≤ o.slaveId → ∀ device plan, ¬ Asked files device o.mode argv plan) :
      Settled bus files o argv (missing mode, []) :=
    Settled.refused ⟨rfl, by rw [missing, usage_status]; decide⟩
      fun hslave device plan _ => h hslave device plan
  have negative (mode : String) (hslave : o.slaveId < 0) :
      Settled bus files o argv (missing mode, []) :=
    usage mode fun hvalid => absurd hslave (not_lt.mpr hvalid)
  unfold dispatch
  generalize hmode : o.mode = mode at usage honeShot
  cases mode with
  | singleRead =>
    rcases argv with _ | ⟨address, _ | ⟨regspec, rest⟩⟩
    · exact usage _ fun _ _ _ => nofun
    · exact usage _ fun _ _ _ => nofun
    · dsimp only
      split_ifs with hslave
      · exact negative _ hslave
      · cases hread : singleRead bus (rtuParameters o) (strtolInt address) regspec with
        | none =>
          refine Settled.refused ⟨rfl, nofun⟩ fun _ device plan _ hasked => ?_
          rw [hmode] at hasked
          obtain ⟨first, middle, last, hs, _⟩ := hasked.regspec
          rw [singleRead_long hs] at hread
          cases hread
        | some operation => exact singleRead_settled hmode (not_lt.mp hslave) hread
  | singleWrite =>
    rcases argv with _ | ⟨address, _ | ⟨value, rest⟩⟩
    · exact usage _ fun _ _ _ => nofun
    · exact usage _ fun _ _ _ => nofun
    · dsimp only
      split_ifs with hslave
      · exact negative _ hslave
      · exact singleWrite_settled hmode (not_lt.mp hslave)
  | fileTransfer =>
    rcases argv with _ | ⟨address, _ | ⟨filename, rest⟩⟩
    · exact usage _ fun _ _ _ => nofun
    · exact usage _ fun _ _ _ => nofun
    · dsimp only
      split_ifs with hslave
      · exact negative _ hslave
      · exact fileTransfer_settled hmode (not_lt.mp hslave)
  | flashUpdate =>
    rcases argv with _ | ⟨filename, rest⟩
    · exact usage _ fun _ _ _ => nofun
    · dsimp only
      split_ifs with hslave
      · exact negative _ hslave
      · exact flashUpdate_settled hmode (not_lt.mp hslave)
  | unknown | measScheduler => exact absurd honeShot (by decide)

end Dispatch

theorem Settled.status {bus : Bus} {files : Files} {o : Options} {argv : List String}
    {run : Ending × Log Request Reply} (h : Settled bus files o argv run) :
    run.1.status = some 0 ↔ ∃ plan, Requested bus files o argv plan ∧ Done plan run.2 := by
  rcases h with ⟨plan, hrequested, hearned⟩ | ⟨hnothing, hsilent⟩
  · rw [hearned.done]
    constructor
    · exact fun hdone => ⟨plan, hrequested, hdone⟩
    · rintro ⟨plan', hrequested', hdone⟩
      exact hrequested.unique hrequested' ▸ hdone
  · exact iff_of_false hsilent.2 fun ⟨plan, hrequested, _⟩ => hnothing plan hrequested

theorem stoiOption_stop {optarg : String} {stop : Stop} (h : stoiOption optarg = .error stop) :
    ∃ e, stop = .exception e := by
  unfold stoiOption at h
  split at h <;> cases h <;> exact ⟨_, rfl⟩

theorem parseOption_stop {o : Options} {ch : Char} {optarg : String} {stop : Stop}
    (h : parseOption o ch optarg = .error stop) :
    stop = .usage 0 "" ∨ stop = .usage (-1) "" ∨ ∃ e, stop = .exception e := by
  have number (set : ℤ → Options) (h : (stoiOption optarg).map set = .error stop) :
      ∃ e, stop = .exception e := by
    cases hn : stoiOption optarg with
    | ok n =>
      rw [hn] at h
      cases h
    | error first =>
      rw [hn] at h
      cases h
      exact stoiOption_stop hn
  unfold parseOption at h
  split at h
  -- what is left after the options that set something are the two usages
  all_goals first
    | cases h; done
    | exact .inr (.inr (number _ h))
    | skip
  · cases h
    exact .inr (.inl rfl)
  · cases h
    exact .inl rfl

theorem parseOptions_stop {args : List (Char × String)} {o : Options} {stop : Stop}
    (h : parseOptions o args = .error stop) :
    stop = .usage 0 "" ∨ stop = .usage (-1) "" ∨ ∃ e, stop = .exception e := by
  induction args generalizing o with
  | nil => cases h
  | cons arg rest ih =>
    obtain ⟨ch, optarg⟩ := arg
    cases hfirst : parseOption o ch optarg with
    | ok next =>
      rw [parseOptions, hfirst] at h
      exact ih h
    | error first =>
      rw [parseOptions, hfirst] at h
      cases h
      exact parseOption_stop hfirst

theorem stopped_status {args : List (Char × String)} {o : Options} {stop : Stop}
    (h : parseOptions o args = .error stop) :
    (stopped stop).status = some 0 ↔ stop = .usage 0 "" := by
  rcases parseOptions_stop h with rfl | rfl | ⟨e, rfl⟩
  · exact iff_of_true rfl rfl
  · exact iff_of_false (by decide) nofun
  · exact iff_of_false nofun nofun

/-- Every call in a one-shot mode does what its command line asks, up to the first request
    that is not acknowledged, or asks for nothing, and then nothing is sent. Its exit status
    is 0 exactly when there was something to do and all of it is done. A call that its
    options stop sends nothing, and succeeds only for the usage that was asked for. -/
theorem main_settled (bus : Bus) (files : Files) (args : List (Char × String)) (argv : List String) :
    match parseOptions {} args with
    | .ok o => o.mode ∈ oneShot → Settled bus files o argv (main bus files args argv) ∧
        ((main bus files args argv).1.status = some 0 ↔
          ∃ plan, Requested bus files o argv plan ∧ Done plan (main bus files args argv).2)
    | .error stop => (main bus files args argv).2 = [] ∧
        ((main bus files args argv).1.status = some 0 ↔ stop = .usage 0 "") := by
  unfold main
  cases hparse : parseOptions {} args with
  | error stop => exact ⟨rfl, stopped_status hparse⟩
  | ok o =>
    intro honeShot
    have settled := dispatch_settled bus files argv honeShot
    exact ⟨settled, settled.status⟩

theorem main_settled_read : Settled plainBus (sameFile []) { mode := .singleRead, slaveId := 1 }
    ["40", "2l"] (main plainBus (sameFile []) [('R', ""), ('s', "1")] ["40", "2l"]) ∧
      (main plainBus (sameFile []) [('R', ""), ('s', "1")] ["40", "2l"]).1.status = some 0 := by
  have regspec : "2l".toList = '2' :: ([] ++ ['l']) := rfl
  have asked : Requested plainBus (sameFile []) { mode := .singleRead, slaveId := 1 } ["40", "2l"]
      ⟨[.readRegisters 40 2], none⟩ :=
    ⟨by decide, _, rfl, .typedRead regspec (by decide) (by decide)⟩
  have settled := main_settled plainBus (sameFile []) [('R', ""), ('s', "1")] ["40", "2l"] (by decide)
  exact ⟨settled.1, settled.2.mpr ⟨_, asked, rfl, by decide, by decide⟩⟩

theorem guarded_one_shot {α : Type} (operation : Line α) (log : Log Request Reply) (o : Options) :
    (guarded operation log).1 ≠ .measureMode o := by
  unfold guarded
  split <;> exact nofun

theorem dispatch_measureMode (bus : Bus) (files : Files) (o o' : Options) (argv : List String) :
    (dispatch bus files o argv []).1 = .measureMode o' ↔
      (o.mode = .unknown ∨ o.mode = .measScheduler) ∧ o.measconfigFile ≠ "" ∧ o = o' := by
  unfold dispatch
  cases hmode : o.mode with
  | singleRead | singleWrite | fileTransfer | flashUpdate =>
    refine iff_of_false ?_ (by simp)
    dsimp only
    repeat' split
    all_goals first | exact guarded_one_shot _ _ _ | exact nofun
  | unknown | measScheduler =>
    dsimp only
    split_ifs with hfile
    · simp [hfile]
    · simp [hfile]

/-- The measure mode is the one of `measureMode`, and the line is untouched till then. -/
theorem main_measureMode (bus : Bus) (files : Files) (args : List (Char × String))
    (argv : List String) (o : Options) :
    (main bus files args argv).1 = .measureMode o ↔ measureMode args = .ok o := by
  unfold main measureMode
  cases parseOptions {} args with
  | error stop =>
    refine iff_of_false ?_ nofun
    cases stop <;> exact nofun
  | ok parsed =>
    rw [dispatch_measureMode]
    change _ ↔ (if _ then _ else if _ then _ else _) = _
    cases hmode : parsed.mode with
    | singleRead | singleWrite | fileTransfer | flashUpdate => simp
    | unknown | measScheduler =>
      by_cases hfile : parsed.measconfigFile = ""
      · simp [hfile]
      · simp [hfile]

end ModbusCrawler.OneShot
