import ModbusCrawler.RawDump
import ModbusCrawler.RegisterDecoding
import ModbusCrawler.TransferEffects

set_option autoImplicit false

/-!
# A device under a series of calls

One-shot reads, writes and file transfers, in any order, on a device that keeps
its registers. Requests may fail at any point. Together the calls are a store of
registers, and a file that was transferred can be read back.
-/
namespace ModbusCrawler.RegisterStore
open CNumerals BlockMemory FailStop ModbusTypes ModbusSlave ModbusOps FilePacking FileTransfer
open TransferEffects NumeralGrammar SingleRead RegisterDecoding
open RawDump (opened_run)

abbrev Registers := ℤ → UInt16

def words (registers : Registers) (address : ℤ) (nb : ℕ) : List UInt16 :=
  (List.range nb).map (fun i : ℕ => registers (address + i))

def Inside (address : ℤ) (nb : ℕ) : Prop := 0 ≤ address ∧ address + nb ≤ 2^16

/-- What was acknowledged went to the addresses that were named. -/
def Kept (log : Log Request Reply) : Prop := ∀ exchange ∈ log, Acknowledged exchange → OnWire exchange.1

/-- Whatever a device refuses, what it answers to a read is what was written last. -/
def Remembers (device : Device) (registers : Registers) : Prop :=
  ∀ log address nb, Kept log → Inside address nb →
    Acknowledged (.readRegisters address nb, device log (.readRegisters address nb)) →
    ∀ i < nb, reg (device log (.readRegisters address nb)).regs i =
      registersAfter registers log (address + i)

inductive Call where
  | read (address : ℤ) (regspec : String)
  | write (address value : ℤ)
  | transfer (address : ℤ) (filename : String)

/-- What the caller gets to see. -/
inductive Outcome where
  | printed (reading : Reading)
  | done
  | failed
  deriving DecidableEq

def outcome {α : Type} (succeeded : α → Outcome) (operation : Line α) (log : Log Request Reply) :
    Outcome × Log Request Reply :=
  match operation.run log with
  | .ok a log' => (succeeded a, log')
  | .error _ log' => (.failed, log')

section Calls
variable (bus : Bus) (files : Files) (rp : RtuParameters)

/-- One call of the program; `none` is the failing assertion of `single_read`. -/
def Call.run : Call → Log Request Reply → Option (Outcome × Log Request Reply)
  | .read address regspec, log =>
    (singleRead bus rp address regspec).map (fun operation => outcome .printed operation log)
  | .write address value, log =>
    some (outcome (fun _ => .done) (singleWrite bus rp address value) log)
  | .transfer address filename, log =>
    some (outcome (fun _ => .done) (fileTransfer bus files rp address filename) log)

/-- One call after the other, whatever became of those before. -/
def session : List Call → Log Request Reply → Option (List Outcome × Log Request Reply)
  | [], log => some ([], log)
  | call :: calls, log => do
    let (outcome, log) ← call.run bus files rp log
    let (outcomes, log) ← session calls log
    some (outcome :: outcomes, log)

end Calls

/-- The registers that a specification reads. -/
def size : RegSpec → ℕ
  | .typed regsize _ => regsize.toNat
  | .raw count => count

/-- A call with a proper specification, within the registers that there are. -/
def Call.Fits (files : Files) : Call → Prop
  | .read address regspec => WellBehaved regspec ∧
    ∀ spec, Denotes regspec.toList spec → Inside address (size spec)
  | .write address _ => Inside address 1
  | .transfer address filename => ∀ bytes, files filename = some bytes →
    Inside address ((padded bytes).length / 2)

/-- The words as a typed read takes them, the low one first. -/
def lowFirst : WordEndianess → List UInt16 → List UInt16
  | .little, ws => ws
  | _, ws => ws.reverse

def Refused (sent : Log Request Reply) : Prop := ∃ exchange ∈ sent, ¬ Acknowledged exchange

/-- The registers as a store: what a call that sent `sent` comes to, and what it leaves in them.
    It fails for a request that was refused, or for what it was given. A transfer that fails
    has stored some of its chunks. -/
inductive Serves (files : Files) (registers : Registers) :
    Call → Log Request Reply → Outcome → Registers → Prop where
  | typed {address : ℤ} {regspec : String} {regsize : ℕ} {endianess : WordEndianess} {val : Int64}
      {sent : Log Request Reply} :
      Denotes regspec.toList (.typed regsize endianess) → ¬ Refused sent →
      TwosComplement (lowFirst endianess (words registers address regsize)) val.toInt →
      Serves files registers (.read address regspec) sent (.printed (.single address val)) registers
  | raw {address : ℤ} {regspec : String} {count : ℕ} {lines : List (ℤ × UInt16)}
      {sent : Log Request Reply} :
      Denotes regspec.toList (.raw count) → ¬ Refused sent →
      lines.map Prod.snd = words registers address count →
      Serves files registers (.read address regspec) sent (.printed (.raw lines)) registers
  | unread {address : ℤ} {regspec : String} {sent : Log Request Reply} :
      Refused sent ∨ (∀ spec, ¬ Denotes regspec.toList spec) →
      Serves files registers (.read address regspec) sent .failed registers
  | written {address value : ℤ} {sent : Log Request Reply} :
      0 ≤ value → value ≤ 65535 → ¬ Refused sent →
      Serves files registers (.write address value) sent .done
        (storeAt registers address [UInt16.ofInt value])
  | unwritten {address value : ℤ} {sent : Log Request Reply} :
      Refused sent ∨ value < 0 ∨ 65535 < value →
      Serves files registers (.write address value) sent .failed registers
  | transferred {address : ℤ} {filename : String} {bytes : List UInt8} {content : List UInt16}
      {sent : Log Request Reply} :
      files filename = some bytes → expand content = padded bytes → ¬ Refused sent →
      Serves files registers (.transfer address filename) sent .done
        (storeAt registers address content)
  | interrupted {address : ℤ} {filename : String} {bytes : List UInt8} {content : List UInt16}
      {chunks : ℕ} {sent : Log Request Reply} :
      files filename = some bytes → expand content = padded bytes → Refused sent →
      Serves files registers (.transfer address filename) sent .failed
        (storeAt registers address (content.take (modbusMaxWriteRegisters * chunks)))
  | noFile {address : ℤ} {filename : String} {sent : Log Request Reply} : files filename = none →
      Serves files registers (.transfer address filename) sent .failed registers

inductive Series (files : Files) :
    Registers → List Call → Log Request Reply → List Outcome → Registers → Prop where
  | nil {registers : Registers} : Series files registers [] [] [] registers
  | cons {registers registers' registers'' : Registers} {call : Call} {calls : List Call}
      {sent later : Log Request Reply} {outcome : Outcome} {outcomes : List Outcome} :
      Serves files registers call sent outcome registers' →
      Series files registers' calls later outcomes registers'' →
      Series files registers (call :: calls) (sent ++ later) (outcome :: outcomes) registers''

/-- A run of a call that the store allows too. -/
structure Simulated (files : Files) (registers : Registers) (call : Call) (log : Log Request Reply)
    (run : Outcome × Log Request Reply) : Prop where
  kept : Kept run.2
  serves : ∃ sent, run.2 = log ++ sent ∧
    Serves files (registersAfter registers log) call sent run.1 (registersAfter registers run.2)

section Steps
variable {bus : Bus} {files : Files} {rp : RtuParameters} {device : Device} {registers : Registers}
  {log : Log Request Reply}

theorem registersAfter_read (exchange : Request × Reply) {address nb : ℤ}
    (h : exchange.1 = .readRegisters address nb) : registersAfter registers [exchange] = registers := by
  change (if Acknowledged exchange then applyAt registers exchange.1 else registers) = registers
  rw [h]
  exact ite_self registers

theorem Kept.append {sent : Log Request Reply} (hlog : Kept log) (hsent : Kept sent) :
    Kept (log ++ sent) := by
  intro exchange hmem
  exact (List.mem_append.mp hmem).elim (hlog exchange) (hsent exchange)

theorem Kept.concat {exchange : Request × Reply} (hlog : Kept log)
    (h : Acknowledged exchange → OnWire exchange.1) : Kept (log ++ [exchange]) :=
  hlog.append fun _ hmem => List.mem_singleton.mp hmem ▸ h

theorem kept_nil : Kept [] := fun _ h => absurd h List.not_mem_nil

theorem refused_singleton {exchange : Request × Reply} :
    Refused [exchange] ↔ ¬ Acknowledged exchange := by simp [Refused]

theorem not_refused {sent : Log Request Reply} (h : ∀ exchange ∈ sent, Acknowledged exchange) :
    ¬ Refused sent := fun ⟨exchange, hmem, hfailed⟩ => hfailed (h exchange hmem)

/-- A call that sends nothing and fails. -/
theorem Simulated.silent {call : Call} (hlog : Kept log)
    (h : ∀ registers, Serves files registers call [] .failed registers) :
    Simulated files registers call log (.failed, log) :=
  ⟨hlog, [], (List.append_nil log).symm, h _⟩

/-- A call that sends one read. -/
theorem Simulated.asked {call : Call} {result : Outcome} {address nb : ℤ} {reply : Reply}
    (hlog : Kept log)
    (h : Serves files (registersAfter registers log) call [(.readRegisters address nb, reply)] result
      (registersAfter registers log)) :
    Simulated files registers call log (result, log ++ [(.readRegisters address nb, reply)]) := by
  refine ⟨hlog.concat fun _ => trivial, _, rfl, ?_⟩
  dsimp only
  rw [registersAfter_append, registersAfter_read _ rfl]
  exact h

/-- A decoding looks at the registers that it was asked for. -/
theorem toVal_congr {regsize : ℕ} (hsize : regsize = 1 ∨ regsize = 2 ∨ regsize = 4)
    (endianess : WordEndianess) {regs regs' : List UInt16}
    (h : ∀ i < regsize, reg regs i = reg regs' i) :
    toVal endianess regs regsize = toVal endianess regs' regsize := by
  unfold toVal toValLe toValBe
  rcases hsize with rfl | rfl | rfl
  · simp [h 0]
  · simp [h 0, h 1]
  · simp [h 0, h 1, h 2, h 3]

theorem words_length (address : ℤ) (nb : ℕ) : (words registers address nb).length = nb := by
  simp [words]

theorem reg_words (address : ℤ) {nb i : ℕ} (hi : i < nb) :
    reg (words registers address nb) i = registers (address + i) := by
  simp [reg, words, hi]

theorem toVal_words {regsize : ℕ} (hsize : regsize = 1 ∨ regsize = 2 ∨ regsize = 4)
    (endianess : WordEndianess) {ws : List UInt16} (hlength : ws.length = regsize) :
    ∃ val, toVal endianess ws regsize = some val ∧ TwosComplement (lowFirst endianess ws) val.toInt := by
  have little {regs : List UInt16} (h : regs.length = regsize) :
      ∃ val, toValLe regs regsize = some val ∧ TwosComplement regs val.toInt := by
    obtain ⟨val, hval, value⟩ := Classification.toValLe_words hsize h
    subst h
    exact ⟨val, hval, toInt_twosComplement value⟩
  unfold toVal
  cases endianess with
  | little => exact little hlength
  | big | invalid =>
    rw [if_neg (by decide), Classification.toValBe_reverse hsize hlength]
    exact little (List.length_reverse.trans hlength)

theorem typedRead_simulated (hdevice : Remembers device registers)
    (hlog : Kept log) {address : ℤ} {regspec : String} {regsize : ℕ}
    {endianess : WordEndianess} (hspec : Denotes regspec.toList (.typed regsize endianess))
    (hsize : regsize = 1 ∨ regsize = 2 ∨ regsize = 4) (hinside : Inside address regsize) :
    Simulated files registers (.read address regspec) log
      (outcome .printed (typedRead device address regsize endianess) log) := by
  have supported : regsizeSupported regsize = true := by
    rcases hsize with rfl | rfl | rfl <;> rfl
  unfold outcome typedRead RTUSlave.readHoldingRegisters
  rw [EStateM.run_bind, readTyped_run _ _ _ _ _ _ _ supported]
  dsimp only
  by_cases hack : (device log (.readRegisters address regsize)).apiRv.toInt = regsize
  · have recalled : ∀ i < regsize, reg (device log (.readRegisters address regsize)).regs i =
        reg (words (registersAfter registers log) address regsize) i := by
      intro i hi
      rw [hdevice log address regsize hlog hinside hack i hi, reg_words address hi]
    have length : (words (registersAfter registers log) address regsize).length = regsize :=
      words_length address regsize
    obtain ⟨val, hval, value⟩ := toVal_words hsize endianess length
    rw [if_pos hack, toVal_congr hsize endianess recalled, hval]
    exact Simulated.asked hlog (.typed hspec (mt refused_singleton.mp (not_not.mpr hack)) value)
  · rw [if_neg hack]
    exact Simulated.asked hlog (.unread (.inl (refused_singleton.mpr hack)))

theorem rawRead_simulated (hdevice : Remembers device registers)
    (hlog : Kept log) {address : ℤ} {regspec : String} {count : ℕ}
    (hspec : Denotes regspec.toList (.raw count)) (hinside : Inside address count) :
    Simulated files registers (.read address regspec) log
      (outcome .printed (rawRead device address count) log) := by
  have positive : ¬ (count : ℤ) < 0 := by omega
  unfold outcome rawRead RTUSlave.readHoldingRegistersVector
  simp only [if_neg positive, EStateM.run_bind, ask_run]
  by_cases hack : (device log (.readRegisters address count)).apiRv.toInt = count
  · rw [if_neg (not_not.mpr hack)]
    refine Simulated.asked hlog (.raw hspec (mt refused_singleton.mp (not_not.mpr hack)) ?_)
    have recalled := hdevice log address count hlog hinside hack
    unfold rawLines words
    apply List.ext_getElem
    · simp
    · intro i hi _
      have below : i < count := by simpa using hi
      simp [recalled i below]
  · rw [if_pos hack]
    exact Simulated.asked hlog (.unread (.inl (refused_singleton.mpr hack)))

theorem read_simulated (hopen : openSlave bus rp = .ok device) (hdevice : Remembers device registers)
    (hlog : Kept log) {address : ℤ} {regspec : String}
    (hfits : Call.Fits files (.read address regspec)) : ∃ run,
      Call.run bus files rp (.read address regspec) log = some run ∧
        Simulated files registers (.read address regspec) log run := by
  obtain ⟨hspecs, hinside⟩ := hfits
  by_cases hdenotes : ∃ spec, Denotes regspec.toList spec
  · obtain ⟨spec, hspec⟩ := hdenotes
    have inside := hinside spec hspec
    refine ⟨_, congrArg (Option.map _) (hspecs.reads hspec bus rp address), ?_⟩
    rw [opened_run hopen]
    cases spec with
    | raw count => exact rawRead_simulated hdevice hlog hspec inside
    | typed regsize endianess =>
      have sizes : ∃ n : ℕ, regsize = n ∧ (n = 1 ∨ n = 2 ∨ n = 4) := by
        rcases hspec.shape with ⟨c, e, _, _, _, hfields, hc, _⟩ | ⟨_, _, _, hraw, _⟩
        · cases hfields
          simp only [List.mem_cons, Prod.mk.injEq, List.not_mem_nil, or_false] at hc
          rcases hc with ⟨_, rfl⟩ | ⟨_, rfl⟩ | ⟨_, rfl⟩
          · exact ⟨1, rfl, .inl rfl⟩
          · exact ⟨2, rfl, .inr (.inl rfl)⟩
          · exact ⟨4, rfl, .inr (.inr rfl)⟩
        · cases hraw
      obtain ⟨n, rfl, hsize⟩ := sizes
      exact typedRead_simulated hdevice hlog hspec hsize inside
  · obtain ⟨what, hthrow⟩ := hspecs.refuses (not_exists.mp hdenotes) bus rp address
    exact ⟨_, congrArg (Option.map _) hthrow, Simulated.silent hlog fun _ => .unread (.inr (not_exists.mp hdenotes))⟩

theorem outcome_ok {α : Type} {succeeded : α → Outcome} {operation : Line α} {a : α}
    {log' : Log Request Reply} (h : operation.run log = .ok a log') :
    outcome succeeded operation log = (succeeded a, log') := by rw [outcome, h]

theorem outcome_error {α : Type} {succeeded : α → Outcome} {operation : Line α} {e : Exception}
    {log' : Log Request Reply} (h : operation.run log = .error e log') :
    outcome succeeded operation log = (.failed, log') := by rw [outcome, h]

theorem singleWrite_run (hopen : openSlave bus rp = .ok device) (address : ℤ) {value : ℤ}
    (hlow : 0 ≤ value) (hhigh : value ≤ 65535) (log : Log Request Reply) :
    (singleWrite bus rp address value).run log =
      ((holdingStep address (UInt16.ofInt value)).run device).run log := by
  have range : ¬ (value < 0 ∨ value > numericMax .uint16) := by
    change ¬ (_ ∨ value > 65535)
    omega
  unfold singleWrite
  rw [if_neg range, hopen, ← writeHoldingRegister_eq]
  rfl

theorem write_simulated (hopen : openSlave bus rp = .ok device)
    (hlog : Kept log) {address value : ℤ} (hinside : Inside address 1) :
    Simulated files registers (.write address value) log
      (outcome (fun _ => .done) (singleWrite bus rp address value) log) := by
  by_cases hrange : 0 ≤ value ∧ value ≤ 65535
  · obtain ⟨hlow, hhigh⟩ := hrange
    have run := singleWrite_run hopen address hlow hhigh log
    rw [step_run] at run
    generalize hstep : holdingStep address (UInt16.ofInt value) = step at run
    have request : step.request = .writeRegister address (UInt16.ofInt value) := by rw [← hstep]; rfl
    have checked := hstep ▸ holdingStep_checked address (UInt16.ofInt value)
    have onWire : OnWire step.request := by
      rw [request]
      exact ⟨hinside.1, by have := hinside.2; omega⟩
    have kept : Kept (log ++ [(step.request, device log step.request)]) :=
      hlog.concat fun _ => onWire
    by_cases haccepts : step.accepts (device log step.request) = true
    · rw [if_pos haccepts] at run
      rw [outcome_ok run]
      refine ⟨kept, _, rfl, ?_⟩
      have written : registersAfter (registersAfter registers log)
          [(step.request, device log step.request)] =
            storeAt (registersAfter registers log) address [UInt16.ofInt value] := by
        refine (if_pos ((checked _).mp haccepts)).trans ?_
        rw [request]
        rfl
      dsimp only
      rw [registersAfter_append, written]
      exact .written hlow hhigh (mt refused_singleton.mp (not_not.mpr ((checked _).mp haccepts)))
    · rw [if_neg haccepts] at run
      rw [outcome_error run]
      have failed := mt (checked _).mpr haccepts
      refine ⟨kept, _, rfl, ?_⟩
      dsimp only
      rw [registersAfter_append, registersAfter_failed _ failed]
      exact .unwritten (.inl (refused_singleton.mpr failed))
  · have refused : (singleWrite bus rp address value).run log =
        .error (.invalidArgument "invalid value: must be [0..65535]") log := by
      have range : value < 0 ∨ value > numericMax .uint16 := by
        change _ ∨ value > 65535
        omega
      unfold singleWrite
      rw [if_pos range]
      rfl
    rw [outcome_error refused]
    exact Simulated.silent hlog fun _ => .unwritten (.inr (by omega))

/-- A transfer that is cut short has stored the chunks before the request that failed. -/
theorem transfer_simulated (hopen : openSlave bus rp = .ok device)
    (hlog : Kept log) {address : ℤ} {filename : String}
    (hfits : Call.Fits files (.transfer address filename)) :
    Simulated files registers (.transfer address filename) log
      (outcome (fun _ => .done) (fileTransfer bus files rp address filename) log) := by
  cases hfile : files filename with
  | none =>
    have refused : (fileTransfer bus files rp address filename).run log =
        .error (.runtimeError ("invalid filename " ++ filename)) log := by
      unfold fileTransfer registersFromFile
      rw [hfile]
      rfl
    rw [outcome_error refused]
    exact Simulated.silent hlog fun _ => .noFile hfile
  | some bytes =>
    obtain ⟨content, hread, hexpand, _⟩ := registersFromFile_ok hfile
    obtain ⟨hlow, hhigh⟩ := hfits bytes hfile
    have half : (padded bytes).length / 2 = content.length := by
      rw [← hexpand, expand_length]
      omega
    rw [half] at hhigh
    have run := fileTransfer_run hread hopen address log
    have onWire := vectorSteps_onWire address content hlow hhigh
    rcases vector_cases device address content log with
      ⟨sent, hsent, hvector⟩ | ⟨k, sent, exchange, e, hk, hsent, hfailed, hvector⟩
    · rw [hvector] at run
      rw [outcome_ok run]
      refine ⟨hlog.append fun exchange hmem _ => answered_forall hsent onWire exchange hmem,
        sent, rfl, ?_⟩
      dsimp only
      rw [registersAfter_append, vectorSteps_registers address content _ sent hsent]
      exact .transferred hfile hexpand (not_refused (vectorSteps_acknowledged hsent))
    · rw [hvector] at run
      rw [outcome_error run]
      have fits : modbusMaxWriteRegisters * k ≤ content.length :=
        Nat.le_trans (Nat.mul_le_mul_left _ hk) (fullChunks_le content)
      have chunks := answered_forall hsent (chunkSteps_onWire k 0 address content hlow (by omega))
      have keptChunks : Kept sent := fun exchange hmem _ => chunks exchange hmem
      refine ⟨hlog.append (keptChunks.concat fun hack => absurd hack hfailed), _, rfl, ?_⟩
      dsimp only
      rw [registersAfter_append, registersAfter_append, registersAfter_failed _ hfailed,
        chunkSteps_registers k 0 address content _ sent hsent fits]
      exact .interrupted hfile hexpand ⟨exchange, by simp, hfailed⟩

theorem call_simulated (hopen : openSlave bus rp = .ok device) (hdevice : Remembers device registers)
    (hlog : Kept log) {call : Call} (hfits : call.Fits files) : ∃ run,
      call.run bus files rp log = some run ∧ Simulated files registers call log run := by
  cases call with
  | read address regspec => exact read_simulated hopen hdevice hlog hfits
  | write address value => exact ⟨_, rfl, write_simulated hopen hlog hfits⟩
  | transfer address filename => exact ⟨_, rfl, transfer_simulated hopen hlog hfits⟩

theorem session_cons {call : Call} {calls : List Call} {result : Outcome} {outcomes : List Outcome}
    {log1 log2 : Log Request Reply} (hcall : call.run bus files rp log = some (result, log1))
    (hcalls : session bus files rp calls log1 = some (outcomes, log2)) :
    session bus files rp (call :: calls) log = some (result :: outcomes, log2) := by
  rw [session, hcall]
  change (session bus files rp calls log1).bind _ = _
  rw [hcalls]
  rfl

/-- Every series of calls is one of the store, whichever requests are refused. -/
theorem session_serves (hopen : openSlave bus rp = .ok device) (hdevice : Remembers device registers)
    (hlog : Kept log) {calls : List Call} (hfits : ∀ call ∈ calls, call.Fits files) :
    ∃ outcomes sent, session bus files rp calls log = some (outcomes, log ++ sent) ∧
      Series files (registersAfter registers log) calls sent outcomes
        (registersAfter registers (log ++ sent)) := by
  induction calls generalizing log with
  | nil =>
    refine ⟨[], [], by rw [List.append_nil]; rfl, ?_⟩
    rw [List.append_nil]
    exact .nil
  | cons call calls ih =>
    obtain ⟨⟨result, log1⟩, hrun, hkept, sent, rfl, hserves⟩ :=
      call_simulated hopen hdevice hlog (hfits call (by simp))
    obtain ⟨outcomes, later, hsession, hseries⟩ := ih hkept (fun c hc => hfits c (by simp [hc]))
    refine ⟨result :: outcomes, sent ++ later, ?_, ?_⟩
    · rw [← List.append_assoc]
      exact session_cons hrun hsession
    · rw [← List.append_assoc]
      exact .cons hserves hseries

end Steps

/-! What the store says about a file that was transferred. -/

/-- The registers that a call may change. -/
def Call.Stores (files : Files) : Call → ℤ → Prop
  | .read _ _, _ => False
  | .write address _, a => a = address
  | .transfer address filename, a => ∃ bytes, files filename = some bytes ∧
    address ≤ a ∧ a < address + ((padded bytes).length / 2 : ℕ)

section Store
variable {files : Files} {registers registers' : Registers}

theorem expand_half {content : List UInt16} {bytes : List UInt8} (h : expand content = padded bytes) :
    (padded bytes).length / 2 = content.length := by
  rw [← h, expand_length]
  omega

theorem Serves.frame {call : Call} {sent : Log Request Reply} {result : Outcome}
    (h : Serves files registers call sent result registers') {a : ℤ} (ha : ¬ call.Stores files a) : registers' a = registers a := by
  have outside {address : ℤ} {filename : String} {bytes : List UInt8} {content : List UInt16}
      (hfile : files filename = some bytes) (hexpand : expand content = padded bytes)
      (hstores : ¬ (Call.transfer address filename).Stores files a) :
      a < address ∨ address + content.length ≤ a := by
    by_contra hinside
    refine hstores ⟨bytes, hfile, ?_⟩
    rw [expand_half hexpand]
    omega
  cases h with
  | written =>
    refine storeAt_outside _ _ ?_
    change ¬ a = _ at ha
    simp only [List.length_singleton]
    omega
  | transferred hfile hexpand => exact storeAt_outside _ _ (outside hfile hexpand ha)
  | interrupted hfile hexpand =>
    refine storeAt_outside _ _ ?_
    have := outside hfile hexpand ha
    rw [List.length_take]
    omega
  | _ => rfl

theorem Series.length {calls : List Call} {sent : Log Request Reply} {outcomes : List Outcome}
    (h : Series files registers calls sent outcomes registers') : outcomes.length = calls.length := by
  induction h with
  | nil => rfl
  | cons _ _ ih => rw [List.length_cons, List.length_cons, ih]

theorem Series.frame {calls : List Call} {sent : Log Request Reply} {outcomes : List Outcome}
    (h : Series files registers calls sent outcomes registers') {a : ℤ}
    (ha : ∀ call ∈ calls, ¬ call.Stores files a) : registers' a = registers a := by
  induction h with
  | nil => rfl
  | cons hserves _ ih =>
    rw [ih fun call hmem => ha call (by simp [hmem]), hserves.frame (ha _ (by simp))]

theorem Series.split {first second : List Call} {sent : Log Request Reply} {outcomes : List Outcome}
    (h : Series files registers (first ++ second) sent outcomes registers') :
    ∃ left right between early late, outcomes = left ++ right ∧
      Series files registers first early left between ∧
        Series files between second late right registers' := by
  induction first generalizing registers sent outcomes with
  | nil => exact ⟨[], outcomes, registers, [], sent, rfl, .nil, h⟩
  | cons call first ih =>
    cases h with
    | cons hserves hrest =>
      obtain ⟨left, right, between, _, late, rfl, hleft, hright⟩ := ih hrest
      exact ⟨_ :: left, right, between, _, late, rfl, .cons hserves hleft, hright⟩

theorem words_storeAt {address address' : ℤ} {content : List UInt16} {count : ℕ}
    (hlow : address ≤ address') (hhigh : address' + count ≤ address + content.length) :
    words (storeAt registers address content) address' count =
      (content.drop (address' - address).toNat).take count := by
  apply List.ext_getElem
  · rw [words_length, List.length_take, List.length_drop]
    omega
  · intro i hi _
    rw [words_length] at hi
    have place : address' + (i : ℤ) = address + (((address' - address).toNat + i : ℕ) : ℤ) := by omega
    simp only [words, List.getElem_map, List.getElem_range, List.getElem_take, List.getElem_drop]
    rw [place, storeAt_inside _ _ _ _ (by omega)]

theorem expand_drop (content : List UInt16) (n : ℕ) :
    expand (content.drop n) = (expand content).drop (2 * n) := by
  have whole : expand content = expand (content.take n) ++ expand (content.drop n) := by
    rw [← expand_append, List.take_append_drop]
  rcases Nat.le_total n content.length with hle | hle
  · have taken : (expand (content.take n)).length = 2 * n := by
      rw [expand_length, List.length_take_of_le hle]
    rw [whole, ← taken, List.drop_left]
  · rw [List.drop_eq_nil_of_le hle, List.drop_eq_nil_of_le (by rw [expand_length]; omega)]
    rfl

theorem words_congr {address : ℤ} {nb : ℕ}
    (h : ∀ a, address ≤ a → a < address + nb → registers' a = registers a) :
    words registers' address nb = words registers address nb := by
  refine List.map_congr_left fun i hi => ?_
  have below : i < nb := List.mem_range.mp hi
  exact h _ (by omega) (by omega)

theorem rawCount_unique {s : List Char} {m n : ℕ} (hm : Denotes s (.raw m)) (hn : Denotes s (.raw n)) :
    m = n := by
  rcases hm.shape with ⟨_, _, _, _, _, htyped, _⟩ | ⟨lit, _, rfl, hraw, hlit, _⟩
  · cases htyped
  · cases hraw
    obtain ⟨_, hcount, hlit', _⟩ := hn.raw_inv
    cases hcount
    exact literal_unique hlit hlit'

theorem Serves.transfer_done {address : ℤ} {filename : String} {bytes : List UInt8}
    {sent : Log Request Reply} (h : Serves files registers (.transfer address filename) sent .done registers')
    (hfile : files filename = some bytes) : ∃ content, expand content = padded bytes ∧
      registers' = storeAt registers address content := by
  cases h with
  | transferred hfile' hexpand =>
    rw [hfile] at hfile'
    cases hfile'
    exact ⟨_, hexpand, rfl⟩

theorem Serves.raw_printed {address : ℤ} {regspec : String} {count : ℕ} {lines : List (ℤ × UInt16)}
    {sent : Log Request Reply}
    (h : Serves files registers (.read address regspec) sent (.printed (.raw lines)) registers')
    (hspec : Denotes regspec.toList (.raw count)) :
    lines.map Prod.snd = words registers address count := by
  cases h with
  | raw hspec' _ hlines => exact rawCount_unique hspec hspec' ▸ hlines

/-- What a series leaves before one of its calls. -/
theorem Series.atCall {first second : List Call} {call : Call} {sent : Log Request Reply}
    {outcomes : List Outcome} {result : Outcome}
    (h : Series files registers (first ++ call :: second) sent outcomes registers')
    (hresult : outcomes[first.length]? = some result) : ∃ between after left right early now late,
      outcomes = left ++ result :: right ∧ Series files registers first early left between ∧
        Serves files between call now result after ∧
          Series files after second late right registers' := by
  obtain ⟨left, right, between, early, _, rfl, hfirst, hrest⟩ := h.split
  cases hrest with
  | @cons _ after _ _ _ now late head tail hserves hseries =>
    rw [← hfirst.length, List.getElem?_append_right le_rfl, Nat.sub_self] at hresult
    obtain rfl : head = result := Option.some.inj hresult
    exact ⟨between, after, left, tail, early, now, late, rfl, hfirst, hserves, hseries⟩

/-- A raw read of registers that were left alone since a transfer prints its file. -/
theorem Series.reads_back {address address' : ℤ} {filename regspec : String} {count : ℕ}
    {bytes : List UInt8} {between after : List Call} {outcomes : List Outcome}
    {lines : List (ℤ × UInt16)} {stored : Registers} {sent later : Log Request Reply}
    (htransfer : Serves files registers (.transfer address filename) sent .done stored)
    (h : Series files stored (between ++ .read address' regspec :: after) later outcomes registers')
    (hfile : files filename = some bytes) (hspec : Denotes regspec.toList (.raw count))
    (hlow : address ≤ address')
    (hhigh : address' + count ≤ address + ((padded bytes).length / 2 : ℕ))
    (hkept : ∀ call ∈ between, ∀ a, address' ≤ a → a < address' + count → ¬ call.Stores files a)
    (hprinted : outcomes[between.length]? = some (.printed (.raw lines))) :
    expand (lines.map Prod.snd) =
      ((padded bytes).drop (2 * (address' - address).toNat)).take (2 * count) := by
  obtain ⟨content, hexpand, rfl⟩ := htransfer.transfer_done hfile
  obtain ⟨before, _, _, _, _, _, _, _, hbetween, hread, _⟩ := h.atCall hprinted
  rw [expand_half hexpand] at hhigh
  have untouched : words before address' count = words (storeAt registers address content) address' count :=
    words_congr fun a hlo hhi => hbetween.frame fun call hcall => hkept call hcall a hlo hhi
  rw [hread.raw_printed hspec, untouched, words_storeAt hlow hhigh, ← FlashDevice.expand_take,
    expand_drop, hexpand]

end Store

/-- A file that a transfer reported as done comes back from any raw read of its registers, with
    any calls in between that leave these alone, and whatever failed. -/
theorem transfer_reads_back {bus : Bus} {files : Files} {rp : RtuParameters} {device : Device}
    {registers : Registers} {log log' : Log Request Reply} {before between after : List Call}
    {address address' : ℤ} {filename regspec : String} {count : ℕ} {bytes : List UInt8}
    {outcomes : List Outcome} {lines : List (ℤ × UInt16)}
    (hopen : openSlave bus rp = .ok device) (hdevice : Remembers device registers) (hlog : Kept log)
    (hfits : ∀ call ∈ before ++ .transfer address filename :: (between ++ .read address' regspec :: after),
      call.Fits files)
    (hrun : session bus files rp
      (before ++ .transfer address filename :: (between ++ .read address' regspec :: after)) log =
        some (outcomes, log'))
    (hdone : outcomes[before.length]? = some .done)
    (hprinted : outcomes[before.length + 1 + between.length]? = some (.printed (.raw lines)))
    (hfile : files filename = some bytes) (hspec : Denotes regspec.toList (.raw count))
    (hlow : address ≤ address')
    (hhigh : address' + count ≤ address + ((padded bytes).length / 2 : ℕ))
    (hkept : ∀ call ∈ between, ∀ a, address' ≤ a → a < address' + count → ¬ call.Stores files a) :
    expand (lines.map Prod.snd) =
      ((padded bytes).drop (2 * (address' - address).toNat)).take (2 * count) := by
  obtain ⟨_, _, hsession, hseries⟩ := session_serves hopen hdevice hlog hfits
  rw [hrun] at hsession
  cases hsession
  obtain ⟨_, stored, left, right, _, _, _, rfl, hbefore, htransfer, hrest⟩ := hseries.atCall hdone
  have place : (left ++ .done :: right)[before.length + 1 + between.length]? = right[between.length]? := by
    have index : before.length + 1 + between.length = left.length + (between.length + 1) := by
      rw [hbefore.length]
      omega
    rw [index, List.getElem?_append_right (Nat.le_add_right _ _), Nat.add_sub_cancel_left,
      List.getElem?_cons_succ]
  rw [place] at hprinted
  exact Series.reads_back htransfer hrest hfile hspec hlow hhigh hkept hprinted

/-- A device that keeps all its registers and refuses empty writes. -/
def storeDevice (registers : Registers) : Device := fun log request =>
  match request with
  | .readInputRegisters _ _ => ⟨-1, [], "Illegal function"⟩
  | .readRegisters address nb =>
    ⟨Int32.ofInt nb, words (registersAfter registers log) address nb.toNat, ""⟩
  | .writeRegister _ _ => ⟨1, [], ""⟩
  | .writeRegisters _ nb _ => ⟨if 1 ≤ nb then Int32.ofInt nb else -1, [], ""⟩

theorem storeDevice_remembers (registers : Registers) : Remembers (storeDevice registers) registers := by
  intro log address nb _ _ _ i hi
  exact reg_words address hi

def storeBus : Bus where
  newRtu _ := true
  connectFailure _ _ := none
  device _ _ _ := storeDevice (fun _ => 0)

def imageFile : Files := fun _ => some [1, 2, 3, 4]

theorem imageFile_registers : ∃ crc, registersFromFile imageFile "image.bin" =
    .ok ([0x0102, 0x0304], crc) := by
  have aligned (crc : UInt32) : alignLoop [0x0102, 0x0304] crc = ([0x0102, 0x0304], crc) := by
    rw [alignLoop, if_neg (by decide)]
  exact ⟨_, congrArg Except.ok (aligned (packLoop [1, 2, 3, 4] [] 0).2)⟩

/-- Two registers are stored, a third one next to them, and one of the two is read. -/
def imageCalls : List Call := [.transfer 100 "image.bin", .write 102 9, .read 101 "1r"]

theorem storeBus_open : openSlave storeBus FlashRuns.plainRtu = .ok (storeDevice fun _ => 0) := rfl

theorem image_session : ∃ log', session storeBus imageFile FlashRuns.plainRtu imageCalls [] =
    some ([.done, .done, .printed (.raw [(101, 0x0304)])], log') := by
  obtain ⟨crc, hread⟩ := imageFile_registers
  have transferred : Call.run storeBus imageFile FlashRuns.plainRtu (.transfer 100 "image.bin") [] =
      some (.done, [(.writeRegisters 100 2 [0x0102, 0x0304], ⟨2, [], ""⟩)]) := by
    refine congrArg some (outcome_ok (a := ()) ?_)
    have single : vectorSteps 100 [0x0102, 0x0304] = [remainingStep 100 [0x0102, 0x0304] 2] := rfl
    rw [fileTransfer_run hread storeBus_open, writeMultipleRegistersVector_eq, single,
      runAll_singleton, step_run, if_pos (by decide)]
    rfl
  exact ⟨_, session_cons transferred (session_cons rfl (session_cons rfl rfl))⟩

theorem image_fits : ∀ call ∈ imageCalls, call.Fits imageFile := by
  have one : Literal ['1'] 1 := digit_literal rfl (by decide)
  have only (spec : RegSpec) (h : Denotes "1r".toList spec) : spec = .raw 1 := by
    obtain ⟨count, rfl, hlit, _⟩ := Denotes.raw_inv (show Denotes (['1'] ++ ['r']) spec from h)
    rw [literal_unique hlit one]
  intro call hcall
  simp only [imageCalls, List.mem_cons, List.not_mem_nil, or_false] at hcall
  rcases hcall with rfl | rfl | rfl
  · intro bytes hbytes
    cases hbytes
    exact ⟨by decide, by decide⟩
  · exact ⟨by decide, by decide⟩
  · refine ⟨⟨by decide, ?_, ?_⟩, ?_⟩
    · intro front _ h
      obtain rfl := (List.append_inj' (show ['1'] ++ ['r'] = front ++ ['r'] from h) rfl).1
      exact ⟨1, one, by decide, by decide⟩
    · intro first middle last h _ hlast
      have split : ['1'] ++ ['r'] = (first :: middle) ++ [last] := h
      cases (List.append_inj' split rfl).2
      exact absurd hlast (by decide)
    · intro spec hspec
      rw [only spec hspec]
      exact ⟨by decide, by decide⟩

theorem session_serves_image : ∃ outcomes sent,
    session storeBus imageFile FlashRuns.plainRtu imageCalls [] = some (outcomes, [] ++ sent) ∧
      Series imageFile (fun _ => 0) imageCalls sent outcomes (registersAfter (fun _ => 0) ([] ++ sent)) :=
  session_serves storeBus_open (storeDevice_remembers _) kept_nil image_fits

theorem transfer_reads_back_image : ∃ lines log',
    session storeBus imageFile FlashRuns.plainRtu imageCalls [] =
      some ([.done, .done, .printed (.raw lines)], log') ∧ expand (lines.map Prod.snd) = [3, 4] := by
  obtain ⟨log', hsession⟩ := image_session
  refine ⟨_, log', hsession, ?_⟩
  have spec : Denotes "1r".toList (.raw 1) := Denotes.raw (digit_literal rfl (by decide)) Nat.one_pos
  have fits : ∀ call ∈ ([] ++ .transfer 100 "image.bin" :: ([.write 102 9] ++ .read 101 "1r" :: []) :
      List Call), call.Fits imageFile := image_fits
  refine transfer_reads_back storeBus_open (storeDevice_remembers _) kept_nil fits hsession rfl rfl
    rfl spec (by decide) (by decide) ?_
  intro call hcall a _ hhigh hstores
  rw [List.mem_singleton.mp hcall] at hstores
  obtain rfl : a = 102 := hstores
  omega

end ModbusCrawler.RegisterStore
