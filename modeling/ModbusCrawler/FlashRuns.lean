import ModbusCrawler.FlashUpdate

set_option autoImplicit false

/-!
# Flash updates from the first request to the last

A run reads the version, and with the image at hand it is one script. What it
delivers, when it completes and what a failure leaves behind follow from that.
-/
namespace ModbusCrawler.FlashRuns
open BlockMemory FailStop ModbusTypes ModbusSlave ModbusOps FilePacking FileTransfer FlashPlan
open FlashDevice FlashUpdate

def versionRequest : Request :=
  .readRegisters FlashUpdateRegisters.requiredImageVersion.address 1

def doneRequest : Request := (commandStep .done).request

def writeSegmentRequest : Request := (commandStep .writeSegment).request

def imageName (device : Device) (filename : String) : String :=
  filename ++ toString (reg (device [] versionRequest).regs 0) ++ ".bin"

theorem version_roundTrip (r : UInt16) : r.toInt16.toInt64.toUInt64.toUInt16 = r := by
  apply UInt16.toBitVec_inj.mp
  apply BitVec.eq_of_getLsbD_eq
  intro i hi
  have wide : i < 64 := by omega
  change BitVec.getLsbD (BitVec.setWidth 16 (BitVec.signExtend 64 r.toBitVec)) i = _
  rw [BitVec.getLsbD_setWidth, BitVec.getLsbD_signExtend]
  simp [hi, wide]

def versionStep : Step Request Reply Exception where
  request := versionRequest
  accepts reply := reply.apiRv.toInt = 1
  failure reply := .runtimeError ("Failed modbus_read_registers: " ++ reply.strerror)

def flashSteps (content : List UInt16) (checksum : UInt32) : Body :=
  versionStep :: imageSteps content checksum

section Steps
variable (content : List UInt16) (checksum : UInt32)

theorem imageBodies_mem {body : Body} (h : body ∈ imageBodies content) :
    ∃ offset words, Loads body offset words := by
  obtain ⟨i, hi, rfl⟩ := List.getElem_of_mem h
  have loads := imageBodies_loads content
  exact ⟨_, _, loads.get hi (by rw [← loads.length_eq]; exact hi)⟩

/-- Where a step of the plan stands. -/
theorem beforeDone_mem {step : Step Request Reply Exception}
    (h : step ∈ beforeDone content checksum) :
    step = commandStep .start ∨ Inner step ∨ step = commandStep .writeSegment := by
  rcases List.mem_append.mp h with hsegments | hfinal
  · rcases List.mem_cons.mp hsegments with rfl | hsegment
    · exact .inl rfl
    obtain ⟨body, hbody, hstep⟩ := List.mem_flatMap.mp hsegment
    obtain ⟨_, _, loads⟩ := imageBodies_mem content hbody
    rcases List.mem_append.mp hstep with hinner | hclose
    · exact .inr (.inl (loads.inner step hinner))
    · exact .inr (.inr (List.mem_singleton.mp hclose))
  · refine .inr (.inl ?_)
    simp only [finalSteps, List.mem_cons, List.not_mem_nil, or_false] at hfinal
    rcases hfinal with rfl | rfl | rfl | rfl <;> exact registerStep_inner _ (by simp)

theorem flashSteps_mem {step : Step Request Reply Exception}
    (h : step ∈ flashSteps content checksum) :
    step = versionStep ∨ Inner step ∨ ∃ command, step = commandStep command := by
  rcases List.mem_cons.mp h with rfl | himage
  · exact .inl rfl
  rcases List.mem_append.mp himage with hbefore | hdone
  · rcases beforeDone_mem content checksum hbefore with rfl | inner | rfl
    · exact .inr (.inr ⟨_, rfl⟩)
    · exact .inr (.inl inner)
    · exact .inr (.inr ⟨_, rfl⟩)
  · exact .inr (.inr ⟨_, List.mem_singleton.mp hdone⟩)

theorem imageSteps_isWrite {request : Request}
    (h : request ∈ (imageSteps content checksum).map Step.request) : isWrite request = true := by
  obtain ⟨step, hstep, rfl⟩ := List.mem_map.mp h
  rcases List.mem_append.mp hstep with hbefore | hdone
  · rcases beforeDone_mem content checksum hbefore with rfl | inner | rfl
    · rfl
    · exact inner.write
    · rfl
  · rw [List.mem_singleton.mp hdone]
    rfl

theorem flashSteps_checked : ∀ step ∈ flashSteps content checksum, Checked step := by
  intro step h
  rcases flashSteps_mem content checksum h with rfl | inner | ⟨command, rfl⟩
  · exact fun _ => decide_eq_true_iff
  · exact inner.checked
  · exact holdingStep_checked _ _

theorem flashSteps_inBuffer : ∀ step ∈ flashSteps content checksum, InBuffer step.request := by
  intro step h
  rcases flashSteps_mem content checksum h with rfl | inner | ⟨command, rfl⟩
  · trivial
  · exact inner.inBuffer
  · trivial

theorem flashSteps_requests : (flashSteps content checksum).map Step.request =
    (versionRequest :: (beforeDone content checksum).map Step.request) ++ [doneRequest] := by
  rw [flashSteps, imageSteps_eq, List.map_cons, List.map_append]
  rfl

theorem doneRequest_last :
    doneRequest ∉ versionRequest :: (beforeDone content checksum).map Step.request := by
  intro h
  rcases List.mem_cons.mp h with hversion | hstep
  · cases hversion
  obtain ⟨step, hmem, hrequest⟩ := List.mem_map.mp hstep
  rcases beforeDone_mem content checksum hmem with rfl | inner | rfl
  · cases hrequest
  · have quiet := inner.quiet
    rw [hrequest] at quiet
    cases quiet
  · cases hrequest

theorem ends_with_done {log : Log Request Reply} {requests : List Request}
    (h : log.map Prod.fst = requests ++ [doneRequest]) :
    ∃ before reply, log = before ++ [(doneRequest, reply)] := by
  obtain ⟨before, last, rfl, _, hlast⟩ := List.map_eq_append_iff.mp h
  obtain ⟨⟨request, reply⟩, rfl, hrequest⟩ := List.map_eq_singleton_iff.mp hlast
  subst hrequest
  exact ⟨before, reply, rfl⟩

theorem split_at_done {before after : List Request}
    (h : before ++ doneRequest :: after <+: (flashSteps content checksum).map Step.request) :
    before = versionRequest :: (beforeDone content checksum).map Step.request ∧ after = [] := by
  obtain ⟨rest, hrest⟩ := h
  rw [flashSteps_requests, List.append_assoc, List.cons_append] at hrest
  obtain ⟨hbefore, _, hafter⟩ := (List.append_cons_inj_of_notMem
    (doneRequest_last content checksum) List.not_mem_nil).mp hrest.symm
  exact ⟨hbefore.symm, (List.append_eq_nil_iff.mp hafter.symm).1⟩

end Steps

def plainBus : Bus where
  newRtu _ := true
  connectFailure _ _ := none
  device _ _ _ := plainDevice

def plainRtu : RtuParameters := ⟨1, "/dev/ttyUSB0", "9600:8:N:1", 500⟩

def sameFile (bytes : List UInt8) : Files := fun _ => some bytes

section Runs
variable {bus : Bus} {files : Files} {rp : RtuParameters} {filename : String} {device : Device}
variable {content : List UInt16} {checksum : UInt32}

theorem flashUpdate_eq (hopen : openSlave bus rp = .ok device) :
    (flashUpdate bus files rp filename).run [] = (do
      versionStep.run device
      let image ← throwing (registersFromFile files (imageName device filename))
      sendImage device image.1 image.2 : Line Unit).run [] := by
  unfold flashUpdate
  rw [hopen, throwing, pure_bind, EStateM.run_bind, RTUSlave.readHoldingRegisters,
    readTyped_run _ _ _ _ _ _ _ rfl, EStateM.run_bind, step_run]
  dsimp only
  rw [← versionRequest]
  by_cases accepted : (device [] versionRequest).apiRv.toInt = 1
  · have step : versionStep.accepts (device [] versionStep.request) = true :=
      decide_eq_true accepted
    rw [if_pos accepted, if_pos step]
    change EStateM.run (do
      let image ← throwing (registersFromFile files (filename ++ toString
        (reg (device [] versionRequest).regs 0).toInt16.toInt64.toUInt64.toUInt16 ++ ".bin"))
      sendImage device image.1 image.2) _ = _
    rw [version_roundTrip, ← imageName]
    rfl
  · have step : ¬ versionStep.accepts (device [] versionStep.request) = true := by
      simpa [versionStep] using accepted
    rw [if_neg accepted, if_neg step]
    rfl

/-- With the image at hand a run is its script. Without a version no image is read. -/
theorem flashUpdate_run (hopen : openSlave bus rp = .ok device)
    (hfile : Acknowledged (versionRequest, device [] versionRequest) →
      registersFromFile files (imageName device filename) = .ok (content, checksum)) :
    (flashUpdate bus files rp filename).run [] =
      (runAll device (flashSteps content checksum)).run [] := by
  rw [flashUpdate_eq hopen, flashSteps, runAll_cons, EStateM.run_bind, step_run]
  by_cases step : versionStep.accepts (device [] versionStep.request) = true
  · rw [if_pos step, if_pos step, hfile (of_decide_eq_true step)]
    dsimp only
    rw [throwing, pure_bind, sendImage_eq]
  · rw [if_neg step, if_neg step]

theorem flashUpdate_returns (hopen : openSlave bus rp = .ok device) {log : Log Request Reply}
    (hrun : (flashUpdate bus files rp filename).run [] = .ok () log) :
    ∃ content checksum,
      registersFromFile files (imageName device filename) = .ok (content, checksum) := by
  cases hfile : registersFromFile files (imageName device filename) with
  | ok image => exact ⟨image.1, image.2, rfl⟩
  | error e =>
    rw [flashUpdate_eq hopen, hfile, EStateM.run_bind, step_run] at hrun
    split_ifs at hrun
    cases hrun

theorem flashUpdate_image (hopen : openSlave bus rp = .ok device)
    (hfile : registersFromFile files (imageName device filename) = .ok (content, checksum))
    (hversion : Acknowledged (versionRequest, device [] versionRequest)) :
    (flashUpdate bus files rp filename).run [] =
      (runAll device (imageSteps content checksum)).run
        [(versionRequest, device [] versionRequest)] := by
  rw [flashUpdate_run hopen (fun _ => hfile), flashSteps, runAll_cons]
  exact if_pos (decide_eq_true hversion)

/-- A run returns with every request acknowledged, or it throws at the first one
    that is not. -/
theorem flashUpdate_cases (hopen : openSlave bus rp = .ok device)
    (hfile : Acknowledged (versionRequest, device [] versionRequest) →
      registersFromFile files (imageName device filename) = .ok (content, checksum)) :
    (∃ sent, (flashUpdate bus files rp filename).run [] = .ok () sent ∧
      sent.map Prod.fst = (flashSteps content checksum).map Step.request ∧
      ∀ exchange ∈ sent, Acknowledged exchange) ∨
    (∃ e sent bad, (flashUpdate bus files rp filename).run [] = .error e (sent ++ [bad]) ∧
      (sent ++ [bad]).map Prod.fst <+: (flashSteps content checksum).map Step.request ∧
      (∀ exchange ∈ sent, Acknowledged exchange) ∧ ¬ Acknowledged bad) := by
  rw [flashUpdate_run hopen hfile]
  exact runAll_checked device _ [] Acknowledged (flashSteps_checked content checksum)

theorem flashUpdate_prefix (hopen : openSlave bus rp = .ok device)
    (hfile : Acknowledged (versionRequest, device [] versionRequest) →
      registersFromFile files (imageName device filename) = .ok (content, checksum)) :
    (finalLog (flashUpdate bus files rp filename) []).map Prod.fst <+:
      (flashSteps content checksum).map Step.request := by
  unfold finalLog
  rcases flashUpdate_cases hopen hfile with
    ⟨sent, hrun, hrequests, _⟩ | ⟨e, sent, bad, hrun, hsent, _⟩
  · rw [hrun, ← hrequests]
  · rw [hrun]
    exact hsent

end Runs

theorem registerStep_wellFormed (register : FlashUpdateRegisters) (value : UInt16) :
    WellFormed (registerStep register value).request := trivial

theorem bufferStep_wellFormed (skip : ℕ) (regs : List UInt16) {numRegs : ℕ} (hpos : numRegs ≠ 0)
    (hle : numRegs ≤ modbusRegsAtOnce) : WellFormed (bufferStep skip regs numRegs).request := by
  change numRegs ≤ 64 at hle
  have max : modbusMaxWriteRegisters = 123 := rfl
  exact ⟨by omega, by omega⟩

theorem remainingBody_wellFormed (regs : List UInt16) (offset : UInt32) {remainingBytes : ℕ}
    (heven : remainingBytes % 2 = 0) (hpos : remainingBytes ≠ 0) (hhalf : remainingBytes ≠ 128)
    (hlt : remainingBytes < flashLineBytes) :
    ∀ step ∈ remainingBody regs offset remainingBytes, WellFormed step.request := by
  have tail : remainingBytes / 2 % modbusRegsAtOnce ≠ 0 := by
    change remainingBytes < 256 at hlt
    change remainingBytes / 2 % 64 ≠ 0
    omega
  have short : remainingBytes / 2 % modbusRegsAtOnce ≤ modbusRegsAtOnce :=
    Nat.le_of_lt (Nat.mod_lt _ (by decide))
  intro step hstep
  rcases mem_remainingBody.mp hstep with rfl | rfl | rfl | hbuffer
  · exact registerStep_wellFormed _ _
  · exact registerStep_wellFormed _ _
  · exact registerStep_wellFormed _ _
  split_ifs at hbuffer with hchunk
  · rcases hbuffer with rfl | rfl
    · exact bufferStep_wellFormed _ _ (by simp [modbusRegsAtOnce, flashLineBytes]) (le_refl _)
    · exact bufferStep_wellFormed _ _ tail short
  · rw [hbuffer]
    exact bufferStep_wellFormed _ _ tail short

theorem lineBody_wellFormed (regs : List UInt16) (offset : UInt32) :
    ∀ step ∈ lineBody regs offset, WellFormed step.request := by
  have half : modbusRegsAtOnce ≠ 0 := by simp [modbusRegsAtOnce, flashLineBytes]
  intro step hstep
  rcases mem_lineBody.mp hstep with rfl | rfl | rfl | rfl | rfl
  · exact registerStep_wellFormed _ _
  · exact registerStep_wellFormed _ _
  · exact bufferStep_wellFormed _ _ half (le_refl _)
  · exact bufferStep_wellFormed _ _ half (le_refl _)
  · exact registerStep_wellFormed _ _

theorem segmentBodies_wellFormed (left : ℕ) (regs : List UInt16) (offset : UInt32)
    (hleft : regs.length * 2 / flashLineBytes = left)
    (hhalf : regs.length * 2 % flashLineBytes ≠ 128) :
    ∀ body ∈ segmentBodies left regs offset, ∀ step ∈ body, WellFormed step.request := by
  induction left generalizing regs offset with
  | zero =>
    intro body hbody
    rw [segmentBodies] at hbody
    split_ifs at hbody with hrest
    · rw [List.mem_singleton.mp hbody]
      exact remainingBody_wellFormed _ _ (by unfold flashLineBytes; omega) hrest hhalf
        (Nat.mod_lt _ (by decide))
    · cases hbody
  | succ left ih =>
    obtain ⟨hdiv, hmod⟩ := drop_line hleft
    intro body hbody
    rcases List.mem_cons.mp hbody with rfl | htail
    · exact lineBody_wellFormed _ _
    · exact ih _ _ hdiv (by rw [hmod]; exact hhalf) body htail

theorem segmentBodies_empty_write (left : ℕ) (regs : List UInt16) (offset : UInt32)
    (hleft : regs.length * 2 / flashLineBytes = left)
    (hhalf : regs.length * 2 % flashLineBytes = 128) :
    ∃ body ∈ segmentBodies left regs offset, ∃ skip regs', bufferStep skip regs' 0 ∈ body := by
  induction left generalizing regs offset with
  | zero =>
    refine ⟨remainingBody regs offset 128, ?_, modbusRegsAtOnce, regs, ?_⟩
    · rw [segmentBodies, hhalf]
      simp
    · simp [remainingBody, modbusRegsAtOnce, flashLineBytes]
  | succ left ih =>
    obtain ⟨hdiv, hmod⟩ := drop_line hleft
    obtain ⟨body, hbody, hwrite⟩ := ih _ (offset + UInt32.ofNat flashLineBytes) hdiv
      (by rw [hmod]; exact hhalf)
    exact ⟨body, .tail _ hbody, hwrite⟩

theorem flashSteps_wellFormed (content : List UInt16) (checksum : UInt32)
    (hhalf : content.length * 2 % flashLineBytes ≠ 128) :
    ∀ step ∈ flashSteps content checksum, WellFormed step.request := by
  intro step hstep
  simp only [flashSteps, imageSteps, List.mem_cons, List.mem_append, List.mem_flatMap,
    List.cons_append, finalSteps, closed, List.not_mem_nil, or_false] at hstep
  rcases hstep with rfl | rfl | (⟨body, hbody, hinner | rfl⟩ | rfl | rfl | rfl | rfl) | rfl
  · exact ⟨by decide, by decide⟩
  · exact registerStep_wellFormed _ _
  · exact segmentBodies_wellFormed _ _ _ rfl hhalf body hbody step hinner
  all_goals exact registerStep_wellFormed _ _

/-- The lengths whose padding ends half-way through a flash line. -/
def HalfLine (length : ℕ) : Prop := 125 ≤ length % 256 ∧ length % 256 ≤ 128

theorem halfLine_iff {bytes : List UInt8} {content : List UInt16}
    (h : expand content = padded bytes) :
    content.length * 2 % flashLineBytes = 128 ↔ HalfLine bytes.length := by
  have length := congrArg List.length h
  rw [expand_length, padded_length] at length
  unfold flashLineBytes HalfLine
  omega

section Completion
variable {bus : Bus} {files : Files} {rp : RtuParameters} {filename : String} {device : Device}
variable {bytes : List UInt8}

theorem flashUpdate_halfLine_throws (hopen : openSlave bus rp = .ok device)
    (hfile : files (imageName device filename) = some bytes) (hdevice : Conforming device)
    (hhalf : HalfLine bytes.length) :
    ∃ e log, (flashUpdate bus files rp filename).run [] = .error e log := by
  obtain ⟨content, hregisters, hexpand, _⟩ := registersFromFile_ok hfile
  rw [flashUpdate_run hopen (fun _ => hregisters)]
  obtain ⟨body, hbody, skip, regs, hmem⟩ :=
    segmentBodies_empty_write _ content 0 rfl ((halfLine_iff hexpand).mpr hhalf)
  have step : bufferStep skip regs 0 ∈ flashSteps content (crc32 (padded bytes)) := by
    simp only [flashSteps, imageSteps, List.mem_cons, List.mem_append, List.mem_flatMap,
      List.cons_append]
    exact .inr (.inr (.inl (.inl ⟨body, hbody, List.mem_append_left _ hmem⟩)))
  refine runAll_throws device _ [] step fun log => ?_
  change decide ((device log (.writeRegisters _ 0 _)).apiRv.toInt = 0) = false
  rw [hdevice.rejects]
  rfl

theorem flashUpdate_completes (hopen : openSlave bus rp = .ok device)
    (hfile : files (imageName device filename) = some bytes) (hdevice : Conforming device)
    (hhalf : ¬ HalfLine bytes.length) :
    ∃ before reply,
      (flashUpdate bus files rp filename).run [] = .ok () (before ++ [(doneRequest, reply)]) ∧
      ∀ exchange ∈ before ++ [(doneRequest, reply)],
        WellFormed exchange.1 ∧ Acknowledged exchange := by
  obtain ⟨content, hregisters, hexpand, _⟩ := registersFromFile_ok hfile
  have wellFormed := flashSteps_wellFormed content (crc32 (padded bytes))
    (fun half => hhalf ((halfLine_iff hexpand).mp half))
  obtain ⟨sent, hsent, hrun⟩ := runAll_accepted device (flashSteps content (crc32 (padded bytes)))
    [] (fun step h => (flashSteps_checked _ _ step h).accepted hdevice (wellFormed step h))
  have requests := answered_requests hsent
  have good := answered_good hsent (flashSteps_checked _ _)
  rw [flashSteps_requests] at requests
  obtain ⟨before, reply, rfl⟩ := ends_with_done requests
  refine ⟨before, reply, ?_, fun exchange h => ⟨?_, good exchange h⟩⟩
  · rw [flashUpdate_run hopen (fun _ => hregisters), hrun, List.nil_append]
  · exact answered_forall hsent wellFormed exchange h

/-- The tool completes on every image but those. -/
theorem flashUpdate_completes_iff (hopen : openSlave bus rp = .ok device)
    (hfile : files (imageName device filename) = some bytes) (hdevice : Conforming device) :
    (∃ before reply,
      (flashUpdate bus files rp filename).run [] = .ok () (before ++ [(doneRequest, reply)]) ∧
      ∀ exchange ∈ before ++ [(doneRequest, reply)], WellFormed exchange.1) ↔
    ¬ (125 ≤ bytes.length % 256 ∧ bytes.length % 256 ≤ 128) := by
  constructor
  · rintro ⟨before, reply, hrun, _⟩ hhalf
    obtain ⟨e, log, hthrows⟩ := flashUpdate_halfLine_throws hopen hfile hdevice hhalf
    rw [hrun] at hthrows
    cases hthrows
  · intro hhalf
    obtain ⟨before, reply, hrun, hall⟩ := flashUpdate_completes hopen hfile hdevice hhalf
    exact ⟨before, reply, hrun, fun exchange h => (hall exchange h).1⟩

theorem flashUpdate_completes_five :
    (∃ before reply, (flashUpdate plainBus (sameFile [1, 2, 3, 4, 5]) plainRtu "fw").run [] =
        .ok () (before ++ [(doneRequest, reply)]) ∧
      ∀ exchange ∈ before ++ [(doneRequest, reply)], WellFormed exchange.1) ↔
    ¬ (125 ≤ [(1 : UInt8), 2, 3, 4, 5].length % 256 ∧
      [(1 : UInt8), 2, 3, 4, 5].length % 256 ≤ 128) :=
  flashUpdate_completes_iff rfl rfl plainDevice_conforming

theorem flashUpdate_halfLine_fails : ¬ ∃ before reply,
    (flashUpdate plainBus (sameFile (List.replicate 128 0xFF)) plainRtu "fw").run [] =
      .ok () (before ++ [(doneRequest, reply)]) ∧
    ∀ exchange ∈ before ++ [(doneRequest, reply)], WellFormed exchange.1 := by
  rintro ⟨before, reply, hrun, _⟩
  have half : HalfLine (List.replicate 128 (0xFF : UInt8)).length := by
    rw [List.length_replicate]
    exact ⟨by decide, by decide⟩
  obtain ⟨e, log, hthrows⟩ := flashUpdate_halfLine_throws
    (show openSlave plainBus plainRtu = .ok plainDevice from rfl)
    (show sameFile _ (imageName plainDevice "fw") = some _ from rfl) plainDevice_conforming half
  rw [hrun] at hthrows
  cases hthrows

end Completion

section Delivery
variable {bus : Bus} {files : Files} {rp : RtuParameters} {filename : String} {device : Device}
variable {bytes : List UInt8}

theorem flashUpdate_delivers {bytes : List UInt8} (hopen : openSlave bus rp = .ok device)
    (hfile : files (imageName device filename) = some bytes)
    (hsize : (padded bytes).length < 2^32)
    (hack : ∀ exchange ∈ finalLog (flashUpdate bus files rp filename) [],
      isWrite exchange.1 = true → Acknowledged exchange) :
    (Acknowledged (versionRequest, device [] versionRequest) → ∃ before reply,
      (flashUpdate bus files rp filename).run [] = .ok () (before ++ [(doneRequest, reply)])) ∧
    (∀ before reply after, finalLog (flashUpdate bus files rp filename) [] =
        before ++ (doneRequest, reply) :: after →
      after = [] ∧ ∀ d : State, d.committed = [] →
        HoldsImage (d.replay (before.map Prod.fst)) (padded bytes)) ∧
    (∀ exchange ∈ finalLog (flashUpdate bus files rp filename) [], InBuffer exchange.1) := by
  obtain ⟨content, hregisters, hexpand, _⟩ := registersFromFile_ok hfile
  have run := flashUpdate_run hopen (fun _ => hregisters)
  have small : 2 * content.length < 2^32 := by
    rw [← expand_length, hexpand]
    exact hsize
  have sent := flashUpdate_prefix hopen (fun _ => hregisters)
  refine ⟨?_, ?_, ?_⟩
  · intro hversion
    have image := flashUpdate_image hopen hregisters hversion
    rcases runAll_checked device _ [(versionRequest, device [] versionRequest)] Acknowledged
      (fun step h => flashSteps_checked content (crc32 (padded bytes)) step (.tail _ h)) with
      ⟨log, hrun, hrequests, _⟩ | ⟨e, log, bad, hrun, hsent, _, hbad⟩
    · rw [imageSteps_eq, List.map_append] at hrequests
      obtain ⟨before, reply, rfl⟩ := ends_with_done hrequests
      refine ⟨(versionRequest, device [] versionRequest) :: before, reply, ?_⟩
      rw [image, hrun]
      rfl
    · refine absurd (hack bad ?_ ?_) hbad
      · unfold finalLog
        rw [image, hrun]
        simp
      · exact imageSteps_isWrite _ _ (hsent.subset (by simp))
  · intro before reply after hlog
    rw [hlog, List.map_append, List.map_cons] at sent
    obtain ⟨hbefore, hafter⟩ := split_at_done _ _ sent
    refine ⟨List.map_eq_nil_iff.mp hafter, fun d hcommitted => ?_⟩
    rw [hbefore, ← hexpand]
    exact beforeDone_holdsImage d content _ small hcommitted (by rw [hexpand])
  · intro exchange hexchange
    obtain ⟨step, hstep, hrequest⟩ := List.mem_map.mp (sent.subset (List.mem_map_of_mem hexchange))
    rw [← hrequest]
    exact flashSteps_inBuffer _ _ step hstep

theorem flashUpdate_delivers_five : ∃ before reply,
    (flashUpdate plainBus (sameFile [1, 2, 3, 4, 5]) plainRtu "fw").run [] =
      .ok () (before ++ [(doneRequest, reply)]) ∧
    HoldsImage (State.replay ⟨fun _ => 0, fun _ => 0xFF, []⟩ (before.map Prod.fst))
      (padded [1, 2, 3, 4, 5]) := by
  have acknowledged : ∀ exchange ∈
      finalLog (flashUpdate plainBus (sameFile [1, 2, 3, 4, 5]) plainRtu "fw") [],
      isWrite exchange.1 = true → Acknowledged exchange := by
    obtain ⟨before, reply, hrun, hall⟩ := flashUpdate_completes
      (show openSlave plainBus plainRtu = .ok plainDevice from rfl)
      (show sameFile [1, 2, 3, 4, 5] (imageName plainDevice "fw") = some _ from rfl)
      plainDevice_conforming (fun half => absurd half.1 (by decide))
    unfold finalLog
    rw [hrun]
    exact fun exchange h _ => (hall exchange h).2
  obtain ⟨completes, holds, _⟩ := flashUpdate_delivers
    (show openSlave plainBus plainRtu = .ok plainDevice from rfl)
    (show sameFile [1, 2, 3, 4, 5] (imageName plainDevice "fw") = some _ from rfl)
    (by rw [padded_length]; decide) acknowledged
  obtain ⟨before, reply, hrun⟩ := completes rfl
  refine ⟨before, reply, hrun, (holds before reply [] ?_).2 _ rfl⟩
  unfold finalLog
  rw [hrun]

end Delivery

end ModbusCrawler.FlashRuns
