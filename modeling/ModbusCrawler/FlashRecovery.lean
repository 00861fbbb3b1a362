import ModbusCrawler.FlashFailStop

set_option autoImplicit false

/-!
# Flash updates that break off, and those that follow

The flash after any series of calls of `flash_update`, each cut off at any request.
A call that breaks off leaves a number of flash lines of its image, and one that
returns leaves all of it, whatever the calls before have left.
-/
namespace ModbusCrawler.FlashRecovery
open BlockMemory FailStop ModbusTypes ModbusSlave ModbusOps FilePacking FileTransfer FlashPlan
open FlashDevice FlashUpdate FlashRuns FlashFailStop

/-- The requests that took effect: a refused one changes nothing on the device. -/
def effective (log : Log Request Reply) : List Request :=
  (log.filter (fun exchange => Acknowledged exchange)).map Prod.fst

theorem effective_acknowledged {log : Log Request Reply}
    (h : ∀ exchange ∈ log, Acknowledged exchange) : effective log = log.map Prod.fst := by
  unfold effective
  rw [List.filter_eq_self.mpr fun exchange hmem => decide_eq_true (h exchange hmem)]

theorem effective_refused {log : Log Request Reply} {bad : Request × Reply}
    (h : ∀ exchange ∈ log, Acknowledged exchange) (hbad : ¬ Acknowledged bad) :
    effective (log ++ [bad]) = log.map Prod.fst := by
  have none : effective [bad] = [] := by
    unfold effective
    rw [List.filter_singleton, decide_eq_false hbad]
    rfl
  have split : effective (log ++ [bad]) = effective log ++ effective [bad] := by
    unfold effective
    rw [List.filter_append, List.map_append]
  rw [split, none, List.append_nil, effective_acknowledged h]

section Lines

/-- A prefix of separated blocks is some of the blocks and a part without a separator. -/
theorem prefix_of_blocks {α : Type} {blocks : List (List α)} {sep : α} {l rest : List α}
    (hblocks : ∀ block ∈ blocks, sep ∉ block) (hrest : sep ∉ rest)
    (h : l <+: blocks.flatMap (· ++ [sep]) ++ rest) :
    ∃ first others tail, blocks = first ++ others ∧ l = first.flatMap (· ++ [sep]) ++ tail ∧
      sep ∉ tail := by
  induction blocks generalizing l with
  | nil => exact ⟨[], [], l, rfl, rfl, fun hmem => hrest (h.subset hmem)⟩
  | cons block blocks ih =>
    rw [List.flatMap_cons, List.append_assoc] at h
    by_cases hshort : l.length ≤ block.length
    · have inside : l <+: block :=
        List.prefix_of_prefix_length_le h
          ((List.prefix_append block [sep]).trans (List.prefix_append _ _)) hshort
      exact ⟨[], block :: blocks, l, rfl, rfl,
        fun hmem => hblocks block (by simp) (inside.subset hmem)⟩
    · have whole : block ++ [sep] <+: l := by
        refine List.prefix_of_prefix_length_le (List.prefix_append _ _) h ?_
        rw [List.length_append, List.length_singleton]
        omega
      obtain ⟨more, rfl⟩ := whole
      rw [List.prefix_append_right_inj] at h
      obtain ⟨first, others, tail, rfl, rfl, htail⟩ := ih (fun b hb => hblocks b (.tail _ hb)) h
      refine ⟨block :: first, others, tail, rfl, ?_, htail⟩
      simp only [List.flatMap_cons, List.append_assoc]

/-- The first flash lines of an image are the flash lines of its first bytes. -/
theorem segments_take (k offset : ℕ) (regs : List UInt16) :
    (segments offset regs).take k = segments offset (regs.take (bufferSize * k)) := by
  induction k generalizing offset regs with
  | zero => simp [segments_nil]
  | succ k ih =>
    by_cases hnil : regs = []
    · subst hnil
      simp [segments_nil]
    · have here : regs.take (bufferSize * (k + 1)) ≠ [] := by
        have hpos : 0 < regs.length := List.length_pos_iff.mpr hnil
        refine List.length_pos_iff.mp ?_
        rw [List.length_take]
        change 0 < min (128 * (k + 1)) regs.length
        omega
      have line : bufferSize ≤ bufferSize * (k + 1) := Nat.le_mul_of_pos_right _ (Nat.succ_pos k)
      have less : bufferSize * (k + 1) - bufferSize = bufferSize * k := by
        rw [Nat.mul_succ, Nat.add_sub_cancel]
      rw [segments_cons offset regs hnil, segments_cons offset _ here, List.take_succ_cons, ih,
        List.take_take, Nat.min_eq_left line, List.drop_take, less]

theorem receive_quiet (d : State) {request : Request} (h : request ≠ writeSegmentRequest) :
    (d.receive request).flash = d.flash := by
  cases request with
  | writeRegister address value =>
    unfold State.receive
    dsimp only
    split_ifs with hcommand hsegment
    · exact absurd (by rw [hcommand, hsegment]; rfl) h
    · rfl
    · rfl
    · rfl
  | writeRegisters address nb src =>
    unfold State.receive
    dsimp only
    split_ifs <;> rfl
  | readRegisters address nb => rfl
  | readInputRegisters address nb => rfl

theorem replay_quiet (d : State) {requests : List Request} (h : writeSegmentRequest ∉ requests) :
    (d.replay requests).flash = d.flash := by
  induction requests generalizing d with
  | nil => rfl
  | cons request rest ih =>
    rw [List.mem_cons, not_or] at h
    rw [State.replay_cons, ih _ h.2, receive_quiet d (Ne.symm h.1)]

/-- So many segments that were committed are so many lines of the image. -/
theorem lines_stored (d : State) {content : List UInt16} (hsize : 2 * content.length < 2^32)
    {first others : List Body} (h : imageBodies content = first ++ others) :
    (d.replay ((first.flatMap closed).map Step.request)).flash =
      store d.flash 0 ((expand content).take (flashLineBytes * first.length)) := by
  have loads := List.forall₂_take first.length (imageBodies_loads content)
  rw [h, List.take_left, segments_take] at loads
  have unwrapped : List.Forall₂ (fun body segment => Loads body segment.1 segment.2) first
      (segments 0 (content.take (bufferSize * first.length))) := by
    refine List.forall₂_iff_get.mpr ⟨loads.length_eq, fun i hbody hsegment => ?_⟩
    have current := loads.get hbody hsegment
    have small := segments_offset_lt
      ((segments 0 (content.take (bufferSize * first.length))).get_mem ⟨i, hsegment⟩)
    have shorter := List.length_take_le' (bufferSize * first.length) content
    rwa [Nat.mod_eq_of_lt (by omega)] at current
  obtain ⟨tiles, bytes⟩ := segments_tiles 0 (content.take (bufferSize * first.length))
  have even : flashLineBytes * first.length = 2 * (bufferSize * first.length) := by
    rw [← Nat.mul_assoc]
    rfl
  rw [(bodies_replay d unwrapped).1, storeAll_tiles _ tiles, bytes, even, expand_take]

end Lines

section Prefix
variable {content : List UInt16} {checksum : UInt32} {requests : List Request}

theorem final_quiet (content : List UInt16) (checksum : UInt32) : writeSegmentRequest ∉
    (finalSteps (content.length * 2) checksum).map Step.request ++ [doneRequest] := by
  intro hmem
  simp only [finalSteps, List.map_cons, List.map_nil, List.cons_append, List.nil_append,
    List.mem_cons, List.not_mem_nil, or_false] at hmem
  rcases hmem with h | h | h | h | h <;> cases h

/-- What any part of the plan does to the flash. -/
theorem prefix_flash (d : State) (hsize : 2 * content.length < 2^32)
    (h : requests <+: (flashSteps content checksum).map Step.request) :
    (d.replay requests).flash = store d.flash 0
      ((expand content).take (flashLineBytes * requests.count writeSegmentRequest)) := by
  have nothing {few : List Request} (hfew : writeSegmentRequest ∉ few) :
      (d.replay few).flash = store d.flash 0
        ((expand content).take (flashLineBytes * few.count writeSegmentRequest)) := by
    rw [replay_quiet d hfew, List.count_eq_zero.mpr hfew, Nat.mul_zero, List.take_zero, store_nil]
  rw [flashSteps_blocks] at h
  rcases List.prefix_cons_iff.mp h with rfl | ⟨_, rfl, hstart⟩
  · exact nothing List.not_mem_nil
  rcases List.prefix_cons_iff.mp hstart with rfl | ⟨rest, rfl, hblocks⟩
  · exact nothing (by decide)
  obtain ⟨first, others, tail, hsplit, rfl, htail⟩ :=
    prefix_of_blocks (body_keeps_command content rfl) (final_quiet content checksum) hblocks
  obtain ⟨bodies, others, hbodies, rfl, _⟩ := List.map_eq_append_iff.mp hsplit
  have quiet : ∀ block ∈ bodies.map (List.map Step.request), writeSegmentRequest ∉ block := by
    intro block hblock
    refine body_keeps_command content rfl block ?_
    rw [hbodies, List.map_append]
    exact List.mem_append_left _ hblock
  have count : (versionRequest :: startRequest ::
      ((bodies.map (List.map Step.request)).flatMap (· ++ [writeSegmentRequest]) ++ tail)).count
        writeSegmentRequest = bodies.length := by
    rw [List.count_cons_of_ne (by decide), List.count_cons_of_ne (by decide), List.count_append,
      count_blocks quiet, List.count_eq_zero.mpr htail, List.length_map]
    rfl
  have start : (d.receive versionRequest).receive startRequest = d := rfl
  rw [count, State.replay_cons, State.replay_cons, start, State.replay_append, replay_quiet _ htail,
    ← closed_requests, lines_stored d hsize hbodies]

theorem plan_count (content : List UInt16) (checksum : UInt32) :
    ((flashSteps content checksum).map Step.request).count writeSegmentRequest =
      (segments 0 content).length := by
  rw [flashSteps_blocks, List.count_cons_of_ne (by decide), List.count_cons_of_ne (by decide),
    List.count_append, count_blocks (body_keeps_command content rfl),
    List.count_eq_zero.mpr (final_quiet content checksum), List.length_map,
    (imageBodies_loads content).length_eq]
  rfl

/-- With as many segments as the plan has the image is complete. -/
theorem plan_complete (content : List UInt16) (checksum : UInt32) : (expand content).length ≤
    flashLineBytes * ((flashSteps content checksum).map Step.request).count writeSegmentRequest := by
  have length : (segments 0 content).length = (content.length + bufferSize - 1) / bufferSize := by
    unfold segments
    rw [List.length_map, List.length_range]
  rw [plan_count, expand_length, length]
  change 2 * content.length ≤ 256 * ((content.length + 128 - 1) / 128)
  omega

theorem done_plan (h : requests <+: (flashSteps content checksum).map Step.request) :
    doneRequest ∈ requests ↔ requests = (flashSteps content checksum).map Step.request := by
  constructor
  · intro hmem
    obtain ⟨before, after, rfl⟩ := List.append_of_mem hmem
    obtain ⟨rfl, rfl⟩ := split_at_done _ _ h
    exact (flashSteps_requests content checksum).symm
  · rintro rfl
    rw [flashSteps_requests]
    exact List.mem_append_right _ (List.mem_singleton_self _)

end Prefix

/-- One call of `flash_update`, on whatever it finds. -/
structure Call where
  bus : Bus
  files : Files
  rp : RtuParameters
  filename : String

namespace Call

def log (call : Call) : Log Request Reply :=
  finalLog (flashUpdate call.bus call.files call.rp call.filename) []

def Returns (call : Call) : Prop :=
  ∃ log, (flashUpdate call.bus call.files call.rp call.filename).run [] = .ok () log

/-- The padded file of the version that the device asks for; nothing if there is none. -/
def image (call : Call) : List UInt8 :=
  match openSlave call.bus call.rp with
  | .ok device => ((call.files (imageName device call.filename)).map padded).getD []
  | .error _ => []

theorem image_eq {call : Call} {device : Device} {bytes : List UInt8}
    (hopen : openSlave call.bus call.rp = .ok device)
    (hfile : call.files (imageName device call.filename) = some bytes) :
    call.image = padded bytes := by
  unfold image
  rw [hopen]
  dsimp only
  rw [hfile]
  rfl

/-- The bytes of the segments that the device was told to write. -/
def written (call : Call) : List UInt8 :=
  call.image.take (flashLineBytes * (effective call.log).count writeSegmentRequest)

/-- Every call carries out a part of a plan for its image, all of it when it returns. -/
theorem planned (call : Call) : ∃ content checksum, expand content = call.image ∧
    effective call.log <+: (flashSteps content checksum).map Step.request ∧
    (call.Returns ↔ effective call.log = (flashSteps content checksum).map Step.request) := by
  obtain ⟨bus, files, rp, filename⟩ := call
  unfold Returns image log finalLog
  dsimp only
  have short (checksum : UInt32) {few : List Request} (hfew : few.length ≤ 1) :
      few ≠ (flashSteps [] checksum).map Step.request := by
    rintro rfl
    rw [flashSteps_blocks, List.length_cons, List.length_cons] at hfew
    omega
  cases hopen : openSlave bus rp with
  | error e =>
    have run : (flashUpdate bus files rp filename).run [] = .error e [] := by
      unfold flashUpdate
      rw [hopen]
      rfl
    rw [run]
    refine ⟨[], 0, rfl, List.nil_prefix, iff_of_false nofun (short 0 (Nat.zero_le 1))⟩
  | ok device =>
    dsimp only
    cases hfile : files (imageName device filename) with
    | none =>
      have missing : registersFromFile files (imageName device filename) =
          .error (.runtimeError ("invalid filename " ++ imageName device filename)) := by
        unfold registersFromFile
        rw [hfile]
      obtain ⟨e, run⟩ : ∃ e, (flashUpdate bus files rp filename).run [] =
          .error e [(versionRequest, device [] versionRequest)] := by
        rw [flashUpdate_eq hopen, missing, EStateM.run_bind, step_run]
        split_ifs
        · exact ⟨_, rfl⟩
        · exact ⟨_, rfl⟩
      rw [run]
      dsimp only
      by_cases hversion : Acknowledged (versionRequest, device [] versionRequest)
      · rw [effective_acknowledged (List.forall_mem_singleton.mpr hversion)]
        exact ⟨[], 0, rfl, List.prefix_append [versionRequest] _,
          iff_of_false nofun (short 0 (Nat.le_refl 1))⟩
      · have refused := @effective_refused [] _ nofun hversion
        rw [List.nil_append] at refused
        rw [refused]
        exact ⟨[], 0, rfl, List.nil_prefix, iff_of_false nofun (short 0 (Nat.zero_le 1))⟩
    | some bytes =>
      obtain ⟨content, hregisters, hexpand, _⟩ := registersFromFile_ok hfile
      refine ⟨content, crc32 (padded bytes), hexpand, ?_⟩
      rcases flashUpdate_cases hopen (fun _ => hregisters) with
        ⟨sent, hrun, hrequests, hall⟩ | ⟨e, sent, bad, hrun, hprefix, hall, hbad⟩
      · rw [hrun]
        dsimp only
        rw [effective_acknowledged hall, hrequests]
        exact ⟨List.prefix_rfl, iff_of_true ⟨sent, rfl⟩ rfl⟩
      · rw [hrun]
        dsimp only
        rw [effective_refused hall hbad]
        rw [List.map_append] at hprefix
        refine ⟨(List.prefix_append _ _).trans hprefix, iff_of_false nofun fun same => ?_⟩
        have longer := hprefix.length_le
        rw [← same, List.length_append] at longer
        simp only [List.length_map, List.length_singleton] at longer
        omega

/-- A call that returns has had the whole image written. -/
theorem written_image {call : Call} (h : call.Returns) : call.written = call.image := by
  obtain ⟨content, checksum, hexpand, _, hreturns⟩ := call.planned
  unfold written
  rw [hreturns.mp h, ← hexpand]
  exact List.take_of_length_le (plan_complete content checksum)

/-- 'done' is acknowledged by the calls that return, and by no other. -/
theorem returns_iff (call : Call) : call.Returns ↔ doneRequest ∈ effective call.log := by
  obtain ⟨content, checksum, _, hprefix, hreturns⟩ := call.planned
  rw [hreturns, done_plan hprefix]

theorem flash (call : Call) (hsize : call.image.length < 2^32) (d : State) :
    (d.replay (effective call.log)).flash = store d.flash 0 call.written := by
  obtain ⟨content, checksum, hexpand, hprefix, _⟩ := call.planned
  have small : 2 * content.length < 2^32 := by
    rw [← expand_length, hexpand]
    exact hsize
  rw [prefix_flash d small hprefix, hexpand]
  rfl

end Call

def updates (d : State) (calls : List Call) : State :=
  calls.foldl (fun d call => d.replay (effective call.log)) d

theorem updates_flash {calls : List Call} (hsize : ∀ call ∈ calls, call.image.length < 2^32)
    (d : State) : (updates d calls).flash =
      calls.foldl (fun flash call => store flash 0 call.written) d.flash := by
  induction calls generalizing d with
  | nil => rfl
  | cons call rest ih =>
    change (updates (d.replay (effective call.log)) rest).flash = _
    rw [ih (fun c hc => hsize c (.tail _ hc)), call.flash (hsize call (.head _))]
    rfl

/-- Where a byte of the flash comes from. -/
theorem stored_from (calls : List Call) (flash : ℕ → UInt8) (a : ℕ) :
    calls.foldl (fun flash call => store flash 0 call.written) flash a = flash a ∨
      ∃ call ∈ calls, ∃ h : a < call.image.length,
        calls.foldl (fun flash call => store flash 0 call.written) flash a = call.image[a] := by
  induction calls generalizing flash with
  | nil => exact .inl rfl
  | cons call rest ih =>
    rw [List.foldl_cons]
    rcases ih (store flash 0 call.written) with hkept | ⟨other, hother, h, hbyte⟩
    · rw [hkept]
      by_cases inside : a < call.written.length
      · have here := store_inside flash 0 a call.written inside
        rw [Nat.zero_add] at here
        have bound : a < call.image.length :=
          Nat.lt_of_lt_of_le inside (List.length_take_le' _ _)
        refine .inr ⟨call, .head _, bound, ?_⟩
        rw [here]
        exact List.getElem_take
      · exact .inl (store_outside flash call.written (.inr (by omega)))
    · exact .inr ⟨other, .tail _ hother, h, hbyte⟩

/-- After any series of calls the flash has the segments that they got through with, in order:
    each byte is an old one or that of an image at its own address, and the last image is
    there as a whole if its call returned. -/
theorem updates_recover {calls : List Call} (hsize : ∀ call ∈ calls, call.image.length < 2^32)
    (d : State) :
    (updates d calls).flash = calls.foldl (fun flash call => store flash 0 call.written) d.flash ∧
    (∀ a, (updates d calls).flash a = d.flash a ∨ ∃ call ∈ calls, ∃ h : a < call.image.length,
      (updates d calls).flash a = call.image[a]) ∧
    (∀ call ∈ calls, (call.Returns ↔ doneRequest ∈ effective call.log) ∧
      (call.Returns → call.written = call.image)) ∧
    ∀ earlier last, calls = earlier ++ [last] → last.Returns →
      ∀ i (h : i < last.image.length), (updates d calls).flash i = last.image[i] := by
  have flash := updates_flash hsize d
  refine ⟨flash, fun a => ?_, fun call _ => ⟨call.returns_iff, Call.written_image⟩, ?_⟩
  · rw [flash]
    exact stored_from calls d.flash a
  · rintro earlier last rfl hreturns i hi
    have inside := store_inside (earlier.foldl (fun flash call => store flash 0 call.written) d.flash)
      0 i last.image hi
    rw [Nat.zero_add] at inside
    rw [flash, List.foldl_append, List.foldl_cons, List.foldl_nil, Call.written_image hreturns, inside]

/-- A line that fails after five requests. -/
def brokenDevice : Device := fun log request =>
  if log.length < 5 then plainDevice log request else { apiRv := -1 }

def brokenCall : Call :=
  ⟨{ plainBus with device := fun _ _ _ => brokenDevice }, sameFile [9, 9, 9], plainRtu, "fw"⟩

def wholeCall : Call := ⟨plainBus, sameFile [1, 2, 3, 4, 5], plainRtu, "fw"⟩

theorem updates_recover_five : wholeCall.image = padded [1, 2, 3, 4, 5] ∧
    ∀ i (h : i < wholeCall.image.length),
      (updates ⟨fun _ => 0, fun _ => 0xFF, []⟩ [brokenCall, wholeCall]).flash i =
        wholeCall.image[i] := by
  have found : sameFile [1, 2, 3, 4, 5] (imageName plainDevice "fw") = some [1, 2, 3, 4, 5] := rfl
  have opened : openSlave plainBus plainRtu = .ok plainDevice := rfl
  have whole : wholeCall.image = padded [1, 2, 3, 4, 5] := Call.image_eq opened found
  have sizes : ∀ call ∈ [brokenCall, wholeCall], call.image.length < 2^32 := by
    have nines : brokenCall.image = padded [9, 9, 9] := 
      Call.image_eq (show openSlave brokenCall.bus brokenCall.rp = .ok brokenDevice from rfl) rfl
    rw [List.forall_mem_cons, List.forall_mem_singleton, nines, whole, padded_length, padded_length]
    decide
  obtain ⟨before, reply, hrun, _⟩ := flashUpdate_completes opened found plainDevice_conforming
    (fun half => absurd half.1 (by decide))
  exact ⟨whole, (updates_recover sizes _).2.2.2 [brokenCall] wholeCall rfl ⟨_, hrun⟩⟩

end ModbusCrawler.FlashRecovery
