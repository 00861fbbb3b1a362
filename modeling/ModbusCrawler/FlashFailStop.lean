import ModbusCrawler.FlashRuns

set_option autoImplicit false

/-!
# A failed flash update is never finalised

The commands of a run against what was acknowledged before them, for any
pattern of failing requests.
-/
namespace ModbusCrawler.FlashFailStop
open FailStop ModbusTypes ModbusSlave ModbusOps FileTransfer FlashPlan FlashDevice FlashUpdate
open FlashRuns

/-- A separator splits separated blocks at the end of one of them. -/
theorem split_at_separator {α : Type} {blocks : List (List α)} {sep : α}
    {before after rest : List α} (hblocks : ∀ block ∈ blocks, sep ∉ block) (hrest : sep ∉ rest)
    (h : before ++ sep :: after = blocks.flatMap (· ++ [sep]) ++ rest) :
    ∃ first block others, blocks = first ++ block :: others ∧
      before = first.flatMap (· ++ [sep]) ++ block := by
  induction blocks generalizing before with
  | nil =>
    refine absurd ?_ hrest
    change before ++ sep :: after = rest at h
    rw [← h]
    simp
  | cons block blocks ih =>
    rw [List.flatMap_cons, List.append_assoc, List.append_assoc, List.singleton_append] at h
    rcases List.append_eq_append_iff.mp h with ⟨as, hblock, htail⟩ | ⟨as, hbefore, htail⟩
    · cases as with
      | nil => exact ⟨[], block, blocks, rfl, by simpa using hblock.symm⟩
      | cons a as =>
        rw [List.cons_append] at htail
        injection htail with hsep _
        subst hsep
        refine absurd ?_ (hblocks block (by simp))
        rw [hblock]
        simp
    · cases as with
      | nil => exact ⟨[], block, blocks, rfl, by simpa using hbefore⟩
      | cons a as =>
        rw [List.cons_append] at htail
        injection htail with hsep hmore
        subst hsep
        obtain ⟨first, found, others, rfl, rfl⟩ :=
          ih (fun b hb => hblocks b (.tail _ hb)) hmore.symm
        refine ⟨block :: first, found, others, rfl, ?_⟩
        rw [hbefore, List.flatMap_cons]
        simp

def startRequest : Request := (commandStep .start).request

/-- What has to be in before a segment of `words` is committed at `offset`. -/
structure Prepared (since : Log Request Reply) (offset : ℕ) (words : List UInt16) : Prop where
  acknowledged : ∀ exchange ∈ since, Acknowledged exchange
  offsetHigh : .writeRegister FlashUpdateRegisters.offsetHigh.address
    (UInt16.ofNat (offset / 2^16)) ∈ since.map Prod.fst
  offsetLow : .writeRegister FlashUpdateRegisters.offsetLow.address (UInt16.ofNat offset) ∈
    since.map Prod.fst
  chunkLen : .writeRegister FlashUpdateRegisters.chunkLen.address
    (UInt16.ofNat (2 * words.length)) ∈ since.map Prod.fst
  buffer : ∀ i (h : i < words.length), ∃ (skip : ℕ) (nb : ℤ) (src : List UInt16), skip ≤ i ∧
    src[i - skip]? = some words[i] ∧
    .writeRegisters (FlashUpdateRegisters.buffer.address + skip) nb src ∈ since.map Prod.fst

/-- What has to be in before 'done' is sent. -/
structure Finalised (before : Log Request Reply) (content : List UInt16) (checksum : UInt32) :
    Prop where
  acknowledged : ∀ exchange ∈ before, Acknowledged exchange
  start : startRequest ∈ before.map Prod.fst
  committed : (before.map Prod.fst).count writeSegmentRequest = (segments 0 content).length
  totalLenHigh : .writeRegister FlashUpdateRegisters.totalLenHigh.address
    (UInt16.ofNat ((content.length * 2) >>> 16)) ∈ before.map Prod.fst
  totalLenLow : .writeRegister FlashUpdateRegisters.totalLenLow.address
    (UInt16.ofNat (content.length * 2)) ∈ before.map Prod.fst
  crc32High : .writeRegister FlashUpdateRegisters.crc32High.address
    (checksum >>> 16).toUInt16 ∈ before.map Prod.fst
  crc32Low : .writeRegister FlashUpdateRegisters.crc32Low.address checksum.toUInt16 ∈
    before.map Prod.fst

theorem Loads.prepared {body : Body} {offset : ℕ} {words : List UInt16}
    (h : Loads body (offset % 2^32) words) {since : Log Request Reply}
    (hsince : since.map Prod.fst = body.map Step.request)
    (hall : ∀ exchange ∈ since, Acknowledged exchange) : Prepared since offset words := by
  have sent {step : Step Request Reply Exception} (hstep : step ∈ body) :
      step.request ∈ since.map Prod.fst := by
    rw [hsince]
    exact List.mem_map_of_mem hstep
  have high : UInt16.ofNat (offset % 2^32 / 2^16) = UInt16.ofNat (offset / 2^16) := by
    apply UInt16.toNat_inj.mp
    rw [UInt16.toNat_ofNat', UInt16.toNat_ofNat']
    omega
  have low : UInt16.ofNat (offset % 2^32) = UInt16.ofNat offset := by
    apply UInt16.toNat_inj.mp
    rw [UInt16.toNat_ofNat', UInt16.toNat_ofNat']
    omega
  refine ⟨hall, ?_, ?_, sent h.chunkLen, ?_⟩
  · rw [← high]
    exact sent h.offsetHigh
  · rw [← low]
    exact sent h.offsetLow
  · intro i hi
    obtain ⟨skip, numRegs, hstep, hlo, hhi⟩ := h.sent i hi
    refine ⟨skip, numRegs, (words.drop skip).take numRegs, hlo, ?_, sent hstep⟩
    have inside : skip + (i - skip) = i := by omega
    rw [List.getElem?_take_of_lt (by omega), List.getElem?_drop, inside,
      List.getElem?_eq_getElem hi]

theorem count_blocks {blocks : List (List Request)}
    (h : ∀ block ∈ blocks, writeSegmentRequest ∉ block) :
    (blocks.flatMap (· ++ [writeSegmentRequest])).count writeSegmentRequest = blocks.length := by
  induction blocks with
  | nil => rfl
  | cons block blocks ih =>
    have head := List.count_eq_zero.mpr (h block (by simp))
    rw [List.flatMap_cons, List.count_append, List.count_append, head,
      ih (fun b hb => h b (.tail _ hb)), List.length_cons, List.count_singleton_self]
    omega

theorem body_quiet {body : Body} {offset : ℕ} {words : List UInt16} (h : Loads body offset words)
    {request : Request} (hmem : request ∈ body.map Step.request) : isCommand request = false := by
  obtain ⟨step, hstep, rfl⟩ := List.mem_map.mp hmem
  exact (h.inner step hstep).quiet

theorem closed_requests (bodies : List Body) :
    (bodies.flatMap closed).map Step.request =
      (bodies.map (List.map Step.request)).flatMap (· ++ [writeSegmentRequest]) := by
  induction bodies with
  | nil => rfl
  | cons body bodies ih =>
    rw [List.flatMap_cons, List.map_append, ih, List.map_cons, List.flatMap_cons, closed,
      List.map_append]
    rfl

theorem flashSteps_blocks (content : List UInt16) (checksum : UInt32) :
    (flashSteps content checksum).map Step.request = versionRequest :: startRequest ::
      (((imageBodies content).map (List.map Step.request)).flatMap (· ++ [writeSegmentRequest]) ++
        ((finalSteps (content.length * 2) checksum).map Step.request ++ [doneRequest])) := by
  rw [← closed_requests, ← List.append_assoc, ← List.map_append]
  simp only [flashSteps, imageSteps, List.map_cons, List.cons_append, List.map_append]
  rfl

theorem body_keeps_command (content : List UInt16) {command : Request}
    (hcommand : isCommand command = true) :
    ∀ block ∈ (imageBodies content).map (List.map Step.request), command ∉ block := by
  intro block hblock hmem
  obtain ⟨body, hbody, rfl⟩ := List.mem_map.mp hblock
  obtain ⟨_, _, loads⟩ := imageBodies_mem content hbody
  rw [body_quiet loads hmem] at hcommand
  cases hcommand

theorem split_at_writeSegment {content : List UInt16} {checksum : UInt32}
    {before after : List Request}
    (h : before ++ writeSegmentRequest :: after <+: (flashSteps content checksum).map Step.request) :
    ∃ first body others, imageBodies content = first ++ body :: others ∧
      before = versionRequest :: startRequest ::
        ((first.map (List.map Step.request)).flatMap (· ++ [writeSegmentRequest]) ++
          body.map Step.request) := by
  obtain ⟨more, hmore⟩ := h
  rw [flashSteps_blocks, List.append_assoc, List.cons_append] at hmore
  rcases before with _ | ⟨version, _ | ⟨start, before⟩⟩
  · injection hmore with hfirst _
    cases hfirst
  · injection hmore with _ htail
    injection htail with hsecond _
    cases hsecond
  · injection hmore with hversion htail
    injection htail with hstart hblocks
    have final : writeSegmentRequest ∉
        (finalSteps (content.length * 2) checksum).map Step.request ++ [doneRequest] := by
      intro hmem
      simp only [finalSteps, List.map_cons, List.map_nil, List.cons_append, List.nil_append,
        List.mem_cons, List.not_mem_nil, or_false] at hmem
      rcases hmem with h | h | h | h | h <;> cases h
    obtain ⟨first, block, others, hsplit, rfl⟩ :=
      split_at_separator (body_keeps_command content rfl) final hblocks
    obtain ⟨first, rest, hbodies, rfl, hrest⟩ := List.map_eq_append_iff.mp hsplit
    obtain ⟨body, others, rfl, rfl, _⟩ := List.map_eq_cons_iff.mp hrest
    exact ⟨first, body, others, hbodies, by rw [hversion, hstart]⟩

theorem last_command (blocks : List (List Request)) : ∃ earlier command,
    versionRequest :: startRequest :: blocks.flatMap (· ++ [writeSegmentRequest]) =
      earlier ++ [command] ∧ (command = startRequest ∨ command = writeSegmentRequest) := by
  rcases List.eq_nil_or_concat blocks with rfl | ⟨init, last, rfl⟩
  · exact ⟨[versionRequest], startRequest, rfl, .inl rfl⟩
  · refine ⟨versionRequest :: startRequest ::
      (init.flatMap (· ++ [writeSegmentRequest]) ++ last), writeSegmentRequest, ?_, .inr rfl⟩
    simp

/-- Everything acknowledged up to a 'write_segment' prepares the segment it commits. -/
theorem writeSegment_prepared {content : List UInt16} {checksum : UInt32}
    {before : Log Request Reply} {after : List Request}
    (hsent : before.map Prod.fst ++ writeSegmentRequest :: after <+:
      (flashSteps content checksum).map Step.request)
    (hall : ∀ exchange ∈ before, Acknowledged exchange) :
    ∃ offset words earlier command since,
      (segments 0 content)[(before.map Prod.fst).count writeSegmentRequest]? =
        some (offset, words) ∧
      before = earlier ++ command :: since ∧
      (command.1 = startRequest ∨ command.1 = writeSegmentRequest) ∧
      (∀ exchange ∈ since, isCommand exchange.1 = false) ∧ Prepared since offset words := by
  obtain ⟨first, body, others, hbodies, hbefore⟩ := split_at_writeSegment hsent
  have loads := imageBodies_loads content
  have index : first.length < (imageBodies content).length := by
    rw [hbodies, List.length_append, List.length_cons]
    omega
  have index' : first.length < (segments 0 content).length := by
    rw [← loads.length_eq]
    exact index
  have current := loads.get index index'
  have here : (imageBodies content).get ⟨first.length, index⟩ = body := by simp [hbodies]
  rw [here] at current
  have count : (before.map Prod.fst).count writeSegmentRequest = first.length := by
    have quiet : ∀ block ∈ first.map (List.map Step.request), writeSegmentRequest ∉ block := by
      intro block hblock
      refine body_keeps_command content rfl block ?_
      rw [hbodies, List.map_append]
      exact List.mem_append_left _ hblock
    have last : writeSegmentRequest ∉ body.map Step.request := fun hmem => by
      have command := body_quiet current hmem
      cases command
    rw [hbefore, List.count_cons_of_ne (by decide), List.count_cons_of_ne (by decide),
      List.count_append, count_blocks quiet, List.length_map, List.count_eq_zero.mpr last]
    rfl
  obtain ⟨earlier, command, hcommands, hcommand⟩ :=
    last_command (first.map (List.map Step.request))
  rw [← List.cons_append, ← List.cons_append, hcommands, List.append_assoc] at hbefore
  obtain ⟨left, right, rfl, _, hright⟩ := List.map_eq_append_iff.mp hbefore
  obtain ⟨exchange, since, rfl, rfl, htail⟩ := List.map_eq_cons_iff.mp hright
  have hsince : since.map Prod.fst = body.map Step.request := htail
  refine ⟨((segments 0 content).get ⟨first.length, index'⟩).1,
    ((segments 0 content).get ⟨first.length, index'⟩).2, left, exchange, since, ?_, rfl,
    hcommand, ?_, ?_⟩
  · rw [count, List.getElem?_eq_getElem index']
    rfl
  · intro e he
    refine body_quiet current ?_
    rw [← hsince]
    exact List.mem_map_of_mem he
  · exact Loads.prepared current hsince (fun e he => hall e (by simp [he]))

theorem done_finalised {content : List UInt16} {checksum : UInt32} {before : Log Request Reply}
    {after : List Request}
    (hsent : before.map Prod.fst ++ doneRequest :: after <+:
      (flashSteps content checksum).map Step.request)
    (hall : ∀ exchange ∈ before, Acknowledged exchange) :
    Finalised before content checksum := by
  obtain ⟨hbefore, _⟩ := split_at_done _ _ hsent
  have blocks : before.map Prod.fst = versionRequest :: startRequest ::
      (((imageBodies content).map (List.map Step.request)).flatMap (· ++ [writeSegmentRequest]) ++
        (finalSteps (content.length * 2) checksum).map Step.request) := by
    rw [hbefore, beforeDone, ← closed_requests]
    simp only [List.map_cons, List.cons_append, List.map_append]
    rfl
  have totals {step : Step Request Reply Exception}
      (hstep : step ∈ finalSteps (content.length * 2) checksum) :
      step.request ∈ before.map Prod.fst := by
    rw [blocks]
    exact .tail _ (.tail _ (List.mem_append_right _ (List.mem_map_of_mem hstep)))
  refine ⟨hall, ?_, ?_, totals (.head _), totals (.tail _ (.head _)),
    totals (.tail _ (.tail _ (.head _))), totals (.tail _ (.tail _ (.tail _ (.head _))))⟩
  · rw [blocks]
    exact .tail _ (.head _)
  · have final : ((finalSteps (content.length * 2) checksum).map Step.request).count
        writeSegmentRequest = 0 := by
      apply List.count_eq_zero.mpr
      intro hmem
      simp only [finalSteps, List.map_cons, List.map_nil, List.mem_cons, List.not_mem_nil,
        or_false] at hmem
      rcases hmem with h | h | h | h <;> cases h
    rw [blocks, List.count_cons_of_ne (by decide), List.count_cons_of_ne (by decide),
      List.count_append, count_blocks (body_keeps_command content rfl), final, List.length_map,
      (imageBodies_loads content).length_eq]
    rfl

section Runs
variable {bus bus' : Bus} {files : Files} {rp : RtuParameters} {filename : String}
variable {device device' : Device} {content : List UInt16} {checksum : UInt32}

theorem acknowledged_before (hopen : openSlave bus rp = .ok device)
    (hfile : Acknowledged (versionRequest, device [] versionRequest) →
      registersFromFile files (imageName device filename) = .ok (content, checksum))
    {before after : Log Request Reply} {exchange : Request × Reply}
    (hlog : finalLog (flashUpdate bus files rp filename) [] = before ++ exchange :: after) :
    (∀ earlier ∈ before, Acknowledged earlier) ∧ (¬ Acknowledged exchange → after = []) := by
  unfold finalLog at hlog
  rcases flashUpdate_cases hopen hfile with
    ⟨sent, hrun, _, hall⟩ | ⟨e, sent, bad, hrun, _, hall, hbad⟩
  · rw [hrun] at hlog
    subst hlog
    exact ⟨fun e he => hall e (by simp [he]), fun hfailed => absurd (hall exchange (by simp)) hfailed⟩
  · rw [hrun] at hlog
    rcases List.append_eq_append_iff.mp hlog with ⟨as, hbefore, htail⟩ | ⟨as, hsent, htail⟩
    · cases as with
      | nil =>
        injection htail with _ hafter
        subst hbefore
        exact ⟨fun e he => hall e (by simpa using he), fun _ => hafter.symm⟩
      | cons a as =>
        have := congrArg List.length htail
        simp at this
    · cases as with
      | nil =>
        injection htail with _ hafter
        exact ⟨fun e he => hall e (by simpa [hsent] using he), fun _ => hafter⟩
      | cons a as =>
        injection htail with ha _
        subst ha hsent
        exact ⟨fun e he => hall e (by simp [he]),
          fun hfailed => absurd (hall exchange (by simp)) hfailed⟩

theorem flashUpdate_throws_iff (hopen : openSlave bus rp = .ok device)
    (hfile : Acknowledged (versionRequest, device [] versionRequest) →
      registersFromFile files (imageName device filename) = .ok (content, checksum)) :
    (∃ e log, (flashUpdate bus files rp filename).run [] = .error e log) ↔
      ∃ exchange ∈ finalLog (flashUpdate bus files rp filename) [], ¬ Acknowledged exchange := by
  unfold finalLog
  rcases flashUpdate_cases hopen hfile with
    ⟨sent, hrun, _, hall⟩ | ⟨e, sent, bad, hrun, _, _, hbad⟩
  · rw [hrun]
    constructor
    · rintro ⟨e, log, h⟩
      cases h
    · rintro ⟨exchange, hmem, hfailed⟩
      exact absurd (hall exchange hmem) hfailed
  · rw [hrun]
    exact ⟨fun _ => ⟨bad, by simp, hbad⟩, fun _ => ⟨e, _, rfl⟩⟩

theorem returning_complete (hopen : openSlave bus rp = .ok device)
    (hfile : Acknowledged (versionRequest, device [] versionRequest) →
      registersFromFile files (imageName device filename) = .ok (content, checksum))
    {log : Log Request Reply} (hrun : (flashUpdate bus files rp filename).run [] = .ok () log) :
    log.map Prod.fst = (flashSteps content checksum).map Step.request ∧
      ∀ exchange ∈ log, Acknowledged exchange := by
  rcases flashUpdate_cases hopen hfile with ⟨sent, hsent, hcomplete⟩ | ⟨e, sent, bad, hthrows, _⟩
  · rw [hrun] at hsent
    cases hsent
    exact hcomplete
  · rw [hrun] at hthrows
    cases hthrows

/-- The requests are a prefix of those of any run that returns, for the same version. -/
theorem prefix_of_returning (hopen : openSlave bus rp = .ok device)
    (hopen' : openSlave bus' rp = .ok device') {free : Log Request Reply}
    (hversion : reg (device' [] versionRequest).regs 0 = reg (device [] versionRequest).regs 0)
    (hfree : (flashUpdate bus' files rp filename).run [] = .ok () free) :
    (finalLog (flashUpdate bus files rp filename) []).map Prod.fst <+: free.map Prod.fst := by
  have name : imageName device' filename = imageName device filename := by
    rw [imageName, imageName, hversion]
  obtain ⟨content, checksum, hfile'⟩ := flashUpdate_returns hopen' hfree
  rcases flashUpdate_cases hopen' (fun _ => hfile') with
    ⟨sent, hrun, hrequests, _⟩ | ⟨e, sent, bad, hrun, _⟩
  · rw [hfree] at hrun
    injection hrun with _ hsent
    rw [hsent, hrequests]
    exact flashUpdate_prefix hopen (fun _ => name ▸ hfile')
  · rw [hfree] at hrun
    cases hrun

theorem flashUpdate_failStop (hopen : openSlave bus rp = .ok device)
    (hfile : Acknowledged (versionRequest, device [] versionRequest) →
      registersFromFile files (imageName device filename) = .ok (content, checksum)) :
    (∀ (bus' : Bus) (device' : Device) (free : Log Request Reply),
      openSlave bus' rp = .ok device' →
      reg (device' [] versionRequest).regs 0 = reg (device [] versionRequest).regs 0 →
      (flashUpdate bus' files rp filename).run [] = .ok () free →
      (finalLog (flashUpdate bus files rp filename) []).map Prod.fst <+: free.map Prod.fst) ∧
    (∀ before exchange after,
      finalLog (flashUpdate bus files rp filename) [] = before ++ exchange :: after →
      ¬ Acknowledged exchange → after = []) ∧
    ((∃ e log, (flashUpdate bus files rp filename).run [] = .error e log) ↔
      ∃ exchange ∈ finalLog (flashUpdate bus files rp filename) [], ¬ Acknowledged exchange) ∧
    (∀ before reply after, finalLog (flashUpdate bus files rp filename) [] =
        before ++ (writeSegmentRequest, reply) :: after →
      ∃ offset words earlier command since,
        (segments 0 content)[(before.map Prod.fst).count writeSegmentRequest]? =
          some (offset, words) ∧
        before = earlier ++ command :: since ∧
        (command.1 = startRequest ∨ command.1 = writeSegmentRequest) ∧
        (∀ exchange ∈ since, isCommand exchange.1 = false) ∧ Prepared since offset words) ∧
    (∀ before reply after, finalLog (flashUpdate bus files rp filename) [] =
        before ++ (doneRequest, reply) :: after → Finalised before content checksum) ∧
    (∀ log, (flashUpdate bus files rp filename).run [] = .ok () log →
      log.map Prod.fst = (flashSteps content checksum).map Step.request ∧
        ∀ exchange ∈ log, Acknowledged exchange) := by
  have sent := flashUpdate_prefix hopen hfile
  refine ⟨?_, ?_, flashUpdate_throws_iff hopen hfile, ?_, ?_,
    fun _ => returning_complete hopen hfile⟩
  · intro bus' device' free hopen' hversion hfree
    exact prefix_of_returning hopen hopen' hversion hfree
  · intro before exchange after hlog
    exact (acknowledged_before hopen hfile hlog).2
  · intro before reply after hlog
    rw [hlog, List.map_append] at sent
    exact writeSegment_prepared sent (acknowledged_before hopen hfile hlog).1
  · intro before reply after hlog
    rw [hlog, List.map_append] at sent
    exact done_finalised sent (acknowledged_before hopen hfile hlog).1

end Runs

/-- A device that refuses the last command only. -/
def stubbornDevice : Device := fun log request =>
  if request = doneRequest then ⟨-1, [], "Slave device or server failure"⟩ else plainDevice log request

def stubbornBus : Bus := { plainBus with device := fun _ _ _ => stubbornDevice }

theorem flashUpdate_failStop_five :
    (∃ e log, (flashUpdate stubbornBus (sameFile [1, 2, 3, 4, 5]) plainRtu "fw").run [] =
      .error e log) ∧
    ∃ exchange ∈ finalLog (flashUpdate stubbornBus (sameFile [1, 2, 3, 4, 5]) plainRtu "fw") [],
      ¬ Acknowledged exchange := by
  obtain ⟨content, hfile, _⟩ := FilePacking.registersFromFile_ok
    (show sameFile [1, 2, 3, 4, 5] (imageName stubbornDevice "fw") = some _ from rfl)
  have hopen : openSlave stubbornBus plainRtu = .ok stubbornDevice := rfl
  have throws : ∃ e log, (flashUpdate stubbornBus (sameFile [1, 2, 3, 4, 5]) plainRtu "fw").run [] =
      .error e log := by
    have last (checksum : UInt32) : commandStep .done ∈ flashSteps content checksum :=
      List.mem_cons_of_mem _ (List.mem_append_right _ (List.mem_singleton_self _))
    have refused (log : Log Request Reply) :
        (commandStep .done).accepts (stubbornDevice log (commandStep .done).request) = false := rfl
    rw [flashUpdate_run hopen (fun _ => hfile)]
    exact runAll_throws stubbornDevice _ [] (last _) refused
  exact ⟨throws, (flashUpdate_failStop hopen (fun _ => hfile)).2.2.1.mp throws⟩

end ModbusCrawler.FlashFailStop
