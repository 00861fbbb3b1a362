import ModbusCrawler.FlashDevice

set_option autoImplicit false

/-!
# The run of a flash update

What `flashUpdate` sends, segment by segment, what the replayed device then
holds, and for which images it gets to the end.
-/
namespace ModbusCrawler.FlashUpdate
open BlockMemory FailStop ModbusTypes ModbusSlave ModbusOps FilePacking FileTransfer FlashPlan
open FlashDevice

/-- The flash lines of an image, with the flash address of the first. -/
def segments (offset : ℕ) (regs : List UInt16) : List (ℕ × List UInt16) :=
  (List.range ((regs.length + bufferSize - 1) / bufferSize)).map
    (fun j => (offset + flashLineBytes * j, (regs.drop (bufferSize * j)).take bufferSize))

def segmentBytes (segment : ℕ × List UInt16) : ℕ × List UInt8 := (segment.1, expand segment.2)

theorem segments_nil (offset : ℕ) : segments offset [] = [] := rfl

theorem segments_cons (offset : ℕ) (regs : List UInt16) (h : regs ≠ []) :
    segments offset regs = (offset, regs.take bufferSize) ::
      segments (offset + flashLineBytes) (regs.drop bufferSize) := by
  have hpos : 0 < regs.length := List.length_pos_iff.mpr h
  have count : (regs.length + bufferSize - 1) / bufferSize =
      ((regs.drop bufferSize).length + bufferSize - 1) / bufferSize + 1 := by
    rw [List.length_drop]
    change (regs.length + 128 - 1) / 128 = (regs.length - 128 + 128 - 1) / 128 + 1
    omega
  unfold segments
  rw [count, List.range_succ_eq_map, List.map_cons, List.map_map]
  congr 1
  apply List.map_congr_left
  intro j _
  change (offset + flashLineBytes * (j + 1), (regs.drop (bufferSize * (j + 1))).take bufferSize) = _
  rw [List.drop_drop, Nat.mul_succ, Nat.mul_succ, Nat.add_comm (bufferSize * j),
    Nat.add_comm (flashLineBytes * j), ← Nat.add_assoc]

theorem segments_short (offset : ℕ) {regs : List UInt16} (h : regs ≠ [])
    (hlen : regs.length ≤ bufferSize) : segments offset regs = [(offset, regs)] := by
  rw [segments_cons offset regs h, List.take_of_length_le hlen, List.drop_eq_nil_of_le hlen,
    segments_nil]

theorem segments_tiles (offset : ℕ) (regs : List UInt16) :
    Tiles offset ((segments offset regs).map segmentBytes) (offset + 2 * regs.length) ∧
      ((segments offset regs).map segmentBytes).flatMap Prod.snd = expand regs := by
  induction hn : regs.length using Nat.strong_induction_on generalizing offset regs with
  | _ n ih =>
    by_cases hnil : regs = []
    · subst hnil hn
      exact ⟨rfl, rfl⟩
    have hpos : 0 < regs.length := List.length_pos_iff.mpr hnil
    by_cases hshort : regs.length ≤ bufferSize
    · rw [segments_short offset hnil hshort]
      refine ⟨⟨rfl, ?_, ?_⟩, List.append_nil _⟩
      · intro empty
        have := congrArg List.length empty
        change (expand regs).length = 0 at this
        rw [expand_length] at this
        omega
      · change offset + (expand regs).length = _
        rw [expand_length, hn]
    · have lines : (regs.drop bufferSize).length = regs.length - 128 := List.length_drop
      change ¬ regs.length ≤ 128 at hshort
      obtain ⟨tiles, bytes⟩ := ih _ (by omega) (offset + flashLineBytes) (regs.drop bufferSize) rfl
      have line : (expand (regs.take bufferSize)).length = flashLineBytes := by
        rw [expand_length, List.length_take, Nat.min_eq_left (by change 128 ≤ _; omega)]
        rfl
      have last : offset + flashLineBytes + 2 * (regs.drop bufferSize).length = offset + 2 * n := by
        rw [lines]
        change offset + 256 + _ = _
        omega
      rw [segments_cons offset regs hnil, List.map_cons]
      refine ⟨⟨rfl, ?_, ?_⟩, ?_⟩
      · intro empty
        change expand (regs.take bufferSize) = [] at empty
        rw [empty] at line
        cases line
      · change Tiles (offset + (expand (regs.take bufferSize)).length) _ _
        rw [line, ← last]
        exact tiles
      · rw [List.flatMap_cons, bytes, segmentBytes, ← expand_append, List.take_append_drop]

theorem ofNat_line (offset : ℕ) : UInt32.ofNat offset + UInt32.ofNat flashLineBytes =
    UInt32.ofNat (offset + flashLineBytes) := (UInt32.ofNat_add _ _).symm

/-- Body by body, the plan loads the segments; the flash address wraps at 2^32. -/
theorem segmentBodies_loads (left offset : ℕ) (regs : List UInt16)
    (hleft : regs.length * 2 / flashLineBytes = left) :
    List.Forall₂ (fun body segment => Loads body (segment.1 % 2^32) segment.2)
      (segmentBodies left regs (UInt32.ofNat offset)) (segments offset regs) := by
  have wrap (offset : ℕ) : (UInt32.ofNat offset).toNat = offset % 2^32 := UInt32.toNat_ofNat'
  induction left generalizing offset regs with
  | zero =>
    change regs.length * 2 / 256 = 0 at hleft
    have short : regs.length < bufferSize := by
      change regs.length < 128
      omega
    have rest : regs.length * 2 % flashLineBytes = 2 * regs.length := by
      change regs.length * 2 % 256 = 2 * regs.length
      omega
    rw [segmentBodies, rest]
    by_cases hnil : regs = []
    · subst hnil
      exact .nil
    · have hpos : 0 < regs.length := List.length_pos_iff.mpr hnil
      rw [if_pos (by omega), segments_short offset hnil (Nat.le_of_lt short)]
      refine .cons ?_ .nil
      rw [← wrap]
      exact remainingBody_loads regs (UInt32.ofNat offset) short
  | succ left ih =>
    have hdiv := (drop_line hleft).1
    change regs.length * 2 / 256 = left + 1 at hleft
    have full : 2 * modbusRegsAtOnce ≤ regs.length := by
      change 128 ≤ regs.length
      omega
    have hnil : regs ≠ [] := List.length_pos_iff.mp (by omega)
    rw [segmentBodies, segments_cons offset regs hnil, ofNat_line]
    refine .cons ?_ (ih (offset + flashLineBytes) _ hdiv)
    rw [← wrap]
    exact lineBody_loads regs (UInt32.ofNat offset) full

theorem imageBodies_loads (content : List UInt16) :
    List.Forall₂ (fun body segment => Loads body (segment.1 % 2^32) segment.2)
      (imageBodies content) (segments 0 content) :=
  segmentBodies_loads _ 0 content rfl

theorem segments_offset_lt {offset : ℕ} {regs : List UInt16} {segment : ℕ × List UInt16}
    (h : segment ∈ segments offset regs) : segment.1 < offset + 2 * regs.length := by
  obtain ⟨j, hj, rfl⟩ := List.mem_map.mp h
  have hj := List.mem_range.mp hj
  change j < (regs.length + 128 - 1) / 128 at hj
  change offset + 256 * j < _
  omega

theorem receive_writeSegment (d : State) :
    d.receive (commandStep .writeSegment).request = d.writeSegment := rfl

theorem closed_replay (d : State) {body : Body} {segment : ℕ × List UInt16}
    (h : Loads body segment.1 segment.2) :
    (d.replay ((closed body).map Step.request)).flash =
        store d.flash segment.1 (segmentBytes segment).2 ∧
      (d.replay ((closed body).map Step.request)).committed =
        d.committed ++ [segmentBytes segment] := by
  unfold closed
  rw [List.map_append, State.replay_append, List.map_singleton, State.replay_cons,
    State.replay_nil, receive_writeSegment, (h.loaded d).writeSegment, h.flash, h.committed]
  exact ⟨rfl, rfl⟩

/-- After the loop every segment is committed, in order, and stored. -/
theorem bodies_replay (d : State) {bodies : List Body} {segments : List (ℕ × List UInt16)}
    (h : List.Forall₂ (fun body segment => Loads body segment.1 segment.2) bodies segments) :
    (d.replay ((bodies.flatMap closed).map Step.request)).flash =
        storeAll d.flash (segments.map segmentBytes) ∧
      (d.replay ((bodies.flatMap closed).map Step.request)).committed =
        d.committed ++ segments.map segmentBytes := by
  induction h generalizing d with
  | nil => exact ⟨rfl, (List.append_nil _).symm⟩
  | cons head _ ih =>
    obtain ⟨hflash, hcommitted⟩ := closed_replay d head
    obtain ⟨hflash', hcommitted'⟩ := ih (d.replay ((closed _).map Step.request))
    rw [List.flatMap_cons, List.map_append, State.replay_append, hflash', hcommitted', hflash,
      hcommitted, List.append_assoc]
    exact ⟨rfl, rfl⟩

theorem finalSteps_replay (d : State) (totalLenBytes : ℕ) (checksum : UInt32) :
    d.replay ((finalSteps totalLenBytes checksum).map Step.request) =
      d.latch FlashUpdateRegisters.totalLenHigh.address
        [UInt16.ofNat (totalLenBytes >>> 16), UInt16.ofNat totalLenBytes,
          (checksum >>> 16).toUInt16, checksum.toUInt16] := by
  have low := latch_append d [UInt16.ofNat (totalLenBytes >>> 16)] [UInt16.ofNat totalLenBytes]
    (show 0 ≤ FlashUpdateRegisters.totalLenHigh.address ∧ FlashUpdateRegisters.totalLenLow.address =
      FlashUpdateRegisters.totalLenHigh.address + 1 from ⟨by decide, rfl⟩)
  have high := latch_append d
    ([UInt16.ofNat (totalLenBytes >>> 16)] ++ [UInt16.ofNat totalLenBytes]) [(checksum >>> 16).toUInt16]
    (show 0 ≤ FlashUpdateRegisters.totalLenHigh.address ∧ FlashUpdateRegisters.crc32High.address =
      FlashUpdateRegisters.totalLenHigh.address + 2 from ⟨by decide, rfl⟩)
  change (((d.receive (registerStep .totalLenHigh _).request).receive
    (registerStep .totalLenLow _).request).receive (registerStep .crc32High _).request).receive
    (registerStep .crc32Low _).request = _
  rw [receive_register d _ (by decide),
    receive_register _ _ (by decide),
    receive_register _ _ (by decide),
    receive_register _ _ (by decide), low, high]
  exact latch_append d [_, _, _] [_] ⟨by decide, rfl⟩

theorem finalSteps_totalLen (d : State) (checksum : UInt32) {totalLenBytes : ℕ}
    (h : totalLenBytes < 2^32) :
    (d.replay ((finalSteps totalLenBytes checksum).map Step.request)).pair
      .totalLenHigh .totalLenLow = totalLenBytes := by
  rw [finalSteps_replay]
  have at_ := latch_inside d FlashUpdateRegisters.totalLenHigh.address
    [UInt16.ofNat (totalLenBytes >>> 16), UInt16.ofNat totalLenBytes,
      (checksum >>> 16).toUInt16, checksum.toUInt16]
  have high := at_ 0 (Nat.succ_pos _)
  have low := at_ 1 (by simp)
  change (State.register _ 2993).toNat * 2^16 + (State.register _ 2994).toNat = _
  change State.register _ 2993 = _ at high
  change State.register _ 2994 = _ at low
  rw [high, low]
  change (UInt16.ofNat (totalLenBytes >>> 16)).toNat * 2^16 +
    (UInt16.ofNat totalLenBytes).toNat = _
  rw [UInt16.toNat_ofNat', UInt16.toNat_ofNat', Nat.shiftRight_eq_div_pow]
  omega

theorem finalSteps_crc32 (d : State) (totalLenBytes : ℕ) (checksum : UInt32) :
    (d.replay ((finalSteps totalLenBytes checksum).map Step.request)).pair
      .crc32High .crc32Low = checksum.toNat := by
  rw [finalSteps_replay]
  have at_ := latch_inside d FlashUpdateRegisters.totalLenHigh.address
    [UInt16.ofNat (totalLenBytes >>> 16), UInt16.ofNat totalLenBytes,
      (checksum >>> 16).toUInt16, checksum.toUInt16]
  have high := at_ 2 (by simp)
  have low := at_ 3 (by simp)
  change (State.register _ 2995).toNat * 2^16 + (State.register _ 2996).toNat = _
  change State.register _ 2995 = _ at high
  change State.register _ 2996 = _ at low
  rw [high, low]
  exact offset_toNat checksum

def beforeDone (content : List UInt16) (checksum : UInt32) : Body :=
  commandStep .start :: (imageBodies content).flatMap closed ++
    finalSteps (content.length * 2) checksum

theorem imageSteps_eq (content : List UInt16) (checksum : UInt32) :
    imageSteps content checksum = beforeDone content checksum ++ [commandStep .done] := rfl

/-- A device that has the whole image when 'done' arrives. -/
structure HoldsImage (d : State) (image : List UInt8) : Prop where
  tiles : Tiles 0 d.committed image.length
  flash : ∀ i (h : i < image.length), d.flash i = image[i]
  totalLen : d.pair .totalLenHigh .totalLenLow = image.length
  checksum : d.pair .crc32High .crc32Low =
    (crc32 ((List.range image.length).map d.flash)).toNat

theorem beforeDone_holdsImage (d : State) (content : List UInt16) (checksum : UInt32)
    (hsize : 2 * content.length < 2^32) (hcommitted : d.committed = [])
    (hchecksum : checksum = crc32 (expand content)) :
    HoldsImage (d.replay ((beforeDone content checksum).map Step.request)) (expand content) := by
  have start : d.receive (commandStep .start).request = d := rfl
  have unwrapped : List.Forall₂ (fun body segment => Loads body segment.1 segment.2)
      (imageBodies content) (segments 0 content) := by
    refine (List.forall₂_iff_get.mpr ⟨(imageBodies_loads content).length_eq, ?_⟩)
    intro i hbody hsegment
    have loads := (imageBodies_loads content).get hbody hsegment
    have small := segments_offset_lt ((segments 0 content).get_mem ⟨i, hsegment⟩)
    rwa [Nat.mod_eq_of_lt (by omega)] at loads
  obtain ⟨tiles, bytes⟩ := segments_tiles 0 content
  rw [beforeDone, List.cons_append, List.map_cons, State.replay_cons, start, List.map_append,
    State.replay_append]
  obtain ⟨hflash, hcommitted'⟩ := bodies_replay d unwrapped
  generalize d.replay (((imageBodies content).flatMap closed).map Step.request) = sent
    at hflash hcommitted'
  have kept : (sent.replay ((finalSteps (content.length * 2) checksum).map Step.request)).flash =
      sent.flash := by rw [finalSteps_replay]; rfl
  have stored : ∀ i (h : i < (expand content).length), sent.flash i = (expand content)[i] := by
    intro i h
    have inside := store_inside d.flash 0 i (expand content) h
    rw [Nat.zero_add] at inside
    rw [hflash, storeAll_tiles _ tiles, bytes, inside]
  have whole : (List.range (expand content).length).map sent.flash = expand content := by
    apply List.ext_getElem
    · simp
    · intro i _ hi
      rw [List.getElem_map, List.getElem_range, stored i hi]
  refine ⟨?_, ?_, ?_, ?_⟩
  · rw [finalSteps_replay]
    change Tiles 0 sent.committed _
    rw [hcommitted', hcommitted, expand_length]
    rw [Nat.zero_add] at tiles
    exact tiles
  · rw [kept]
    exact stored
  · rw [finalSteps_totalLen sent checksum (by omega), expand_length, Nat.mul_comm]
  · rw [finalSteps_crc32, kept, whole, hchecksum]

end ModbusCrawler.FlashUpdate
