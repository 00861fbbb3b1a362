import ModbusCrawler.FlashPlan

set_option autoImplicit false

/-!
# The device of a flash update

The registers it latches, its segment buffer and its flash. Every body of the
plan loads one segment into such a device, and 'write_segment' commits it.
-/
namespace ModbusCrawler.FlashDevice
open BlockMemory FailStop ModbusTypes ModbusSlave ModbusOps FilePacking FileTransfer FlashPlan

structure State where
  register : ℕ → UInt16
  flash : ℕ → UInt8
  committed : List (ℕ × List UInt8)

def bufferSize : ℕ := 128

namespace State

def read (d : State) (register : FlashUpdateRegisters) : UInt16 :=
  d.register register.address.toNat

def pair (d : State) (high low : FlashUpdateRegisters) : ℕ :=
  (d.read high).toNat * 2^16 + (d.read low).toNat

def bufferWords (d : State) : List UInt16 :=
  (List.range bufferSize).map (fun i => d.register (FlashUpdateRegisters.buffer.address.toNat + i))

def latch (d : State) (address : ℤ) (words : List UInt16) : State :=
  { d with register := store d.register address.toNat words }

/-- The first `chunk_len` bytes of the buffer go to flash at the offset. -/
def writeSegment (d : State) : State :=
  let bytes := (expand d.bufferWords).take (d.read .chunkLen).toNat
  { d with
    flash := store d.flash (d.pair .offsetHigh .offsetLow) bytes
    committed := d.committed ++ [(d.pair .offsetHigh .offsetLow, bytes)] }

def receive (d : State) : Request → State
  | .writeRegister address value =>
    if address = FlashUpdateRegisters.cmd.address then
      if value = FlashUpdateCommands.writeSegment.code then d.writeSegment else d
    else if FlashUpdateRegisters.totalLenHigh.address ≤ address ∧
        address ≤ FlashUpdateRegisters.chunkLen.address then d.latch address [value]
    else d
  | .writeRegisters address _ src =>
    if FlashUpdateRegisters.buffer.address ≤ address ∧
        address + src.length ≤ FlashUpdateRegisters.cmd.address then d.latch address src
    else d
  | _ => d

def replay (d : State) (requests : List Request) : State := requests.foldl receive d

@[simp] theorem replay_nil (d : State) : d.replay [] = d := rfl

@[simp] theorem replay_cons (d : State) (request : Request) (rest : List Request) :
    d.replay (request :: rest) = (d.receive request).replay rest := rfl

theorem replay_append (d : State) (first second : List Request) :
    d.replay (first ++ second) = (d.replay first).replay second := List.foldl_append

end State

structure Loaded (d : State) (offset : ℕ) (words : List UInt16) : Prop where
  offset : d.pair .offsetHigh .offsetLow = offset
  chunkLen : (d.read .chunkLen).toNat = 2 * words.length
  size : words.length ≤ bufferSize
  buffer : ∀ i (h : i < words.length),
    d.register (FlashUpdateRegisters.buffer.address.toNat + i) = words[i]

theorem expand_take (content : List UInt16) (n : ℕ) :
    (expand content).take (2 * n) = expand (content.take n) := by
  induction content generalizing n with
  | nil => simp [expand]
  | cons r rest ih =>
    cases n with
    | zero => rfl
    | succ n =>
      change (r >>> 8).toUInt8 :: r.toUInt8 :: (expand rest).take (2 * n) = _
      rw [ih]
      rfl

theorem Loaded.bufferWords {d : State} {offset : ℕ} {words : List UInt16}
    (h : Loaded d offset words) : d.bufferWords.take words.length = words := by
  have hsize := h.size
  apply List.ext_getElem
  · simp only [State.bufferWords, List.length_take, List.length_map, List.length_range]
    omega
  · intro i _ hi
    simp only [State.bufferWords, List.getElem_take, List.getElem_map, List.getElem_range]
    exact h.buffer i hi

theorem Loaded.writeSegment {d : State} {offset : ℕ} {words : List UInt16}
    (h : Loaded d offset words) : d.writeSegment =
      { d with
        flash := store d.flash offset (expand words)
        committed := d.committed ++ [(offset, expand words)] } := by
  unfold State.writeSegment
  rw [h.chunkLen, expand_take, h.bufferWords, h.offset]

def InBuffer : Request → Prop
  | .writeRegisters address nb src => nb = src.length ∧
    FlashUpdateRegisters.buffer.address ≤ address ∧ address + nb ≤ FlashUpdateRegisters.cmd.address
  | _ => True

def isCommand : Request → Bool
  | .writeRegister address _ => address = FlashUpdateRegisters.cmd.address
  | _ => false

def isWrite : Request → Bool
  | .writeRegister _ _ | .writeRegisters _ _ _ => true
  | _ => false

/-- The steps a body is made of: writes, no command among them, and each is accepted
    exactly when its request is acknowledged. -/
structure Inner (step : Step Request Reply Exception) : Prop where
  write : isWrite step.request = true
  inBuffer : InBuffer step.request
  quiet : isCommand step.request = false
  checked : Checked step

/-- A body that sends one segment: what it does to any device, and which requests
    it consists of. -/
structure Loads (body : Body) (offset : ℕ) (words : List UInt16) : Prop where
  loaded : ∀ d : State, Loaded (d.replay (body.map Step.request)) offset words
  flash : ∀ d : State, (d.replay (body.map Step.request)).flash = d.flash
  committed : ∀ d : State, (d.replay (body.map Step.request)).committed = d.committed
  offsetHigh : registerStep .offsetHigh (UInt16.ofNat (offset / 2^16)) ∈ body
  offsetLow : registerStep .offsetLow (UInt16.ofNat offset) ∈ body
  chunkLen : registerStep .chunkLen (UInt16.ofNat (2 * words.length)) ∈ body
  sent : ∀ i < words.length, ∃ skip numRegs, bufferStep skip words numRegs ∈ body ∧
    skip ≤ i ∧ i < skip + numRegs
  inner : ∀ step ∈ body, Inner step

theorem latch_append (d : State) {address next : ℤ} (first second : List UInt16)
    (h : 0 ≤ address ∧ next = address + first.length) :
    (d.latch address first).latch next second = d.latch address (first ++ second) := by
  have same : next.toNat = address.toNat + first.length := by omega
  unfold State.latch
  dsimp only
  rw [same, store_append]

theorem latch_comm (d : State) {low high : ℤ} (first second : List UInt16) (hlo : 0 ≤ low)
    (h : low + first.length ≤ high) :
    (d.latch high second).latch low first = (d.latch low first).latch high second := by
  unfold State.latch
  dsimp only
  rw [store_comm _ first second (by omega)]

theorem receive_register (d : State) {register : FlashUpdateRegisters} (value : UInt16)
    (h : FlashUpdateRegisters.totalLenHigh.address ≤ register.address ∧
      register.address ≤ FlashUpdateRegisters.chunkLen.address) :
    d.receive (registerStep register value).request = d.latch register.address [value] := by
  have quiet : register.address ≠ FlashUpdateRegisters.cmd.address := by
    have last : FlashUpdateRegisters.chunkLen.address = 2999 := rfl
    have cmd : FlashUpdateRegisters.cmd.address = 3128 := rfl
    omega
  change (if register.address = FlashUpdateRegisters.cmd.address then _ else
    if _ then d.latch register.address [value] else d) = _
  rw [if_neg quiet, if_pos h]

theorem receive_buffer (d : State) (skip : ℕ) (regs : List UInt16) (numRegs : ℕ)
    (h : skip + numRegs ≤ bufferSize) : d.receive (bufferStep skip regs numRegs).request =
      d.latch (FlashUpdateRegisters.buffer.address + skip) ((regs.drop skip).take numRegs) := by
  have size : ((regs.drop skip).take numRegs).length ≤ numRegs := List.length_take_le _ _
  have low : FlashUpdateRegisters.buffer.address = 3000 := rfl
  have high : FlashUpdateRegisters.cmd.address = 3128 := rfl
  unfold bufferSize at h
  exact if_pos ⟨by omega, by omega⟩

/-- The registers of a segment, from the offset on: they are contiguous. -/
def segmentImage (offset : UInt32) (words : List UInt16) : List UInt16 :=
  (offset >>> 16).toUInt16 :: offset.toUInt16 :: UInt16.ofNat (2 * words.length) :: words

theorem offset_toNat (offset : UInt32) :
    (offset >>> 16).toUInt16.toNat * 2^16 + offset.toUInt16.toNat = offset.toNat := by
  have h := offset.toNat_lt
  rw [UInt32.toNat_toUInt16, UInt32.toNat_toUInt16, UInt32.toNat_shiftRight]
  change offset.toNat >>> 16 % 2^16 * 2^16 + offset.toNat % 2^16 = offset.toNat
  rw [Nat.shiftRight_eq_div_pow]
  omega

theorem latch_inside (d : State) (address : ℤ) (words : List UInt16) (i : ℕ)
    (h : i < words.length) : (d.latch address words).register (address.toNat + i) = words[i] :=
  store_inside _ _ _ _ h

theorem loaded_segmentImage (d : State) (offset : UInt32) (words : List UInt16)
    (h : words.length ≤ bufferSize) :
    Loaded (d.latch FlashUpdateRegisters.offsetHigh.address (segmentImage offset words))
      offset.toNat words := by
  have length : (segmentImage offset words).length = words.length + 3 := rfl
  have at_ (i : ℕ) (hi : i < (segmentImage offset words).length) :=
    latch_inside d FlashUpdateRegisters.offsetHigh.address (segmentImage offset words) i hi
  refine ⟨?_, ?_, h, ?_⟩
  · have high : State.read (d.latch FlashUpdateRegisters.offsetHigh.address
        (segmentImage offset words)) .offsetHigh = (offset >>> 16).toUInt16 :=
      at_ 0 (by omega)
    have low : State.read (d.latch FlashUpdateRegisters.offsetHigh.address
        (segmentImage offset words)) .offsetLow = offset.toUInt16 :=
      at_ 1 (by omega)
    rw [State.pair, high, low]
    exact offset_toNat offset
  · have chunk : State.read (d.latch FlashUpdateRegisters.offsetHigh.address
        (segmentImage offset words)) .chunkLen = UInt16.ofNat (2 * words.length) :=
      at_ 2 (by omega)
    rw [chunk]
    unfold bufferSize at h
    rw [UInt16.toNat_ofNat', Nat.mod_eq_of_lt (by omega)]
  · intro i hi
    have ha : FlashUpdateRegisters.buffer.address.toNat + i =
        FlashUpdateRegisters.offsetHigh.address.toNat + (i + 3) := by
      change 3000 + i = 2997 + (i + 3)
      omega
    rw [ha, at_ (i + 3) (by omega)]
    rfl

theorem offsetSteps_replay (d : State) (offset : UInt32) :
    d.replay ((offsetSteps offset).map Step.request) =
      d.latch FlashUpdateRegisters.offsetHigh.address
        [(offset >>> 16).toUInt16, offset.toUInt16] := by
  change (d.receive (registerStep .offsetHigh _).request).receive
    (registerStep .offsetLow _).request = _
  rw [receive_register d _ (by decide),
    receive_register _ _ (by decide)]
  exact latch_append d [_] [_] ⟨by decide, rfl⟩

theorem chunkLen_replay (d : State) (offset : UInt32) (value : UInt16) :
    (d.replay ((offsetSteps offset).map Step.request)).latch
        FlashUpdateRegisters.chunkLen.address [value] =
      d.latch FlashUpdateRegisters.offsetHigh.address
        [(offset >>> 16).toUInt16, offset.toUInt16, value] := by
  rw [offsetSteps_replay]
  exact latch_append d [_, _] [_] ⟨by decide, rfl⟩

theorem segment_replay (d : State) (offset : UInt32) (words : List UInt16) :
    (d.latch FlashUpdateRegisters.offsetHigh.address
        [(offset >>> 16).toUInt16, offset.toUInt16, UInt16.ofNat (2 * words.length)]).latch
        FlashUpdateRegisters.buffer.address words =
      d.latch FlashUpdateRegisters.offsetHigh.address (segmentImage offset words) :=
  latch_append d [_, _, _] words ⟨by decide, rfl⟩

theorem bufferSteps_replay (d : State) (regs : List UInt16) (numRegs : ℕ)
    (hregs : modbusRegsAtOnce ≤ regs.length) (hnum : numRegs ≤ modbusRegsAtOnce) :
    (d.receive (bufferStep 0 regs modbusRegsAtOnce).request).receive
        (bufferStep modbusRegsAtOnce regs numRegs).request =
      d.latch FlashUpdateRegisters.buffer.address (regs.take (modbusRegsAtOnce + numRegs)) := by
  have half : (regs.take modbusRegsAtOnce).length = modbusRegsAtOnce :=
    List.length_take_of_le hregs
  have room : modbusRegsAtOnce + numRegs ≤ bufferSize := Nat.add_le_add_left hnum _
  rw [receive_buffer d _ _ _ (by decide), receive_buffer _ _ _ _ room, List.take_add]
  exact latch_append d (regs.take modbusRegsAtOnce) _ ⟨by decide, by rw [half]; rfl⟩

theorem lineBody_replay (d : State) (regs : List UInt16) (offset : UInt32)
    (h : 2 * modbusRegsAtOnce ≤ regs.length) :
    d.replay ((lineBody regs offset).map Step.request) =
      d.latch FlashUpdateRegisters.offsetHigh.address
        (segmentImage offset (regs.take (2 * modbusRegsAtOnce))) := by
  have full : (regs.take (2 * modbusRegsAtOnce)).length = 2 * modbusRegsAtOnce :=
    List.length_take_of_le h
  unfold lineBody
  rw [List.map_append, State.replay_append]
  calc
    _ = ((d.replay ((offsetSteps offset).map Step.request)).latch
          FlashUpdateRegisters.buffer.address (regs.take (2 * modbusRegsAtOnce))).receive
            (registerStep .chunkLen (UInt16.ofNat flashLineBytes)).request := by
      rw [Nat.two_mul, ← bufferSteps_replay _ regs modbusRegsAtOnce (by omega) (le_refl _)]
      rfl
    _ = ((d.replay ((offsetSteps offset).map Step.request)).latch
          FlashUpdateRegisters.chunkLen.address [UInt16.ofNat flashLineBytes]).latch
            FlashUpdateRegisters.buffer.address (regs.take (2 * modbusRegsAtOnce)) := by
      rw [receive_register _ _ (by decide)]
      exact latch_comm _ [_] _ (by decide) (by decide)
    _ = _ := by
      rw [chunkLen_replay, ← segment_replay, full]
      rfl

theorem remainingBody_replay (d : State) (regs : List UInt16) (offset : UInt32)
    (h : regs.length < bufferSize) :
    d.replay ((remainingBody regs offset (2 * regs.length)).map Step.request) =
      d.latch FlashUpdateRegisters.offsetHigh.address (segmentImage offset regs) := by
  have words : 2 * regs.length / 2 = regs.length := by omega
  have lead : (d.replay ((offsetSteps offset).map Step.request)).receive
      (registerStep .chunkLen (UInt16.ofNat (2 * regs.length))).request =
      d.latch FlashUpdateRegisters.offsetHigh.address
        [(offset >>> 16).toUInt16, offset.toUInt16, UInt16.ofNat (2 * regs.length)] := by
    rw [receive_register _ _ (by decide), chunkLen_replay]
  unfold remainingBody
  dsimp only
  rw [words, List.map_append, State.replay_append]
  change State.replay ((d.replay _).receive
    (registerStep .chunkLen (UInt16.ofNat (2 * regs.length))).request) (List.map _ (ite _ _ _)) = _
  rw [lead, ← segment_replay]
  change regs.length < 128 at h
  by_cases hchunk : regs.length / modbusRegsAtOnce ≠ 0
  · rw [if_pos hchunk]
    change regs.length / 64 ≠ 0 at hchunk
    have all : modbusRegsAtOnce + regs.length % modbusRegsAtOnce = regs.length := by
      change 64 + regs.length % 64 = regs.length
      omega
    have tail : regs.length % modbusRegsAtOnce ≤ modbusRegsAtOnce :=
      Nat.le_of_lt (Nat.mod_lt _ (by decide))
    simp only [List.map_cons, List.map_nil, State.replay_cons, State.replay_nil]
    rw [bufferSteps_replay _ _ _ (by omega) tail, all, List.take_length]
  · rw [if_neg hchunk]
    change ¬ regs.length / 64 ≠ 0 at hchunk
    have all : regs.length % modbusRegsAtOnce = regs.length := by
      change regs.length % 64 = regs.length
      omega
    have room : 0 + regs.length ≤ bufferSize := by
      change 0 + regs.length ≤ 128
      omega
    simp only [all, List.map_cons, List.map_nil, State.replay_cons, State.replay_nil]
    rw [receive_buffer _ _ _ _ room, List.drop_zero, List.take_length]
    rfl

theorem hi_eq (offset : UInt32) :
    (offset >>> 16).toUInt16 = UInt16.ofNat (offset.toNat / 2^16) := by
  apply UInt16.toNat_inj.mp
  rw [UInt32.toNat_toUInt16, UInt32.toNat_shiftRight, UInt16.toNat_ofNat']
  change offset.toNat >>> 16 % 2^16 = offset.toNat / 2^16 % 2^16
  rw [Nat.shiftRight_eq_div_pow]

theorem lo_eq (offset : UInt32) : offset.toUInt16 = UInt16.ofNat offset.toNat := by
  apply UInt16.toNat_inj.mp
  rw [UInt32.toNat_toUInt16, UInt16.toNat_ofNat']

theorem bufferStep_take {skip numRegs n : ℕ} (regs : List UInt16) (h : skip + numRegs ≤ n) :
    bufferStep skip (regs.take n) numRegs = bufferStep skip regs numRegs := by
  have same : ((regs.take n).drop skip).take numRegs = (regs.drop skip).take numRegs := by
    rw [List.drop_take, List.take_take, Nat.min_eq_left (by omega)]
  unfold bufferStep multipleStep
  rw [same]

theorem registerStep_inner {register : FlashUpdateRegisters} (value : UInt16)
    (h : register ≠ .cmd) : Inner (registerStep register value) := by
  refine ⟨rfl, trivial, ?_, holdingStep_checked _ _⟩
  cases register <;> first | exact absurd rfl h | rfl

theorem bufferStep_inner {skip numRegs : ℕ} {regs : List UInt16}
    (hregs : skip + numRegs ≤ regs.length) (h : skip + numRegs ≤ bufferSize) :
    Inner (bufferStep skip regs numRegs) := by
  have length : ((regs.drop skip).take numRegs).length = numRegs := by
    rw [List.length_take, List.length_drop]
    omega
  have low : FlashUpdateRegisters.buffer.address = 3000 := rfl
  have high : FlashUpdateRegisters.cmd.address = 3128 := rfl
  unfold bufferSize at h
  exact ⟨rfl, ⟨by rw [length], by omega, by omega⟩, rfl, multipleStep_checked _ _ _⟩

/-- A body that leaves the image of its segment in the registers loads the segment. -/
theorem loads_of_latch {body : Body} {offset : UInt32} {words : List UInt16}
    (hlen : words.length ≤ bufferSize)
    (hreplay : ∀ d : State, d.replay (body.map Step.request) =
      d.latch FlashUpdateRegisters.offsetHigh.address (segmentImage offset words))
    (hhigh : registerStep .offsetHigh (offset >>> 16).toUInt16 ∈ body)
    (hlow : registerStep .offsetLow offset.toUInt16 ∈ body)
    (hchunk : registerStep .chunkLen (UInt16.ofNat (2 * words.length)) ∈ body)
    (hsent : ∀ i < words.length, ∃ skip numRegs, bufferStep skip words numRegs ∈ body ∧
      skip ≤ i ∧ i < skip + numRegs)
    (hinner : ∀ step ∈ body, Inner step) : Loads body offset.toNat words where
  loaded d := by
    rw [hreplay]
    exact loaded_segmentImage d offset words hlen
  flash d := by
    rw [hreplay]
    rfl
  committed d := by
    rw [hreplay]
    rfl
  offsetHigh := by rwa [← hi_eq]
  offsetLow := by rwa [← lo_eq]
  chunkLen := hchunk
  sent := hsent
  inner := hinner

theorem lineBody_loads (regs : List UInt16) (offset : UInt32)
    (h : 2 * modbusRegsAtOnce ≤ regs.length) :
    Loads (lineBody regs offset) offset.toNat (regs.take (2 * modbusRegsAtOnce)) := by
  have full : (regs.take (2 * modbusRegsAtOnce)).length = 2 * modbusRegsAtOnce :=
    List.length_take_of_le h
  have once : modbusRegsAtOnce = 64 := rfl
  apply loads_of_latch (le_of_eq full) (fun d => lineBody_replay d regs offset h)
  · exact mem_lineBody.mpr (.inl rfl)
  · exact mem_lineBody.mpr (.inr (.inl rfl))
  · rw [full, mem_lineBody]
    exact .inr (.inr (.inr (.inr rfl)))
  · intro i hi
    by_cases hfirst : i < modbusRegsAtOnce
    · refine ⟨0, modbusRegsAtOnce, ?_, by omega, by omega⟩
      rw [bufferStep_take regs (by omega), mem_lineBody]
      exact .inr (.inr (.inl rfl))
    · refine ⟨modbusRegsAtOnce, modbusRegsAtOnce, ?_, by omega, by omega⟩
      rw [bufferStep_take regs (by omega), mem_lineBody]
      exact .inr (.inr (.inr (.inl rfl)))
  · intro step hstep
    rcases mem_lineBody.mp hstep with rfl | rfl | rfl | rfl | rfl
    · exact registerStep_inner _ (by decide)
    · exact registerStep_inner _ (by decide)
    · exact bufferStep_inner (by omega) (by decide)
    · exact bufferStep_inner (by omega) (by decide)
    · exact registerStep_inner _ (by decide)

theorem remainingBody_loads (regs : List UInt16) (offset : UInt32)
    (h : regs.length < bufferSize) :
    Loads (remainingBody regs offset (2 * regs.length)) offset.toNat regs := by
  have words : 2 * regs.length / 2 = regs.length := by omega
  have once : modbusRegsAtOnce = 64 := rfl
  have size : bufferSize = 128 := rfl
  apply loads_of_latch (Nat.le_of_lt h) (fun d => remainingBody_replay d regs offset h)
  · exact mem_remainingBody.mpr (.inl rfl)
  · exact mem_remainingBody.mpr (.inr (.inl rfl))
  · exact mem_remainingBody.mpr (.inr (.inr (.inl rfl)))
  · intro i hi
    simp only [mem_remainingBody, words]
    by_cases hchunk : regs.length / modbusRegsAtOnce ≠ 0
    · simp only [if_pos hchunk]
      change regs.length / 64 ≠ 0 at hchunk
      by_cases hfirst : i < modbusRegsAtOnce
      · exact ⟨0, modbusRegsAtOnce, .inr (.inr (.inr (.inl rfl))), by omega, by omega⟩
      · refine ⟨modbusRegsAtOnce, regs.length % modbusRegsAtOnce,
          .inr (.inr (.inr (.inr rfl))), by omega, ?_⟩
        change i < 64 + regs.length % 64
        omega
    · simp only [if_neg hchunk]
      refine ⟨0, regs.length % modbusRegsAtOnce, .inr (.inr (.inr rfl)), by omega, ?_⟩
      change ¬ regs.length / 64 ≠ 0 at hchunk
      change i < 0 + regs.length % 64
      omega
  · intro step hstep
    rw [mem_remainingBody, words] at hstep
    rcases hstep with rfl | rfl | rfl | hbuffer
    · exact registerStep_inner _ (by simp)
    · exact registerStep_inner _ (by simp)
    · exact registerStep_inner _ (by simp)
    split_ifs at hbuffer with hchunk
    · have more : modbusRegsAtOnce + regs.length % modbusRegsAtOnce ≤ regs.length := by
        change regs.length / 64 ≠ 0 at hchunk
        change 64 + regs.length % 64 ≤ regs.length
        omega
      rcases hbuffer with rfl | rfl
      · exact bufferStep_inner (by omega) (by omega)
      · exact bufferStep_inner more (by omega)
    · have less : regs.length % modbusRegsAtOnce ≤ regs.length := Nat.mod_le _ _
      rw [hbuffer]
      exact bufferStep_inner (by omega) (by omega)

end ModbusCrawler.FlashDevice
