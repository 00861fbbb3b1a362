import ModbusCrawler.FilePacking
import ModbusCrawler.FileTransfer

set_option autoImplicit false

/-!
# The requests of a flash update

`sendImage` as one list of steps: 'start', then for each segment of the image its
body and 'write_segment', then the totals and 'done'.
-/
namespace ModbusCrawler.FlashPlan
open FailStop ModbusTypes ModbusSlave ModbusOps

abbrev Body := List (Step Request Reply Exception)

def registerStep (register : FlashUpdateRegisters) (value : UInt16) :
    Step Request Reply Exception := holdingStep register.address value

def commandStep (command : FlashUpdateCommands) : Step Request Reply Exception :=
  registerStep .cmd command.code

def bufferStep (skip : ℕ) (regs : List UInt16) (numRegs : ℕ) : Step Request Reply Exception :=
  multipleStep (FlashUpdateRegisters.buffer.address + skip) (regs.drop skip) numRegs

def offsetSteps (flashOffset : UInt32) : Body :=
  [registerStep .offsetHigh (flashOffset >>> 16).toUInt16,
    registerStep .offsetLow flashOffset.toUInt16]

def lineBody (regs : List UInt16) (flashOffset : UInt32) : Body :=
  offsetSteps flashOffset ++ [bufferStep 0 regs modbusRegsAtOnce,
    bufferStep modbusRegsAtOnce regs modbusRegsAtOnce,
    registerStep .chunkLen (UInt16.ofNat flashLineBytes)]

def remainingBody (regs : List UInt16) (flashOffset : UInt32) (remainingBytes : ℕ) : Body :=
  let remainingRegs := (remainingBytes / 2) % modbusRegsAtOnce
  offsetSteps flashOffset ++ registerStep .chunkLen (UInt16.ofNat remainingBytes) ::
    (if remainingBytes / 2 / modbusRegsAtOnce ≠ 0 then
      [bufferStep 0 regs modbusRegsAtOnce, bufferStep modbusRegsAtOnce regs remainingRegs]
    else [bufferStep 0 regs remainingRegs])

theorem mem_lineBody {regs : List UInt16} {flashOffset : UInt32}
    {step : Step Request Reply Exception} : step ∈ lineBody regs flashOffset ↔
      step = registerStep .offsetHigh (flashOffset >>> 16).toUInt16 ∨
      step = registerStep .offsetLow flashOffset.toUInt16 ∨
      step = bufferStep 0 regs modbusRegsAtOnce ∨
      step = bufferStep modbusRegsAtOnce regs modbusRegsAtOnce ∨
      step = registerStep .chunkLen (UInt16.ofNat flashLineBytes) := by
  simp [lineBody, offsetSteps]

theorem mem_remainingBody {regs : List UInt16} {flashOffset : UInt32} {remainingBytes : ℕ}
    {step : Step Request Reply Exception} : step ∈ remainingBody regs flashOffset remainingBytes ↔
      step = registerStep .offsetHigh (flashOffset >>> 16).toUInt16 ∨
      step = registerStep .offsetLow flashOffset.toUInt16 ∨
      step = registerStep .chunkLen (UInt16.ofNat remainingBytes) ∨
      if remainingBytes / 2 / modbusRegsAtOnce ≠ 0 then
        step = bufferStep 0 regs modbusRegsAtOnce ∨
          step = bufferStep modbusRegsAtOnce regs (remainingBytes / 2 % modbusRegsAtOnce)
      else step = bufferStep 0 regs (remainingBytes / 2 % modbusRegsAtOnce) := by
  unfold remainingBody
  dsimp only
  split_ifs <;> simp [offsetSteps]

/-- The bodies of `left` full lines and of what remains after them. -/
def segmentBodies : (left : ℕ) → (regs : List UInt16) → UInt32 → List Body
  | 0, regs, flashOffset =>
    if regs.length * 2 % flashLineBytes ≠ 0 then
      [remainingBody regs flashOffset (regs.length * 2 % flashLineBytes)]
    else []
  | left + 1, regs, flashOffset => lineBody regs flashOffset ::
    segmentBodies left (regs.drop (2 * modbusRegsAtOnce)) (flashOffset + UInt32.ofNat flashLineBytes)

theorem drop_line {left : ℕ} {regs : List UInt16}
    (h : regs.length * 2 / flashLineBytes = left + 1) :
    (regs.drop (2 * modbusRegsAtOnce)).length * 2 / flashLineBytes = left ∧
      (regs.drop (2 * modbusRegsAtOnce)).length * 2 % flashLineBytes =
        regs.length * 2 % flashLineBytes := by
  have line : (regs.drop (2 * modbusRegsAtOnce)).length = regs.length - 128 := List.length_drop
  rw [line]
  change regs.length * 2 / 256 = left + 1 at h
  change (regs.length - 128) * 2 / 256 = left ∧
    (regs.length - 128) * 2 % 256 = regs.length * 2 % 256
  omega

def closed (body : Body) : Body := body ++ [commandStep .writeSegment]

def finalSteps (totalLenBytes : ℕ) (checksum : UInt32) : Body :=
  [registerStep .totalLenHigh (UInt16.ofNat (totalLenBytes >>> 16)),
    registerStep .totalLenLow (UInt16.ofNat totalLenBytes),
    registerStep .crc32High (checksum >>> 16).toUInt16,
    registerStep .crc32Low checksum.toUInt16]

def imageBodies (content : List UInt16) : List Body :=
  segmentBodies (content.length * 2 / flashLineBytes) content 0

def imageSteps (content : List UInt16) (checksum : UInt32) : Body :=
  commandStep .start :: (imageBodies content).flatMap closed ++
    finalSteps (content.length * 2) checksum ++ [commandStep .done]

section Equations
variable (rtuSlave : Device)

theorem setRegister_eq (register : FlashUpdateRegisters) (value : UInt16) :
    setRegister rtuSlave register value = runAll rtuSlave [registerStep register value] := by
  rw [runAll_singleton]
  exact writeHoldingRegister_eq rtuSlave register.address value

theorem sendCommand_eq (command : FlashUpdateCommands) :
    sendCommand rtuSlave command = runAll rtuSlave [commandStep command] :=
  setRegister_eq rtuSlave .cmd command.code

theorem bufferStep_eq (skip : ℕ) (regs : List UInt16) (numRegs : ℕ) :
    RTUSlave.writeMultipleRegistersPointer rtuSlave (FlashUpdateRegisters.buffer.address + skip)
      (regs.drop skip) numRegs = runAll rtuSlave [bufferStep skip regs numRegs] := by
  rw [runAll_singleton]
  exact writeMultipleRegistersPointer_eq rtuSlave _ _ _

theorem bufferStep_zero_eq (regs : List UInt16) (numRegs : ℕ) :
    RTUSlave.writeMultipleRegistersPointer rtuSlave FlashUpdateRegisters.buffer.address regs
      numRegs = runAll rtuSlave [bufferStep 0 regs numRegs] := by
  rw [← bufferStep_eq]
  simp

theorem flashRemaining_eq (regs : List UInt16) (flashOffset : UInt32) (remainingBytes : ℕ) :
    flashRemaining rtuSlave regs flashOffset remainingBytes =
      runAll rtuSlave (closed (remainingBody regs flashOffset remainingBytes)) := by
  unfold flashRemaining closed remainingBody offsetSteps
  dsimp only
  by_cases h : remainingBytes / 2 / modbusRegsAtOnce ≠ 0
  · rw [if_pos h, if_pos h]
    simp only [setRegister_eq, sendCommand_eq, bufferStep_zero_eq, bufferStep_eq, pure_bind,
      ← runAll_append]
    rfl
  · rw [if_neg h, if_neg h]
    simp only [setRegister_eq, sendCommand_eq, bufferStep_zero_eq, pure_bind, ← runAll_append]
    rfl

theorem flashLine_eq (regs : List UInt16) (flashOffset : UInt32) (left : ℕ) :
    flashLines rtuSlave (left + 1) regs flashOffset = (do
      runAll rtuSlave (closed (lineBody regs flashOffset))
      flashLines rtuSlave left (regs.drop (2 * modbusRegsAtOnce))
        (flashOffset + UInt32.ofNat flashLineBytes)) := by
  rw [flashLines]
  simp only [setRegister_eq, sendCommand_eq, bufferStep_zero_eq, bufferStep_eq, ← bind_assoc,
    ← runAll_append]
  rfl

/-- The loop over the full lines and the branch after it are the segments in order. -/
theorem flashSegments_eq (left : ℕ) (regs : List UInt16) (flashOffset : UInt32)
    (hleft : regs.length * 2 / flashLineBytes = left) : (do
      let next ← flashLines rtuSlave left regs flashOffset
      if regs.length * 2 % flashLineBytes ≠ 0 then
        flashRemaining rtuSlave next.1 next.2 (regs.length * 2 % flashLineBytes)) =
      runAll rtuSlave ((segmentBodies left regs flashOffset).flatMap closed) := by
  induction left generalizing regs flashOffset with
  | zero =>
    rw [flashLines, pure_bind, segmentBodies]
    dsimp only
    split_ifs
    · rw [flashRemaining_eq, List.flatMap_cons, List.flatMap_nil, List.append_nil]
    · rfl
  | succ left ih =>
    obtain ⟨hdiv, hmod⟩ := drop_line hleft
    rw [flashLine_eq, bind_assoc, segmentBodies, List.flatMap_cons, runAll_append,
      ← ih _ _ hdiv, hmod]

theorem sendImage_eq (content : List UInt16) (checksum : UInt32) :
    sendImage rtuSlave content checksum = runAll rtuSlave (imageSteps content checksum) := by
  unfold sendImage imageSteps imageBodies
  dsimp only
  rw [List.append_assoc, List.cons_append, ← List.singleton_append, runAll_append, runAll_append,
    ← flashSegments_eq rtuSlave _ content 0 rfl]
  simp only [setRegister_eq, sendCommand_eq, bind_assoc]
  congr 1
  funext _
  congr 1
  funext next
  split_ifs
  · simp only [← runAll_append]
    rfl
  · simp only [pure_bind, ← runAll_append]
    rfl

end Equations

end ModbusCrawler.FlashPlan
