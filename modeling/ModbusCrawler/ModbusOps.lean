import Mathlib.Data.Vector.Basic
import ModbusCrawler.ModbusSlave

set_option autoImplicit false

/-!
# The one-shot operations: `common/modbus_ops.cpp`

Log lines are left out. A file is the list of its bytes.
-/
namespace ModbusCrawler.ModbusOps
open CNumerals FailStop ModbusTypes ModbusSlave

abbrev Files := String → Option (List UInt8)

namespace CRC32

def polynomial : UInt32 := 0xEDB88320

/-- The inner loop of the constructor with `left` turns to go. -/
def tableLoop : (left : ℕ) → UInt32 → UInt32
  | 0, c => c
  | left + 1, c => tableLoop left (if c &&& 1 ≠ 0 then polynomial ^^^ (c >>> 1) else c >>> 1)

def table : Vector UInt32 256 := Vector.ofFn (fun i => tableLoop 8 (UInt32.ofNat i.val))

def lookup (i : UInt32) : UInt32 := table.toArray.getD i.toNat 0

/-- `update(initial, buf, len)`. -/
def updateBuf (initial : UInt32) (buf : List UInt8) : UInt32 :=
  (buf.foldl (fun c u => lookup ((c ^^^ u.toUInt32) &&& 0xFF) ^^^ (c >>> 8))
    (initial ^^^ 0xFFFFFFFF)) ^^^ 0xFFFFFFFF

/-- `update(initial, byte)`. -/
def update (initial : UInt32) (byte : UInt8) : UInt32 :=
  let c := initial ^^^ 0xFFFFFFFF
  let c := lookup ((c ^^^ byte.toUInt32) &&& 0xFF) ^^^ (c >>> 8)
  c ^^^ 0xFFFFFFFF

end CRC32

/-- The read loop over what the iterator has left. -/
def packLoop : List UInt8 → List UInt16 → UInt32 → List UInt16 × UInt32
  | [], content, crc => (content, crc)
  | [high], content, crc =>
    (content ++ [high.toUInt16 <<< 8 ||| (0 : UInt8).toUInt16],
      CRC32.update (CRC32.update crc high) 0)
  | high :: low :: it, content, crc =>
    packLoop it (content ++ [high.toUInt16 <<< 8 ||| low.toUInt16])
      (CRC32.update (CRC32.update crc high) low)

/-- The loop that makes the whole thing 4-byte aligned. -/
def alignLoop (content : List UInt16) (crc : UInt32) : List UInt16 × UInt32 :=
  if content.length % 2 ≠ 0 then
    alignLoop (content ++ [0]) (CRC32.update (CRC32.update crc 0) 0)
  else (content, crc)
termination_by content.length % 2
decreasing_by simp only [List.length_append, List.length_singleton]; omega

/-- The registers and `*maybe_crc`. -/
def registersFromFile (files : Files) (filename : String) :
    Except Exception (List UInt16 × UInt32) :=
  match files filename with
  | none => .error (.runtimeError ("invalid filename " ++ filename))
  | some bytes =>
    let (content, crc) := packLoop bytes [] 0
    .ok (alignLoop content crc)

def throwing {α : Type} : Except Exception α → Line α
  | .ok a => pure a
  | .error e => throw e

def openSlave (bus : Bus) (rp : RtuParameters) : Except Exception Device := do
  let line ← RTUSlave.serialLine rp.serialDevice rp.serialConfig
  RTUSlave.connect bus rp.slaveId line rp.answeringTime

/-- What `single_read` reports: the labelled registers of a raw read or a single value. -/
inductive Reading where
  | raw (lines : List (ℤ × UInt16))
  | single (address : ℤ) (val : Int64)
  deriving DecidableEq

/-- The labelling loop; `address + r * sizeof(uint16_t)` has 64 unsigned bits. -/
def rawLines (address : ℤ) (registers : List UInt16) : List (ℤ × UInt16) :=
  registers.mapIdx (fun r value => ((address + r * 2) % 2^64, value))

/-- `strtol` with base 0 as an `int`. -/
def strtolInt (s : String) : ℤ := (Int32.ofInt (strtoimax (cString s)).1).toInt

/-- `single_read`; `none` is the failing assertion on an empty specification. -/
def singleRead (bus : Bus) (rp : RtuParameters) (address : ℤ) (regspec : String) :
    Option (Line Reading) :=
  match regspec.toList with
  | [] => none
  | first :: rest => some (do
    let lastChar := (first :: rest).getLastD first
    if rest = [] ∨ (lastChar ≠ 'l' ∧ lastChar ≠ 'b' ∧ lastChar ≠ 'r') then
      throw (.invalidArgument ("invalid regsize specification: " ++ regspec))
    let regsize : ℤ := first.toNat - '0'.toNat
    if lastChar ≠ 'r' ∧ regsize ≠ 1 ∧ regsize ≠ 2 ∧ regsize ≠ 4 then
      throw (.invalidArgument "regsize must be 1, 2 or 4")
    let rtuSlave ← throwing (openSlave bus rp)
    if lastChar = 'r' then
      let numRegs := strtolInt regspec
      let registers ← RTUSlave.readHoldingRegistersVector rtuSlave address numRegs
      pure (.raw (rawLines address registers))
    else
      let wordEndianess : WordEndianess := if rest.head? = some 'l' then .little else .big
      let val ← RTUSlave.readHoldingRegisters rtuSlave address regsize wordEndianess
      pure (.single address val))

def singleWrite (bus : Bus) (rp : RtuParameters) (address value : ℤ) : Line Unit := do
  if value < 0 ∨ value > numericMax .uint16 then
    throw (.invalidArgument "invalid value: must be [0..65535]")
  let rtuSlave ← throwing (openSlave bus rp)
  RTUSlave.writeHoldingRegister rtuSlave address (UInt16.ofInt value)

def fileTransfer (bus : Bus) (files : Files) (rp : RtuParameters) (address : ℤ)
    (filename : String) : Line Unit := do
  let content ← throwing (registersFromFile files filename)
  let rtuSlave ← throwing (openSlave bus rp)
  RTUSlave.writeMultipleRegistersVector rtuSlave address content.1

inductive FlashUpdateRegisters where
  | requiredImageVersion | totalLenHigh | totalLenLow | crc32High | crc32Low
  | offsetHigh | offsetLow | chunkLen | buffer | cmd
  deriving DecidableEq, Repr

def FlashUpdateRegisters.address : FlashUpdateRegisters → ℤ
  | .requiredImageVersion => 2992
  | .totalLenHigh => 2993
  | .totalLenLow => 2994
  | .crc32High => 2995
  | .crc32Low => 2996
  | .offsetHigh => 2997
  | .offsetLow => 2998
  | .chunkLen => 2999
  | .buffer => 3000
  | .cmd => 3128

inductive FlashUpdateCommands where
  | start | writeSegment | done
  deriving DecidableEq, Repr

def FlashUpdateCommands.code : FlashUpdateCommands → UInt16
  | .start => 0xE05D
  | .writeSegment => 0xF1A5
  | .done => 0xD01E

def flashLineBytes : ℕ := 256

def modbusRegsAtOnce : ℕ := flashLineBytes / 2 / 2

section Update
variable (rtuSlave : Device)

def setRegister (register : FlashUpdateRegisters) (value : UInt16) : Line Unit :=
  RTUSlave.writeHoldingRegister rtuSlave register.address value

def sendCommand (command : FlashUpdateCommands) : Line Unit :=
  setRegister rtuSlave .cmd command.code

/-- The loop over the `left` full lines that are not sent yet; it returns the advanced
    `regs` and `flash_offset`. -/
def flashLines : (left : ℕ) → (regs : List UInt16) → (flashOffset : UInt32) →
    Line (List UInt16 × UInt32)
  | 0, regs, flashOffset => pure (regs, flashOffset)
  | left + 1, regs, flashOffset => do
    setRegister rtuSlave .offsetHigh (flashOffset >>> 16).toUInt16
    setRegister rtuSlave .offsetLow flashOffset.toUInt16
    let bufferOffset := FlashUpdateRegisters.buffer.address
    RTUSlave.writeMultipleRegistersPointer rtuSlave bufferOffset regs modbusRegsAtOnce
    RTUSlave.writeMultipleRegistersPointer rtuSlave (bufferOffset + modbusRegsAtOnce)
      (regs.drop modbusRegsAtOnce) modbusRegsAtOnce
    setRegister rtuSlave .chunkLen (UInt16.ofNat flashLineBytes)
    sendCommand rtuSlave .writeSegment
    flashLines left (regs.drop (2 * modbusRegsAtOnce)) (flashOffset + UInt32.ofNat flashLineBytes)

/-- The body of `if (remaining_bytes)`. -/
def flashRemaining (regs : List UInt16) (flashOffset : UInt32) (remainingBytes : ℕ) :
    Line Unit := do
  setRegister rtuSlave .offsetHigh (flashOffset >>> 16).toUInt16
  setRegister rtuSlave .offsetLow flashOffset.toUInt16
  setRegister rtuSlave .chunkLen (UInt16.ofNat remainingBytes)
  let remainingChunks := remainingBytes / 2 / modbusRegsAtOnce
  let remainingRegs := (remainingBytes / 2) % modbusRegsAtOnce
  let bufferOffset := FlashUpdateRegisters.buffer.address
  let (regs, bufferOffset) ← if remainingChunks ≠ 0 then do
      RTUSlave.writeMultipleRegistersPointer rtuSlave bufferOffset regs modbusRegsAtOnce
      pure (regs.drop modbusRegsAtOnce, bufferOffset + modbusRegsAtOnce)
    else pure (regs, bufferOffset)
  RTUSlave.writeMultipleRegistersPointer rtuSlave bufferOffset regs remainingRegs
  sendCommand rtuSlave .writeSegment

/-- Everything after the image was read. -/
def sendImage (content : List UInt16) (checksum : UInt32) : Line Unit := do
  let totalLenBytes := content.length * 2
  let fullLines := totalLenBytes / flashLineBytes
  sendCommand rtuSlave .start
  let (regs, flashOffset) ← flashLines rtuSlave fullLines content 0
  let remainingBytes := totalLenBytes % flashLineBytes
  if remainingBytes ≠ 0 then
    flashRemaining rtuSlave regs flashOffset remainingBytes
  setRegister rtuSlave .totalLenHigh (UInt16.ofNat (totalLenBytes >>> 16))
  setRegister rtuSlave .totalLenLow (UInt16.ofNat totalLenBytes)
  setRegister rtuSlave .crc32High (checksum >>> 16).toUInt16
  setRegister rtuSlave .crc32Low checksum.toUInt16
  sendCommand rtuSlave .done

end Update

def flashUpdate (bus : Bus) (files : Files) (rp : RtuParameters) (filename : String) :
    Line Unit := do
  let rtuSlave ← throwing (openSlave bus rp)
  let value ← RTUSlave.readHoldingRegisters rtuSlave
    FlashUpdateRegisters.requiredImageVersion.address 1 .little
  let requiredImageVersion := value.toUInt64.toUInt16
  let filename := filename ++ toString requiredImageVersion ++ ".bin"
  let (content, checksum) ← throwing (registersFromFile files filename)
  sendImage rtuSlave content checksum

end ModbusCrawler.ModbusOps
