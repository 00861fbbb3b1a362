import ModbusCrawler.CNumerals
import ModbusCrawler.FailStop
import ModbusCrawler.ModbusTypes

set_option autoImplicit false

/-!
# The slaves: `common/modbus_slave.hpp`

A call into libmodbus is one request on the line. The device, with the library
in front of it, answers from everything that was exchanged before, so a
`Device` is any pattern of successes and failures.
-/
namespace ModbusCrawler.ModbusSlave
open CNumerals FailStop ModbusTypes

inductive Request where
  | readInputRegisters (address nb : ℤ)
  | readRegisters (address nb : ℤ)
  | writeRegister (address : ℤ) (value : UInt16)
  | writeRegisters (address nb : ℤ) (src : List UInt16)
  deriving DecidableEq, Repr

/-- The return value of the call, the words a read stored and `modbus_strerror(errno)`. -/
structure Reply where
  apiRv : Int32
  regs : List UInt16 := []
  strerror : String := ""
  deriving DecidableEq, Repr

abbrev Device := Peer Request Reply
abbrev Line := Script Request Reply Exception

def modbusMaxReadRegisters : ℕ := 125
def modbusMaxWriteRegisters : ℕ := 123

/-- The conversion of an `int` that is compared with a `size_t`. -/
def toSizeT (v : ℤ) : ℤ := v % 2^64

def regsizeSupported (regsize : ℤ) : Bool := regsize == 1 || regsize == 2 || regsize == 4

def reg (regs : List UInt16) (i : ℕ) : UInt16 := regs.getD i 0

/-- `to_val(regs, regsize, word_le_tag)`; `none` is the failing assertion. -/
def toValLe (regs : List UInt16) (regsize : ℤ) : Option Int64 :=
  if regsize = 1 then some (reg regs 0).toInt16.toInt64
  else if regsize = 2 then
    some (((reg regs 1).toUInt32.toInt32 <<< 16) ||| (reg regs 0).toUInt32.toInt32).toInt64
  else if regsize = 4 then
    some (((reg regs 3).toUInt64.toInt64 <<< 48) ||| ((reg regs 2).toUInt64.toInt64 <<< 32) |||
      ((reg regs 1).toUInt64.toInt64 <<< 16) ||| (reg regs 0).toUInt64.toInt64)
  else none

def toValBe (regs : List UInt16) (regsize : ℤ) : Option Int64 :=
  if regsize = 1 then some (reg regs 0).toInt16.toInt64
  else if regsize = 2 then
    some (((reg regs 0).toUInt32.toInt32 <<< 16) ||| (reg regs 1).toUInt32.toInt32).toInt64
  else if regsize = 4 then
    some (((reg regs 0).toUInt64.toInt64 <<< 48) ||| ((reg regs 1).toUInt64.toInt64 <<< 32) |||
      ((reg regs 2).toUInt64.toInt64 <<< 16) ||| (reg regs 3).toUInt64.toInt64)
  else none

def toVal (endianess : WordEndianess) (regs : List UInt16) (regsize : ℤ) : Option Int64 :=
  if endianess = .little then toValLe regs regsize else toValBe regs regsize

/-- `std::getline(iss, elem, ':')` until the stream is exhausted: a separator at the
    very end opens no further part. -/
def getlineParts : List Char → List Char → List (List Char)
  | [], [] => []
  | elem, [] => [elem]
  | elem, ':' :: rest => elem :: getlineParts [] rest
  | elem, c :: rest => getlineParts (elem ++ [c]) rest

structure SlaveConcept (σ : Type) where
  id : ℤ
  name : String
  readInputRegisters : (address regsize : ℤ) → WordEndianess → EStateM Exception σ Int64
  readHoldingRegisters : (address regsize : ℤ) → WordEndianess → EStateM Exception σ Int64

structure SerialLine where
  device : String
  bps : ℤ
  dataBits : ℤ
  parity : UInt8
  stopBits : ℤ
  deriving DecidableEq, Repr

/-- libmodbus and the serial lines: which contexts can be created and connected, and
    the device that then answers for a server. -/
structure Bus where
  newRtu : SerialLine → Bool
  connectFailure : SerialLine → (serverId : ℤ) → Option String
  device : SerialLine → (serverId answeringTime : ℤ) → Device

namespace RandomSlave
variable {D R : Type} [Doubles D]

/-- The constructor of `random_params`. -/
def randomParams (stod : String → Except Exception D) (randomConfig : String) :
    Except Exception (D × D) :=
  match getlineParts [] randomConfig.toList with
  | [mean, stdev] => do
    let mean ← stod (String.ofList mean)
    let stdev ← stod (String.ofList stdev)
    pure (mean, stdev)
  | _ => .error (.invalidArgument ("Invalid random config: " ++ randomConfig))

/-- `draw` is the normal distribution with its engine. -/
def readInputRegisters (draw : D → D → R → D × R) (fakeRegisters : Std.TreeMap ℤ (D × D) compare)
    (address _regsize : ℤ) (_endianess : WordEndianess) : EStateM Exception R Int64 := do
  match fakeRegisters[address]? with
  | none =>
    throw (.runtimeError ("no random source configured for address " ++ toString address))
  | some (mean, stdev) =>
    let engine ← get
    let (value, engine) := draw mean stdev engine
    set engine
    pure (Int64.ofInt (Doubles.toInt value))

def readHoldingRegisters (draw : D → D → R → D × R)
    (fakeRegisters : Std.TreeMap ℤ (D × D) compare) (address _regsize : ℤ)
    (_endianess : WordEndianess) : EStateM Exception R Int64 :=
  readInputRegisters draw fakeRegisters address 0 .little

def concept (draw : D → D → R → D × R) (fakeRegisters : Std.TreeMap ℤ (D × D) compare) (id : ℤ)
    (name : String) : SlaveConcept R where
  id := id
  name := name
  readInputRegisters := readInputRegisters draw fakeRegisters
  readHoldingRegisters := readHoldingRegisters draw fakeRegisters

end RandomSlave

namespace RTUSlave

def stoiPart (part : List Char) : Except Exception ℤ :=
  match stoi (String.ofList part) with
  | .ok n => .ok n
  | .error .noConversion => .error (.invalidArgument "stoi")
  | .error .outOfRange => .error (.outOfRange "stoi")

/-- `part[0]`: a `char` of the source is a byte of the UTF-8 text, and NUL ends it. -/
def firstByte (part : List Char) : UInt8 := (part.flatMap String.utf8EncodeChar).headD 0

/-- `serial_line(device, line_config)` with `unpack_line_config`. -/
def serialLine (device lineConfig : String) : Except Exception SerialLine :=
  match getlineParts [] lineConfig.toList with
  | [bps, dataBits, parity, stopBits] => do
    let bps ← stoiPart bps
    let dataBits ← stoiPart dataBits
    let stopBits ← stoiPart stopBits
    pure ⟨device, bps, dataBits, firstByte parity, stopBits⟩
  | _ => .error (.invalidArgument ("Invalid line config: " ++ lineConfig))

/-- The constructor: the connected device, or what it throws. -/
def connect (bus : Bus) (serverId : ℤ) (line : SerialLine) (answeringTime : ℤ) :
    Except Exception Device :=
  if !bus.newRtu line then
    .error (.runtimeError ("Failed creating ctx for device " ++ line.device))
  else match bus.connectFailure line serverId with
    | some strerror => .error (.runtimeError ("Failed modbus_connect: " ++ strerror))
    | none => .ok (bus.device line serverId answeringTime)

def readTyped (device : Device) (call : ℤ → ℤ → Request) (callName : String)
    (address regsize : ℤ) (endianess : WordEndianess) : Line Int64 := do
  if !regsizeSupported regsize then
    throw (.invalidArgument ("Invalid regsize: " ++ toString regsize))
  let reply ← ask device (call address regsize)
  if reply.apiRv.toInt ≠ regsize then
    throw (.runtimeError ("Failed " ++ callName ++ ": " ++ reply.strerror))
  match toVal endianess reply.regs regsize with
  | some val => pure val
  | none => throw (.invalidArgument "regsize not supported")

def readInputRegisters (device : Device) : (address regsize : ℤ) → WordEndianess → Line Int64 :=
  readTyped device .readInputRegisters "modbus_read_input_registers"

def readHoldingRegisters (device : Device) : (address regsize : ℤ) → WordEndianess → Line Int64 :=
  readTyped device .readRegisters "modbus_read_registers"

/-- The raw overload; a vector cannot have the size that a negative count converts to. -/
def readHoldingRegistersVector (device : Device) (address regsize : ℤ) : Line (List UInt16) := do
  if regsize < 0 then
    throw (.lengthError "cannot create std::vector larger than max_size()")
  let reply ← ask device (.readRegisters address regsize)
  if reply.apiRv.toInt ≠ regsize then
    throw (.runtimeError ("Failed modbus_read_registers: " ++ reply.strerror))
  pure ((List.range regsize.toNat).map (reg reply.regs))

def writeHoldingRegister (device : Device) (address : ℤ) (value : UInt16) : Line Unit := do
  let reply ← ask device (.writeRegister address value)
  if reply.apiRv.toInt ≠ 1 then
    throw (.runtimeError ("Failed modbus_write_register: " ++ reply.strerror))

/-- The loop of the vector overload over the `left` chunks that are not sent yet;
    it returns the advanced `address` and `regs`. -/
def writeChunks (device : Device) : (left chunk : ℕ) → ℤ → List UInt16 →
    Line (ℤ × List UInt16)
  | 0, _, address, regs => pure (address, regs)
  | left + 1, chunk, address, regs => do
    let reply ← ask device (.writeRegisters address modbusMaxWriteRegisters
      (regs.take modbusMaxWriteRegisters))
    if reply.apiRv.toInt ≠ modbusMaxWriteRegisters then
      throw (.runtimeError ("Failed modbus_write_registers chunk #" ++ toString chunk ++ ": " ++
        reply.strerror))
    writeChunks device left (chunk + 1) (address + modbusMaxWriteRegisters)
      (regs.drop modbusMaxWriteRegisters)

def writeMultipleRegistersVector (device : Device) (address : ℤ) (registers : List UInt16) :
    Line Unit := do
  let chunks := registers.length / modbusMaxWriteRegisters
  let remaining := registers.length % modbusMaxWriteRegisters
  let (address, regs) ← writeChunks device chunks 0 address registers
  let reply ← ask device (.writeRegisters address remaining (regs.take remaining))
  if toSizeT reply.apiRv.toInt ≠ remaining then
    throw (.runtimeError ("Failed modbus_write_registers remaining: " ++ reply.strerror))

/-- The pointer overload; `regs` is the vector from the pointer on. -/
def writeMultipleRegistersPointer (device : Device) (address : ℤ) (regs : List UInt16)
    (numRegs : ℕ) : Line Unit := do
  let reply ← ask device (.writeRegisters address numRegs (regs.take numRegs))
  if reply.apiRv.toInt ≠ numRegs then
    throw (.runtimeError ("Failed modbus_write_registers: " ++ reply.strerror))

def concept (device : Device) (id : ℤ) (name : String) : SlaveConcept (Log Request Reply) where
  id := id
  name := name
  readInputRegisters := readInputRegisters device
  readHoldingRegisters := readHoldingRegisters device

end RTUSlave

theorem readTyped_run (device : Device) (call : ℤ → ℤ → Request) (callName : String)
    (address regsize : ℤ) (endianess : WordEndianess) (log : Log Request Reply)
    (hsize : regsizeSupported regsize = true) :
    (RTUSlave.readTyped device call callName address regsize endianess).run log =
      let reply := device log (call address regsize)
      let log' := log ++ [(call address regsize, reply)]
      if reply.apiRv.toInt = regsize then
        match toVal endianess reply.regs regsize with
        | some val => .ok val log'
        | none => .error (.invalidArgument "regsize not supported") log'
      else .error (.runtimeError ("Failed " ++ callName ++ ": " ++ reply.strerror)) log' := by
  unfold RTUSlave.readTyped toVal
  simp only [hsize, Bool.not_true, Bool.false_eq_true, if_false, EStateM.run_bind, ask_run]
  by_cases h : (device log (call address regsize)).apiRv.toInt = regsize
  · simp only [h, ne_eq, not_true_eq_false, if_false, if_true]
    generalize (if endianess = .little then _ else _ : Option Int64) = val
    cases val <;> rfl
  · simp only [h, ne_eq, not_false_eq_true, if_false, if_true]
    rfl

/-! The requests of the three writes, as steps that stop a script on failure. -/

def holdingStep (address : ℤ) (value : UInt16) : Step Request Reply Exception where
  request := .writeRegister address value
  accepts reply := reply.apiRv.toInt = 1
  failure reply := .runtimeError ("Failed modbus_write_register: " ++ reply.strerror)

def multipleStep (address : ℤ) (regs : List UInt16) (numRegs : ℕ) :
    Step Request Reply Exception where
  request := .writeRegisters address numRegs (regs.take numRegs)
  accepts reply := reply.apiRv.toInt = numRegs
  failure reply := .runtimeError ("Failed modbus_write_registers: " ++ reply.strerror)

theorem writeHoldingRegister_eq (device : Device) (address : ℤ) (value : UInt16) :
    RTUSlave.writeHoldingRegister device address value = (holdingStep address value).run device := by
  unfold RTUSlave.writeHoldingRegister Step.run
  congr 1
  funext reply
  by_cases h : reply.apiRv.toInt = 1 <;> simp [holdingStep, h]

theorem writeMultipleRegistersPointer_eq (device : Device) (address : ℤ) (regs : List UInt16)
    (numRegs : ℕ) : RTUSlave.writeMultipleRegistersPointer device address regs numRegs =
      (multipleStep address regs numRegs).run device := by
  unfold RTUSlave.writeMultipleRegistersPointer Step.run
  congr 1
  funext reply
  by_cases h : reply.apiRv.toInt = numRegs <;> simp [multipleStep, h]

end ModbusCrawler.ModbusSlave
