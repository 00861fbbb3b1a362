import Mathlib.Algebra.Ring.Int.Defs
import Mathlib.Algebra.Ring.Nat
import Mathlib.Data.Int.Notation
import Mathlib.Tactic.Common

set_option autoImplicit false

/-!
# Types shared by the tools: `common/modbus_types.hpp`

`int` values are `Int` here. The fixed-width types keep their width where the
code depends on it.
-/
namespace ModbusCrawler.ModbusTypes

/-- What ends a modelled function early: `std::exception`s, and the signal of an integer division
    by zero, which nothing handles. -/
inductive Exception where
  | runtimeError (what : String)
  | invalidArgument (what : String)
  | rangeError (what : String)
  | outOfRange (what : String)
  | typeError (what : String)
  | lengthError (what : String)
  | sigfpe
  deriving DecidableEq, Repr

theorem bind_eq_ok {α β : Type} {first : Except Exception α} {next : α → Except Exception β} {b : β} :
    (first >>= next) = .ok b ↔ ∃ a, first = .ok a ∧ next a = .ok b := by
  cases first with
  | ok a =>
    constructor
    · intro h
      exact ⟨a, rfl, h⟩
    · rintro ⟨_, ⟨⟩, h⟩
      exact h
  | error e =>
    refine iff_of_false nofun ?_
    rintro ⟨_, ⟨⟩, _⟩

inductive ValueType where
  | invalid | int16 | uint16 | int32 | uint32 | int64 | uint64
  deriving DecidableEq, Repr

inductive WordEndianess where
  | invalid | little | big
  deriving DecidableEq, Repr

inductive Regtype where
  | invalid | holding | input
  deriving DecidableEq, Repr

def ValueType.toString : ValueType → String
  | .invalid => ""
  | .int16 => "INT16"
  | .uint16 => "UINT16"
  | .int32 => "INT32"
  | .uint32 => "UINT32"
  | .int64 => "INT64"
  | .uint64 => "UINT64"

def valueSigned (vt : ValueType) : Bool := vt == .int16 || vt == .int32 || vt == .int64

/-- `std::numeric_limits<TARGET>::min()` and `max()` of the type a `value_type` names. -/
def numericMin : ValueType → ℤ
  | .int16 => -2^15
  | .int32 => -2^31
  | .int64 => -2^63
  | _ => 0

def numericMax : ValueType → ℤ
  | .invalid => 0
  | .int16 => 2^15 - 1
  | .uint16 => 2^16 - 1
  | .int32 => 2^31 - 1
  | .uint32 => 2^32 - 1
  | .int64 => 2^63 - 1
  | .uint64 => 2^64 - 1

/-- `in_range_impl<TARGET, T>`; `cast` is `static_cast<T>`. -/
def inRangeImpl {T : Type} [LE T] [DecidableLE T] (cast : ℤ → T) (target : ValueType)
    (value : T) : Bool :=
  cast (numericMin target) ≤ value && value ≤ cast (numericMax target)

def valueInRange {T : Type} [LE T] [DecidableLE T] (cast : ℤ → T) (value : T) :
    ValueType → Bool
  | .invalid => false
  | vt => inRangeImpl cast vt value

def regSize : ValueType → ℕ
  | .invalid => 0
  | .int16 | .uint16 => 1
  | .int32 | .uint32 => 2
  | .int64 | .uint64 => 4

def checkEnum {E : Type} [DecidableEq E] (invalid e : E) : Except Exception Unit :=
  if e = invalid then .error (.runtimeError "Invalid enum") else .ok ()

/-- What the code does with a `double`. -/
class Doubles (D : Type) where
  ofInt : ℤ → D
  /-- The conversion to an integer type, which drops the fraction. -/
  toInt : D → ℤ
  add : D → D → D
  sub : D → D → D
  mul : D → D → D
  div : D → D → D
  less : D → D → Bool
  isNaN : D → Bool
  quietNaN : D
  max : D
  lowest : D
  sqrt : D → D
  round : D → D

instance : Doubles Float where
  ofInt := Float.ofInt
  toInt x := x.toInt64.toInt
  add := Float.add
  sub := Float.sub
  mul := Float.mul
  div := Float.div
  less x y := decide (x < y)
  isNaN := Float.isNaN
  quietNaN := Float.ofBits 0x7FF8000000000000
  max := Float.ofBits 0x7FEFFFFFFFFFFFFF
  lowest := Float.ofBits 0xFFEFFFFFFFFFFFFF
  sqrt := Float.sqrt
  round := Float.round

structure RtuParameters where
  slaveId : ℤ
  serialDevice : String
  serialConfig : String
  answeringTime : ℤ
  deriving DecidableEq, Repr

theorem numericMin_le_max (vt : ValueType) : numericMin vt ≤ numericMax vt := by
  cases vt <;> decide

theorem numericMin_unsigned {vt : ValueType} (h : valueSigned vt = false) : numericMin vt = 0 := by
  cases vt <;> first | rfl | cases h

theorem regSize_supported {vt : ValueType} (h : vt ≠ .invalid) :
    regSize vt = 1 ∨ regSize vt = 2 ∨ regSize vt = 4 := by
  cases vt <;> first | exact absurd rfl h | decide

end ModbusCrawler.ModbusTypes
