import GuestHarness.Decimal.Layout
import GuestHarness.Decimal.Literal
import GuestHarness.Text.Blank

/-! The numbers that guests exchange with their host, with their texts. Floating-point values are
bit patterns, so that the payload of a NaN and the sign of a zero are part of the value. -/
namespace GuestHarness
open Decimal

/-- The types of numbers. -/
inductive ValueType where
  | i32
  | i64
  | f32
  | f64
  deriving Repr, DecidableEq, Inhabited

namespace ValueType

def name : ValueType → String
  | i32 => "i32"
  | i64 => "i64"
  | f32 => "f32"
  | f64 => "f64"

def ofName? (s : String) : Option ValueType :=
  if s = "i32" then some i32
  else if s = "i64" then some i64
  else if s = "f32" then some f32
  else if s = "f64" then some f64
  else none

@[simp] theorem ofName?_name (t : ValueType) : ofName? t.name = some t := by
  cases t <;> simp [name, ofName?]

theorem name_injective {s t : ValueType} (h : s.name = t.name) : s = t := by
  have := congrArg ofName? h
  simpa using this

end ValueType

/-- A number of one of the four types. -/
inductive Value where
  | i32 (v : Int32)
  | i64 (v : Int64)
  | f32 (bits : UInt32)
  | f64 (bits : UInt64)
  deriving Repr, DecidableEq, Inhabited

/-- Why a text is no type or no value. -/
inductive LiteralError where
  | unknownType (text : String)
  | invalid (type : ValueType) (text : String)
  deriving Repr, DecidableEq

def LiteralError.message : LiteralError → String
  | unknownType text => s!"unknown value type '{text}'"
  | invalid type text => s!"'{text}' is not a valid {type.name}"

/-- The letters of a type's name may be of either case. -/
def ValueType.parse (text : String) : Except LiteralError ValueType :=
  match ofName? (String.ofList (text.toList.map Char.toLower)) with
  | some t => .ok t
  | none => .error (.unknownType text)

namespace Value

def type : Value → ValueType
  | i32 _ => .i32
  | i64 _ => .i64
  | f32 _ => .f32
  | f64 _ => .f64

/-- An unsigned number as the signed one of the same bits. -/
def ofUInt32 (n : UInt32) : Value := .i32 n.toInt32

def asI32 : Value → Option Int32
  | i32 v => some v
  | _ => none

def asI64 : Value → Option Int64
  | i64 v => some v
  | _ => none

def asF32 : Value → Option UInt32
  | f32 b => some b
  | _ => none

def asF64 : Value → Option UInt64
  | f64 b => some b
  | _ => none

/-- Patterns that denote the same number: no NaN equals anything, and both zeros are one number. -/
def sameNumber (F : BinaryFormat) (a b : Nat) : Bool :=
  !F.isNaN a && !F.isNaN b && (a == b || (F.magnitude a == 0 && F.magnitude b == 0))

/-- Equality as numbers compare; values of different types differ. -/
def equals : Value → Value → Bool
  | i32 a, i32 b => a == b
  | i64 a, i64 b => a == b
  | f32 a, f32 b => sameNumber binary32 a.toNat b.toNat
  | f64 a, f64 b => sameNumber binary64 a.toNat b.toNat
  | _, _ => false

/-- The text of an integer: a minus sign if it needs one, and its digits. -/
def integerText (n : Int) : String :=
  String.ofList (if n < 0 then '-' :: Nat.toDigits 10 n.natAbs else Nat.toDigits 10 n.natAbs)

/-- The shortest digits that read back, never with an exponent. A NaN shows neither sign nor
payload. -/
def floatText (F : BinaryFormat) (bits : Nat) : String :=
  if F.isNaN bits then "NaN"
  else if F.magnitude bits = F.infinity then if F.isNegative bits then "-inf" else "inf"
  else F.finiteText .plain bits

def text : Value → String
  | i32 v => integerText v.toInt
  | i64 v => integerText v.toInt
  | f32 b => floatText binary32 b.toNat
  | f64 b => floatText binary64 b.toNat

/-- An integer of `width` bits: the signed range is tried first, then the unsigned range without a
minus sign. -/
def integerOfText? (width : Nat) (cs : List Char) : Option Int :=
  integerIn? (-twoTo (width - 1)) (twoTo (width - 1) - 1) cs <|>
    (naturalBelow? (twoTo width) cs).map (Nat.cast ·)

/-- Reads a value of a type. Blanks around the text do not count, and the error shows the text
without them. -/
def parse (type : ValueType) (text : String) : Except LiteralError Value :=
  let cs := Text.trimChars text.toList
  let value? : Option Value := match type with
    | .i32 => (integerOfText? 32 cs).map fun n => .i32 (Int32.ofInt n)
    | .i64 => (integerOfText? 64 cs).map fun n => .i64 (Int64.ofInt n)
    | .f32 => (FloatLiteral.parse? cs).map fun l => .f32 (.ofNat (l.bits binary32))
    | .f64 => (FloatLiteral.parse? cs).map fun l => .f64 (.ofNat (l.bits binary64))
  match value? with
  | some v => .ok v
  | none => .error (.invalid type (String.ofList cs))

end Value
end GuestHarness
