import GuestHarness.Wasm.Instruction

/-! What a guest computes with: numbers as bits, vectors, and references to functions by their index
or to nothing. Values of the host become operands and back without a change of bits. -/
namespace GuestHarness.Wasm

inductive Operand where
  | i32 (bits : UInt32)
  | i64 (bits : UInt64)
  | f32 (bits : UInt32)
  | f64 (bits : UInt64)
  | vector (low high : UInt64)
  | ref (target : Option Nat)
  deriving Repr, DecidableEq, Inhabited

namespace Operand

def ofLiteral : Literal → Operand
  | .i32 b => i32 b
  | .i64 b => i64 b
  | .f32 b => f32 b
  | .f64 b => f64 b
  | .vector l h => vector l h

/-- What a local variable of a type holds at first. -/
def zero : ValType → Operand
  | .num .i32 => i32 0
  | .num .i64 => i64 0
  | .num .f32 => f32 0
  | .num .f64 => f64 0
  | .vector => vector 0 0
  | .ref _ => ref none

def ofBool (b : Bool) : Operand := i32 (if b then 1 else 0)

def ofValue : Value → Operand
  | .i32 v => i32 v.toUInt32
  | .i64 v => i64 v.toUInt64
  | .f32 b => f32 b
  | .f64 b => f64 b

def toValue? : Operand → Option Value
  | i32 b => some (.i32 b.toInt32)
  | i64 b => some (.i64 b.toInt64)
  | f32 b => some (.f32 b)
  | f64 b => some (.f64 b)
  | vector _ _ | ref _ => none

@[simp] theorem toValue?_ofValue (v : Value) : (ofValue v).toValue? = some v := by
  cases v <;> simp [ofValue, toValue?]

end Operand
end GuestHarness.Wasm
