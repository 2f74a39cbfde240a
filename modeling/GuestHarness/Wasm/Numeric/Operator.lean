import GuestHarness.Wasm.Operand
import GuestHarness.Wasm.Numeric.Integer
import GuestHarness.Wasm.Numeric.Float

/-! Operators on the stack of operands, whose head is the top. -/
namespace GuestHarness.Wasm.Numeric

/-- Why an instruction did not go on. A stack without the operands that an instruction needs does not
come up in typed code. -/
inductive Halt where
  | trap (kind : TrapKind)
  | stuck
  deriving Repr, DecidableEq

def truncated (target : Width) (signed saturating : Bool) (x : Whole) :
    Except Halt Operand :=
  let (lo, hi) := integerRange target signed
  match truncateTo lo hi saturating x with
  | .error kind => .error (.trap kind)
  | .ok n => match target with
    | .w32 => .ok (.i32 (UInt32.ofInt n))
    | .w64 => .ok (.i64 (UInt64.ofInt n))

def converted (target : Width) (signed : Bool) (x : Operand) : Except Halt Operand :=
  match target, signed, x with
  | .w32, true, .i32 b => .ok (.f32 (ofFloat32 b.toInt32.toFloat32))
  | .w32, false, .i32 b => .ok (.f32 (ofFloat32 b.toFloat32))
  | .w32, true, .i64 b => .ok (.f32 (ofFloat32 b.toInt64.toFloat32))
  | .w32, false, .i64 b => .ok (.f32 (ofFloat32 b.toFloat32))
  | .w64, true, .i32 b => .ok (.f64 (ofFloat64 b.toInt32.toFloat))
  | .w64, false, .i32 b => .ok (.f64 (ofFloat64 b.toFloat))
  | .w64, true, .i64 b => .ok (.f64 (ofFloat64 b.toInt64.toFloat))
  | .w64, false, .i64 b => .ok (.f64 (ofFloat64 b.toFloat))
  | _, _, _ => .error .stuck

/-- An operator takes its operands off the stack and puts its result there. -/
def apply (op : NumericOp) (stack : List Operand) : Except Halt (List Operand) :=
  match op, stack with
  | .intBinary .w32 op, .i32 y :: .i32 x :: s =>
    match binary32 op x y with
    | .ok r => .ok (.i32 r :: s)
    | .error kind => .error (.trap kind)
  | .intBinary .w64 op, .i64 y :: .i64 x :: s =>
    match binary64 op x y with
    | .ok r => .ok (.i64 r :: s)
    | .error kind => .error (.trap kind)
  | .intCompare .w32 op, .i32 y :: .i32 x :: s => .ok (.ofBool (compare32 op x y) :: s)
  | .intCompare .w64 op, .i64 y :: .i64 x :: s => .ok (.ofBool (compare64 op x y) :: s)
  | .eqz .w32, .i32 x :: s => .ok (.ofBool (x == 0) :: s)
  | .eqz .w64, .i64 x :: s => .ok (.ofBool (x == 0) :: s)
  | .intUnary .w32 op, .i32 x :: s => .ok (.i32 (unary32 op x) :: s)
  | .intUnary .w64 op, .i64 x :: s => .ok (.i64 (unary64 op x) :: s)
  | .floatCompare .w32 op, .f32 y :: .f32 x :: s => .ok (.ofBool (floatCompare32 op x y) :: s)
  | .floatCompare .w64 op, .f64 y :: .f64 x :: s => .ok (.ofBool (floatCompare64 op x y) :: s)
  | .floatUnary .w32 op, .f32 x :: s => .ok (.f32 (floatUnary32 op x) :: s)
  | .floatUnary .w64 op, .f64 x :: s => .ok (.f64 (floatUnary64 op x) :: s)
  | .floatBinary .w32 op, .f32 y :: .f32 x :: s => .ok (.f32 (floatBinary32 op x y) :: s)
  | .floatBinary .w64 op, .f64 y :: .f64 x :: s => .ok (.f64 (floatBinary64 op x y) :: s)
  | .wrap, .i64 x :: s => .ok (.i32 x.toUInt32 :: s)
  | .extend true, .i32 x :: s => .ok (.i64 x.toInt32.toInt64.toUInt64 :: s)
  | .extend false, .i32 x :: s => .ok (.i64 x.toUInt64 :: s)
  | .truncate target .w32 signed saturating, .f32 x :: s =>
    (truncated target signed saturating (wholePart Decimal.binary32 x.toNat)).map (· :: s)
  | .truncate target .w64 signed saturating, .f64 x :: s =>
    (truncated target signed saturating (wholePart Decimal.binary64 x.toNat)).map (· :: s)
  | .convert target _ signed, x :: s => (converted target signed x).map (· :: s)
  | .demote, .f64 x :: s => .ok (.f32 (demote x) :: s)
  | .promote, .f32 x :: s => .ok (.f64 (promote x) :: s)
  | .bitsOfFloat .w32, .f32 x :: s => .ok (.i32 x :: s)
  | .bitsOfFloat .w64, .f64 x :: s => .ok (.i64 x :: s)
  | .floatOfBits .w32, .i32 x :: s => .ok (.f32 x :: s)
  | .floatOfBits .w64, .i64 x :: s => .ok (.f64 x :: s)
  | _, _ => .error .stuck

end GuestHarness.Wasm.Numeric
