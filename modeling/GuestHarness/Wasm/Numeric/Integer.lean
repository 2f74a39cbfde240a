import GuestHarness.Wasm.Instruction
import GuestHarness.Fault

/-! Operators on integers of 32 and 64 bits. Division by zero and a quotient out of range trap; all
else wraps. -/
namespace GuestHarness.Wasm.Numeric

/-- How many of the low `bits` bits are set. -/
def countOnes : Nat → Nat → Nat
  | 0, _ => 0
  | bits + 1, n => n % 2 + countOnes bits (n / 2)

def unary32 (op : IntUnary) (x : UInt32) : UInt32 :=
  match op with
  | .clz => if x = 0 then 32 else 31 - x.log2
  | .ctz => if x = 0 then 32 else (x &&& (0 - x)).log2
  | .popcnt => .ofNat (countOnes 32 x.toNat)
  | .extend8 => x.toInt32.toInt8.toInt32.toUInt32
  | .extend16 => x.toInt32.toInt16.toInt32.toUInt32
  | .extend32 => x

def unary64 (op : IntUnary) (x : UInt64) : UInt64 :=
  match op with
  | .clz => if x = 0 then 64 else 63 - x.log2
  | .ctz => if x = 0 then 64 else (x &&& (0 - x)).log2
  | .popcnt => .ofNat (countOnes 64 x.toNat)
  | .extend8 => x.toInt64.toInt8.toInt64.toUInt64
  | .extend16 => x.toInt64.toInt16.toInt64.toUInt64
  | .extend32 => x.toInt64.toInt32.toInt64.toUInt64

def binary32 (op : IntBinary) (x y : UInt32) : Except TrapKind UInt32 :=
  match op with
  | .add => .ok (x + y)
  | .sub => .ok (x - y)
  | .mul => .ok (x * y)
  | .divS =>
    if y = 0 then .error .integerDivisionByZero
    else if x = 0x80000000 ∧ y = 0xFFFFFFFF then .error .integerOverflow
    else .ok (x.toInt32 / y.toInt32).toUInt32
  | .divU => if y = 0 then .error .integerDivisionByZero else .ok (x / y)
  | .remS =>
    if y = 0 then .error .integerDivisionByZero
    else if y = 0xFFFFFFFF then .ok 0
    else .ok (x.toInt32 % y.toInt32).toUInt32
  | .remU => if y = 0 then .error .integerDivisionByZero else .ok (x % y)
  | .and => .ok (x &&& y)
  | .or => .ok (x ||| y)
  | .xor => .ok (x ^^^ y)
  | .shl => .ok (x <<< y)
  | .shrS => .ok (x.toInt32 >>> y.toInt32).toUInt32
  | .shrU => .ok (x >>> y)
  | .rotl => .ok (x <<< y ||| x >>> (32 - y))
  | .rotr => .ok (x >>> y ||| x <<< (32 - y))

def binary64 (op : IntBinary) (x y : UInt64) : Except TrapKind UInt64 :=
  match op with
  | .add => .ok (x + y)
  | .sub => .ok (x - y)
  | .mul => .ok (x * y)
  | .divS =>
    if y = 0 then .error .integerDivisionByZero
    else if x = 0x8000000000000000 ∧ y = 0xFFFFFFFFFFFFFFFF then .error .integerOverflow
    else .ok (x.toInt64 / y.toInt64).toUInt64
  | .divU => if y = 0 then .error .integerDivisionByZero else .ok (x / y)
  | .remS =>
    if y = 0 then .error .integerDivisionByZero
    else if y = 0xFFFFFFFFFFFFFFFF then .ok 0
    else .ok (x.toInt64 % y.toInt64).toUInt64
  | .remU => if y = 0 then .error .integerDivisionByZero else .ok (x % y)
  | .and => .ok (x &&& y)
  | .or => .ok (x ||| y)
  | .xor => .ok (x ^^^ y)
  | .shl => .ok (x <<< y)
  | .shrS => .ok (x.toInt64 >>> y.toInt64).toUInt64
  | .shrU => .ok (x >>> y)
  | .rotl => .ok (x <<< y ||| x >>> (64 - y))
  | .rotr => .ok (x >>> y ||| x <<< (64 - y))

def compare32 (op : IntCompare) (x y : UInt32) : Bool :=
  match op with
  | .eq => x == y
  | .ne => x != y
  | .ltS => x.toInt32 < y.toInt32
  | .ltU => x < y
  | .gtS => y.toInt32 < x.toInt32
  | .gtU => y < x
  | .leS => x.toInt32 ≤ y.toInt32
  | .leU => x ≤ y
  | .geS => y.toInt32 ≤ x.toInt32
  | .geU => y ≤ x

def compare64 (op : IntCompare) (x y : UInt64) : Bool :=
  match op with
  | .eq => x == y
  | .ne => x != y
  | .ltS => x.toInt64 < y.toInt64
  | .ltU => x < y
  | .gtS => y.toInt64 < x.toInt64
  | .gtU => y < x
  | .leS => x.toInt64 ≤ y.toInt64
  | .leU => x ≤ y
  | .geS => y.toInt64 ≤ x.toInt64
  | .geU => y ≤ x

end GuestHarness.Wasm.Numeric
