import GuestHarness.Wasm.Instruction
import GuestHarness.Decimal.Binary
import GuestHarness.Fault

/-! Operators on floats as bits. Signs and payloads are moved as bits; a NaN operand gives the result,
the first one first and made quiet, and a result that becomes a NaN by itself is negative without
payload. -/
namespace GuestHarness.Wasm.Numeric

def sign32 : UInt32 := 0x80000000
def sign64 : UInt64 := 0x8000000000000000

def isNaN32 (x : UInt32) : Bool := 0x7F800000 < (x &&& 0x7FFFFFFF)
def isNaN64 (x : UInt64) : Bool := 0x7FF0000000000000 < (x &&& 0x7FFFFFFFFFFFFFFF)

def quiet32 (x : UInt32) : UInt32 := x ||| 0x00400000
def quiet64 (x : UInt64) : UInt64 := x ||| 0x0008000000000000

def ofFloat32 (r : Float32) : UInt32 := if r.isNaN then 0xFFC00000 else r.toBits
def ofFloat64 (r : Float) : UInt64 := if r.isNaN then 0xFFF8000000000000 else r.toBits

/-- The nearest whole number, a half to the even one: adding a number so large that no fraction is
left rounds it away. -/
def nearest32 (x : Float32) : Float32 :=
  if x.abs < 8388608 then (x.abs + 8388608) - 8388608 else x.abs

def nearest64 (x : Float) : Float :=
  if x.abs < 4503599627370496 then (x.abs + 4503599627370496) - 4503599627370496 else x.abs

def round32 (op : FloatUnary) (x : UInt32) : UInt32 :=
  let sign := x &&& sign32
  let f := Float32.ofBits x
  match op with
  | .ceil => ofFloat32 f.ceil
  | .floor => ofFloat32 f.floor
  | .trunc => sign ||| ofFloat32 f.abs.floor
  | .nearest => sign ||| ofFloat32 (nearest32 f)
  | .sqrt => ofFloat32 f.sqrt
  | .abs | .neg => x

def round64 (op : FloatUnary) (x : UInt64) : UInt64 :=
  let sign := x &&& sign64
  let f := Float.ofBits x
  match op with
  | .ceil => ofFloat64 f.ceil
  | .floor => ofFloat64 f.floor
  | .trunc => sign ||| ofFloat64 f.abs.floor
  | .nearest => sign ||| ofFloat64 (nearest64 f)
  | .sqrt => ofFloat64 f.sqrt
  | .abs | .neg => x

def floatUnary32 (op : FloatUnary) (x : UInt32) : UInt32 :=
  match op with
  | .abs => x &&& 0x7FFFFFFF
  | .neg => x ^^^ sign32
  | op => if isNaN32 x then quiet32 x else round32 op x

def floatUnary64 (op : FloatUnary) (x : UInt64) : UInt64 :=
  match op with
  | .abs => x &&& 0x7FFFFFFFFFFFFFFF
  | .neg => x ^^^ sign64
  | op => if isNaN64 x then quiet64 x else round64 op x

/-- Operands that are no NaN. Of two zeros the negative one is the smaller. -/
def arithmetic32 (op : FloatBinary) (x y : UInt32) : UInt32 :=
  let f := Float32.ofBits x
  let g := Float32.ofBits y
  match op with
  | .add => ofFloat32 (f + g)
  | .sub => ofFloat32 (f - g)
  | .mul => ofFloat32 (f * g)
  | .div => ofFloat32 (f / g)
  | .min => if f == g then x ||| y else if f < g then x else y
  | .max => if f == g then x &&& y else if f < g then y else x
  | .copysign => (x &&& 0x7FFFFFFF) ||| (y &&& sign32)

def arithmetic64 (op : FloatBinary) (x y : UInt64) : UInt64 :=
  let f := Float.ofBits x
  let g := Float.ofBits y
  match op with
  | .add => ofFloat64 (f + g)
  | .sub => ofFloat64 (f - g)
  | .mul => ofFloat64 (f * g)
  | .div => ofFloat64 (f / g)
  | .min => if f == g then x ||| y else if f < g then x else y
  | .max => if f == g then x &&& y else if f < g then y else x
  | .copysign => (x &&& 0x7FFFFFFFFFFFFFFF) ||| (y &&& sign64)

def floatBinary32 (op : FloatBinary) (x y : UInt32) : UInt32 :=
  if op = .copysign then arithmetic32 op x y
  else if isNaN32 x then quiet32 x
  else if isNaN32 y then quiet32 y
  else arithmetic32 op x y

def floatBinary64 (op : FloatBinary) (x y : UInt64) : UInt64 :=
  if op = .copysign then arithmetic64 op x y
  else if isNaN64 x then quiet64 x
  else if isNaN64 y then quiet64 y
  else arithmetic64 op x y

def floatCompare32 (op : FloatCompare) (x y : UInt32) : Bool :=
  let f := Float32.ofBits x
  let g := Float32.ofBits y
  match op with
  | .eq => f == g
  | .ne => f != g
  | .lt => f < g
  | .gt => g < f
  | .le => f ≤ g
  | .ge => g ≤ f

def floatCompare64 (op : FloatCompare) (x y : UInt64) : Bool :=
  let f := Float.ofBits x
  let g := Float.ofBits y
  match op with
  | .eq => f == g
  | .ne => f != g
  | .lt => f < g
  | .gt => g < f
  | .le => f ≤ g
  | .ge => g ≤ f

/-- A wider NaN keeps its payload at the top. -/
def promote (x : UInt32) : UInt64 :=
  if isNaN32 x then
    ((x &&& sign32).toUInt64 <<< (32 : UInt64)) ||| (0x7FF8000000000000 : UInt64)
      ||| ((x &&& 0x003FFFFF).toUInt64 <<< (29 : UInt64))
  else (Float32.ofBits x).toFloat.toBits

/-- A narrower NaN loses the low bits of its payload. -/
def demote (x : UInt64) : UInt32 :=
  if isNaN64 x then
    ((x &&& sign64) >>> (32 : UInt64)).toUInt32 ||| (0x7FC00000 : UInt32)
      ||| ((x >>> (29 : UInt64)).toUInt32 &&& 0x003FFFFF)
  else (Float.ofBits x).toFloat32.toBits

/-- The whole part of a finite float; nothing for a NaN, and for an infinity its sign. -/
inductive Whole where
  | nan
  | infinite (negative : Bool)
  | finite (n : Int)
  deriving Repr, DecidableEq

def wholePart (F : Decimal.BinaryFormat) (bits : Nat) : Whole :=
  let negative := F.isNegative bits
  let magnitude := F.magnitude bits
  if F.isNaN bits then .nan
  else if magnitude = F.infinity then .infinite negative
  else
    let (num, den) := F.fraction magnitude
    let n : Int := (num / den : Nat)
    .finite (if negative then -n else n)

/-- The range of integers of a width. -/
def integerRange (w : Width) (signed : Bool) : Int × Int :=
  let bits := match w with
    | .w32 => 32
    | .w64 => 64
  if signed then (-Decimal.twoTo (bits - 1), Decimal.twoTo (bits - 1) - 1)
  else (0, Decimal.twoTo bits - 1)

/-- A float as an integer of a range; saturating, what is out of range becomes the nearest bound and a
NaN zero. -/
def truncateTo (lo hi : Int) (saturating : Bool) (x : Whole) : Except TrapKind Int :=
  match x with
  | .nan => if saturating then .ok 0 else .error .badConversionToInteger
  | .infinite negative =>
    if saturating then .ok (if negative then lo else hi) else .error .integerOverflow
  | .finite n =>
    if lo ≤ n ∧ n ≤ hi then .ok n
    else if saturating then .ok (if n < lo then lo else hi)
    else .error .integerOverflow

end GuestHarness.Wasm.Numeric
