/-! Binary floating-point formats as bit patterns, and rounding of a positive fraction to the
nearest pattern, in exact natural-number arithmetic. A half goes to the even neighbour. -/
namespace GuestHarness.Decimal

/-- An interchange format: a sign bit, `exponentBits` and `fractionBits`. -/
structure BinaryFormat where
  fractionBits : Nat
  exponentBits : Nat
  deriving Repr, DecidableEq

/-- Powers of two and of ten. -/
def twoTo (n : Nat) : Nat := 1 <<< n
def tenTo (n : Nat) : Nat := Nat.pow 10 n

def binary32 : BinaryFormat := ⟨23, 8⟩
def binary64 : BinaryFormat := ⟨52, 11⟩

/-- The quotient `a / b` to the nearest natural number, a half to the even one. -/
def roundQuotient (a b : Nat) : Nat :=
  let q := a / b
  let r := a % b
  if 2 * r < b then q
  else if b < 2 * r then q + 1
  else q + q % 2

@[simp] theorem roundQuotient_mul_self (n : Nat) {b : Nat} (h : 0 < b) :
    roundQuotient (n * b) b = n := by
  simp [roundQuotient, Nat.mul_div_cancel _ h, h]

namespace BinaryFormat

variable (F : BinaryFormat)

/-- The exponent of the least positive value. -/
def leastExponent : Int := 2 - twoTo (F.exponentBits - 1) - (F.fractionBits : Nat)

/-- The pattern of infinity, all exponent bits set. -/
def infinity : Nat := (twoTo F.exponentBits - 1) * twoTo F.fractionBits

def signBit : Nat := twoTo (F.exponentBits + F.fractionBits)

/-- The pattern of the quiet NaN without payload. -/
def quietNaN : Nat := F.infinity + twoTo (F.fractionBits - 1)

def isNegative (bits : Nat) : Bool := bits / F.signBit % 2 == 1

/-- The pattern without its sign. -/
def magnitude (bits : Nat) : Nat := bits % F.signBit

def isNaN (bits : Nat) : Bool := F.infinity < F.magnitude bits

def withSign (negative : Bool) (magnitude : Nat) : Nat :=
  if negative then F.signBit + magnitude else magnitude

/-- A finite magnitude as significand and exponent: its value is `m * 2 ^ q`. -/
def parts (magnitude : Nat) : Nat × Int :=
  let e := magnitude / twoTo F.fractionBits
  let f := magnitude % twoTo F.fractionBits
  if e = 0 then (f, F.leastExponent)
  else (twoTo F.fractionBits + f, F.leastExponent + (e - 1 : Nat))

/-- A finite magnitude as a fraction of natural numbers. -/
def fraction (magnitude : Nat) : Nat × Nat :=
  let (m, q) := F.parts magnitude
  (m * twoTo q.toNat, twoTo (-q).toNat)

/-- The magnitude nearest to `num / den`. The exponent is chosen so that the significand fills
its bits, or is the least one; a significand that rounds up to the next power of two carries into
the exponent by itself. -/
def round (num den : Nat) : Nat :=
  if num = 0 then 0 else
  let estimate : Int := (num.log2 : Int) - den.log2 - 1 - F.fractionBits
  let least := max estimate F.leastExponent
  let exponent :=
    if twoTo (F.fractionBits + 1) ≤ num * twoTo (-least).toNat / (den * twoTo least.toNat)
    then least + 1 else least
  let m := roundQuotient (num * twoTo (-exponent).toNat) (den * twoTo exponent.toNat)
  min ((exponent - F.leastExponent).toNat * twoTo F.fractionBits + m) F.infinity

/-- The magnitude nearest to `coefficient * 10 ^ exponent`. Far outside the range of every format
the powers are not worked out. -/
def ofDecimal (coefficient : Nat) (exponent : Int) : Nat :=
  if coefficient = 0 then 0 else
  let top := (Nat.toDigits 10 coefficient).length + exponent
  if 400 < top then F.infinity
  else if top < -400 then 0
  else F.round (coefficient * tenTo exponent.toNat) (tenTo (-exponent).toNat)

@[simp] theorem round_zero (den : Nat) : F.round 0 den = 0 := by simp [round]

@[simp] theorem ofDecimal_zero (e : Int) : F.ofDecimal 0 e = 0 := by simp [ofDecimal]

end BinaryFormat

example : binary64.leastExponent = -1074 ∧ binary32.leastExponent = -149 := by decide
example : binary64.ofDecimal 1 0 = 0x3FF0000000000000 := by decide +kernel
example : binary64.ofDecimal 5 (-324) = 1 := by decide +kernel
example : binary32.ofDecimal 34028235 31 = 0x7F7FFFFF := by decide +kernel

end GuestHarness.Decimal
