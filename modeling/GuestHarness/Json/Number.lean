import GuestHarness.Json.Reader
import GuestHarness.Decimal.Shortest

/-! What a JSON numeral denotes: an integer if it is written as one and fits 64 bits, else a binary64
value. The value is the significand, cut to 64 bits, scaled once by a power of ten; both steps round
to nearest, so long numerals may end a unit away from the nearest value. -/
namespace GuestHarness.Json
open Decimal

/-- The parts of a numeral. -/
structure Numeral where
  negative : Bool
  whole : List Char
  fraction : List Char
  exponent : Int
  /-- Written without point and exponent. -/
  plain : Bool

def Numeral.ofString (s : String) : Numeral :=
  let (negative, cs) := splitSign s.toList
  let whole := cs.takeWhile isDigit
  let rest := cs.dropWhile isDigit
  let (fraction, tail) := match rest with
    | '.' :: rest => (rest.takeWhile isDigit, rest.dropWhile isDigit)
    | rest => ([], rest)
  ⟨negative, whole, fraction, ((FloatLiteral.exponentPart? tail).getD 0), rest = []⟩

/-- The largest number of 64 bits. -/
def maxWord : Nat := UInt64.size - 1

/-- Takes digits into the significand while it fits 64 bits, and gives the digits left over. -/
def takeDigits (n : Nat) : List Char → Nat × List Char
  | [] => (n, [])
  | c :: cs =>
    let next := 10 * n + digitValue c
    if next ≤ maxWord then takeDigits next cs else (n, c :: cs)

/-- The product of two finite magnitudes, rounded. -/
def mulMagnitude (a b : Nat) : Nat :=
  let (n, d) := binary64.fraction a
  let (n', d') := binary64.fraction b
  binary64.round (n * n') (d * d')

/-- The quotient of two finite magnitudes, rounded. -/
def divMagnitude (a b : Nat) : Nat :=
  let (n, d) := binary64.fraction a
  let (n', d') := binary64.fraction b
  binary64.round (n * d') (d * n')

/-- The power of ten nearest in binary64, up to the 308th. -/
def powerOfTen (k : Nat) : Nat := binary64.ofDecimal 1 k

/-- Division by ever more powers of ten: 308 at a time until the rest is a power of its own. -/
def scaleDown (magnitude : Nat) (k : Nat) : Nat :=
  if k ≤ 308 then divMagnitude magnitude (powerOfTen k)
  else if magnitude = 0 then 0
  else scaleDown (divMagnitude magnitude (powerOfTen 308)) (k - 308)
termination_by k

/-- `significand * 10 ^ exponent`, or nothing if that is beyond every finite value. -/
def scale? (significand : Nat) (exponent : Int) : Option Nat :=
  let start := binary64.round significand 1
  if 0 ≤ exponent then
    if start = 0 then some 0
    else if 308 < exponent then none
    else
      let m := mulMagnitude start (powerOfTen exponent.toNat)
      if m = binary64.infinity then none else some m
  else some (scaleDown start (-exponent).toNat)

/-- A number as a reader takes it from a numeral. -/
inductive Number where
  | integer (n : Int)
  /-- A finite binary64 pattern. -/
  | real (bits : Nat)
  deriving Repr, DecidableEq

/-- The binary64 magnitude of a numeral. -/
def Numeral.magnitude? (n : Numeral) : Option Nat :=
  let (significand, dropped) := takeDigits 0 n.whole
  let (significand, left) := takeDigits significand n.fraction
  let written : Int := dropped.length - (n.fraction.length - left.length : Nat)
  if twoTo 31 ≤ n.exponent.natAbs then
    if significand = 0 ∨ n.exponent < 0 then some 0 else none
  else scale? significand (written + n.exponent)

/-- Minus zero is no integer. -/
def Number.ofNumeral? (s : String) : Option Number :=
  let n := Numeral.ofString s
  let value := digitsValue n.whole
  if n.plain && !n.negative && value ≤ maxWord then some (.integer value)
  else if n.plain && n.negative && value ≠ 0 && value ≤ twoTo 63 then some (.integer (-(value : Int)))
  else n.magnitude?.map fun m => .real (binary64.withSign n.negative m)

/-- An integer within a range. -/
def intIn? (lo hi : Int) : Json → Option Int
  | .number s =>
    match Number.ofNumeral? s with
    | some (.integer n) => if lo ≤ n ∧ n ≤ hi then some n else none
    | _ => none
  | _ => none

/-- A binary64 pattern narrowed or kept. -/
def narrow (F : BinaryFormat) (bits : Nat) : Nat :=
  let (n, d) := binary64.fraction (binary64.magnitude bits)
  F.withSign (binary64.isNegative bits) (F.round n d)

/-- A floating-point pattern; integers are rounded to the format at once. -/
def float? (F : BinaryFormat) : Json → Option Nat
  | .number s =>
    match Number.ofNumeral? s with
    | some (.integer n) => some (F.withSign (n < 0) (F.round n.natAbs 1))
    | some (.real bits) => some (if F = binary64 then bits else narrow F bits)
    | none => none
  | _ => none

end GuestHarness.Json
