import GuestHarness.Decimal.Shortest

/-! Decimal numbers as text: which exponents are written out in full, and what is added. -/
namespace GuestHarness.Decimal

/-- The decisions of a number format. -/
structure Layout where
  /-- Leading exponents whose numbers are written without an exponent. -/
  writtenOut : Int → Bool
  /-- Whether whole numbers carry `.0`. -/
  pointZero : Bool
  tie : Tie

/-- Every digit is written, and whole numbers have no point. -/
def Layout.plain : Layout := ⟨fun _ => true, false, .away⟩

namespace Scaled

def digits (d : Scaled) : List Char := Nat.toDigits 10 d.coefficient

/-- The exponent of the leading digit. -/
def leading (d : Scaled) : Int := (d.digits.length : Int) - 1 + d.exponent

def zeros (n : Nat) : List Char := List.replicate n '0'

/-- The number without an exponent. -/
def writeOut (pointZero : Bool) (d : Scaled) : List Char :=
  let whole := d.leading + 1
  if whole ≤ 0 then '0' :: '.' :: zeros (-whole).toNat ++ d.digits
  else if 0 ≤ d.exponent then
    d.digits ++ zeros d.exponent.toNat ++ (if pointZero then ['.', '0'] else [])
  else d.digits.take whole.toNat ++ '.' :: d.digits.drop whole.toNat

/-- One digit, a point if more follow, and the exponent with its sign. -/
def writeScientific (d : Scaled) : List Char :=
  let mantissa := match d.digits with
    | [] => []
    | [c] => [c]
    | c :: cs => c :: '.' :: cs
  let sign := if d.leading < 0 then '-' else '+'
  mantissa ++ 'e' :: sign :: Nat.toDigits 10 d.leading.natAbs

def write (L : Layout) (d : Scaled) : List Char :=
  if d.coefficient = 0 then '0' :: (if L.pointZero then ['.', '0'] else [])
  else if L.writtenOut d.leading then d.writeOut L.pointZero
  else d.writeScientific

end Scaled

/-- The shortest text of a finite pattern, its sign in front. -/
def BinaryFormat.finiteText (F : BinaryFormat) (L : Layout) (bits : Nat) : String :=
  let body := (F.shortest L.tie (F.magnitude bits)).write L
  String.ofList (if F.isNegative bits then '-' :: body else body)

end GuestHarness.Decimal
