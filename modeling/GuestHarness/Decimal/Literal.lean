import GuestHarness.Decimal.Binary

/-! Numerals: signed integers within a range, and floating-point literals.
Digits are the ten of ASCII; any number of leading zeros is allowed. -/
namespace GuestHarness.Decimal

def isDigit (c : Char) : Bool := '0' ≤ c && c ≤ '9'

def digitValue (c : Char) : Nat := c.toNat - '0'.toNat

/-- The number that a list of digits denotes. -/
def digitsValue (cs : List Char) : Nat := cs.foldl (fun n c => 10 * n + digitValue c) 0

/-- A sign, if one is there, and what follows it. -/
def splitSign : List Char → Bool × List Char
  | '-' :: cs => (true, cs)
  | '+' :: cs => (false, cs)
  | cs => (false, cs)

/-- An optional sign and at least one digit. -/
def integer? (cs : List Char) : Option Int :=
  let (negative, ds) := splitSign cs
  if ds ≠ [] && ds.all isDigit then
    some (if negative then -(digitsValue ds : Int) else digitsValue ds)
  else none

/-- A numeral without a minus sign; its sign may be a plus. -/
def natural? (cs : List Char) : Option Nat :=
  if cs.head? = some '-' then none else (integer? cs).map Int.toNat

def integerIn? (lo hi : Int) (cs : List Char) : Option Int :=
  (integer? cs).filter fun n => lo ≤ n && n ≤ hi

def naturalBelow? (bound : Nat) (cs : List Char) : Option Nat :=
  (natural? cs).filter (· < bound)

/-- What a floating-point literal denotes before rounding. -/
inductive FloatLiteral where
  | number (negative : Bool) (coefficient : Nat) (exponent : Int)
  | infinity (negative : Bool)
  | nan (negative : Bool)
  deriving Repr, DecidableEq

namespace FloatLiteral

/-- The exponent part: nothing, or `e` with an integer. -/
def exponentPart? : List Char → Option Int
  | [] => some 0
  | c :: cs => if c = 'e' ∨ c = 'E' then integer? cs else none

/-- Digits with an optional point, at least one digit in all, and an optional exponent. -/
def number? (negative : Bool) (cs : List Char) : Option FloatLiteral :=
  let whole := cs.takeWhile isDigit
  let rest := cs.dropWhile isDigit
  let (fraction, rest) := match rest with
    | '.' :: rest => (rest.takeWhile isDigit, rest.dropWhile isDigit)
    | rest => ([], rest)
  if whole = [] ∧ fraction = [] then none
  else (exponentPart? rest).map fun e =>
    number negative (digitsValue (whole ++ fraction)) (e - fraction.length)

/-- The names of the values that are not numbers, in any letter case. -/
def named? (negative : Bool) (cs : List Char) : Option FloatLiteral :=
  let name := String.ofList (cs.map Char.toLower)
  if name = "inf" ∨ name = "infinity" then some (infinity negative)
  else if name = "nan" then some (nan negative)
  else none

def parse? (cs : List Char) : Option FloatLiteral :=
  let (negative, body) := splitSign cs
  named? negative body <|> number? negative body

/-- The pattern of a literal in a format. -/
def bits (F : BinaryFormat) : FloatLiteral → Nat
  | number negative c e => F.withSign negative (F.ofDecimal c e)
  | infinity negative => F.withSign negative F.infinity
  | nan negative => F.withSign negative F.quietNaN

end FloatLiteral
end GuestHarness.Decimal
