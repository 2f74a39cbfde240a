import GuestHarness.Decimal.Binary

/-! The shortest decimal that reads back as a given binary magnitude. On each decimal grid, from
coarse to fine, the two neighbours of the value are tried; the first grid with a hit decides. -/
namespace GuestHarness.Decimal

/-- The number `coefficient * 10 ^ exponent`. -/
structure Scaled where
  coefficient : Nat
  exponent : Int
  deriving Repr, DecidableEq

/-- Where a value goes that lies midway between two candidates. -/
inductive Tie where
  | toEven
  | away
  deriving Repr, DecidableEq

namespace BinaryFormat

variable (F : BinaryFormat)

def readsBack (magnitude : Nat) (d : Scaled) : Bool :=
  F.ofDecimal d.coefficient d.exponent == magnitude

/-- The least `k` with `num / den < 10 ^ k`, among the exponents that the formats reach. -/
def decimalScale (num den : Nat) : Int :=
  let whole := num / den
  if whole ≠ 0 then (Nat.toDigits 10 whole).length
  else
    let small := (List.range 400).find? (fun k => den ≤ num * tenTo (k + 1))
    .negOfNat (small.getD 400)

/-- The neighbours of `num / den` on the grid of step `10 ^ exponent` that read back, the nearer
one if both do. -/
def candidate (tie : Tie) (magnitude num den : Nat) (exponent : Int) : Option Scaled :=
  let a := num * tenTo (-exponent).toNat
  let b := den * tenTo exponent.toNat
  let below : Scaled := ⟨a / b, exponent⟩
  let above : Scaled := ⟨a / b + 1, exponent⟩
  let fitsBelow := below.coefficient != 0 && F.readsBack magnitude below
  match fitsBelow, F.readsBack magnitude above with
  | false, false => none
  | true, false => some below
  | false, true => some above
  | true, true =>
    let twice := 2 * (a % b)
    if twice < b then some below
    else if b < twice then some above
    else match tie with
      | .away => some above
      | .toEven => some (if below.coefficient % 2 = 0 then below else above)

/-- The finite magnitude written out exactly: a power of two divides a power of ten. -/
def exactDecimal (magnitude : Nat) : Scaled :=
  let (m, q) := F.parts magnitude
  ⟨m * twoTo q.toNat * Nat.pow 5 (-q).toNat, -((-q).toNat : Int)⟩

/-- At most seventeen digits are tried; should none do, the exact decimal stands. -/
def shortest (tie : Tie) (magnitude : Nat) : Scaled :=
  if magnitude = 0 then ⟨0, 0⟩ else
  let (num, den) := F.fraction magnitude
  let scale := decimalScale num den
  ((List.range 18).findSome? fun n : Nat => F.candidate tie magnitude num den (scale - n)).getD
    (F.exactDecimal magnitude)

theorem readsBack_of_candidate {tie : Tie} {magnitude num den : Nat} {exponent : Int}
    {d : Scaled} (h : F.candidate tie magnitude num den exponent = some d) :
    F.readsBack magnitude d = true := by
  simp only [candidate] at h
  split at h
  · contradiction
  · rename_i hb ha
    simp only [Bool.and_eq_true] at hb
    exact Option.some.inj h ▸ hb.2
  · rename_i hb ha
    exact Option.some.inj h ▸ ha
  · rename_i hb ha
    simp only [Bool.and_eq_true] at hb
    split at h
    · exact Option.some.inj h ▸ hb.2
    · split at h
      · exact Option.some.inj h ▸ ha
      · cases tie with
        | away => exact Option.some.inj h ▸ ha
        | toEven =>
          simp only [Option.some.injEq] at h
          subst h
          split
          · exact hb.2
          · exact ha

end BinaryFormat

example : binary64.shortest .toEven 0x3FB999999999999A = ⟨1, -1⟩ := by decide +kernel
example : binary64.shortest .toEven 1 = ⟨5, -324⟩ := by decide +kernel

end GuestHarness.Decimal
