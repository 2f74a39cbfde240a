import Mathlib.Algebra.Order.Field.Power
import Mathlib.Data.Rat.Cast.Order
import Mathlib.Tactic.FieldSimp
import Mathlib.Tactic.Linarith
import Mathlib.Tactic.NormNum
import Mathlib.Tactic.Positivity
import Mathlib.Tactic.Ring
import GuestHarness.Proofs.Decimal.Digits

/-! Rounding to a binary format, as an order-preserving map of the rational numbers that leaves the values
of the format where they are. All that matters of a fraction is its quotient. -/
namespace GuestHarness.Decimal

/-- The natural number nearest to a rational one, and the even one of two that are equally near. -/
structure Nearest (x : ℚ) (n : ℕ) : Prop where
  lower : n - 1 / 2 ≤ x
  upper : x ≤ n + 1 / 2
  even (tie : x = n - 1 / 2 ∨ x = n + 1 / 2) : n % 2 = 0

namespace Nearest

variable {x y : ℚ} {n k : ℕ}

theorem mono (hx : Nearest x n) (hy : Nearest y k) (h : x ≤ y) : n ≤ k := by
  by_contra hlt
  have hsucc : (k : ℚ) + 1 ≤ n := by exact_mod_cast Nat.lt_of_not_le hlt
  have hlower := hx.lower
  have hupper := hy.upper
  -- There is room for no more than one, and then both numbers are midway between the two.
  have hnext : (n : ℚ) = k + 1 := by linarith
  have hneven := hx.even (.inl (by linarith))
  have hkeven := hy.even (.inr (by linarith))
  have hnat : n = k + 1 := by exact_mod_cast hnext
  omega

theorem natCast (n : ℕ) : Nearest n n := by
  refine ⟨by linarith, by linarith, ?_⟩
  rintro (tie | tie) <;> linarith

theorem le_of_lt (h : Nearest x n) (hx : x < k) : n ≤ k := h.mono (natCast k) hx.le

theorem le_of_le (h : Nearest x n) (hx : k ≤ x) : k ≤ n := (natCast k).mono h hx

end Nearest

theorem nearest_roundQuotient (a : ℕ) {b : ℕ} (hb : 0 < b) :
    Nearest (a / b) (roundQuotient a b) := by
  have hpos : (0 : ℚ) < b := by exact_mod_cast hb
  have hdivision : (a : ℚ) = b * (a / b : ℕ) + (a % b : ℕ) := by exact_mod_cast (Nat.div_add_mod a b).symm
  have hlt : ((a % b : ℕ) : ℚ) < b := by exact_mod_cast Nat.mod_lt a hb
  have hnonneg : (0 : ℚ) ≤ (a % b : ℕ) := Nat.cast_nonneg _
  have hx : (a : ℚ) / b = (a / b : ℕ) + (a % b : ℕ) / b := by
    rw [hdivision]
    field_simp
  unfold roundQuotient
  dsimp only
  generalize a / b = q at *
  generalize hr : a % b = r at *
  rw [hx]
  have hfraction : (0 : ℚ) ≤ r / b := by positivity
  split
  · next hless =>
    have hhalf : (r : ℚ) / b < 1 / 2 := by
      rw [div_lt_div_iff₀ hpos (by norm_num)]
      have : ((2 * r : ℕ) : ℚ) < b := by exact_mod_cast hless
      push_cast at this
      linarith
    refine ⟨by linarith, by linarith, ?_⟩
    rintro (tie | tie) <;> linarith
  split
  · next hmore =>
    have hhalf : 1 / 2 < (r : ℚ) / b := by
      rw [div_lt_div_iff₀ (by norm_num) hpos]
      have : (b : ℚ) < (2 * r : ℕ) := by exact_mod_cast hmore
      push_cast at this
      linarith
    have hone : (r : ℚ) / b < 1 := (div_lt_one hpos).2 hlt
    have hnext : ((q + 1 : ℕ) : ℚ) = q + 1 := Nat.cast_succ q
    refine ⟨by linarith, by linarith, ?_⟩
    rintro (tie | tie) <;> linarith
  · next hless hmore =>
    have hhalf : (r : ℚ) / b = 1 / 2 := by
      rw [div_eq_div_iff hpos.ne' (by norm_num)]
      have : ((2 * r : ℕ) : ℚ) = b := by exact_mod_cast (show 2 * r = b by omega)
      push_cast at this
      linarith
    rw [hhalf]
    obtain heven | hodd := Nat.mod_two_eq_zero_or_one q
    · rw [heven]
      exact ⟨by norm_num; linarith, by norm_num, fun _ => by omega⟩
    · have hnext : ((q + 1 : ℕ) : ℚ) = q + 1 := Nat.cast_succ q
      rw [hodd]
      exact ⟨by linarith, by linarith, fun _ => by omega⟩

theorem zpow_eq_div (b : ℚ) (e : ℤ) : b ^ e = b ^ e.toNat / b ^ (-e).toNat := by
  obtain ⟨n, rfl | rfl⟩ := Int.eq_nat_or_neg e
  · simp
  · simp [zpow_neg]

/-- A fraction scaled by a power, in natural numbers. -/
theorem div_zpow_eq (num den : ℕ) {b : ℕ} (hb : b ≠ 0) (e : ℤ) :
    ((num * b ^ (-e).toNat : ℕ) : ℚ) / (den * b ^ e.toNat : ℕ) = num / den / b ^ e := by
  have hcast : (b : ℚ) ≠ 0 := by exact_mod_cast hb
  rw [zpow_eq_div]
  push_cast
  field_simp

theorem scaled_eq (num den : ℕ) (e : ℤ) :
    ((num * twoTo (-e).toNat : ℕ) : ℚ) / (den * twoTo e.toNat : ℕ) = num / den / 2 ^ e := by
  rw [twoTo_eq, twoTo_eq]
  exact div_zpow_eq num den two_ne_zero e

namespace BinaryFormat

variable (F : BinaryFormat)

/-- The value of a finite magnitude. -/
def value (magnitude : ℕ) : ℚ := (F.parts magnitude).1 * 2 ^ (F.parts magnitude).2

/-- The number is rounded to this significand at this exponent. The significand fills its bits unless the
exponent is the least one. -/
structure Rounds (x : ℚ) (e : ℤ) (n : ℕ) : Prop where
  least : F.leastExponent ≤ e
  below : x < 2 ^ (F.fractionBits + 1 + e)
  normal : e = F.leastExponent ∨ 2 ^ (F.fractionBits + e) ≤ x
  nearest : Nearest (x / 2 ^ e) n

/-- The place of a significand at an exponent in the order of all magnitudes, if there were no greatest
one. -/
def index (e : ℤ) (n : ℕ) : ℕ := (e - F.leastExponent).toNat * 2 ^ F.fractionBits + n

variable {F} {x y : ℚ} {e e' : ℤ} {n n' : ℕ}

namespace Rounds

theorem scaled_lt (h : F.Rounds x e n) : x / 2 ^ e < 2 ^ (F.fractionBits + 1) := by
  rw [div_lt_iff₀ (by positivity), ← zpow_natCast, ← zpow_add₀ (by norm_num)]
  exact_mod_cast h.below

theorem le_scaled (hx : 2 ^ (F.fractionBits + e) ≤ x) : (2 : ℚ) ^ F.fractionBits ≤ x / 2 ^ e := by
  rw [le_div_iff₀ (by positivity), ← zpow_natCast, ← zpow_add₀ (by norm_num)]
  exact hx

theorem significand_le (h : F.Rounds x e n) : n ≤ 2 ^ (F.fractionBits + 1) :=
  h.nearest.le_of_lt (by exact_mod_cast h.scaled_lt)

theorem le_significand (h : F.Rounds x e n) (hx : 2 ^ (F.fractionBits + e) ≤ x) :
    2 ^ F.fractionBits ≤ n :=
  h.nearest.le_of_le (by exact_mod_cast le_scaled hx)

/-- Rounding preserves the order. -/
theorem mono (hx : F.Rounds x e n) (hy : F.Rounds y e' n') (h : x ≤ y) :
    F.index e n ≤ F.index e' n' := by
  have hexponent : e ≤ e' := by
    by_contra hlt
    have hnormal : (2 : ℚ) ^ (F.fractionBits + e) ≤ x := by
      refine hx.normal.resolve_left fun heq => ?_
      have := hy.least
      omega
    have hpow : (2 : ℚ) ^ ((F.fractionBits : ℤ) + 1 + e') ≤ 2 ^ (F.fractionBits + e) :=
      zpow_le_zpow_right₀ (by norm_num) (by omega)
    have := hy.below
    linarith
  have hleast := hx.least
  unfold index
  obtain rfl | hlt := hexponent.eq_or_lt
  · have hscaled : x / 2 ^ e ≤ y / 2 ^ e := by gcongr
    have hn := hx.nearest.mono hy.nearest hscaled
    omega
  · -- The larger exponent makes up for more than the largest significand at the smaller one.
    have hnormal : (2 : ℚ) ^ (F.fractionBits + e') ≤ y :=
      hy.normal.resolve_left fun heq => by omega
    have hn := hx.significand_le
    have hn' := hy.le_significand hnormal
    obtain ⟨d, hd⟩ : ∃ d, (e' - F.leastExponent).toNat = (e - F.leastExponent).toNat + 1 + d :=
      ⟨(e' - e - 1).toNat, by omega⟩
    rw [hd]
    calc (e - F.leastExponent).toNat * 2 ^ F.fractionBits + n
        ≤ (e - F.leastExponent).toNat * 2 ^ F.fractionBits + 2 ^ (F.fractionBits + 1) :=
          Nat.add_le_add_left hn _
      _ = ((e - F.leastExponent).toNat + 1) * 2 ^ F.fractionBits + 2 ^ F.fractionBits := by ring
      _ ≤ ((e - F.leastExponent).toNat + 1 + d) * 2 ^ F.fractionBits + n' :=
          Nat.add_le_add (Nat.mul_le_mul_right _ (Nat.le_add_right _ d)) hn'

end Rounds

theorem value_nonneg (m : ℕ) : 0 ≤ F.value m := by
  unfold value
  positivity

/-- A magnitude is the index of its own parts, and its value is rounded to them. -/
theorem rounds_value (F : BinaryFormat) (m : ℕ) :
    F.Rounds (F.value m) (F.parts m).2 (F.parts m).1 ∧ F.index (F.parts m).2 (F.parts m).1 = m := by
  have hdivision := Nat.div_add_mod m (2 ^ F.fractionBits)
  have hlt : m % 2 ^ F.fractionBits < 2 ^ F.fractionBits := Nat.mod_lt _ (by positivity)
  have hscaled (s : ℕ) (e : ℤ) : Nearest ((s : ℚ) * 2 ^ e / 2 ^ e) s := by
    rw [mul_div_cancel_right₀ _ (by positivity)]
    exact .natCast s
  have hbelow {s : ℕ} (e : ℤ) (hs : s < 2 ^ (F.fractionBits + 1)) :
      (s : ℚ) * 2 ^ e < 2 ^ (F.fractionBits + 1 + e) := by
    rw [zpow_add₀ (by norm_num)]
    refine mul_lt_mul_of_pos_right ?_ (by positivity)
    exact_mod_cast hs
  unfold value parts
  rw [twoTo_eq]
  generalize m / 2 ^ F.fractionBits = k at *
  generalize m % 2 ^ F.fractionBits = f at *
  have hpow : 2 ^ (F.fractionBits + 1) = 2 * 2 ^ F.fractionBits := by ring
  dsimp only
  split
  · next hk =>
    subst hk
    refine ⟨⟨le_rfl, hbelow _ (by omega), .inl rfl, hscaled _ _⟩, ?_⟩
    simp only [index, sub_self, Int.toNat_zero]
    omega
  · next hk =>
    refine ⟨⟨by omega, hbelow _ (by omega), .inr ?_, hscaled _ _⟩, ?_⟩
    · rw [zpow_add₀ (by norm_num), zpow_natCast]
      refine mul_le_mul_of_nonneg_right ?_ (by positivity)
      exact_mod_cast Nat.le_add_right _ f
    · obtain ⟨j, rfl⟩ := Nat.exists_eq_add_one_of_ne_zero hk
      have htoNat : (F.leastExponent + ((j + 1 - 1 : ℕ) : ℤ) - F.leastExponent).toNat = j := by omega
      rw [index, htoNat, ← hdivision]
      ring

theorem value_lt_value {m k : ℕ} (h : m < k) : F.value m < F.value k := by
  by_contra hle
  obtain ⟨hm, hmindex⟩ := F.rounds_value m
  obtain ⟨hk, hkindex⟩ := F.rounds_value k
  have hmono := hk.mono hm (not_lt.1 hle)
  omega

/-- The logarithms of numerator and denominator tell the exponent of a quotient but for one. -/
theorem quotient_bounds {num den : ℕ} (hnum : num ≠ 0) (hden : den ≠ 0) :
    (2 : ℚ) ^ ((num.log2 : ℤ) - den.log2 - 1) ≤ num / den ∧
      (num : ℚ) / den < 2 ^ ((num.log2 : ℤ) - den.log2 + 1) := by
  have hcast {a b : ℕ} (h : 2 ^ a ≤ b) : (2 : ℚ) ^ (a : ℤ) ≤ b := by exact_mod_cast h
  have hcast' {a b : ℕ} (h : b < 2 ^ a) : (b : ℚ) < 2 ^ (a : ℤ) := by exact_mod_cast h
  have hnumlow := hcast (Nat.log2_self_le hnum)
  have hdenlow := hcast (Nat.log2_self_le hden)
  have hnumhigh := hcast' (Nat.lt_log2_self (n := num))
  have hdenhigh := hcast' (Nat.lt_log2_self (n := den))
  have hpos : (0 : ℚ) < den := by exact_mod_cast Nat.pos_of_ne_zero hden
  constructor
  · rw [le_div_iff₀ hpos]
    calc (2 : ℚ) ^ ((num.log2 : ℤ) - den.log2 - 1) * den
        ≤ 2 ^ ((num.log2 : ℤ) - den.log2 - 1) * 2 ^ ((den.log2 + 1 : ℕ) : ℤ) := by gcongr
      _ = 2 ^ (num.log2 : ℤ) := by
          rw [← zpow_add₀ (by norm_num)]
          congr 1
          push_cast
          ring
      _ ≤ num := hnumlow
  · rw [div_lt_iff₀ hpos]
    calc (num : ℚ) < 2 ^ ((num.log2 + 1 : ℕ) : ℤ) := hnumhigh
      _ = 2 ^ ((num.log2 : ℤ) - den.log2 + 1) * 2 ^ (den.log2 : ℤ) := by
          rw [← zpow_add₀ (by norm_num)]
          congr 1
          push_cast
          ring
      _ ≤ 2 ^ ((num.log2 : ℤ) - den.log2 + 1) * den := by gcongr

/-- A guess at the exponent that is at most one too small, or below the least one, is corrected by one
comparison. -/
theorem exponent_spec {guess : ℤ} (habove : 2 ^ (F.fractionBits + guess) ≤ x)
    (hbelow : x < 2 ^ (F.fractionBits + 2 + guess)) {e : ℤ}
    (he : e = if 2 ^ (F.fractionBits + 1 + max guess F.leastExponent) ≤ x then
      max guess F.leastExponent + 1 else max guess F.leastExponent) :
    F.leastExponent ≤ e ∧ x < 2 ^ (F.fractionBits + 1 + e) ∧
      (e = F.leastExponent ∨ 2 ^ (F.fractionBits + e) ≤ x) := by
  have hguess := le_max_left guess F.leastExponent
  have hleast := le_max_right guess F.leastExponent
  have hpow {a b : ℤ} (h : a ≤ b) : (2 : ℚ) ^ a ≤ 2 ^ b := zpow_le_zpow_right₀ (by norm_num) h
  split at he
  · next hlarge =>
    subst he
    refine ⟨by omega, hbelow.trans_le (hpow (by omega)), .inr ?_⟩
    rwa [show (F.fractionBits : ℤ) + (max guess F.leastExponent + 1) =
      F.fractionBits + 1 + max guess F.leastExponent by ring]
  · next hsmall =>
    subst he
    refine ⟨hleast, not_le.1 hsmall, ?_⟩
    obtain h | h := le_total guess F.leastExponent
    · exact .inl (max_eq_right h)
    · rw [max_eq_left h]
      exact .inr habove

theorem le_quotient_iff (k : ℕ) (num : ℕ) {den : ℕ} (hden : 0 < den) (e : ℤ) :
    twoTo k ≤ num * twoTo (-e).toNat / (den * twoTo e.toNat) ↔ (2 : ℚ) ^ (k + e) ≤ num / den := by
  have hpos : 0 < den * twoTo e.toNat := Nat.mul_pos hden (by rw [twoTo_eq]; positivity)
  have hposq : (0 : ℚ) < (den * twoTo e.toNat : ℕ) := by exact_mod_cast hpos
  have hsplit : (2 : ℚ) ^ ((k : ℤ) + e) = (twoTo k : ℕ) * 2 ^ e := by
    rw [zpow_add₀ (by norm_num), twoTo_eq]
    norm_num
  rw [Nat.le_div_iff_mul_le hpos, hsplit, ← le_div_iff₀ (by positivity), ← scaled_eq num den e,
    le_div_iff₀ hposq]
  exact_mod_cast Iff.rfl

/-- Rounding a fraction rounds its quotient. -/
theorem rounds_round (F : BinaryFormat) (num : ℕ) {den : ℕ} (hden : 0 < den) :
    ∃ e n, F.Rounds (num / den) e n ∧ F.round num den = min (F.index e n) F.infinity := by
  by_cases hnum : num = 0
  · obtain ⟨hzero, hindex⟩ := F.rounds_value 0
    have hvalue : F.value 0 = 0 := by simp [value, parts]
    rw [hvalue] at hzero
    subst hnum
    refine ⟨_, _, by simpa using hzero, ?_⟩
    rw [hindex, round_zero, Nat.zero_min]
  · obtain ⟨habove, hbelow⟩ := quotient_bounds hnum hden.ne'
    have hpos (e : ℤ) : 0 < den * twoTo e.toNat := Nat.mul_pos hden (by rw [twoTo_eq]; positivity)
    unfold round
    rw [if_neg hnum]
    dsimp only
    generalize hguess : (num.log2 : ℤ) - den.log2 - 1 - F.fractionBits = guess
    simp only [le_quotient_iff _ num hden, Nat.cast_succ]
    generalize he : (if (2 : ℚ) ^ ((F.fractionBits : ℤ) + 1 + max guess F.leastExponent) ≤ num / den then
      max guess F.leastExponent + 1 else max guess F.leastExponent) = e
    obtain ⟨hleast, hlt, hnormal⟩ := exponent_spec
      (by rwa [show (F.fractionBits : ℤ) + guess = (num.log2 : ℤ) - den.log2 - 1 by omega])
      (by rwa [show (F.fractionBits : ℤ) + 2 + guess = (num.log2 : ℤ) - den.log2 + 1 by omega]) he.symm
    have hnearest := nearest_roundQuotient (num * twoTo (-e).toNat) (hpos e)
    rw [scaled_eq] at hnearest
    exact ⟨e, _, ⟨hleast, hlt, hnormal, hnearest⟩, by rw [index, twoTo_eq]⟩

section

variable {num den num' den' m : ℕ}

/-- Rounding keeps the order of quotients. -/
theorem round_le_round (hden : 0 < den) (hden' : 0 < den')
    (h : (num : ℚ) / den ≤ num' / den') : F.round num den ≤ F.round num' den' := by
  obtain ⟨e, n, hrounds, hround⟩ := F.rounds_round num hden
  obtain ⟨e', n', hrounds', hround'⟩ := F.rounds_round num' hden'
  rw [hround, hround']
  exact min_le_min_right _ (hrounds.mono hrounds' h)

/-- Nothing of a fraction matters but its quotient. -/
theorem round_congr (hden : 0 < den) (hden' : 0 < den') (h : (num : ℚ) / den = num' / den') :
    F.round num den = F.round num' den' :=
  le_antisymm (round_le_round hden hden' h.le) (round_le_round hden' hden h.ge)

theorem round_le_of_le_value (hden : 0 < den) (h : (num : ℚ) / den ≤ F.value m) :
    F.round num den ≤ m := by
  obtain ⟨e, n, hrounds, hround⟩ := F.rounds_round num hden
  obtain ⟨hvalue, hindex⟩ := F.rounds_value m
  rw [hround, ← hindex]
  exact (min_le_left _ _).trans (hrounds.mono hvalue h)

theorem le_round_of_value_le (hden : 0 < den) (hm : m ≤ F.infinity)
    (h : F.value m ≤ num / den) : m ≤ F.round num den := by
  obtain ⟨e, n, hrounds, hround⟩ := F.rounds_round num hden
  obtain ⟨hvalue, hindex⟩ := F.rounds_value m
  rw [hround]
  exact le_min (hindex ▸ hvalue.mono hrounds h) hm

/-- A quotient that is a value of the format is left as it is. -/
theorem round_of_eq_value (hden : 0 < den) (hm : m ≤ F.infinity) (h : (num : ℚ) / den = F.value m) :
    F.round num den = m :=
  le_antisymm (round_le_of_le_value hden h.le) (le_round_of_value_le hden hm h.ge)

end

theorem significand_lt (F : BinaryFormat) (m : ℕ) : (F.parts m).1 < 2 ^ (F.fractionBits + 1) := by
  have hlt : m % 2 ^ F.fractionBits < 2 ^ F.fractionBits := Nat.mod_lt _ (by positivity)
  rw [Nat.pow_succ]
  unfold parts
  rw [twoTo_eq]
  dsimp only
  split <;> dsimp only <;> omega

theorem parts_eq (F : BinaryFormat) (k : ℕ) {f : ℕ} (hf : f < 2 ^ F.fractionBits) :
    F.parts (2 ^ F.fractionBits * k + f) = if k = 0 then (f, F.leastExponent)
      else (2 ^ F.fractionBits + f, F.leastExponent + (k - 1 : ℕ)) := by
  have hpos : 0 < 2 ^ F.fractionBits := by positivity
  unfold parts
  rw [twoTo_eq, Nat.mul_add_div hpos, Nat.div_eq_of_lt hf, Nat.mul_add_mod, Nat.mod_eq_of_lt hf]
  rfl

/-- The next magnitude has the next significand at the same exponent, or is the same number. -/
theorem value_succ (F : BinaryFormat) (m : ℕ) :
    F.value (m + 1) = ((F.parts m).1 + 1) * 2 ^ (F.parts m).2 := by
  have hpos : 0 < 2 ^ F.fractionBits := by positivity
  obtain ⟨k, f, hf, rfl⟩ : ∃ k f, f < 2 ^ F.fractionBits ∧ m = 2 ^ F.fractionBits * k + f :=
    ⟨_, _, Nat.mod_lt m hpos, (Nat.div_add_mod m _).symm⟩
  unfold value
  rw [parts_eq F k hf]
  by_cases hcarry : f + 1 < 2 ^ F.fractionBits
  · rw [Nat.add_assoc, parts_eq F k hcarry]
    split <;> push_cast <;> ring
  · obtain rfl : f = 2 ^ F.fractionBits - 1 := by omega
    have hnext : 2 ^ F.fractionBits * k + (2 ^ F.fractionBits - 1) + 1 =
        2 ^ F.fractionBits * (k + 1) + 0 := by
      rw [Nat.mul_succ]
      omega
    have hcast : ((2 ^ F.fractionBits - 1 : ℕ) : ℚ) = 2 ^ F.fractionBits - 1 := by
      rw [Nat.cast_sub hpos]
      norm_num
    rw [hnext, parts_eq F (k + 1) hpos, if_neg (Nat.succ_ne_zero k)]
    split
    · next hk =>
      subst hk
      simp only
      rw [hcast]
      simp
    · next hk =>
      have hexponent : F.leastExponent + ((k + 1 - 1 : ℕ) : ℤ) =
          F.leastExponent + ((k - 1 : ℕ) : ℤ) + 1 := by omega
      simp only
      rw [hexponent, zpow_add₀ (by norm_num)]
      push_cast
      rw [hcast]
      ring

/-- What a number is rounded to is the value at its index. -/
theorem value_index (h : F.Rounds x e n) : F.value (F.index e n) = n * 2 ^ e := by
  have hpos : 0 < 2 ^ F.fractionBits := by positivity
  have hle := h.significand_le
  have hleast := h.least
  rw [Nat.pow_succ] at hle
  obtain ⟨d, rfl⟩ : ∃ d : ℕ, e = F.leastExponent + d := ⟨(e - F.leastExponent).toNat, by omega⟩
  have hindex : F.index (F.leastExponent + d) n = 2 ^ F.fractionBits * d + n := by
    rw [index, add_sub_cancel_left, Int.toNat_natCast, Nat.mul_comm]
  unfold value
  rw [hindex]
  obtain hsmall | hlarge := Nat.lt_or_ge n (2 ^ F.fractionBits)
  · -- Only at the least exponent does a significand not fill its bits.
    obtain rfl : d = 0 := by
      have := h.normal.resolve_right fun hnormal => absurd (h.le_significand hnormal) (by omega)
      omega
    rw [parts_eq F 0 hsmall, if_pos rfl]
    simp
  obtain ⟨f, rfl⟩ := Nat.exists_eq_add_of_le hlarge
  obtain hfits | hcarries := Nat.lt_or_ge f (2 ^ F.fractionBits)
  · rw [show 2 ^ F.fractionBits * d + (2 ^ F.fractionBits + f) = 2 ^ F.fractionBits * (d + 1) + f by ring,
      parts_eq F (d + 1) hfits, if_neg (Nat.succ_ne_zero d)]
    simp
  · obtain rfl : f = 2 ^ F.fractionBits := by omega
    rw [show 2 ^ F.fractionBits * d + (2 ^ F.fractionBits + 2 ^ F.fractionBits) =
        2 ^ F.fractionBits * (d + 2) + 0 by ring, parts_eq F (d + 2) hpos, if_neg (Nat.succ_ne_zero _)]
    have hexponent : F.leastExponent + ((d + 2 - 1 : ℕ) : ℤ) = F.leastExponent + d + 1 := by omega
    simp only
    rw [hexponent, zpow_add₀ (by norm_num) _ 1]
    push_cast
    ring

section

variable {num den m : ℕ} (hden : 0 < den) (hm : m ≤ F.infinity)
include hden hm

theorem round_of_rounds (h : F.Rounds (num / den) e n) (hindex : F.index e n = m) :
    F.round num den = m := by
  obtain ⟨e', n', hrounds, hround⟩ := F.rounds_round num hden
  have hsame : F.index e' n' = F.index e n :=
    le_antisymm (hrounds.mono h le_rfl) (h.mono hrounds le_rfl)
  rw [hround, hsame, hindex, min_eq_left hm]

/-- Up to halfway to the next value a quotient is rounded down. -/
theorem round_of_lt_half (hlow : F.value m ≤ num / den)
    (hhigh : (num : ℚ) / den < F.value m + 2 ^ (F.parts m).2 / 2) : F.round num den = m := by
  obtain ⟨hvalue, hindex⟩ := F.rounds_value m
  have hs : ((F.parts m).1 : ℚ) + 1 ≤ 2 ^ (F.fractionBits + 1) := by exact_mod_cast F.significand_lt m
  have hpow : (0 : ℚ) < 2 ^ (F.parts m).2 := by positivity
  have hlow' : ((F.parts m).1 : ℚ) ≤ (num / den) / 2 ^ (F.parts m).2 := by
    rwa [le_div_iff₀ hpow]
  have hhigh' : (num / den : ℚ) / 2 ^ (F.parts m).2 < (F.parts m).1 + 1 / 2 := by
    rw [div_lt_iff₀ hpow]
    unfold value at hhigh
    linarith
  refine round_of_rounds hden hm (e := (F.parts m).2) (n := (F.parts m).1) ⟨hvalue.least, ?_, ?_, ?_⟩
    hindex
  · rw [zpow_add₀ (by norm_num), ← div_lt_iff₀ hpow]
    refine lt_of_lt_of_le (b := ((F.parts m).1 : ℚ) + 1) (by linarith) ?_
    exact_mod_cast hs
  · exact hvalue.normal.imp_right fun h => h.trans hlow
  · refine ⟨by linarith, hhigh'.le, ?_⟩
    rintro (tie | tie) <;> linarith

/-- Past halfway from the value before a quotient is rounded up. -/
theorem round_of_gt_half {k : ℕ} (hk : m = k + 1)
    (hlow : F.value m - 2 ^ (F.parts k).2 / 2 < num / den) (hhigh : (num : ℚ) / den ≤ F.value m) :
    F.round num den = m := by
  obtain heq | hlt := hhigh.eq_or_lt
  · exact round_of_eq_value hden hm heq
  obtain ⟨hvalue, hindex⟩ := F.rounds_value k
  have hsucc := F.value_succ k
  rw [← hk] at hsucc
  have hs : ((F.parts k).1 : ℚ) + 1 ≤ 2 ^ (F.fractionBits + 1) := by exact_mod_cast F.significand_lt k
  have hpow : (0 : ℚ) < 2 ^ (F.parts k).2 := by positivity
  have hlow' : ((F.parts k).1 : ℚ) + 1 / 2 < (num / den) / 2 ^ (F.parts k).2 := by
    rw [lt_div_iff₀ hpow]
    linarith
  have hhigh' : (num / den : ℚ) / 2 ^ (F.parts k).2 < (F.parts k).1 + 1 := by
    rw [div_lt_iff₀ hpow]
    linarith
  refine round_of_rounds hden hm (e := (F.parts k).2) (n := (F.parts k).1 + 1)
    ⟨hvalue.least, ?_, ?_, ?_⟩ ?_
  · rw [zpow_add₀ (by norm_num), ← div_lt_iff₀ hpow]
    refine hhigh'.trans_le ?_
    exact_mod_cast hs
  · refine hvalue.normal.imp_right fun h => h.trans ?_
    unfold value
    rw [← le_div_iff₀ hpow]
    linarith
  · have hnext : (((F.parts k).1 + 1 : ℕ) : ℚ) = (F.parts k).1 + 1 := Nat.cast_succ _
    refine ⟨by linarith, by linarith, ?_⟩
    rintro (tie | tie) <;> linarith
  · have hnext : F.index (F.parts k).2 ((F.parts k).1 + 1) = F.index (F.parts k).2 (F.parts k).1 + 1 := rfl
    omega

/-- What is nearer to a value than a quarter of a unit in its last place is rounded to it. -/
theorem round_of_near (h : |(num : ℚ) / den - F.value m| < F.value m / 2 ^ (F.fractionBits + 2)) :
    F.round num den = m := by
  have hpow2 : (2 : ℚ) ^ (F.fractionBits + 2) = 2 * 2 ^ (F.fractionBits + 1) := by ring
  obtain ⟨hlow, hhigh⟩ := abs_lt.1 h
  obtain hle | hlt := le_total (F.value m) (num / den)
  · refine round_of_lt_half hden hm hle ?_
    have hs : ((F.parts m).1 : ℚ) < 2 ^ (F.fractionBits + 1) := by exact_mod_cast F.significand_lt m
    have hgap : F.value m / 2 ^ (F.fractionBits + 2) ≤ 2 ^ (F.parts m).2 / 2 := by
      rw [hpow2, div_le_div_iff₀ (by positivity) (by norm_num), value]
      have := mul_le_mul_of_nonneg_right hs.le (show (0 : ℚ) ≤ 2 ^ (F.parts m).2 by positivity)
      linarith
    linarith
  · cases m with
    | zero =>
      have hzero : F.value 0 = 0 := by simp [value, parts]
      rw [hzero, zero_div] at h
      exact absurd h (not_lt.2 (abs_nonneg _))
    | succ k =>
      refine round_of_gt_half hden hm rfl ?_ hlt
      have hs : ((F.parts k).1 : ℚ) + 1 ≤ 2 ^ (F.fractionBits + 1) := by
        exact_mod_cast F.significand_lt k
      have hgap : F.value (k + 1) / 2 ^ (F.fractionBits + 2) ≤ 2 ^ (F.parts k).2 / 2 := by
        rw [hpow2, div_le_div_iff₀ (by positivity) (by norm_num), F.value_succ k]
        have := mul_le_mul_of_nonneg_right hs (show (0 : ℚ) ≤ 2 ^ (F.parts k).2 by positivity)
        linarith
      linarith

end

theorem fraction_pos (F : BinaryFormat) (m : ℕ) : 0 < (F.fraction m).2 := by
  unfold fraction
  dsimp only
  rw [twoTo_eq]
  positivity

theorem fraction_eq_value (F : BinaryFormat) (m : ℕ) :
    ((F.fraction m).1 : ℚ) / (F.fraction m).2 = F.value m := by
  unfold fraction value
  dsimp only
  rw [zpow_eq_div, twoTo_eq, twoTo_eq]
  push_cast
  ring

end BinaryFormat
end GuestHarness.Decimal
