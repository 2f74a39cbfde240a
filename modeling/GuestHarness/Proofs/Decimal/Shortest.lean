import GuestHarness.Decimal.Shortest
import GuestHarness.Proofs.Decimal.Rounding

/-! The search for the shortest decimal of a magnitude succeeds. On a grid of seventeen digits the nearer
neighbour of a value is nearer to it than a quarter of a unit in the last place, so it is read back. -/
namespace GuestHarness.Decimal

/-- The number that a decimal denotes. -/
def Scaled.value (d : Scaled) : ℚ := d.coefficient * 10 ^ d.exponent

namespace BinaryFormat

variable {F : BinaryFormat} {c : ℕ} {e : ℤ}

theorem tenTo_pos (n : ℕ) : 0 < tenTo n := Nat.pow_pos (by decide)

theorem decimal_quotient (c : ℕ) (e : ℤ) :
    ((c * tenTo e.toNat : ℕ) : ℚ) / (tenTo (-e).toNat : ℕ) = c * 10 ^ e := by
  rw [zpow_eq_div, tenTo_eq, tenTo_eq]
  push_cast
  ring

/-- A quotient lies between its whole part and the next number. -/
theorem floor_bounds (a : ℕ) {b : ℕ} (hb : 0 < b) :
    ((a / b : ℕ) : ℚ) ≤ a / b ∧ (a : ℚ) / b < (a / b : ℕ) + 1 := by
  have hpos : (0 : ℚ) < b := by exact_mod_cast hb
  rw [le_div_iff₀ hpos, div_lt_iff₀ hpos]
  exact ⟨by exact_mod_cast Nat.div_mul_le_self a b,
    by exact_mod_cast Nat.mul_comm b _ ▸ Nat.lt_mul_div_succ a hb⟩

/-- Within the range in which powers are worked out, a decimal is rounded as the number it denotes. -/
theorem ofDecimal_eq_round (hc : c ≠ 0) (hlow : -400 ≤ (Nat.toDigits 10 c).length + e)
    (hhigh : (Nat.toDigits 10 c).length + e ≤ 400) :
    F.ofDecimal c e = F.round (c * tenTo e.toNat) (tenTo (-e).toNat) := by
  unfold ofDecimal
  rw [if_neg hc]
  dsimp only
  rw [if_neg (by omega), if_neg (by omega)]

/-- Zeros after the coefficient are as good as a greater exponent. -/
theorem ofDecimal_mul_pow (F : BinaryFormat) (c k : ℕ) (e : ℤ) :
    F.ofDecimal (c * 10 ^ k) e = F.ofDecimal c (e + k) := by
  by_cases hc : c = 0
  · simp [hc]
  have hck : c * 10 ^ k ≠ 0 := Nat.mul_ne_zero hc (by positivity)
  have hround : F.round (c * 10 ^ k * tenTo e.toNat) (tenTo (-e).toNat) =
      F.round (c * tenTo (e + k).toNat) (tenTo (-(e + k)).toNat) := by
    refine round_congr (tenTo_pos _) (tenTo_pos _) ?_
    rw [decimal_quotient, decimal_quotient, zpow_add₀ (by norm_num), zpow_natCast]
    push_cast
    ring
  have htop : ((Nat.toDigits 10 (c * 10 ^ k)).length : ℤ) + e =
      (Nat.toDigits 10 c).length + (e + k) := by
    rw [length_toDigits_mul_pow hc]
    push_cast
    ring
  unfold ofDecimal
  dsimp only
  rw [if_neg hc, if_neg hck, htop, hround]

/-- The scale of a fraction lies between the powers of ten next to it. -/
theorem decimalScale_spec {num den : ℕ} (hden : 0 < den)
    (hleast : (10 : ℚ) ^ (-400 : ℤ) ≤ num / den) :
    (10 : ℚ) ^ (decimalScale num den - 1) ≤ num / den ∧
      (num : ℚ) / den < 10 ^ decimalScale num den := by
  have hpos : (0 : ℚ) < den := by exact_mod_cast hden
  -- A power with a negative exponent is compared with a fraction by multiplying out.
  have hneg (k : ℕ) : (10 : ℚ) ^ (-(k : ℤ)) ≤ num / den ↔ den ≤ num * tenTo k := by
    rw [zpow_neg, zpow_natCast, inv_eq_one_div, div_le_div_iff₀ (by positivity) hpos, one_mul, tenTo_eq]
    exact_mod_cast Iff.rfl
  unfold decimalScale
  dsimp only
  split
  · next hwhole =>
    obtain ⟨j, hj⟩ : ∃ j, (Nat.toDigits 10 (num / den)).length = j + 1 :=
      ⟨_, (Nat.succ_pred_eq_of_pos Nat.length_toDigits_pos).symm⟩
    have hlow : 10 ^ j ≤ num / den := pow_le_of_lt_length_toDigits hwhole (by omega)
    have hhigh : num / den < 10 ^ (j + 1) := hj ▸ lt_pow_length_toDigits (num / den)
    rw [Nat.le_div_iff_mul_le hden] at hlow
    rw [Nat.div_lt_iff_lt_mul hden] at hhigh
    rw [hj, le_div_iff₀ hpos, div_lt_iff₀ hpos, Nat.cast_succ, add_sub_cancel_right]
    exact ⟨by exact_mod_cast hlow, by exact_mod_cast hhigh⟩
  · next hwhole =>
    have hlt : num < den := by
      rcases Nat.div_eq_zero_iff.1 (not_not.1 hwhole) with h | h
      · omega
      · exact h
    obtain ⟨k, hk⟩ : ∃ k, (List.range 400).find? (fun k => den ≤ num * tenTo (k + 1)) = some k := by
      rw [← Option.isSome_iff_exists, List.find?_isSome]
      exact ⟨399, by simp, decide_eq_true ((hneg 400).1 hleast)⟩
    rw [hk, Option.getD_some]
    obtain ⟨hfits, hbefore⟩ := List.find?_range_eq_some.1 hk
    rw [Int.negOfNat_eq, Int.ofNat_eq_natCast]
    constructor
    · have hle := (hneg (k + 1)).2 (by simpa using hfits)
      rwa [show -(k : ℤ) - 1 = -((k + 1 : ℕ) : ℤ) by omega]
    · cases k with
      | zero =>
        rw [Nat.cast_zero, neg_zero, zpow_zero, div_lt_one hpos]
        exact_mod_cast hlt
      | succ k =>
        rw [← not_le, hneg]
        simpa using hbefore.2 k (by omega)

/-- A format whose values lie among the decimals that are tried: seventeen digits tell them apart, and the
powers of ten in question are worked out. -/
structure Covered (F : BinaryFormat) : Prop where
  precision : F.fractionBits ≤ 52
  least : -1074 ≤ F.leastExponent
  greatest : F.fractionBits + (F.parts F.infinity).2 ≤ 1024

theorem covered_binary32 : Covered binary32 :=
  ⟨by decide, by decide +kernel, by decide +kernel⟩

theorem covered_binary64 : Covered binary64 :=
  ⟨by decide, by decide +kernel, by decide +kernel⟩

section

variable {m : ℕ} {tie : Tie} {num den : ℕ} {d : Scaled}

theorem value_pos (hm : m ≠ 0) : 0 < F.value m := by
  have hzero : F.value 0 = 0 := by simp [value, parts]
  rw [← hzero]
  exact value_lt_value (Nat.pos_of_ne_zero hm)

theorem two_pow_leastExponent_le_value (hm : m ≠ 0) : (2 : ℚ) ^ F.leastExponent ≤ F.value m := by
  have hpos := value_pos (F := F) hm
  have hsignificand : (1 : ℚ) ≤ (F.parts m).1 := by
    rw [Nat.one_le_cast, Nat.one_le_iff_ne_zero]
    intro h
    rw [value, h, Nat.cast_zero, zero_mul] at hpos
    exact lt_irrefl _ hpos
  have hexponent : (2 : ℚ) ^ F.leastExponent ≤ 2 ^ (F.parts m).2 :=
    zpow_le_zpow_right₀ (by norm_num) (F.rounds_value m).1.least
  exact hexponent.trans (le_mul_of_one_le_left (by positivity) hsignificand)

/-- The values of such a format lie within the decimals of these scales. -/
theorem Covered.bounds (hF : Covered F) (hm : m ≠ 0) (hlt : m < F.infinity) :
    (10 : ℚ) ^ (-324 : ℤ) ≤ F.value m ∧ F.value m < 10 ^ (309 : ℤ) := by
  have hleast : (10 : ℚ) ^ (-324 : ℤ) ≤ 2 ^ (-1074 : ℤ) := by
    have hpow : (2 : ℚ) ^ 1074 ≤ 10 ^ 324 := by
      exact_mod_cast (by decide +kernel : 2 ^ 1074 ≤ 10 ^ 324)
    rw [zpow_neg, zpow_neg]
    exact inv_anti₀ (by positivity) hpow
  have hgreatest : (2 : ℚ) ^ (1025 : ℤ) ≤ 10 ^ (309 : ℤ) := by
    exact_mod_cast (by decide +kernel : 2 ^ 1025 ≤ 10 ^ 309)
  constructor
  · calc (10 : ℚ) ^ (-324 : ℤ) ≤ 2 ^ (-1074 : ℤ) := hleast
      _ ≤ 2 ^ F.leastExponent := zpow_le_zpow_right₀ (by norm_num) hF.least
      _ ≤ F.value m := two_pow_leastExponent_le_value hm
  · calc F.value m < F.value F.infinity := value_lt_value hlt
      _ < 2 ^ (F.fractionBits + 1 + (F.parts F.infinity).2) := (F.rounds_value F.infinity).1.below
      _ ≤ 2 ^ (1025 : ℤ) := zpow_le_zpow_right₀ (by norm_num) (by have := hF.greatest; omega)
      _ ≤ 10 ^ (309 : ℤ) := hgreatest

/-- A neighbour of a candidate on the grid, and what the search has checked of it. -/
theorem candidate_cases (h : F.candidate tie m num den e = some d) :
    d.exponent = e ∧ d.coefficient ≠ 0 ∧
      d.coefficient ≤ num * tenTo (-e).toNat / (den * tenTo e.toNat) + 1 := by
  unfold candidate at h
  dsimp only at h
  generalize num * tenTo (-e).toNat / (den * tenTo e.toNat) = q at h ⊢
  generalize 2 * (num * tenTo (-e).toNat % (den * tenTo e.toNat)) = twice at h
  have hbelow (hb : (q != 0 && F.readsBack m ⟨q, e⟩) = true) (hd : d = ⟨q, e⟩) :
      d.exponent = e ∧ d.coefficient ≠ 0 ∧ d.coefficient ≤ q + 1 := by
    subst hd
    rw [Bool.and_eq_true, bne_iff_ne] at hb
    exact ⟨rfl, hb.1, Nat.le_succ q⟩
  have habove (hd : d = ⟨q + 1, e⟩) :
      d.exponent = e ∧ d.coefficient ≠ 0 ∧ d.coefficient ≤ q + 1 := by
    subst hd
    exact ⟨rfl, Nat.succ_ne_zero q, le_rfl⟩
  split at h
  · contradiction
  · next hb ha => exact hbelow hb (Option.some.inj h).symm
  · exact habove (Option.some.inj h).symm
  · next hb ha =>
    split at h
    · exact hbelow hb (Option.some.inj h).symm
    split at h
    · exact habove (Option.some.inj h).symm
    cases tie with
    | away => exact habove (Option.some.inj h).symm
    | toEven =>
      have hd := Option.some.inj h
      split at hd
      · exact hbelow hb hd.symm
      · exact habove hd.symm

theorem candidate_isSome (h : F.readsBack m ⟨num * tenTo (-e).toNat / (den * tenTo e.toNat), e⟩ = true ∧
      num * tenTo (-e).toNat / (den * tenTo e.toNat) ≠ 0 ∨
    F.readsBack m ⟨num * tenTo (-e).toNat / (den * tenTo e.toNat) + 1, e⟩ = true) :
    (F.candidate tie m num den e).isSome = true := by
  unfold candidate
  dsimp only
  split
  · next hb ha =>
    obtain ⟨hbelow, hne⟩ | habove := h
    · simp [hbelow, hne] at hb
    · rw [habove] at ha
      contradiction
  · rfl
  · rfl
  · split
    · rfl
    split
    · rfl
    cases tie <;> rfl

/-- A decimal of seventeen digits that is the nearest to a value is read back. -/
theorem readsBack_of_nearest (hF : Covered F) (hm : m ≤ F.infinity) (hlow : -341 ≤ e) (hhigh : e ≤ 309)
    (hc : 10 ^ 16 ≤ c) (hc' : c ≤ 10 ^ 17) (hvalue : (10 : ℚ) ^ 16 ≤ F.value m / 10 ^ e)
    (hnear : |(c : ℚ) - F.value m / 10 ^ e| ≤ 1 / 2) : F.readsBack m ⟨c, e⟩ = true := by
  have hpow : (0 : ℚ) < 10 ^ e := by positivity
  have hlength : 17 ≤ (Nat.toDigits 10 c).length ∧ (Nat.toDigits 10 c).length ≤ 18 := by
    obtain h | h := Nat.lt_or_ge c (10 ^ 17)
    · rw [length_toDigits_eq hc h]
      decide
    · rw [length_toDigits_eq (k := 17) h (by omega)]
      decide
  have hfine : (2 : ℚ) ^ (F.fractionBits + 2) ≤ 2 ^ 54 :=
    pow_le_pow_right₀ (by norm_num) (by have := hF.precision; omega)
  -- Half a step of the grid is less than a quarter of a unit in the last place.
  have hstep : (10 : ℚ) ^ e / 2 < F.value m / 2 ^ (F.fractionBits + 2) := by
    rw [le_div_iff₀ hpow] at hvalue
    rw [div_lt_div_iff₀ (by norm_num) (by positivity)]
    have : (10 : ℚ) ^ e * 2 ^ (F.fractionBits + 2) ≤ 10 ^ e * 2 ^ 54 := by gcongr
    linarith
  have hdistance : |(c : ℚ) * 10 ^ e - F.value m| ≤ 10 ^ e / 2 := by
    have hfactor : (c : ℚ) * 10 ^ e - F.value m = (c - F.value m / 10 ^ e) * 10 ^ e := by
      rw [sub_mul, div_mul_cancel₀ _ hpow.ne']
    rw [hfactor, abs_mul, abs_of_pos hpow]
    linarith [mul_le_mul_of_nonneg_right hnear hpow.le]
  unfold readsBack
  dsimp only
  rw [beq_iff_eq, ofDecimal_eq_round (by omega) (by omega) (by omega)]
  refine round_of_near (tenTo_pos _) hm ?_
  rw [decimal_quotient]
  exact hdistance.trans_lt hstep

section

variable (hden : 0 < den) (hvalue : (num : ℚ) / den = F.value m)
include hden hvalue

/-- The lower neighbour of a value on a grid is what division gives. -/
theorem grid_bounds (e : ℤ) :
    ((num * tenTo (-e).toNat / (den * tenTo e.toNat) : ℕ) : ℚ) ≤ F.value m / 10 ^ e ∧
      F.value m / 10 ^ e < (num * tenTo (-e).toNat / (den * tenTo e.toNat) : ℕ) + 1 := by
  have hquotient : ((num * tenTo (-e).toNat : ℕ) : ℚ) / (den * tenTo e.toNat : ℕ) = F.value m / 10 ^ e := by
    rw [← hvalue]
    exact div_zpow_eq num den (by decide) e
  rw [← hquotient]
  exact floor_bounds _ (Nat.mul_pos hden (tenTo_pos _))

/-- One of the neighbours on a grid of seventeen digits is read back. -/
theorem candidate_isSome_of_fine (hF : Covered F) (hm : m ≤ F.infinity) (tie : Tie) (hlow : -341 ≤ e)
    (hhigh : e ≤ 309) (hfine : (10 : ℚ) ^ 16 ≤ F.value m / 10 ^ e)
    (hcoarse : F.value m / 10 ^ e < 10 ^ 17) : (F.candidate tie m num den e).isSome = true := by
  obtain ⟨hbelow, habove⟩ := grid_bounds hden hvalue e
  apply candidate_isSome
  generalize num * tenTo (-e).toNat / (den * tenTo e.toNat) = q at hbelow habove ⊢
  have hleast : 10 ^ 16 < q + 1 := by exact_mod_cast hfine.trans_lt habove
  have hmost : q < 10 ^ 17 := by exact_mod_cast hbelow.trans_lt hcoarse
  obtain h | h := le_total (F.value m / 10 ^ e) (q + 1 / 2)
  · refine .inl ⟨?_, by omega⟩
    exact readsBack_of_nearest hF hm hlow hhigh (by omega) (by omega) hfine
      (abs_le.2 ⟨by linarith, by linarith⟩)
  · refine .inr (readsBack_of_nearest hF hm hlow hhigh (by omega) (by omega) hfine ?_)
    push_cast
    exact abs_le.2 ⟨by linarith, by linarith⟩

end

/-- What is known of the decimal that a search has found for a magnitude. -/
structure Found (F : BinaryFormat) (m : ℕ) (d : Scaled) : Prop where
  nonzero : d.coefficient ≠ 0
  coefficient_le : d.coefficient ≤ 10 ^ 17
  le_exponent : -341 ≤ d.exponent
  exponent_le : d.exponent ≤ 309
  readsBack : F.ofDecimal d.coefficient d.exponent = m

/-- The search finds a decimal, for it finds one on the last grid if on none before. -/
theorem found_shortest (hF : Covered F) (tie : Tie) (hm : m ≠ 0) (hfinite : m < F.infinity) :
    Found F m (F.shortest tie m) := by
  have hden := F.fraction_pos m
  have hvalue := F.fraction_eq_value m
  obtain ⟨hleast, hgreatest⟩ := hF.bounds hm hfinite
  have htiny : (10 : ℚ) ^ (-400 : ℤ) ≤ 10 ^ (-324 : ℤ) := zpow_le_zpow_right₀ (by norm_num) (by norm_num)
  obtain ⟨hlow, hhigh⟩ := decimalScale_spec hden (hvalue ▸ htiny.trans hleast)
  unfold shortest
  rw [if_neg hm]
  dsimp only
  generalize F.fraction m = fraction at *
  obtain ⟨num, den⟩ := fraction
  dsimp only at *
  rw [hvalue] at hlow hhigh
  generalize decimalScale num den = s at *
  have hscale : -324 < s ∧ s ≤ 309 := by
    have hpow := hleast.trans_lt hhigh
    have hpow' := hlow.trans_lt hgreatest
    rw [zpow_lt_zpow_iff_right₀ (by norm_num)] at hpow hpow'
    omega
  have hcoarse (n : ℕ) : F.value m / 10 ^ (s - n) < 10 ^ n := by
    rw [div_lt_iff₀ (by positivity), ← zpow_natCast, ← zpow_add₀ (by norm_num), add_sub_cancel]
    exact hhigh
  have hlast : (F.candidate tie m num den (s - (17 : ℕ))).isSome = true := by
    refine candidate_isSome_of_fine hden hvalue hF hfinite.le tie (by omega) (by omega) ?_ (hcoarse 17)
    rw [le_div_iff₀ (by positivity), ← zpow_natCast, ← zpow_add₀ (by norm_num)]
    rwa [show ((16 : ℕ) : ℤ) + (s - (17 : ℕ)) = s - 1 by omega]
  obtain ⟨d, hd⟩ : ∃ d, (List.range 18).findSome? (fun n : ℕ => F.candidate tie m num den (s - n)) =
      some d := by
    rw [← Option.isSome_iff_exists, List.findSome?_isSome_iff]
    exact ⟨17, by simp, hlast⟩
  obtain ⟨n, hn, hcandidate⟩ := List.exists_of_findSome?_eq_some hd
  have hn : n < 18 := List.mem_range.1 hn
  obtain ⟨hexponent, hnonzero, hle⟩ := candidate_cases hcandidate
  have hfloor : num * tenTo (-(s - n)).toNat / (den * tenTo (s - n).toNat) < 10 ^ n := by
    exact_mod_cast (grid_bounds hden hvalue (s - n)).1.trans_lt (hcoarse n)
  have hpow : 10 ^ n ≤ 10 ^ 17 := Nat.pow_le_pow_right (by decide) (by omega)
  rw [hd, Option.getD_some]
  exact ⟨hnonzero, by omega, by omega, by omega,
    beq_iff_eq.1 (F.readsBack_of_candidate hcandidate)⟩

end

end BinaryFormat
end GuestHarness.Decimal
