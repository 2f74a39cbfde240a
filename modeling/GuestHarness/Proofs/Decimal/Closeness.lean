import GuestHarness.Proofs.Decimal.Rounding

/-! Numbers that are a few roundings apart. A format tells its values apart at points halfway between them,
and each rounding moves a number past at most one of these points. -/
namespace GuestHarness.Decimal
namespace BinaryFormat

variable {F : BinaryFormat} {m : ℕ} {x y : ℚ}

/-- The number halfway between a value and the next. -/
def half (F : BinaryFormat) (m : ℕ) : ℚ := F.value m + 2 ^ (F.parts m).2 / 2

/-- The magnitude to which a number is rounded. -/
def nearest (F : BinaryFormat) (x : ℚ) : ℕ := F.round x.num.natAbs x.den

theorem half_eq (F : BinaryFormat) (m : ℕ) : F.half m = ((F.parts m).1 + 1 / 2) * 2 ^ (F.parts m).2 := by
  unfold half value
  ring

theorem natAbs_num_div_den (hx : 0 ≤ x) : (x.num.natAbs : ℚ) / x.den = x := by
  have hnum : (x.num.natAbs : ℤ) = x.num := Int.natAbs_of_nonneg (Rat.num_nonneg.2 hx)
  have hcast : ((x.num.natAbs : ℤ) : ℚ) / x.den = x := hnum ▸ Rat.num_div_den x
  exact hcast

theorem round_eq_nearest (F : BinaryFormat) (num : ℕ) {den : ℕ} (hden : 0 < den) :
    F.round num den = F.nearest (num / den) :=
  round_congr hden (Rat.den_pos _) (natAbs_num_div_den (by positivity)).symm

theorem rounds_nearest (F : BinaryFormat) (hx : 0 ≤ x) :
    ∃ e n, F.Rounds x e n ∧ F.nearest x = min (F.index e n) F.infinity := by
  have hrounds := F.rounds_round x.num.natAbs (Rat.den_pos x)
  rwa [natAbs_num_div_den hx] at hrounds

theorem nearest_le_infinity (hx : 0 ≤ x) : F.nearest x ≤ F.infinity := by
  obtain ⟨e, n, -, hnearest⟩ := F.rounds_nearest hx
  exact hnearest ▸ min_le_right _ _

theorem nearest_mono (hx : 0 ≤ x) (h : x ≤ y) : F.nearest x ≤ F.nearest y := by
  refine round_le_round (Rat.den_pos x) (Rat.den_pos y) ?_
  rwa [natAbs_num_div_den hx, natAbs_num_div_den (hx.trans h)]

theorem nearest_le_of_le_value (hx : 0 ≤ x) (h : x ≤ F.value m) : F.nearest x ≤ m :=
  round_le_of_le_value (Rat.den_pos x) ((natAbs_num_div_den hx).trans_le h)

theorem le_nearest_of_value_le (hm : m ≤ F.infinity) (h : F.value m ≤ x) : m ≤ F.nearest x :=
  le_round_of_value_le (Rat.den_pos x) hm
    (h.trans_eq (natAbs_num_div_den ((value_nonneg m).trans h)).symm)

/-- The values of the format are left as they are. -/
theorem nearest_value (hm : m ≤ F.infinity) : F.nearest (F.value m) = m :=
  le_antisymm (nearest_le_of_le_value (value_nonneg m) le_rfl) (le_nearest_of_value_le hm le_rfl)

theorem nearest_le_of_lt_half (hx : 0 ≤ x) (hm : m ≤ F.infinity) (h : x < F.half m) :
    F.nearest x ≤ m := by
  obtain hle | hle := le_total x (F.value m)
  · exact nearest_le_of_le_value hx hle
  · have hquotient := natAbs_num_div_den hx
    exact (round_of_lt_half (Rat.den_pos x) hm (hle.trans_eq hquotient.symm)
      (hquotient.trans_lt h)).le

theorem lt_nearest_of_half_lt (hx : 0 ≤ x) (hm : m < F.infinity) (h : F.half m < x) :
    m < F.nearest x := by
  have hhalf : F.value (m + 1) - 2 ^ (F.parts m).2 / 2 = F.half m := by
    rw [value_succ, half_eq]
    ring
  obtain hle | hle := le_total x (F.value (m + 1))
  · have hquotient := natAbs_num_div_den hx
    rw [nearest, round_of_gt_half (Rat.den_pos x) hm rfl (hhalf.trans_lt (h.trans_eq hquotient.symm))
      (hquotient.trans_le hle)]
    exact Nat.lt_succ_self m
  · exact le_nearest_of_value_le hm hle

theorem le_half_of_nearest_le (hx : 0 ≤ x) (hm : m < F.infinity) (h : F.nearest x ≤ m) :
    x ≤ F.half m :=
  not_lt.1 fun hlt => absurd (lt_nearest_of_half_lt hx hm hlt) (not_lt.2 h)

theorem exponent_le_succ (F : BinaryFormat) (m : ℕ) : (F.parts m).2 ≤ (F.parts (m + 1)).2 := by
  have hdiv : m / twoTo F.fractionBits ≤ (m + 1) / twoTo F.fractionBits :=
    Nat.div_le_div_right (Nat.le_succ m)
  unfold parts
  dsimp only
  split <;> split <;> dsimp only <;> omega

/-- A small factor does not move a point halfway between values to the next one. -/
theorem half_mul_lt {r : ℚ} (hr : 1 < r) (hsmall : 2 ^ (F.fractionBits + 1) * (r - 1) ≤ 1) (m : ℕ) :
    F.half m * r < F.half (m + 1) := by
  have hs : ((F.parts m).1 : ℚ) + 1 ≤ 2 ^ (F.fractionBits + 1) := by exact_mod_cast F.significand_lt m
  have hexponent : (2 : ℚ) ^ (F.parts m).2 ≤ 2 ^ (F.parts (m + 1)).2 :=
    zpow_le_zpow_right₀ (by norm_num) (F.exponent_le_succ m)
  have hgrowth : ((F.parts m).1 + 1 / 2 : ℚ) * (r - 1) < 1 := by
    refine lt_of_lt_of_le ?_ hsmall
    exact mul_lt_mul_of_pos_right (by linarith) (by linarith)
  have hpos : (0 : ℚ) < 2 ^ (F.parts m).2 := by positivity
  calc F.half m * r
      = F.half m + ((F.parts m).1 + 1 / 2) * (r - 1) * 2 ^ (F.parts m).2 := by
        rw [half_eq]
        ring
    _ < F.half m + 1 * 2 ^ (F.parts m).2 := by gcongr
    _ = F.value (m + 1) + 2 ^ (F.parts m).2 / 2 := by
        rw [half_eq, value_succ]
        ring
    _ ≤ F.half (m + 1) := by
        unfold half
        linarith

/-- If a factor moves no point past the next but so many, nor does it move what is rounded further. -/
theorem nearest_le_add {r : ℚ} {j : ℕ} (hstep : ∀ m, F.half m * r < F.half (m + j)) (hr : 0 ≤ r)
    (hx : 0 ≤ x) (hy : 0 ≤ y) (h : y ≤ x * r) : F.nearest y ≤ F.nearest x + j := by
  obtain hlt | hge := Nat.lt_or_ge (F.nearest x + j) F.infinity
  · refine nearest_le_of_lt_half hy hlt.le ?_
    have hhalf := le_half_of_nearest_le hx (by omega) (le_refl (F.nearest x))
    calc y ≤ x * r := h
      _ ≤ F.half (F.nearest x) * r := mul_le_mul_of_nonneg_right hhalf hr
      _ < F.half (F.nearest x + j) := hstep _
  · exact (nearest_le_infinity hy).trans hge

end BinaryFormat

open BinaryFormat

/-- The greatest factor between a number and what it is rounded to with 53 bits. -/
def roundoff : ℚ := 1 + 1 / 2 ^ 53

/-- The numbers are at most so many roundings apart. -/
structure Close (k : ℕ) (x y : ℚ) : Prop where
  le_mul : x ≤ y * roundoff ^ k
  ge_mul : y ≤ x * roundoff ^ k

theorem roundoff_pos : 0 < roundoff := by
  unfold roundoff
  norm_num

theorem one_lt_roundoff : 1 < roundoff := by
  unfold roundoff
  norm_num

namespace Close

variable {k l : ℕ} {x y z w : ℚ}

theorem symm (h : Close k x y) : Close k y x := ⟨h.ge_mul, h.le_mul⟩

theorem refl (x : ℚ) : Close 0 x x := ⟨by simp, by simp⟩

theorem pos (h : Close k x y) (hx : 0 < x) : 0 < y := by
  by_contra hle
  have hmul := mul_nonpos_of_nonpos_of_nonneg (not_lt.1 hle) (pow_pos roundoff_pos k).le
  linarith [h.le_mul]

theorem trans (hxy : Close k x y) (hyz : Close l y z) : Close (k + l) x z := by
  have hk := pow_pos roundoff_pos k
  have hl := pow_pos roundoff_pos l
  constructor
  · calc x ≤ y * roundoff ^ k := hxy.le_mul
      _ ≤ z * roundoff ^ l * roundoff ^ k := mul_le_mul_of_nonneg_right hyz.le_mul hk.le
      _ = z * roundoff ^ (k + l) := by ring
  · calc z ≤ y * roundoff ^ l := hyz.ge_mul
      _ ≤ x * roundoff ^ k * roundoff ^ l := mul_le_mul_of_nonneg_right hxy.ge_mul hl.le
      _ = x * roundoff ^ (k + l) := by ring

theorem mul (hx : 0 ≤ x) (hy : 0 ≤ y) (hz : 0 ≤ z) (hw : 0 ≤ w) (hxy : Close k x y) (hzw : Close l z w) :
    Close (k + l) (x * z) (y * w) := by
  have hk := pow_pos roundoff_pos k
  have hl := pow_pos roundoff_pos l
  constructor
  · calc x * z ≤ y * roundoff ^ k * (w * roundoff ^ l) :=
          mul_le_mul hxy.le_mul hzw.le_mul hz (by positivity)
      _ = y * w * roundoff ^ (k + l) := by ring
  · calc y * w ≤ x * roundoff ^ k * (z * roundoff ^ l) :=
          mul_le_mul hxy.ge_mul hzw.ge_mul hw (by positivity)
      _ = x * z * roundoff ^ (k + l) := by ring

theorem inv (hx : 0 < x) (hy : 0 < y) (h : Close k x y) : Close k x⁻¹ y⁻¹ := by
  have hk := pow_pos roundoff_pos k
  have hinv {a b : ℚ} (ha : 0 < a) (hb : 0 < b) (hab : b ≤ a * roundoff ^ k) :
      a⁻¹ ≤ b⁻¹ * roundoff ^ k := by
    rw [inv_eq_one_div, inv_eq_one_div, div_mul_eq_mul_div, one_mul, div_le_div_iff₀ ha hb]
    linarith
  exact ⟨hinv hx hy h.ge_mul, hinv hy hx h.le_mul⟩

theorem div (hx : 0 ≤ x) (hy : 0 ≤ y) (hz : 0 < z) (hw : 0 < w) (hxy : Close k x y) (hzw : Close l z w) :
    Close (k + l) (x / z) (y / w) :=
  hxy.mul hx hy (inv_nonneg.2 hz.le) (inv_nonneg.2 hw.le) (hzw.inv hz hw)

end Close

section

variable {F : BinaryFormat} {k : ℕ} {x y : ℚ}

theorem half_mul_roundoff_lt (hF : F.fractionBits ≤ 52) (k m : ℕ) :
    F.half m * roundoff ^ (k + 1) < F.half (m + (k + 1)) := by
  have hsmall : (2 : ℚ) ^ (F.fractionBits + 1) * (roundoff - 1) ≤ 1 := by
    have hpow : (2 : ℚ) ^ (F.fractionBits + 1) ≤ 2 ^ 53 :=
      pow_le_pow_right₀ (by norm_num) (Nat.succ_le_succ hF)
    unfold roundoff
    linarith
  induction k with
  | zero => simpa using half_mul_lt one_lt_roundoff hsmall m
  | succ k ih =>
    calc F.half m * roundoff ^ (k + 1 + 1) = F.half m * roundoff ^ (k + 1) * roundoff := by ring
      _ < F.half (m + (k + 1)) * roundoff := mul_lt_mul_of_pos_right ih roundoff_pos
      _ < F.half (m + (k + 1 + 1)) := half_mul_lt one_lt_roundoff hsmall _

namespace Close

/-- Numbers that are so many roundings apart are rounded to values that are no further apart. -/
theorem nearest_le (hF : F.fractionBits ≤ 52) (hx : 0 ≤ x) (hy : 0 ≤ y) (h : Close k x y) :
    F.nearest y ≤ F.nearest x + k := by
  cases k with
  | zero =>
    have hle : y ≤ x := by simpa using h.ge_mul
    exact nearest_mono hy hle
  | succ k => exact nearest_le_add (half_mul_roundoff_lt hF k) (pow_pos roundoff_pos _).le hx hy h.ge_mul

/-- They are rounded to the same value unless there is a point halfway between two values that is no further
away. -/
theorem nearest_eq_or_close (hx : 0 ≤ x) (hy : 0 ≤ y) (h : Close k x y)
    (hfinite : F.nearest x < F.infinity) : F.nearest y = F.nearest x ∨
      ∃ m, (m = F.nearest x ∨ m + 1 = F.nearest x) ∧ Close k x (F.half m) := by
  have hpow : (1 : ℚ) ≤ roundoff ^ k := one_le_pow₀ one_lt_roundoff.le
  obtain hlt | heq | hgt := lt_trichotomy (F.nearest y) (F.nearest x)
  · obtain ⟨m, hm⟩ := Nat.exists_eq_add_one_of_ne_zero (Nat.ne_zero_of_lt hlt)
    have habove : F.half m ≤ x := not_lt.1 fun hlow => by
      have := nearest_le_of_lt_half hx (by omega) hlow
      omega
    have hbelow : y ≤ F.half m := le_half_of_nearest_le hy (by omega) (by omega)
    refine .inr ⟨m, .inr hm.symm, ?_, ?_⟩
    · exact h.le_mul.trans (mul_le_mul_of_nonneg_right hbelow (by linarith))
    · exact habove.trans (le_mul_of_one_le_right hx hpow)
  · exact .inl heq
  · have hbelow := le_half_of_nearest_le hx hfinite le_rfl
    have habove : F.half (F.nearest x) ≤ y := not_lt.1 fun hlow =>
      absurd (nearest_le_of_lt_half hy hfinite.le hlow) (not_le.2 hgt)
    refine .inr ⟨_, .inl rfl, ?_, ?_⟩
    · exact hbelow.trans (le_mul_of_one_le_right (hx.trans hbelow) hpow)
    · exact habove.trans h.ge_mul

/-- In a coarser format they are neighbours at most. -/
theorem nearest_le_succ (hF : F.fractionBits ≤ 23) (hx : 0 ≤ x) (hy : 0 ≤ y) (h : Close 3 x y) :
    F.nearest y ≤ F.nearest x + 1 := by
  have hsmall : (2 : ℚ) ^ (F.fractionBits + 1) * (roundoff ^ 3 - 1) ≤ 1 := by
    have hpow : (2 : ℚ) ^ (F.fractionBits + 1) ≤ 2 ^ 24 :=
      pow_le_pow_right₀ (by norm_num) (Nat.succ_le_succ hF)
    have hstep : (2 : ℚ) ^ 24 * (roundoff ^ 3 - 1) ≤ 1 := by
      norm_num [roundoff]
    have hpos : 0 ≤ roundoff ^ 3 - 1 := by
      norm_num [roundoff]
    exact (mul_le_mul_of_nonneg_right hpow hpos).trans hstep
  have hone : 1 < roundoff ^ 3 := one_lt_pow₀ one_lt_roundoff (by decide)
  exact nearest_le_add (half_mul_lt hone hsmall) (by linarith) hx hy h.ge_mul

end Close

/-- A number as binary64 has it. -/
def rounded (x : ℚ) : ℚ := binary64.value (binary64.nearest x)

theorem rounded_nonneg (x : ℚ) : 0 ≤ rounded x := value_nonneg _

@[simp] theorem rounded_zero : rounded 0 = 0 := by decide +kernel

/-- Rounding to binary64 stays within the factor, where significands fill their bits. -/
theorem close_rounded (hnormal : (2 : ℚ) ^ (-1022 : ℤ) ≤ x)
    (hfinite : binary64.nearest x < binary64.infinity) : Close 1 x (rounded x) := by
  have hx : 0 ≤ x := le_trans (by positivity) hnormal
  obtain ⟨e, n, hrounds, hnearest⟩ := binary64.rounds_nearest hx
  have hindex : binary64.nearest x = binary64.index e n := by omega
  have hlarge : (2 : ℚ) ^ ((52 : ℕ) + e) ≤ x := by
    obtain hleast | hlarge := hrounds.normal
    · have hexponent : ((52 : ℕ) : ℤ) + e = -1022 := by
        rw [hleast]
        decide
      rwa [hexponent]
    · exact hlarge
  have hn : (2 : ℚ) ^ 52 ≤ n := by exact_mod_cast hrounds.le_significand hlarge
  have hp : (0 : ℚ) < 2 ^ e := by positivity
  have hlower := hrounds.nearest.lower
  have hupper := hrounds.nearest.upper
  rw [le_div_iff₀ hp] at hlower
  rw [div_le_iff₀ hp] at hupper
  have hnp := mul_le_mul_of_nonneg_right hn hp.le
  rw [zpow_add₀ (by norm_num), zpow_natCast] at hlarge
  rw [rounded, hindex, value_index hrounds]
  constructor
  · rw [pow_one, roundoff]
    linarith
  · rw [pow_one, roundoff]
    linarith

/-- The greatest finite value is above the powers of ten with names. -/
theorem pow_le_greatest : (10 : ℚ) ^ 308 ≤ binary64.value (binary64.infinity - 1) := by
  have hparts : binary64.parts (binary64.infinity - 1) = (9007199254740991, ((971 : ℕ) : ℤ)) := by
    decide +kernel
  have hpow : 10 ^ 308 ≤ 9007199254740991 * 2 ^ 971 := by decide +kernel
  have hcast : ((10 ^ 308 : ℕ) : ℚ) ≤ (9007199254740991 * 2 ^ 971 : ℕ) := Nat.cast_le.2 hpow
  rw [value, hparts, zpow_natCast]
  simpa only [Nat.cast_mul, Nat.cast_pow, Nat.cast_ofNat] using hcast

theorem nearest_lt_infinity (hx : 0 ≤ x) (h : x ≤ 10 ^ 308) : binary64.nearest x < binary64.infinity := by
  have hle := nearest_le_of_le_value hx (h.trans pow_le_greatest)
  have hpos : 0 < binary64.infinity := by decide +kernel
  omega

/-- Whole numbers of few bits are values themselves. -/
theorem rounded_natCast {n : ℕ} (h : n < 2 ^ 53) : rounded n = n := by
  obtain ⟨e, s, hrounds, hnearest⟩ := binary64.rounds_nearest (x := n) (Nat.cast_nonneg n)
  have hlt : (n : ℚ) < 2 ^ (53 : ℤ) := by exact_mod_cast h
  have hexponent : e ≤ 0 := by
    obtain hleast | hlarge := hrounds.normal
    · rw [hleast]
      decide
    · have := (zpow_lt_zpow_iff_right₀ (by norm_num)).1 (hlarge.trans_lt hlt)
      have hbits : (binary64.fractionBits : ℤ) = 52 := rfl
      omega
  have hscaled : (n : ℚ) / 2 ^ e = (n * 2 ^ (-e).toNat : ℕ) := by
    obtain ⟨k, rfl⟩ : ∃ k : ℕ, e = -k := ⟨(-e).toNat, by omega⟩
    rw [zpow_neg, div_inv_eq_mul, zpow_natCast, neg_neg, Int.toNat_natCast]
    push_cast
    rfl
  have hsignificand := hscaled ▸ hrounds.nearest
  have hs : s = n * 2 ^ (-e).toNat :=
    le_antisymm (hsignificand.mono (.natCast _) le_rfl) ((Nearest.natCast _).mono hsignificand le_rfl)
  have hsmall : (n : ℚ) ≤ 10 ^ 308 := by exact_mod_cast h.le.trans (by decide +kernel)
  have hfinite := nearest_lt_infinity (Nat.cast_nonneg n) hsmall
  have hindex : binary64.nearest n = binary64.index e s := by omega
  rw [rounded, hindex, value_index hrounds, hs, ← hscaled, div_mul_cancel₀ _ (by positivity)]

end

end GuestHarness.Decimal
