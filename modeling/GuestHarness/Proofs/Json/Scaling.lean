import GuestHarness.Json.Number
import GuestHarness.Proofs.Decimal.Closeness
import GuestHarness.Proofs.Decimal.Shortest

/-! Scaling of a significand by a power of ten. Significand, power and product are each rounded, so that the
result may be some roundings away from the nearest one; small numbers are scaled without loss. -/
namespace GuestHarness.Json
open Decimal Decimal.BinaryFormat

section

variable {a b k S : ℕ} {E : ℤ}

theorem mulMagnitude_eq (a b : ℕ) :
    mulMagnitude a b = binary64.nearest (binary64.value a * binary64.value b) := by
  unfold mulMagnitude
  dsimp only
  rw [round_eq_nearest _ _ (Nat.mul_pos (binary64.fraction_pos a) (binary64.fraction_pos b)),
    ← fraction_eq_value, ← fraction_eq_value, Nat.cast_mul, Nat.cast_mul, div_mul_div_comm]

theorem divMagnitude_eq (a : ℕ) (hb : b ≠ 0) :
    divMagnitude a b = binary64.nearest (binary64.value a / binary64.value b) := by
  have hpos : 0 < (binary64.fraction b).1 := by
    refine Nat.pos_of_ne_zero fun hzero => (value_pos (F := binary64) hb).ne' ?_
    rw [← fraction_eq_value, hzero, Nat.cast_zero, zero_div]
  unfold divMagnitude
  dsimp only
  rw [round_eq_nearest _ _ (Nat.mul_pos (binary64.fraction_pos a) hpos), ← fraction_eq_value,
    ← fraction_eq_value, Nat.cast_mul, Nat.cast_mul, div_div_div_eq]

theorem powerOfTen_eq (hk : k ≤ 308) : powerOfTen k = binary64.nearest (10 ^ k) := by
  have hlength : (Nat.toDigits 10 1).length = 1 := rfl
  unfold powerOfTen
  rw [ofDecimal_eq_round (by decide) (by omega) (by omega), round_eq_nearest _ _ (tenTo_pos _),
    decimal_quotient, Nat.cast_one, one_mul, zpow_natCast]

theorem powerOfTen_ne_zero (hk : k ≤ 308) : powerOfTen k ≠ 0 := by
  have hall : ∀ k < 309, powerOfTen k ≠ 0 := by decide +kernel
  exact hall k (by omega)

/-- The powers of ten up to the twenty-second are values themselves. -/
theorem rounded_pow (hk : k ≤ 22) : rounded (10 ^ k) = 10 ^ k := by
  have hall : ∀ k < 23, (binary64.fraction (powerOfTen k)).1 =
      10 ^ k * (binary64.fraction (powerOfTen k)).2 := by decide +kernel
  have hden : ((binary64.fraction (powerOfTen k)).2 : ℚ) ≠ 0 :=
    Nat.cast_ne_zero.2 (binary64.fraction_pos _).ne'
  rw [rounded, ← powerOfTen_eq (by omega), ← fraction_eq_value, hall k (by omega), Nat.cast_mul,
    Nat.cast_pow, Nat.cast_ofNat, mul_div_cancel_right₀ _ hden]

/-- The number that is rounded last when a significand is scaled. -/
def product (S : ℕ) (E : ℤ) : ℚ :=
  if 0 ≤ E then rounded S * rounded (10 ^ E.toNat)
  else if -308 ≤ E then rounded S / rounded (10 ^ (-E).toNat)
  else rounded (rounded S / rounded (10 ^ 308)) / rounded (10 ^ ((-E).toNat - 308))

theorem product_nonneg (S : ℕ) (E : ℤ) : 0 ≤ product S E := by
  have hrounded := rounded_nonneg
  unfold product
  split
  · exact mul_nonneg (hrounded _) (hrounded _)
  split
  · exact div_nonneg (hrounded _) (hrounded _)
  · exact div_nonneg (hrounded _) (hrounded _)

theorem nearest_zero (F : BinaryFormat) : F.nearest 0 = 0 := F.round_zero _

theorem mulMagnitude_zero (b : ℕ) : mulMagnitude 0 b = 0 := by
  simp [mulMagnitude, fraction, parts]

theorem scaleDown_zero (k : ℕ) : scaleDown 0 k = 0 := by
  rw [scaleDown]
  split
  · simp [divMagnitude, fraction, parts]
  · rfl

theorem value_round_natCast (S : ℕ) : binary64.value (binary64.round S 1) = rounded S := by
  rw [round_eq_nearest _ _ Nat.one_pos, Nat.cast_one, div_one]
  rfl

theorem divMagnitude_powerOfTen (m : ℕ) (hk : k ≤ 308) :
    divMagnitude m (powerOfTen k) = binary64.nearest (binary64.value m / rounded (10 ^ k)) := by
  rw [divMagnitude_eq m (powerOfTen_ne_zero hk), powerOfTen_eq hk]
  rfl

theorem nearest_product_of_nonneg (hE : 0 ≤ E) (hE' : E ≤ 308) :
    binary64.nearest (product S E) = mulMagnitude (binary64.round S 1) (powerOfTen E.toNat) := by
  rw [mulMagnitude_eq, value_round_natCast, powerOfTen_eq (by omega), product, if_pos hE]
  rfl

theorem nearest_product_of_neg (hE : E < 0) (hE' : -616 ≤ E) :
    binary64.nearest (product S E) = scaleDown (binary64.round S 1) (-E).toNat := by
  unfold product
  rw [if_neg (by omega), scaleDown]
  split
  · next hshallow =>
    rw [if_pos (by omega), divMagnitude_powerOfTen _ (by omega), value_round_natCast]
  · next hdeep =>
    rw [if_neg (by omega)]
    split
    · next hzero =>
      have hS : rounded S = 0 := by simp [← value_round_natCast, hzero, value, parts]
      rw [hS, zero_div, rounded_zero, zero_div, nearest_zero]
    · rw [scaleDown, if_pos (by omega), divMagnitude_powerOfTen _ (by omega),
        divMagnitude_powerOfTen _ le_rfl, value_round_natCast]
      rfl

/-- Scaling rounds the product, if that is not too large. -/
theorem scale?_eq (hlow : -616 ≤ E) (hhigh : E ≤ 308)
    (hfinite : binary64.nearest (product S E) < binary64.infinity) :
    scale? S E = some (binary64.nearest (product S E)) := by
  unfold scale?
  dsimp only
  split
  · next hE =>
    rw [nearest_product_of_nonneg hE hhigh] at hfinite ⊢
    split
    · next hzero => rw [hzero, mulMagnitude_zero]
    · rw [if_neg (by omega), if_neg hfinite.ne]
  · next hE => rw [nearest_product_of_neg (by omega) hlow]

theorem natCast_le_huge (hS : S ≤ 10 ^ 18) : (S : ℚ) ≤ 10 ^ 308 := by
  have hcast : (S : ℚ) ≤ 10 ^ 18 := by exact_mod_cast hS
  exact hcast.trans (pow_le_pow_right₀ (by norm_num) (by norm_num))

/-- A whole number is close to what it is rounded to. -/
theorem close_natCast (hS : 0 < S) (hS' : (S : ℚ) ≤ 10 ^ 308) : Close 1 S (rounded S) := by
  have hone : (1 : ℚ) ≤ S := by exact_mod_cast hS
  have hnormal : (2 : ℚ) ^ (-1022 : ℤ) ≤ 1 := zpow_le_one_of_nonpos₀ (by norm_num) (by norm_num)
  exact close_rounded (hnormal.trans hone) (nearest_lt_infinity (Nat.cast_nonneg S) hS')

theorem close_pow (hk : k ≤ 308) : Close 1 (10 ^ k) (rounded (10 ^ k)) := by
  have hcast : ((10 ^ k : ℕ) : ℚ) = 10 ^ k := by simp
  have hle : (10 : ℚ) ^ k ≤ 10 ^ 308 := pow_le_pow_right₀ (by norm_num) hk
  have hclose := close_natCast (S := 10 ^ k) (Nat.pow_pos (by decide)) (hcast ▸ hle)
  rwa [hcast] at hclose

end

section

variable {j k S : ℕ} {E : ℤ}

/-- Up to the greatest power of ten with a value of its own one multiplication or division is enough. -/
theorem close_product (hS : 0 < S) (hS' : (S : ℚ) ≤ 10 ^ 308) (hE : E.natAbs ≤ 308) :
    Close 2 (S * 10 ^ E) (product S E) := by
  have hSpos : (0 : ℚ) < S := by exact_mod_cast hS
  have hpow (k : ℕ) : (0 : ℚ) < 10 ^ k := by positivity
  have hstart := close_natCast hS hS'
  unfold product
  by_cases hE0 : 0 ≤ E
  · have hpower := close_pow (k := E.toNat) (by omega)
    have hzpow : (10 : ℚ) ^ E = 10 ^ E.toNat := by
      rw [← zpow_natCast, Int.toNat_of_nonneg hE0]
    rw [if_pos hE0, hzpow]
    exact hstart.mul hSpos.le (rounded_nonneg _) (hpow _).le (rounded_nonneg _) hpower
  · have hpower := close_pow (k := (-E).toNat) (by omega)
    have hzpow : (10 : ℚ) ^ E = (10 ^ (-E).toNat)⁻¹ := by
      rw [← zpow_natCast, ← zpow_neg, Int.toNat_of_nonneg (by omega), neg_neg]
    rw [if_neg hE0, if_pos (by omega), hzpow, ← div_eq_mul_inv]
    exact hstart.div hSpos.le (rounded_nonneg _) (hpow _) (hpower.pos (hpow _)) hpower

/-- With few digits and a small exponent nothing is lost before the last rounding. -/
theorem product_exact (hS : S < 2 ^ 53) (hE : E.natAbs ≤ 22) : product S E = S * 10 ^ E := by
  unfold product
  rw [rounded_natCast hS]
  by_cases hE0 : 0 ≤ E
  · rw [if_pos hE0, rounded_pow (by omega), ← zpow_natCast, Int.toNat_of_nonneg hE0]
  · rw [if_neg hE0, if_pos (by omega), rounded_pow (by omega), ← zpow_natCast,
      Int.toNat_of_nonneg (by omega), div_eq_mul_inv, ← zpow_neg, neg_neg]

/-- The greatest of the powers of ten divides a number above two without loss of precision. -/
theorem quotient_by_huge {x y : ℚ} (hS : 3 ≤ S) (hS' : (S : ℚ) ≤ 10 ^ 18) (hx : Close 1 S x)
    (hy : Close 1 (10 ^ 308) y) : (2 : ℚ) ^ (-1022 : ℤ) ≤ x / y ∧ x / y ≤ 10 ^ 308 := by
  have hypos := hy.pos (by positivity)
  have hround : roundoff ≤ 11 / 10 := by norm_num [roundoff]
  have hclose {a b : ℚ} (hb : 0 ≤ b) (h : a ≤ b * roundoff ^ 1) : a ≤ b * (11 / 10) :=
    h.trans (mul_le_mul_of_nonneg_left (by rwa [pow_one]) hb)
  have hthree : (3 : ℚ) ≤ S := by exact_mod_cast hS
  have hxpos := hx.pos (by linarith)
  have hxlow := hclose hxpos.le hx.le_mul
  have hxhigh := hclose (by linarith) hx.ge_mul
  have hylow := hclose hypos.le hy.le_mul
  have hyhigh := hclose (by positivity) hy.ge_mul
  have hpow : (10 : ℚ) ^ 308 * 13 ≤ 30 * 2 ^ 1022 := by
    have hnat : 10 ^ 308 * 13 ≤ 30 * 2 ^ 1022 := by decide +kernel
    have hcast : ((10 ^ 308 * 13 : ℕ) : ℚ) ≤ (30 * 2 ^ 1022 : ℕ) := Nat.cast_le.2 hnat
    simpa only [Nat.cast_mul, Nat.cast_pow, Nat.cast_ofNat] using hcast
  have hbig : (10 : ℚ) ^ 19 ≤ 10 ^ 308 := pow_le_pow_right₀ (by norm_num) (by norm_num)
  have hlimit : (0 : ℚ) < 2 ^ 1022 := by positivity
  have hinverse : (2 : ℚ) ^ (-1022 : ℤ) = (2 ^ 1022)⁻¹ := zpow_neg 2 1022
  rw [hinverse, le_div_iff₀ hypos, inv_mul_le_iff₀ hlimit, div_le_iff₀ hypos]
  generalize (10 : ℚ) ^ 308 = huge at *
  generalize (2 : ℚ) ^ 1022 = limit at *
  constructor
  · calc y ≤ huge * (11 / 10) := hyhigh
      _ ≤ limit * (30 / 11) := by linarith
      _ ≤ limit * x := mul_le_mul_of_nonneg_left (by linarith) hlimit.le
  · calc x ≤ huge * 1 := by linarith
      _ ≤ huge * y := mul_le_mul_of_nonneg_left (by linarith) (by linarith)

/-- Below that two divisions are made, of which the first still gives a number of full precision. -/
theorem close_product_deep (hS : 3 ≤ S) (hS' : S ≤ 10 ^ 18) (hE : E < -308) (hE' : -616 ≤ E) :
    Close 4 (S * 10 ^ E) (product S E) := by
  have hSpos : (0 : ℚ) < S := by exact_mod_cast (show 0 < S by omega)
  obtain ⟨k, rfl⟩ : ∃ k : ℕ, E = -((308 + k : ℕ) : ℤ) := ⟨(-E).toNat - 308, by omega⟩
  have hstart := close_natCast (by omega) (natCast_le_huge hS')
  have hgreat := close_pow (k := 308) le_rfl
  have hsmall := close_pow (k := k) (by omega)
  obtain ⟨hnormal, hfinite⟩ := quotient_by_huge hS (by exact_mod_cast hS') hstart hgreat
  have hquotient : 0 ≤ rounded S / rounded (10 ^ 308) := div_nonneg (rounded_nonneg _) (rounded_nonneg _)
  have hfirst : Close 2 (S / 10 ^ 308) (rounded S / rounded (10 ^ 308)) :=
    hstart.div hSpos.le (rounded_nonneg _) (by positivity) (hgreat.pos (by positivity)) hgreat
  have hmiddle := hfirst.trans (close_rounded hnormal (nearest_lt_infinity hquotient hfinite))
  have hpow : (S : ℚ) * 10 ^ (-((308 + k : ℕ) : ℤ)) = S / 10 ^ 308 / 10 ^ k := by
    rw [zpow_neg, zpow_natCast, pow_add, div_div, div_eq_mul_inv]
  unfold product
  rw [if_neg (by omega), if_neg (by omega), neg_neg, Int.toNat_natCast, Nat.add_sub_cancel_left, hpow]
  exact hmiddle.div (div_nonneg hSpos.le (by positivity)) (rounded_nonneg _) (by positivity)
    (hsmall.pos (by positivity)) hsmall

/-- The smallest significands, which a division would leave with fewer digits, are scaled as if at once. -/
theorem nearest_product_of_lt (hS : 0 < S) (hS' : S < 3) (hE : E < -308) (hE' : -342 ≤ E) :
    binary64.nearest (product S E) = binary64.ofDecimal S E := by
  have hall : ∀ i < 34, ∀ S < 3, S ≠ 0 → binary64.round S 1 ≠ 0 ∧
      divMagnitude (divMagnitude (binary64.round S 1) (powerOfTen 308)) (powerOfTen (i + 1)) =
        binary64.ofDecimal S (-(i + 309 : ℕ)) := by decide +kernel
  obtain ⟨i, rfl⟩ : ∃ i : ℕ, E = -((i + 309 : ℕ) : ℤ) := ⟨(-E).toNat - 309, by omega⟩
  obtain ⟨hstart, hscaled⟩ := hall i (by omega) S hS' (by omega)
  rw [nearest_product_of_neg (by omega) (by omega), neg_neg, Int.toNat_natCast, scaleDown,
    if_neg (by omega), if_neg hstart, scaleDown, if_pos (by omega), show i + 309 - 308 = i + 1 by omega,
    hscaled]

/-- How far scaling may go astray. -/
def astray (E : ℤ) : ℕ := if E < -308 then 4 else 2

/-- The range of the decimals that are written for finite values. -/
structure InRange (S : ℕ) (E : ℤ) : Prop where
  pos : 0 < S
  le : S ≤ 10 ^ 18
  le_exponent : -342 ≤ E
  exponent_le : E ≤ 309

namespace InRange

variable (h : InRange S E)
include h

theorem cast_le : (S : ℚ) ≤ 10 ^ 18 := by exact_mod_cast h.le

/-- The decimal is rounded as the number it denotes. -/
theorem ofDecimal_eq (F : BinaryFormat) : F.ofDecimal S E = F.nearest (S * 10 ^ E) := by
  have hlow := h.le_exponent
  have hhigh := h.exponent_le
  have hlength : (Nat.toDigits 10 S).length ≤ 19 :=
    (Nat.length_toDigits_le_iff (by decide) (by decide)).2 (h.le.trans_lt (by decide))
  rw [ofDecimal_eq_round h.pos.ne' (by omega) (by omega), round_eq_nearest _ _ (tenTo_pos _),
    decimal_quotient]

/-- A decimal that is not rounded to infinity is below its value. -/
theorem lt_of_lt_infinity {F : BinaryFormat} (hfinite : F.ofDecimal S E < F.infinity) :
    (S : ℚ) * 10 ^ E < F.value F.infinity := by
  rw [h.ofDecimal_eq] at hfinite
  exact not_le.1 fun hle => absurd (le_nearest_of_value_le le_rfl hle) (not_le.2 hfinite)

theorem exponent_lt {F : BinaryFormat} {t : ℤ} (hF : F.value F.infinity ≤ 10 ^ t)
    (hfinite : F.ofDecimal S E < F.infinity) : E < t := by
  have hone : (1 : ℚ) ≤ S := by exact_mod_cast h.pos
  have hlt : (10 : ℚ) ^ E < 10 ^ t :=
    calc (10 : ℚ) ^ E ≤ S * 10 ^ E := le_mul_of_one_le_left (by positivity) hone
      _ < F.value F.infinity := h.lt_of_lt_infinity hfinite
      _ ≤ 10 ^ t := hF
  exact (zpow_lt_zpow_iff_right₀ (by norm_num)).1 hlt

end InRange

theorem value_infinity_binary64 : binary64.value binary64.infinity ≤ 10 ^ (309 : ℤ) := by
  have hparts : binary64.parts binary64.infinity = (2 ^ 52, ((972 : ℕ) : ℤ)) := by decide +kernel
  have hpow : 2 ^ 52 * 2 ^ 972 ≤ 10 ^ 309 := by decide +kernel
  have hcast : ((2 ^ 52 * 2 ^ 972 : ℕ) : ℚ) ≤ (10 ^ 309 : ℕ) := Nat.cast_le.2 hpow
  rw [value, hparts, zpow_natCast, zpow_ofNat]
  simpa only [Nat.cast_mul, Nat.cast_pow, Nat.cast_ofNat] using hcast

theorem value_infinity_binary32 : binary32.value binary32.infinity ≤ 10 ^ (39 : ℤ) := by
  have hparts : binary32.parts binary32.infinity = (2 ^ 23, 105) := by decide +kernel
  rw [value, hparts]
  norm_num

/-- What is scaled is no further away from the nearest value than so. -/
theorem nearest_product_near (hrange : InRange S E) (hE : E ≤ 308) :
    binary64.nearest (product S E) ≤ binary64.ofDecimal S E + astray E ∧
      binary64.ofDecimal S E ≤ binary64.nearest (product S E) + astray E := by
  have hnear {k : ℕ} (hclose : Close k (S * 10 ^ E) (product S E)) :
      binary64.nearest (product S E) ≤ binary64.ofDecimal S E + k ∧
        binary64.ofDecimal S E ≤ binary64.nearest (product S E) + k := by
    have hdecimal : (0 : ℚ) ≤ S * 10 ^ E := by positivity
    rw [hrange.ofDecimal_eq]
    exact ⟨hclose.nearest_le (by decide) hdecimal (product_nonneg S E),
      hclose.symm.nearest_le (by decide) (product_nonneg S E) hdecimal⟩
  have hlow := hrange.le_exponent
  unfold astray
  split
  · next hdeep =>
    obtain hfew | hmany := Nat.lt_or_ge S 3
    · rw [nearest_product_of_lt hrange.pos hfew hdeep hlow]
      exact ⟨Nat.le_add_right _ _, Nat.le_add_right _ _⟩
    · exact hnear (close_product_deep hmany hrange.le hdeep (by omega))
  · exact hnear (close_product hrange.pos (natCast_le_huge hrange.le) (by omega))

/-- The numbers that binary32 tells from zero are far from the ends of binary64. -/
theorem bounds_of_binary32 (hrange : InRange S E) (hne : binary32.ofDecimal S E ≠ 0)
    (hfinite : binary32.ofDecimal S E < binary32.infinity) :
    (2 : ℚ) ^ (-150 : ℤ) ≤ S * 10 ^ E ∧ (S : ℚ) * 10 ^ E ≤ 10 ^ (39 : ℤ) ∧ E.natAbs ≤ 308 := by
  have hhigh := (hrange.lt_of_lt_infinity hfinite).le.trans value_infinity_binary32
  have hupper := hrange.exponent_lt value_infinity_binary32 hfinite
  have hlow : (2 : ℚ) ^ (-150 : ℤ) ≤ S * 10 ^ E := by
    have hhalf : binary32.half 0 = 2 ^ (-150 : ℤ) := by
      have hparts : binary32.parts 0 = (0, -149) := by decide +kernel
      rw [half_eq, hparts]
      norm_num
    by_contra hlt
    rw [not_le, ← hhalf] at hlt
    have hle := nearest_le_of_lt_half (F := binary32) (by positivity) (Nat.zero_le _) hlt
    rw [hrange.ofDecimal_eq] at hne
    omega
  have hlower : (10 : ℚ) ^ (-46 : ℤ) < 10 ^ (18 + E) :=
    calc (10 : ℚ) ^ (-46 : ℤ) < 2 ^ (-150 : ℤ) := by norm_num
      _ ≤ S * 10 ^ E := hlow
      _ ≤ 10 ^ 18 * 10 ^ E := mul_le_mul_of_nonneg_right hrange.cast_le (by positivity)
      _ = 10 ^ (18 + E) := by rw [zpow_add₀ (by norm_num), zpow_ofNat]
  have hexponent := (zpow_lt_zpow_iff_right₀ (by norm_num)).1 hlower
  exact ⟨hlow, hhigh, by omega⟩

/-- Rounded to binary64 the product is finite there and stays close to the decimal. -/
theorem close_rounded_product (hrange : InRange S E) (hne : binary32.ofDecimal S E ≠ 0)
    (hfinite : binary32.ofDecimal S E < binary32.infinity) :
    binary64.nearest (product S E) < binary64.infinity ∧
      Close 3 (S * 10 ^ E) (rounded (product S E)) := by
  obtain ⟨hlow, hhigh, hE⟩ := bounds_of_binary32 hrange hne hfinite
  have hclose := close_product hrange.pos (natCast_le_huge hrange.le) hE
  have htwo : roundoff ^ 2 ≤ 2 := by norm_num [roundoff]
  have hdecimal : (0 : ℚ) ≤ S * 10 ^ E := by positivity
  have hnormal : (2 : ℚ) ^ (-1022 : ℤ) ≤ product S E := by
    have hsmall : (2 : ℚ) ^ (-1022 : ℤ) ≤ 2 ^ (-151 : ℤ) := zpow_le_zpow_right₀ (by norm_num) (by norm_num)
    have hhalf : (2 : ℚ) ^ (-150 : ℤ) = 2 ^ (-151 : ℤ) * 2 := by norm_num
    have hle := hclose.le_mul.trans (mul_le_mul_of_nonneg_left htwo (product_nonneg S E))
    linarith
  have hbelow : product S E ≤ 10 ^ 308 :=
    calc product S E ≤ S * 10 ^ E * 2 := hclose.ge_mul.trans (mul_le_mul_of_nonneg_left htwo hdecimal)
      _ ≤ 10 ^ (39 : ℤ) * 2 := mul_le_mul_of_nonneg_right hhigh (by norm_num)
      _ ≤ 10 ^ 40 := by norm_num
      _ ≤ 10 ^ 308 := pow_le_pow_right₀ (by norm_num) (by norm_num)
  have hfinite' := nearest_lt_infinity (product_nonneg S E) hbelow
  exact ⟨hfinite', hclose.trans (close_rounded hnormal hfinite')⟩

end

end GuestHarness.Json
