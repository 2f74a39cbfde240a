import GuestHarness.Proofs.Json.Codecs
import GuestHarness.Proofs.Json.Scaling
import GuestHarness.Proofs.Value.Texts

/-! Floating-point values in JSON. The text of a finite value has the digits of the value, but the reader
rounds more than once, so that a value may come back as one of its neighbours; what is not finite does not
come back at all. -/
namespace GuestHarness

namespace Decimal.BinaryFormat

variable {F : BinaryFormat} {m : ℕ}

theorem magnitude_withSign (negative : Bool) (hm : m < F.signBit) :
    F.magnitude (F.withSign negative m) = m := by
  cases negative with
  | false => exact Nat.mod_eq_of_lt hm
  | true => exact (Nat.add_mod_left _ _).trans (Nat.mod_eq_of_lt hm)

theorem isNegative_withSign (negative : Bool) (hm : m < F.signBit) :
    F.isNegative (F.withSign negative m) = negative := by
  have hzero : m / F.signBit = 0 := Nat.div_eq_of_lt hm
  cases negative with
  | false => simp [isNegative, withSign, hzero]
  | true => simp [isNegative, withSign, Nat.add_div_left _ F.signBit_pos, hzero]

theorem withSign_lt (negative : Bool) (hm : m < F.signBit) : F.withSign negative m < 2 * F.signBit := by
  cases negative with
  | false => simp only [withSign, Bool.false_eq_true, if_false]; omega
  | true => simp only [withSign, if_true]; omega

/-- The second pattern is finite, of the sign of the first and at most so many places away from it. -/
structure Near (F : BinaryFormat) (units a b : ℕ) : Prop where
  finite : F.magnitude b < F.infinity
  sign : F.isNegative b = F.isNegative a
  le_add : F.magnitude b ≤ F.magnitude a + units
  ge_add : F.magnitude a ≤ F.magnitude b + units

end Decimal.BinaryFormat

namespace Json
open Decimal Decimal.BinaryFormat

/-- The digits of a decimal and the zeros that are written after them, with the exponent that is left. -/
def withZeros (L : Layout) (d : Scaled) : Scaled := ⟨d.coefficient * 10 ^ d.added L, d.exponent - d.added L⟩

/-- The digits of a finite pattern as they are written. -/
def written (F : BinaryFormat) (bits : ℕ) : Scaled :=
  withZeros (layoutOf F) (F.shortest .toEven (F.magnitude bits))

section

variable {F : BinaryFormat} {bits : ℕ}

theorem tie_layoutOf (F : BinaryFormat) : (layoutOf F).tie = .toEven := by
  unfold layoutOf
  split <;> rfl

theorem pointZero_layoutOf (F : BinaryFormat) : (layoutOf F).pointZero = true := by
  unfold layoutOf
  split <;> rfl

theorem writtenOut_layoutOf {e : ℤ} (h : (layoutOf F).writtenOut e = true) : e ≤ 15 := by
  unfold layoutOf at h
  split at h
  · have := of_decide_eq_true h
    omega
  · exact (of_decide_eq_true h).2

/-- Zeros are written only where they leave the digits within eighteen. -/
theorem inRange_of_found {m : ℕ} {d : Scaled} (h : Found F m d) :
    InRange (withZeros (layoutOf F) d).coefficient (withZeros (layoutOf F) d).exponent := by
  unfold withZeros
  dsimp only
  have hlow := h.le_exponent
  have hhigh := h.exponent_le
  have hcoefficient := h.coefficient_le
  have hpos : 0 < d.coefficient * 10 ^ d.added (layoutOf F) :=
    Nat.mul_pos (Nat.pos_of_ne_zero h.nonzero) (Nat.pow_pos (by decide))
  by_cases hwritten : (layoutOf F).writtenOut d.leading = true ∧ 0 ≤ d.exponent
  · have hadded : d.added (layoutOf F) = d.exponent.toNat + 1 := by
      rw [Scaled.added, if_pos hwritten, pointZero_layoutOf, if_pos rfl]
    have hleading := writtenOut_layoutOf hwritten.1
    have hdigits : d.leading = d.digits.length - 1 + d.exponent := rfl
    have hlt : d.coefficient < 10 ^ d.digits.length := lt_pow_length_toDigits _
    refine ⟨hpos, ?_, by omega, by omega⟩
    rw [hadded]
    calc d.coefficient * 10 ^ (d.exponent.toNat + 1)
        ≤ 10 ^ d.digits.length * 10 ^ (d.exponent.toNat + 1) := Nat.mul_le_mul_right _ hlt.le
      _ = 10 ^ (d.digits.length + (d.exponent.toNat + 1)) := (Nat.pow_add ..).symm
      _ ≤ 10 ^ 18 := Nat.pow_le_pow_right (by decide) (by omega)
  · have hadded : d.added (layoutOf F) = 0 := if_neg hwritten
    rw [hadded] at hpos ⊢
    exact ⟨hpos, by omega, by omega, by omega⟩

theorem le_ofDigitChars (cs : List Char) (n : ℕ) : n ≤ Nat.ofDigitChars 10 cs n := by
  rw [Nat.ofDigitChars_eq_ofDigitChars_zero]
  exact (Nat.le_mul_of_pos_left n (Nat.pow_pos (by decide))).trans (Nat.le_add_right _ _)

/-- Digits are taken while the number they make fits the word. -/
theorem takeDigits_eq {n : ℕ} {cs : List Char} (h : Nat.ofDigitChars 10 cs n ≤ maxWord) :
    takeDigits n cs = (Nat.ofDigitChars 10 cs n, []) := by
  induction cs generalizing n with
  | nil => rfl
  | cons c cs ih =>
    have hrest : Nat.ofDigitChars 10 cs (10 * n + digitValue c) ≤ maxWord := h
    rw [takeDigits, if_pos ((le_ofDigitChars cs _).trans hrest), ih hrest]
    rfl

theorem ofString_eq (s : String) : Numeral.ofString s =
    ⟨(splitSign s.toList).1, (splitSign s.toList).2.takeWhile isDigit,
      (afterPoint ((splitSign s.toList).2.dropWhile isDigit)).1,
      (FloatLiteral.exponentPart? (afterPoint ((splitSign s.toList).2.dropWhile isDigit)).2).getD 0,
      (splitSign s.toList).2.dropWhile isDigit = []⟩ := rfl

theorem scale?_zero (E : ℤ) : scale? 0 E = some 0 := by
  unfold scale?
  dsimp only
  rw [round_zero, scaleDown_zero]
  split <;> rfl

/-- All digits of a numeral are taken into the significand if they fit. -/
theorem magnitude?_eq {negative plain : Bool} {whole fraction : List Char} {e : ℤ}
    (hvalue : digitsValue (whole ++ fraction) ≤ maxWord) (he : e.natAbs < 2 ^ 31) :
    Numeral.magnitude? ⟨negative, whole, fraction, e, plain⟩ =
      scale? (digitsValue (whole ++ fraction)) (e - fraction.length) := by
  rw [digitsValue_eq, Nat.ofDigitChars_append] at hvalue ⊢
  have hwhole : takeDigits 0 whole = (Nat.ofDigitChars 10 whole 0, []) :=
    takeDigits_eq ((le_ofDigitChars fraction _).trans hvalue)
  unfold Numeral.magnitude?
  simp only [hwhole, takeDigits_eq hvalue]
  rw [twoTo_eq, if_neg (not_le.2 he)]
  congr 1
  simp only [List.length_nil]
  omega

/-- The numeral of a finite pattern is scaled from the digits that are written. -/
theorem ofNumeral?_finiteText (hF : Covered F) (hfinite : F.magnitude bits < F.infinity) :
    Number.ofNumeral? (F.finiteText (layoutOf F) bits) =
      (scale? (written F bits).coefficient (written F bits).exponent).map fun m =>
        .real (binary64.withSign (F.isNegative bits) m) := by
  obtain ⟨whole, rest, fraction, e, hshows⟩ :=
    Scaled.shows_write (layoutOf F) (F.shortest .toEven (F.magnitude bits))
  have hstring : Numeral.ofString (F.finiteText (layoutOf F) bits) =
      ⟨F.isNegative bits, whole, fraction, e, false⟩ := by
    obtain ⟨tail, hsplit, htail⟩ := hshows.continues.afterPoint
    have hrest := hshows.pointed (pointZero_layoutOf F)
    rw [ofString_eq, finiteText, tie_layoutOf, String.toList_ofList, splitSign_body hshows]
    simp only [hshows.takeWhile, hshows.dropWhile, hsplit, htail, Option.getD_some, hrest, decide_false]
  have hmagnitude : Numeral.magnitude? ⟨F.isNegative bits, whole, fraction, e, false⟩ =
      scale? (written F bits).coefficient (written F bits).exponent := by
    unfold written
    by_cases hzero : F.magnitude bits = 0
    · have hshortest : F.shortest .toEven (F.magnitude bits) = ⟨0, 0⟩ := by simp [shortest, hzero]
      rw [hshortest] at hshows ⊢
      have hvalue := hshows.value
      have he : e = 0 := hshows.written.elim id fun h => h
      rw [Nat.zero_mul] at hvalue
      rw [magnitude?_eq (hvalue ▸ Nat.zero_le _) (he ▸ by decide), hvalue, withZeros, Nat.zero_mul,
        scale?_zero, scale?_zero]
    · have hfound := found_shortest hF .toEven hzero hfinite
      generalize F.shortest .toEven (F.magnitude bits) = d at *
      have hrange := inRange_of_found hfound
      have hlength : d.digits.length ≤ 18 :=
        (Nat.length_toDigits_le_iff (by decide) (by decide)).2
          (hfound.coefficient_le.trans_lt (by decide))
      have hleading : d.leading = d.digits.length - 1 + d.exponent := rfl
      have hpos := d.length_digits_pos
      have hlow := hfound.le_exponent
      have hhigh := hfound.exponent_le
      have he : e.natAbs < 2 ^ 31 := by
        obtain rfl | rfl := hshows.written <;> omega
      have hword : 10 ^ 18 ≤ maxWord := by decide
      have hvalue : digitsValue (whole ++ fraction) ≤ maxWord := by
        rw [hshows.value]
        exact hrange.le.trans hword
      rw [magnitude?_eq hvalue he, hshows.value, hshows.exponent_eq hfound.nonzero, withZeros]
  unfold Number.ofNumeral?
  rw [hstring]
  simp only [Bool.false_and, Bool.false_eq_true, if_false, hmagnitude]

/-- What is written for a finite pattern denotes it. -/
theorem ofDecimal_written (hF : Covered F) (hfinite : F.magnitude bits < F.infinity) :
    F.ofDecimal (written F bits).coefficient (written F bits).exponent = F.magnitude bits := by
  unfold written withZeros
  rw [ofDecimal_mul_pow, sub_add_cancel, ofDecimal_shortest hF _ hfinite]

theorem inRange_written (hF : Covered F) (hne : F.magnitude bits ≠ 0)
    (hfinite : F.magnitude bits < F.infinity) :
    InRange (written F bits).coefficient (written F bits).exponent :=
  inRange_of_found (found_shortest hF .toEven hne hfinite)

end

/-- The magnitude that is read for a finite pattern: the nearest one to a number that is itself rounded to
binary64, after significand and power of ten were. -/
def reread (F : BinaryFormat) (bits : ℕ) : ℕ :=
  F.nearest (rounded (product (written F bits).coefficient (written F bits).exponent))

/-- How far a finite pattern may go astray. -/
def strays (F : BinaryFormat) (bits : ℕ) : ℕ :=
  if F = binary64 then astray (written F bits).exponent else 1

section

variable {F : BinaryFormat} {bits : ℕ}

theorem two_le_astray (E : ℤ) : 2 ≤ astray E := by
  unfold astray
  split <;> omega

theorem astray_of_le {S : ℕ} {E : ℤ} (hrange : InRange S E)
    (h : binary64.ofDecimal S E + 2 < binary64.infinity) :
    binary64.ofDecimal S E + astray E < binary64.infinity := by
  unfold astray
  split
  · next hdeep =>
    -- Numbers with so small an exponent are below one.
    have hone : binary64.value 4607182418800017408 = 1 := by
      have hparts : binary64.parts 4607182418800017408 = (2 ^ 52, -52) := by decide +kernel
      rw [value, hparts]
      norm_num
    have hinfinity : binary64.infinity = 9218868437227405312 := by decide +kernel
    have hle : binary64.ofDecimal S E ≤ 4607182418800017408 := by
      rw [hrange.ofDecimal_eq]
      refine nearest_le_of_le_value (by positivity) ?_
      rw [hone]
      calc (S : ℚ) * 10 ^ E ≤ 10 ^ 18 * 10 ^ (-18 : ℤ) :=
            mul_le_mul hrange.cast_le (zpow_le_zpow_right₀ (by norm_num) (by omega)) (by positivity)
              (by norm_num)
        _ = 1 := by norm_num
    omega
  · exact h

theorem written_of_zero (hzero : F.magnitude bits = 0) : (written F bits).coefficient = 0 := by
  simp [written, withZeros, shortest, hzero]

theorem product_zero (E : ℤ) : product 0 E = 0 := by
  simp [product]

theorem nearest_product_greatest (h : binary64.infinity ≤ binary64.magnitude bits + 2)
    (hfinite : binary64.magnitude bits < binary64.infinity) :
    binary64.nearest (product (written binary64 bits).coefficient (written binary64 bits).exponent) =
      binary64.infinity - 1 := by
  have hinfinity : binary64.infinity = 9218868437227405312 := by decide +kernel
  have hlast : ∀ S ∈ [17976931348623157, 17976931348623155],
      mulMagnitude (binary64.round S 1) (powerOfTen (292 : ℤ).toNat) = 9218868437227405311 := by
    decide +kernel
  have hwritten :
    withZeros (layoutOf binary64) (binary64.shortest .toEven 9218868437227405311) = ⟨17976931348623157, 292⟩ ∧
    withZeros (layoutOf binary64) (binary64.shortest .toEven 9218868437227405310) = ⟨17976931348623155, 292⟩ := by
    decide +kernel
  unfold written
  generalize binary64.magnitude bits = m at h hfinite ⊢
  rw [hinfinity] at h hfinite ⊢
  obtain rfl | rfl : m = 9218868437227405311 ∨ m = 9218868437227405310 := by omega
  · rw [hwritten.1, nearest_product_of_nonneg (by decide) (by decide)]
    exact hlast _ (by simp)
  · rw [hwritten.2, nearest_product_of_nonneg (by decide) (by decide)]
    exact hlast _ (by simp)

/-- What is read for a finite pattern is finite, at each stage, and nearby. -/
structure Rereads (F : BinaryFormat) (bits : ℕ) : Prop where
  scaled : scale? (written F bits).coefficient (written F bits).exponent =
    some (binary64.nearest (product (written F bits).coefficient (written F bits).exponent))
  scaled_finite : binary64.nearest (product (written F bits).coefficient (written F bits).exponent) <
    binary64.infinity
  finite : reread F bits < F.infinity
  le_add : reread F bits ≤ F.magnitude bits + strays F bits
  ge_add : F.magnitude bits ≤ reread F bits + strays F bits

theorem rereads_of_zero (hF : 0 < F.infinity) (hzero : F.magnitude bits = 0) : Rereads F bits := by
  have hinfinity : 0 < binary64.infinity := by decide +kernel
  have hreread : reread F bits = 0 := by
    rw [reread, written_of_zero hzero, product_zero, rounded_zero, nearest_zero]
  refine ⟨?_, ?_, hreread ▸ hF, ?_, ?_⟩
  · rw [written_of_zero hzero, scale?_zero, product_zero, nearest_zero]
  · rwa [written_of_zero hzero, product_zero, nearest_zero]
  · omega
  · omega

theorem reread_binary64 (bits : ℕ) : reread binary64 bits =
    binary64.nearest (product (written binary64 bits).coefficient (written binary64 bits).exponent) :=
  nearest_value (nearest_le_infinity (product_nonneg _ _))

/-- A finite binary64 magnitude is read as one that is at most four places away, and two if the exponent
that is written is not far below zero. -/
theorem rereads_binary64 (hfinite : binary64.magnitude bits < binary64.infinity) :
    Rereads binary64 bits := by
  by_cases hzero : binary64.magnitude bits = 0
  · exact rereads_of_zero (by decide +kernel) hzero
  have hrange := inRange_written covered_binary64 hzero hfinite
  have hread := ofDecimal_written covered_binary64 hfinite
  have hlow := hrange.le_exponent
  have hhigh := hrange.exponent_lt value_infinity_binary64 (hread ▸ hfinite)
  have htwo := two_le_astray (written binary64 bits).exponent
  have hstrays : strays binary64 bits = astray (written binary64 bits).exponent := if_pos rfl
  have hnear : reread binary64 bits < binary64.infinity ∧
      reread binary64 bits ≤ binary64.magnitude bits + strays binary64 bits ∧
      binary64.magnitude bits ≤ reread binary64 bits + strays binary64 bits := by
    rw [hstrays, reread_binary64]
    obtain hlt | hge := Nat.lt_or_ge (binary64.magnitude bits + 2) binary64.infinity
    · obtain ⟨hupper, hlower⟩ := nearest_product_near hrange (by omega)
      have hnear := astray_of_le hrange (hread ▸ hlt)
      rw [hread] at hnear hupper hlower
      exact ⟨by omega, hupper, hlower⟩
    · rw [nearest_product_greatest hge hfinite]
      exact ⟨by omega, by omega, by omega⟩
  obtain ⟨hreread, hupper, hlower⟩ := hnear
  rw [reread_binary64] at hreread
  exact ⟨scale?_eq (by omega) (by omega) hreread, hreread, reread_binary64 bits ▸ hreread, hupper, hlower⟩

/-- A finite binary32 magnitude is read as itself or a neighbour. -/
theorem rereads_binary32 (hfinite : binary32.magnitude bits < binary32.infinity) :
    Rereads binary32 bits := by
  by_cases hzero : binary32.magnitude bits = 0
  · exact rereads_of_zero (by decide +kernel) hzero
  have hrange := inRange_written covered_binary32 hzero hfinite
  have hread := ofDecimal_written covered_binary32 hfinite
  have hlow := hrange.le_exponent
  have hhigh := hrange.exponent_lt value_infinity_binary32 (hread ▸ hfinite)
  obtain ⟨hscaled, hclose⟩ := close_rounded_product hrange (hread ▸ hzero) (hread ▸ hfinite)
  have hdecimal : (0 : ℚ) ≤ (written binary32 bits).coefficient * 10 ^ (written binary32 bits).exponent := by
    positivity
  have hstrays : strays binary32 bits = 1 := if_neg (by decide)
  have hupper : reread binary32 bits ≤ binary32.magnitude bits + 1 := by
    rw [← hread, hrange.ofDecimal_eq]
    exact hclose.nearest_le_succ (by decide) hdecimal (rounded_nonneg _)
  have hlower : binary32.magnitude bits ≤ reread binary32 bits + 1 := by
    rw [← hread, hrange.ofDecimal_eq]
    exact hclose.symm.nearest_le_succ (by decide) (rounded_nonneg _) hdecimal
  refine ⟨scale?_eq (by omega) (by omega) hscaled, hscaled, ?_, hstrays ▸ hupper, hstrays ▸ hlower⟩
  obtain hlt | hge := Nat.lt_or_ge (binary32.magnitude bits + 1) binary32.infinity
  · omega
  · -- The greatest magnitude has no neighbour above it.
    have hinfinity : binary32.infinity = 2139095040 := by decide +kernel
    have hwritten : withZeros (layoutOf binary32) (binary32.shortest .toEven 2139095039) = ⟨34028235, 31⟩ := by
      decide +kernel
    have hlast : binary32.round (binary64.fraction (mulMagnitude (binary64.round 34028235 1)
        (powerOfTen (31 : ℤ).toNat))).1 (binary64.fraction (mulMagnitude (binary64.round 34028235 1)
        (powerOfTen (31 : ℤ).toNat))).2 < binary32.infinity := by decide +kernel
    have hgreatest : binary32.magnitude bits = 2139095039 := by omega
    rw [round_eq_nearest _ _ (binary64.fraction_pos _), fraction_eq_value,
      ← nearest_product_of_nonneg (by decide) (by decide)] at hlast
    rwa [reread, written, hgreatest, hwritten]

/-- In binary64 few digits and a small exponent are read without loss. -/
theorem reread_of_few_digits (hfinite : binary64.magnitude bits < binary64.infinity)
    (hdigits : (written binary64 bits).coefficient < 2 ^ 53)
    (hexponent : (written binary64 bits).exponent.natAbs ≤ 22) :
    reread binary64 bits = binary64.magnitude bits := by
  by_cases hzero : binary64.magnitude bits = 0
  · rw [reread_binary64, written_of_zero hzero, product_zero, nearest_zero, hzero]
  have hrange := inRange_written covered_binary64 hzero hfinite
  rw [reread_binary64, product_exact hdigits hexponent, ← hrange.ofDecimal_eq,
    ofDecimal_written covered_binary64 hfinite]

/-- In binary32 nothing is lost unless the decimal is next to a point halfway between two values. -/
theorem reread_eq_or_close (hfinite : binary32.magnitude bits < binary32.infinity) :
    reread binary32 bits = binary32.magnitude bits ∨
      ∃ m, (m = binary32.magnitude bits ∨ m + 1 = binary32.magnitude bits) ∧
        Close 3 (written binary32 bits).value (binary32.half m) := by
  by_cases hzero : binary32.magnitude bits = 0
  · exact .inl (by rw [reread, written_of_zero hzero, product_zero, rounded_zero, nearest_zero, hzero])
  have hrange := inRange_written covered_binary32 hzero hfinite
  have hread := ofDecimal_written covered_binary32 hfinite
  obtain ⟨-, hclose⟩ := close_rounded_product hrange (hread ▸ hzero) (hread ▸ hfinite)
  rw [hrange.ofDecimal_eq] at hread
  rw [← hread] at hfinite ⊢
  exact hclose.nearest_eq_or_close (by positivity) (rounded_nonneg _) hfinite

end

section

variable {F : BinaryFormat} {bits : ℕ}

theorem infinity_lt_signBit : binary64.infinity < binary64.signBit := by decide +kernel

theorem narrow_withSign (negative : Bool) {m : ℕ} (hm : m < binary64.infinity) :
    narrow F (binary64.withSign negative m) = F.withSign negative (F.nearest (binary64.value m)) := by
  have hsign := infinity_lt_signBit
  unfold narrow
  rw [magnitude_withSign _ (by omega), isNegative_withSign _ (by omega)]
  dsimp only
  rw [round_eq_nearest _ _ (binary64.fraction_pos m), fraction_eq_value]

/-- The JSON of a finite pattern is read as the pattern of its sign with the magnitude that is read. -/
theorem float?_ofFloat (hF : Covered F) (hfinite : F.magnitude bits < F.infinity) (h : Rereads F bits) :
    float? F (ofFloat F bits) = some (F.withSign (F.isNegative bits) (reread F bits)) := by
  unfold ofFloat
  rw [if_neg (not_le.2 hfinite)]
  simp only [float?, ofNumeral?_finiteText hF hfinite, h.scaled, Option.map_some]
  split
  · next hformat =>
    subst hformat
    rw [reread_binary64]
  · rw [narrow_withSign _ h.scaled_finite]
    rfl

theorem Rereads.near (h : Rereads F bits) (hsign : F.infinity < F.signBit) :
    F.Near (strays F bits) bits (F.withSign (F.isNegative bits) (reread F bits)) := by
  have hlt := h.finite.trans hsign
  have hmagnitude := magnitude_withSign (F := F) (F.isNegative bits) hlt
  refine ⟨?_, isNegative_withSign _ hlt, ?_, ?_⟩ <;> rw [hmagnitude]
  · exact h.finite
  · exact h.le_add
  · exact h.ge_add

theorem ofFloat_eq_null_iff : ofFloat F bits = .null ↔ F.infinity ≤ F.magnitude bits := by
  unfold ofFloat
  split <;> simp_all

end

end Json

open Decimal Decimal.BinaryFormat Json

namespace Value

/-- The format and the pattern of a floating-point value. -/
def floatPattern? : Value → Option (BinaryFormat × ℕ)
  | f32 b => some (binary32, b.toNat)
  | f64 b => some (binary64, b.toNat)
  | _ => none

/-- Whichever of its two texts is read, this becomes of a value. -/
structure JsonReadsAs (v : Value) (result : Option Value) : Prop where
  compact : (parse? v.toJson.compact).bind ofJson? = result
  pretty : (parse? v.toJson.pretty).bind ofJson? = result

/-- A finite value comes back from its JSON as it was. Of what is not finite the content is null, and nothing
comes back. -/
structure JsonKeeps (v : Value) (F : BinaryFormat) (bits : ℕ) : Prop where
  finite (h : F.magnitude bits < F.infinity) : v.JsonReadsAs (some v)
  notFinite (h : F.infinity ≤ F.magnitude bits) : v.contentJson = .null ∧ v.JsonReadsAs none

section

variable {v w : Value} {F : BinaryFormat} {bits : ℕ}

theorem jsonReadsAs (v : Value) : v.JsonReadsAs (ofContent? v.type v.contentJson) := by
  have hread : ofJson? v.toJson = ofContent? v.type v.contentJson := by
    simp [ofJson?, toJson, pair?_record, ValueType.ofJson?_toJson]
  have hpretty : parse? v.toJson.pretty = some v.toJson := by
    simpa using parse?_pretty v.wellFormed_toJson blanks_nil
  constructor
  · rw [parse?_compact v.wellFormed_toJson, Option.bind_some, hread]
  · rw [hpretty, Option.bind_some, hread]

theorem JsonReadsAs.unique {r r' : Option Value} (h : v.JsonReadsAs r) (h' : v.JsonReadsAs r') : r = r' :=
  h.compact.symm.trans h'.compact

/-- What has no numeral is not read. -/
theorem jsonReadsAs_none (hnull : v.contentJson = .null) : v.JsonReadsAs none := by
  have hread := v.jsonReadsAs
  rw [hnull] at hread
  cases htype : v.type <;> simpa [htype, ofContent?, float?, intIn?] using hread

theorem contentJson_of_floatPattern? (h : v.floatPattern? = some (F, bits)) :
    v.contentJson = ofFloat F bits := by
  cases v <;> cases h <;> rfl

theorem covered_of_floatPattern? (h : v.floatPattern? = some (F, bits)) : Covered F := by
  cases v <;> cases h
  · exact covered_binary32
  · exact covered_binary64

theorem lt_of_floatPattern? (h : v.floatPattern? = some (F, bits)) : bits < 2 * F.signBit := by
  cases v <;> cases h
  · exact UInt32.toNat_lt _
  · exact UInt64.toNat_lt _

theorem infinity_lt_of_floatPattern? (h : v.floatPattern? = some (F, bits)) : F.infinity < F.signBit := by
  cases v <;> cases h
  · decide +kernel
  · decide +kernel

theorem rereads_of_floatPattern? (h : v.floatPattern? = some (F, bits))
    (hfinite : F.magnitude bits < F.infinity) : Rereads F bits := by
  cases v <;> cases h
  · exact rereads_binary32 hfinite
  · exact rereads_binary64 hfinite

/-- Format and pattern tell a floating-point value. -/
theorem eq_of_floatPattern? (hv : v.floatPattern? = some (F, bits)) (hw : w.floatPattern? = some (F, bits)) :
    v = w := by
  have hformat : binary32 ≠ binary64 := by decide
  cases v <;> cases w <;> simp_all [floatPattern?, ← UInt32.toNat_inj, ← UInt64.toNat_inj]

/-- A pattern that is read at the type of a value becomes the value with this pattern. -/
theorem ofContent?_of_float? {j : Json} {pattern : ℕ} (h : v.floatPattern? = some (F, bits))
    (hread : float? F j = some pattern) (hlt : pattern < 2 * F.signBit) :
    ∃ w : Value, w.floatPattern? = some (F, pattern) ∧ ofContent? v.type j = some w := by
  cases v <;> cases h
  · refine ⟨f32 (.ofNat pattern), ?_, by simp [type, ofContent?, hread]⟩
    rw [floatPattern?, UInt32.toNat_ofNat_of_lt' hlt]
  · refine ⟨f64 (.ofNat pattern), ?_, by simp [type, ofContent?, hread]⟩
    rw [floatPattern?, UInt64.toNat_ofNat_of_lt' hlt]

/-- A finite value is read as the one of its sign with the magnitude that is read. -/
theorem jsonReadsAs_of_finite (h : v.floatPattern? = some (F, bits))
    (hfinite : F.magnitude bits < F.infinity) : ∃ w : Value, v.JsonReadsAs (some w) ∧
      w.floatPattern? = some (F, F.withSign (F.isNegative bits) (reread F bits)) := by
  have hreads := rereads_of_floatPattern? h hfinite
  have hsign := infinity_lt_of_floatPattern? h
  have hread := float?_ofFloat (covered_of_floatPattern? h) hfinite hreads
  obtain ⟨w, hw, hcontent⟩ := ofContent?_of_float? h hread
    (withSign_lt _ (hreads.finite.trans hsign))
  have hjson := v.jsonReadsAs
  rw [contentJson_of_floatPattern? h, hcontent] at hjson
  exact ⟨w, hjson, hw⟩

theorem notFinite_of_floatPattern? (h : v.floatPattern? = some (F, bits))
    (hinfinite : F.infinity ≤ F.magnitude bits) : v.contentJson = .null ∧ v.JsonReadsAs none := by
  have hnull : v.contentJson = .null := (contentJson_of_floatPattern? h).trans (ofFloat_eq_null_iff.2 hinfinite)
  exact ⟨hnull, jsonReadsAs_none hnull⟩

end

end Value

open Value

/-- A floating-point value comes back from its JSON just if the roundings of its reading end at its own
magnitude. Otherwise a finite value is read as one of the same sign and type nearby: in binary32 a neighbour,
in binary64 one at most four places away, and two unless its decimal has an exponent far below zero. -/
theorem float_json_reads_back_iff {v : Value} {F : BinaryFormat} {bits : ℕ}
    (h : v.floatPattern? = some (F, bits)) :
    (v.JsonKeeps F bits ↔ (F.magnitude bits < F.infinity → reread F bits = F.magnitude bits)) ∧
    (F.magnitude bits < F.infinity → ∃ w bits', w.floatPattern? = some (F, bits') ∧
      v.JsonReadsAs (some w) ∧ F.magnitude bits' = reread F bits ∧ F.Near (strays F bits) bits bits') := by
  have hsign := infinity_lt_of_floatPattern? h
  refine ⟨⟨fun hkeeps hfinite => ?_, fun hsame => ⟨fun hfinite => ?_, notFinite_of_floatPattern? h⟩⟩,
    fun hfinite => ?_⟩
  · obtain ⟨w, hread, hw⟩ := jsonReadsAs_of_finite h hfinite
    have hreads := rereads_of_floatPattern? h hfinite
    obtain rfl : v = w := Option.some.inj ((hkeeps.finite hfinite).unique hread)
    have hbits : bits = F.withSign (F.isNegative bits) (reread F bits) := by
      simpa using h.symm.trans hw
    have hmagnitude := magnitude_withSign (F := F) (F.isNegative bits) (hreads.finite.trans hsign)
    rw [← hmagnitude, ← hbits]
  · obtain ⟨w, hread, hw⟩ := jsonReadsAs_of_finite h hfinite
    rw [hsame hfinite, withSign_magnitude (lt_of_floatPattern? h)] at hw
    exact eq_of_floatPattern? hw h ▸ hread
  · obtain ⟨w, hread, hw⟩ := jsonReadsAs_of_finite h hfinite
    have hreads := rereads_of_floatPattern? h hfinite
    exact ⟨w, _, hw, hread, magnitude_withSign _ (hreads.finite.trans hsign), hreads.near hsign⟩

/-- A tenth is read back, and infinity is not read. -/
theorem float_json_reads_back_iff_tenth :
    (f64 0x3FB999999999999A).floatPattern? = some (binary64, 0x3FB999999999999A) ∧
      (f64 0x3FB999999999999A).JsonReadsAs (some (f64 0x3FB999999999999A)) ∧
      (f64 0x7FF0000000000000).floatPattern? = some (binary64, 0x7FF0000000000000) ∧
      (f64 0x7FF0000000000000).JsonReadsAs none := by
  have htenth : (f64 0x3FB999999999999A).floatPattern? = some (binary64, 0x3FB999999999999A) := rfl
  have hinfinity : (f64 0x7FF0000000000000).floatPattern? = some (binary64, 0x7FF0000000000000) := rfl
  have hkeeps := (float_json_reads_back_iff htenth).1.2 fun hfinite =>
    reread_of_few_digits hfinite (by decide +kernel) (by decide +kernel)
  have hkeeps' := (float_json_reads_back_iff hinfinity).1.2 fun hfinite =>
    absurd hfinite (by decide +kernel)
  exact ⟨htenth, hkeeps.finite (by decide +kernel), hinfinity, (hkeeps'.notFinite (by decide +kernel)).2⟩

/-- The greatest odd whole number of binary64 is read as the even one before it, since a zero is written
after its digits. And if a numeral were read as the nearest binary64 value, which is then narrowed, it would
be a binary32 value that does not come back. -/
theorem float_json_misses_by_one :
    (f64 0x433FFFFFFFFFFFFF).toJson.compact =
        "\x7b\"type\":\"f64\",\"value\":9007199254740991.0\x7d" ∧
      (f64 0x433FFFFFFFFFFFFF).JsonReadsAs (some (f64 0x433FFFFFFFFFFFFE)) ∧
      ¬(f64 0x433FFFFFFFFFFFFF).JsonKeeps binary64 0x433FFFFFFFFFFFFF ∧
      (f32 0x15AE43FD).toJson.compact = "\x7b\"type\":\"f32\",\"value\":7.038531e-26\x7d" ∧
      FloatLiteral.parse? "7.038531e-26".toList = some (.number false 7038531 (-32)) ∧
      narrow binary32 (binary64.ofDecimal 7038531 (-32)) = 0x15AE43FE := by
  have hpattern : (f64 0x433FFFFFFFFFFFFF).floatPattern? = some (binary64, 0x433FFFFFFFFFFFFF) := rfl
  have hfinite : binary64.magnitude 0x433FFFFFFFFFFFFF < binary64.infinity := by decide +kernel
  have hreread : reread binary64 0x433FFFFFFFFFFFFF = 0x433FFFFFFFFFFFFE := by
    have hwritten : written binary64 0x433FFFFFFFFFFFFF = ⟨90071992547409910, -1⟩ := by decide +kernel
    have hdivide : divMagnitude (binary64.round 90071992547409910 1) (powerOfTen 1) = 0x433FFFFFFFFFFFFE := by
      decide +kernel
    rw [reread_binary64, hwritten, nearest_product_of_neg (by decide) (by decide), scaleDown,
      if_pos (by decide)]
    exact hdivide
  have hread : (f64 0x433FFFFFFFFFFFFF).JsonReadsAs (some (f64 0x433FFFFFFFFFFFFE)) := by
    obtain ⟨w, hread, hw⟩ := jsonReadsAs_of_finite hpattern hfinite
    have hsame : (f64 0x433FFFFFFFFFFFFE).floatPattern? = some (binary64,
        binary64.withSign (binary64.isNegative 0x433FFFFFFFFFFFFF) 0x433FFFFFFFFFFFFE) := by decide +kernel
    rw [hreread] at hw
    rwa [eq_of_floatPattern? hsame hw]
  refine ⟨by decide +kernel, hread, fun hkeeps => ?_, by decide +kernel, by decide +kernel, by decide +kernel⟩
  have hsame := hread.unique (hkeeps.finite hfinite)
  exact absurd hsame (by decide)

end GuestHarness
