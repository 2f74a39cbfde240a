import GuestHarness.Proofs.Decimal.Literals
import GuestHarness.Proofs.Decimal.Shortest
import GuestHarness.Signature

/-! The texts of values, given back as arguments. Every integer, every finite number and both infinities are
read as the bits they were printed from, and a NaN is read as one. -/
namespace GuestHarness
namespace Decimal
open Json (IsNumeral Unsigned Whole Fraction Exponent isNumeral_finiteText isNumeral_integerText)

theorem isBlank_of_isDigit {c : Char} (h : isDigit c = true) : Text.isBlank c = false := by
  simp only [isDigit, Bool.and_eq_true, decide_eq_true_eq] at h
  have hlow : '0'.toNat ≤ c.toNat := h.1
  have hhigh : c.toNat ≤ '9'.toNat := h.2
  have hzero : '0'.toNat = 48 := rfl
  have hnine : '9'.toNat = 57 := rfl
  simp only [Text.isBlank, Bool.or_eq_false_iff, Bool.and_eq_false_iff, decide_eq_false_iff_not,
    beq_eq_false_iff_ne]
  omega

/-- No character of a numeral is blank. -/
theorem isBlank_of_mem_numeral {cs : List Char} (h : IsNumeral cs) : ∀ c ∈ cs, Text.isBlank c = false := by
  have hunsigned {cs : List Char} (h : Unsigned cs) : ∀ c ∈ cs, Text.isBlank c = false := by
    obtain @⟨whole, fraction, exponent, hwhole, hfraction, hexponent⟩ := h
    simp only [List.mem_append]
    rintro c ((hc | hc) | hc)
    · cases hwhole with
      | zero => exact isBlank_of_isDigit (List.mem_singleton.1 hc ▸ rfl)
      | positive h => exact isBlank_of_isDigit (h.digits c hc)
    · cases hfraction with
      | absent => cases hc
      | digits _ h =>
        obtain rfl | hc := List.mem_cons.1 hc
        · rfl
        · exact isBlank_of_isDigit (h c hc)
    · cases hexponent with
      | absent => cases hc
      | signed hsign _ h =>
        obtain rfl | hc := List.mem_cons.1 hc
        · rfl
        obtain rfl | hc := List.mem_cons.1 hc
        · obtain rfl | rfl := hsign <;> rfl
        · exact isBlank_of_isDigit (h c hc)
  cases h with
  | unsigned h => exact hunsigned h
  | negative h =>
    intro c hc
    obtain rfl | hc := List.mem_cons.1 hc
    · rfl
    · exact hunsigned h c hc

theorem trimChars_of_isNumeral {cs : List Char} (h : IsNumeral cs) : Text.trimChars cs = cs :=
  Text.trimChars_eq_self (fun c hc => isBlank_of_mem_numeral h c (List.mem_of_mem_head? hc))
    fun c hc => isBlank_of_mem_numeral h c (List.mem_of_getLast? hc)

theorem named?_of_isDigit (negative : Bool) {c : Char} (h : isDigit c = true) (cs : List Char) :
    FloatLiteral.named? negative (c :: cs) = none := by
  have hhigh : c.toNat ≤ 57 := by
    simp only [isDigit, Bool.and_eq_true, decide_eq_true_eq] at h
    exact h.2
  have hlower : c.toLower = c := by
    unfold Char.toLower
    split
    · next h =>
      have hletter : 65 ≤ c.toNat := h.1
      omega
    · rfl
  have hne (s : String) (c' : Char) (hs : s.toList.head? = some c') (hc' : 57 < c'.toNat) :
      String.ofList ((c :: cs).map Char.toLower) ≠ s := by
    rintro rfl
    simp only [String.toList_ofList, List.map_cons, List.head?_cons, hlower, Option.some.injEq] at hs
    subst hs
    omega
  unfold FloatLiteral.named?
  dsimp only
  rw [if_neg, if_neg]
  · exact hne _ 'n' rfl (by decide)
  · rintro (h | h)
    · exact hne _ 'i' rfl (by decide) h
    · exact hne _ 'i' rfl (by decide) h

namespace BinaryFormat

variable {F : BinaryFormat} {bits : ℕ}

theorem signBit_pos (F : BinaryFormat) : 0 < F.signBit := by
  rw [signBit, twoTo_eq]
  exact Nat.pow_pos (by decide)

/-- Sign and magnitude make up a pattern. -/
theorem withSign_magnitude (h : bits < 2 * F.signBit) :
    F.withSign (F.isNegative bits) (F.magnitude bits) = bits := by
  have hdivision := Nat.div_add_mod bits F.signBit
  have hquotient : bits / F.signBit < 2 := (Nat.div_lt_iff_lt_mul F.signBit_pos).2 h
  unfold withSign isNegative magnitude
  obtain hzero | hone := Nat.le_one_iff_eq_zero_or_eq_one.1 (Nat.le_of_lt_succ hquotient)
  · rw [hzero] at hdivision ⊢
    simpa using hdivision
  · rw [hone] at hdivision ⊢
    simpa using hdivision

theorem ofDecimal_shortest (hF : Covered F) (tie : Tie) {m : ℕ} (hm : m < F.infinity) :
    F.ofDecimal (F.shortest tie m).coefficient (F.shortest tie m).exponent = m := by
  by_cases hzero : m = 0
  · subst hzero
    simp [shortest]
  · exact (found_shortest hF tie hzero hm).readsBack

/-- A decimal is read from any text that shows it. -/
theorem ofDecimal_of_shows {L : Layout} {d : Scaled} {cs whole rest fraction : List Char} {e : Int}
    (h : Shows L d cs whole rest fraction e) :
    F.ofDecimal (digitsValue (whole ++ fraction)) (e - fraction.length) =
      F.ofDecimal d.coefficient d.exponent := by
  rw [h.value, ofDecimal_mul_pow]
  by_cases hzero : d.coefficient = 0
  · simp [hzero]
  · rw [h.exponent_eq hzero, sub_add_cancel]

end BinaryFormat

open BinaryFormat

variable {F : BinaryFormat} {bits : ℕ}

theorem splitSign_body {L : Layout} {d : Scaled} {cs whole rest fraction : List Char} {e : Int}
    (h : Shows L d cs whole rest fraction e) (negative : Bool) :
    splitSign (if negative then '-' :: cs else cs) = (negative, cs) := by
  obtain ⟨c, ds, rfl, hc⟩ := h.head
  cases negative with
  | false => exact splitSign_of_isDigit hc ds
  | true => rfl

/-- A finite pattern is read from its text, whatever the layout. -/
theorem parse?_finiteText (hF : Covered F) (L : Layout) (h : bits < 2 * F.signBit)
    (hfinite : F.magnitude bits < F.infinity) :
    (FloatLiteral.parse? (F.finiteText L bits).toList).map (FloatLiteral.bits F) = some bits := by
  obtain ⟨whole, rest, fraction, e, hshows⟩ :=
    Scaled.shows_write L (F.shortest L.tie (F.magnitude bits))
  unfold finiteText
  dsimp only
  rw [String.toList_ofList]
  unfold FloatLiteral.parse?
  rw [splitSign_body hshows]
  dsimp only
  have hnumber := hshows.number? (F.isNegative bits)
  obtain ⟨c, cs, hcs, hc⟩ := hshows.head
  rw [hcs] at hnumber ⊢
  rw [named?_of_isDigit _ hc, hnumber]
  change some (FloatLiteral.bits F _) = _
  rw [FloatLiteral.bits, ofDecimal_of_shows hshows, ofDecimal_shortest hF _ hfinite,
    withSign_magnitude h]

/-- The text of a pattern is a literal of the pattern itself, and that of a NaN is a literal of the NaN
without payload. -/
theorem parse?_floatText (hF : Covered F) (h : bits < 2 * F.signBit) :
    (FloatLiteral.parse? (Text.trimChars (Value.floatText F bits).toList)).map (FloatLiteral.bits F) =
      some (if F.isNaN bits then F.quietNaN else bits) := by
  have hnan : FloatLiteral.parse? (Text.trimChars "NaN".toList) = some (.nan false) := by decide +kernel
  have hinfinity : FloatLiteral.parse? (Text.trimChars "inf".toList) = some (.infinity false) := by
    decide +kernel
  have hnegative : FloatLiteral.parse? (Text.trimChars "-inf".toList) = some (.infinity true) := by
    decide +kernel
  have hbits := withSign_magnitude h
  unfold Value.floatText
  split
  · next hisNaN =>
    rw [hnan]
    rfl
  · next hisNaN =>
    split
    · next hmagnitude =>
      rw [hmagnitude] at hbits
      split
      · next hsign =>
        rw [hnegative, Option.map_some, FloatLiteral.bits, ← hsign, hbits]
      · next hsign =>
        rw [hinfinity, Option.map_some, FloatLiteral.bits, ← Bool.eq_false_iff.2 hsign, hbits]
    · next hmagnitude =>
      have hfinite : F.magnitude bits < F.infinity := by
        have hle : ¬F.infinity < F.magnitude bits := by simpa [isNaN] using hisNaN
        omega
      rw [trimChars_of_isNumeral (isNumeral_finiteText F _ bits), parse?_finiteText hF _ h hfinite]

theorem integerOfText?_integerText (width : ℕ) {n : ℤ} (hlow : -2 ^ (width - 1) ≤ n)
    (hhigh : n < 2 ^ (width - 1)) :
    Value.integerOfText? width (Text.trimChars (Value.integerText n).toList) = some n := by
  have htwo : (twoTo (width - 1) : ℤ) = 2 ^ (width - 1) := by simp [twoTo_eq]
  unfold Value.integerOfText? integerIn?
  rw [trimChars_of_isNumeral (isNumeral_integerText n), integer?_integerText, htwo,
    Option.filter_some, if_pos]
  · rfl
  · simp only [Bool.and_eq_true, decide_eq_true_eq]
    omega

end Decimal

namespace Value
open Decimal

/-- A floating-point value that is no number. -/
def isNaN : Value → Bool
  | f32 b => binary32.isNaN b.toNat
  | f64 b => binary64.isNaN b.toNat
  | _ => false

/-- The second value is of the type of the first and has its bits, or both are NaNs. -/
structure SameButForNaN (v w : Value) : Prop where
  type : w.type = v.type
  bits (h : v.isNaN = false) : w = v
  nan (h : v.isNaN = true) : w.isNaN = true

theorem SameButForNaN.refl (v : Value) : v.SameButForNaN v := ⟨rfl, fun _ => rfl, id⟩

/-- A value is read from its text. -/
theorem parse_text (v : Value) : ∃ w, parse v.type v.text = .ok w ∧ v.SameButForNaN w := by
  cases v with
  | i32 n =>
    have hread := integerOfText?_integerText 32 n.le_toInt n.toInt_lt
    exact ⟨_, by simp [parse, type, text, hread], .refl _⟩
  | i64 n =>
    have hread := integerOfText?_integerText 64 n.le_toInt n.toInt_lt
    exact ⟨_, by simp [parse, type, text, hread], .refl _⟩
  | f32 b =>
    have hread := parse?_floatText BinaryFormat.covered_binary32 b.toNat_lt
    have hvalue := congrArg (Option.map fun n => f32 (.ofNat n)) hread
    simp only [Option.map_map, Option.map_some, Function.comp_def] at hvalue
    refine ⟨f32 (.ofNat (if binary32.isNaN b.toNat then binary32.quietNaN else b.toNat)), ?_, ?_⟩
    · simp only [parse, type, text, hvalue]
    cases hnan : binary32.isNaN b.toNat with
    | false => simpa using SameButForNaN.refl (f32 b)
    | true =>
      have hquiet : (f32 (.ofNat binary32.quietNaN)).isNaN = true := by decide +kernel
      exact ⟨rfl, fun h => absurd hnan (by simpa [isNaN] using h), fun _ => hquiet⟩
  | f64 b =>
    have hread := parse?_floatText BinaryFormat.covered_binary64 b.toNat_lt
    have hvalue := congrArg (Option.map fun n => f64 (.ofNat n)) hread
    simp only [Option.map_map, Option.map_some, Function.comp_def] at hvalue
    refine ⟨f64 (.ofNat (if binary64.isNaN b.toNat then binary64.quietNaN else b.toNat)), ?_, ?_⟩
    · simp only [parse, type, text, hvalue]
    cases hnan : binary64.isNaN b.toNat with
    | false => simpa using SameButForNaN.refl (f64 b)
    | true =>
      have hquiet : (f64 (.ofNat binary64.quietNaN)).isNaN = true := by decide +kernel
      exact ⟨rfl, fun h => absurd hnan (by simpa [isNaN] using h), fun _ => hquiet⟩

end Value

namespace Signature

variable (s : Signature) (exported : String)

/-- Texts of values of the parameters' types are read one by one. -/
theorem parseEach_text (vs : List Value) :
    ∃ ws, s.parseEach exported (vs.map Value.type) (vs.map Value.text) = .ok ws ∧
      List.Forall₂ Value.SameButForNaN vs ws := by
  induction vs with
  | nil => exact ⟨[], rfl, .nil⟩
  | cons v vs ih =>
    obtain ⟨w, hparse, hsame⟩ := v.parse_text
    obtain ⟨ws, hrest, hall⟩ := ih
    refine ⟨w :: ws, ?_, .cons hsame hall⟩
    simp only [List.map_cons, parseEach, hparse, hrest, Except.map]

end Signature

/-- Printed values can be given back as arguments: if values are accepted by a signature, then so are their
texts, and they are read as values of the same types and bits, but for the payloads of NaNs. -/
theorem printed_values_read_back (s : Signature) (exported : String) (vs : List Value)
    (accepted : s.checkArgs exported vs = .ok ()) :
    ∃ ws, s.parseArgs exported (vs.map Value.text) = .ok ws ∧
      List.Forall₂ Value.SameButForNaN vs ws := by
  have htypes := Signature.checkArgs_eq_ok_iff.1 accepted
  obtain ⟨ws, hparse, hsame⟩ := s.parseEach_text exported vs
  refine ⟨ws, ?_, hsame⟩
  rw [htypes] at hparse
  rw [Signature.parseArgs, if_pos (by simp [← htypes]), hparse]

/-- The least integer, minus zero, the least subnormal number, minus infinity and a signalling NaN. -/
theorem printed_values_read_back_extremes :
    let s : Signature := ⟨[.i64, .f32, .f64, .f32, .f64], []⟩
    let vs : List Value :=
      [.i64 Int64.minValue, .f32 0x80000000, .f64 1, .f32 0xFF800000, .f64 0xFFF0000000000001]
    s.checkArgs "main" vs = .ok () ∧ vs.map Value.isNaN = [false, false, false, false, true] ∧
      ∃ ws, s.parseArgs "main" (vs.map Value.text) = .ok ws ∧ List.Forall₂ Value.SameButForNaN vs ws := by
  intro s vs
  have accepted : s.checkArgs "main" vs = .ok () := by decide
  exact ⟨accepted, by decide +kernel, printed_values_read_back s "main" vs accepted⟩

end GuestHarness
