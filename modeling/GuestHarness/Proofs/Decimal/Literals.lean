import GuestHarness.Proofs.Decimal.Digits

/-! Decimal numbers as they are written, in any layout, and taken apart again: the digits on both sides of
the point and the exponent. Together they denote the number that was written. -/
namespace GuestHarness.Decimal
open Json (Lacks takeWhile_of_lacks dropWhile_of_lacks isDigit_of_mem_toDigits leading_toDigits)
open FloatLiteral (exponentPart?)

/-- What follows the first digits: more digits after a point, or none, and an exponent. -/
inductive Continues : List Char → List Char → Int → Prop
  | exponent {cs : List Char} {e : Int} (h : exponentPart? cs = some e) : Continues cs [] e
  | point {ds cs : List Char} {e : Int} (digits : ∀ d ∈ ds, isDigit d = true)
      (h : exponentPart? cs = some e) : Continues ('.' :: (ds ++ cs)) ds e

/-- The parts of a numeral without sign. -/
structure Parts (cs whole rest fraction : List Char) (e : Int) : Prop where
  text : cs = whole ++ rest
  digits : ∀ c ∈ whole, isDigit c = true
  nonempty : whole ≠ []
  continues : Continues rest fraction e

section

variable {cs whole rest fraction : List Char} {e : Int}

theorem lacks_of_exponentPart? {p : Char → Bool} (h : exponentPart? cs = some e) (hlower : p 'e' = false)
    (hupper : p 'E' = false) : Lacks p cs := by
  cases cs with
  | nil => exact .nil p
  | cons c cs =>
    simp only [exponentPart?] at h
    split at h
    · next hletter => obtain rfl | rfl := hletter <;> exact .cons ‹_› _
    · contradiction

theorem Continues.lacks (h : Continues rest fraction e) : Lacks isDigit rest := by
  cases h with
  | exponent h => exact lacks_of_exponentPart? h rfl rfl
  | point => exact .cons rfl _

/-- The digits after a point, and what follows them. -/
def afterPoint : List Char → List Char × List Char
  | '.' :: cs => (cs.takeWhile isDigit, cs.dropWhile isDigit)
  | cs => ([], cs)

theorem Continues.afterPoint (h : Continues rest fraction e) :
    ∃ tail, afterPoint rest = (fraction, tail) ∧ exponentPart? tail = some e := by
  cases h with
  | exponent h =>
    refine ⟨rest, ?_, h⟩
    unfold Decimal.afterPoint
    split
    · cases h
    · rfl
  | point digits h =>
    have hlacks : Lacks isDigit _ := lacks_of_exponentPart? h rfl rfl
    refine ⟨_, ?_, h⟩
    simp only [Decimal.afterPoint, takeWhile_of_lacks digits hlacks, dropWhile_of_lacks digits hlacks]

theorem number?_eq (negative : Bool) (cs : List Char) : FloatLiteral.number? negative cs =
    if cs.takeWhile isDigit = [] ∧ (afterPoint (cs.dropWhile isDigit)).1 = [] then none
    else (exponentPart? (afterPoint (cs.dropWhile isDigit)).2).map fun e =>
      .number negative (digitsValue (cs.takeWhile isDigit ++ (afterPoint (cs.dropWhile isDigit)).1))
        (e - (afterPoint (cs.dropWhile isDigit)).1.length) := rfl

namespace Parts

variable (h : Parts cs whole rest fraction e)
include h

theorem takeWhile : cs.takeWhile isDigit = whole := by
  rw [h.text, takeWhile_of_lacks h.digits h.continues.lacks]

theorem dropWhile : cs.dropWhile isDigit = rest := by
  rw [h.text, dropWhile_of_lacks h.digits h.continues.lacks]

theorem head : ∃ c ds, cs = c :: ds ∧ isDigit c = true := by
  obtain ⟨c, ds, rfl⟩ := List.exists_cons_of_ne_nil h.nonempty
  exact ⟨c, ds ++ rest, h.text, h.digits c List.mem_cons_self⟩

/-- A floating-point literal denotes its digits, with the exponent that the point has left. -/
theorem number? (negative : Bool) : FloatLiteral.number? negative cs =
    some (.number negative (digitsValue (whole ++ fraction)) (e - fraction.length)) := by
  obtain ⟨tail, hsplit, htail⟩ := h.continues.afterPoint
  rw [number?_eq, h.takeWhile, h.dropWhile, hsplit]
  dsimp only
  rw [if_neg fun hempty => h.nonempty hempty.1, htail]
  rfl

end Parts

end

/-- How many zeros stand after the digits of a whole number that is written out. -/
def Scaled.added (L : Layout) (d : Scaled) : Nat :=
  if L.writtenOut d.leading = true ∧ 0 ≤ d.exponent then
    d.exponent.toNat + if L.pointZero then 1 else 0
  else 0

/-- A text shows a decimal if it has the digits of the decimal and the zeros after them, for which its
exponent makes up. -/
structure Shows (L : Layout) (d : Scaled) (cs whole rest fraction : List Char) (e : Int) : Prop
    extends Parts cs whole rest fraction e where
  pointed (h : L.pointZero = true) : rest ≠ []
  value : digitsValue (whole ++ fraction) = d.coefficient * 10 ^ d.added L
  exponent_eq (h : d.coefficient ≠ 0) : e - fraction.length = d.exponent - d.added L
  written : e = 0 ∨ e = d.leading

namespace Scaled

variable {d : Scaled}

theorem isDigit_of_mem_digits : ∀ c ∈ d.digits, isDigit c = true := isDigit_of_mem_toDigits

theorem isDigit_of_mem_zeros {n : Nat} : ∀ c ∈ zeros n, isDigit c = true := by
  intro c hc
  rw [List.eq_of_mem_replicate hc]
  rfl

@[simp] theorem digitsValue_digits (d : Scaled) : digitsValue d.digits = d.coefficient :=
  digitsValue_toDigits _

theorem length_digits_pos (d : Scaled) : 0 < d.digits.length := Nat.length_toDigits_pos

theorem exponentPart?_nil : exponentPart? [] = some 0 := rfl

section

variable {L : Layout} {whole fraction : List Char}

/-- Digits on both sides of a point show a decimal without an exponent of their own. -/
theorem shows_pointed (hwhole : ∀ c ∈ whole, isDigit c = true) (hne : whole ≠ [])
    (hfraction : ∀ c ∈ fraction, isDigit c = true)
    (hvalue : digitsValue (whole ++ fraction) = d.coefficient * 10 ^ d.added L)
    (hexponent : d.coefficient ≠ 0 → 0 - (fraction.length : Int) = d.exponent - d.added L) :
    Shows L d (whole ++ '.' :: fraction) whole ('.' :: fraction) fraction 0 := by
  refine ⟨⟨rfl, hwhole, hne, ?_⟩, fun _ => List.cons_ne_nil _ _, hvalue, hexponent, .inl rfl⟩
  simpa using Continues.point hfraction exponentPart?_nil

theorem shows_whole (hpoint : L.pointZero = false) (hwhole : ∀ c ∈ whole, isDigit c = true)
    (hne : whole ≠ []) (hvalue : digitsValue whole = d.coefficient * 10 ^ d.added L)
    (hexponent : d.coefficient ≠ 0 → 0 = d.exponent - d.added L) :
    Shows L d whole whole [] [] 0 := by
  refine ⟨⟨(List.append_nil _).symm, hwhole, hne, .exponent exponentPart?_nil⟩, ?_, ?_, hexponent, .inl rfl⟩
  · simp [hpoint]
  · rwa [List.append_nil]

/-- A whole number has a point and a zero after its digits if the layout says so. -/
theorem shows_writtenWhole (h : L.writtenOut d.leading = true) (hexponent : 0 ≤ d.exponent) :
    ∃ whole rest fraction e, Shows L d
      (d.digits ++ zeros d.exponent.toNat ++ if L.pointZero then ['.', '0'] else []) whole rest fraction e := by
  have hdigits : ∀ c ∈ d.digits ++ zeros d.exponent.toNat, isDigit c = true := fun c hc =>
    (List.mem_append.1 hc).elim (isDigit_of_mem_digits c) (isDigit_of_mem_zeros c)
  have hne : d.digits ++ zeros d.exponent.toNat ≠ [] := by
    simp [List.ne_nil_of_length_pos d.length_digits_pos]
  cases hpoint : L.pointZero with
  | false =>
    have hadded : d.added L = d.exponent.toNat := by simp [added, h, hexponent, hpoint]
    rw [if_neg Bool.false_ne_true, List.append_nil]
    refine ⟨_, _, _, _, shows_whole hpoint hdigits hne ?_ fun _ => ?_⟩
    · rw [hadded, zeros, digitsValue_append_zeros, digitsValue_digits]
    · omega
  | true =>
    have hadded : d.added L = d.exponent.toNat + 1 := by simp [added, h, hexponent, hpoint]
    have hzeros : zeros d.exponent.toNat ++ ['0'] = List.replicate (d.exponent.toNat + 1) '0' :=
      List.replicate_succ'.symm
    refine ⟨_, _, ['0'], _, shows_pointed hdigits hne (isDigit_of_mem_zeros (n := 1)) ?_ fun _ => ?_⟩
    · rw [hadded, List.append_assoc, hzeros, digitsValue_append_zeros, digitsValue_digits]
    · rw [hadded, List.length_singleton]
      omega

theorem shows_writeOut (h : L.writtenOut d.leading = true) :
    ∃ whole rest fraction e, Shows L d (d.writeOut L.pointZero) whole rest fraction e := by
  have hlength := d.length_digits_pos
  have hleading : d.leading = d.digits.length - 1 + d.exponent := rfl
  unfold writeOut
  dsimp only
  split
  · next hwhole =>
    have hadded : d.added L = 0 := if_neg fun hwritten => by omega
    have hfraction : ∀ c ∈ zeros (-(d.leading + 1)).toNat ++ d.digits, isDigit c = true := fun c hc =>
      (List.mem_append.1 hc).elim (isDigit_of_mem_zeros c) (isDigit_of_mem_digits c)
    have hcount : (zeros (-(d.leading + 1)).toNat ++ d.digits).length =
        (-(d.leading + 1)).toNat + d.digits.length := by simp [zeros]
    have hvalue : digitsValue (['0'] ++ (zeros (-(d.leading + 1)).toNat ++ d.digits)) =
        d.coefficient * 10 ^ d.added L := by
      rw [hadded]
      exact (digitsValue_zeros_append ((-(d.leading + 1)).toNat + 1) d.digits).trans (by simp)
    have hshows := shows_pointed (isDigit_of_mem_zeros (n := 1)) (List.cons_ne_nil _ _) hfraction hvalue
      fun _ => by omega
    exact ⟨_, _, _, _, hshows⟩
  split
  · next hwhole hexponent => exact shows_writtenWhole h hexponent
  · next hwhole hexponent =>
    have hadded : d.added L = 0 := if_neg fun hwritten => hexponent hwritten.2
    have hsplit : (d.leading + 1).toNat < d.digits.length := by omega
    refine ⟨_, _, _, _, shows_pointed (fun c hc => isDigit_of_mem_digits c (List.mem_of_mem_take hc)) ?_
      (fun c hc => isDigit_of_mem_digits c (List.mem_of_mem_drop hc)) ?_ fun _ => ?_⟩
    · refine List.ne_nil_of_length_pos ?_
      rw [List.length_take]
      omega
    · rw [hadded, List.take_append_drop, digitsValue_digits, Nat.pow_zero, Nat.mul_one]
    · rw [hadded, List.length_drop]
      omega

end

theorem integer?_signed (sign : Char) (h : sign = '-' ∨ sign = '+') (k : Nat) :
    integer? (sign :: Nat.toDigits 10 k) = some (if sign = '-' then -(k : Int) else k) := by
  have hall : (Nat.toDigits 10 k).all isDigit = true := List.all_eq_true.2 isDigit_of_mem_toDigits
  obtain rfl | rfl := h <;> simp [integer?, splitSign, hall, Nat.toDigits_ne_nil]

theorem exponentPart?_scientific (n : Int) :
    exponentPart? ('e' :: (if n < 0 then '-' else '+') :: Nat.toDigits 10 n.natAbs) = some n := by
  simp only [exponentPart?, true_or, if_true]
  by_cases hn : n < 0
  · rw [if_pos hn, integer?_signed '-' (.inl rfl), if_pos rfl]
    congr 1
    omega
  · rw [if_neg hn, integer?_signed '+' (.inr rfl), if_neg (by decide)]
    congr 1
    omega

theorem shows_writeScientific {L : Layout} (h : L.writtenOut d.leading = false) :
    ∃ whole rest fraction e, Shows L d d.writeScientific whole rest fraction e := by
  have hadded : d.added L = 0 := if_neg fun hwritten => by simp [h] at hwritten
  have hexponent := exponentPart?_scientific d.leading
  have hdigits := d.isDigit_of_mem_digits
  have hvalue := d.digitsValue_digits
  have hlength := d.length_digits_pos
  have hleading : d.leading = d.digits.length - 1 + d.exponent := rfl
  have htail := List.cons_ne_nil 'e' ((if d.leading < 0 then '-' else '+') :: Nat.toDigits 10 d.leading.natAbs)
  unfold writeScientific
  dsimp only
  generalize 'e' :: (if d.leading < 0 then '-' else '+') :: Nat.toDigits 10 d.leading.natAbs = tail at *
  generalize d.digits = digits at *
  split
  · exact absurd hlength (Nat.lt_irrefl 0)
  · next c =>
    refine ⟨[c], tail, [], d.leading, ⟨rfl, hdigits, by simp, .exponent hexponent⟩, fun _ => htail,
      ?_, ?_, .inr rfl⟩
    · rw [hadded]
      simpa using hvalue
    · intro _
      rw [hadded, hleading]
      simp
  · next c cs hne =>
    refine ⟨[c], '.' :: (cs ++ tail), cs, d.leading, ⟨rfl, ?_, by simp, .point ?_ hexponent⟩,
      fun _ => List.cons_ne_nil _ _, ?_, ?_, .inr rfl⟩
    · exact fun x hx => hdigits x (by simp_all)
    · exact fun x hx => hdigits x (List.mem_cons_of_mem _ hx)
    · rw [hadded]
      simpa using hvalue
    · intro _
      rw [hadded, hleading, List.length_cons]
      omega

/-- Whatever the layout, a decimal is shown by its text. -/
theorem shows_write (L : Layout) (d : Scaled) :
    ∃ whole rest fraction e, Shows L d (d.write L) whole rest fraction e := by
  unfold write
  split
  · next hzero =>
    have hdigit : ∀ c ∈ ['0'], isDigit c = true := isDigit_of_mem_zeros (n := 1)
    have hexponent {e : Int} (h : d.coefficient ≠ 0) : e = d.exponent - d.added L := absurd hzero h
    cases hpoint : L.pointZero with
    | false =>
      refine ⟨['0'], _, _, _, shows_whole hpoint hdigit (List.cons_ne_nil _ _) ?_ hexponent⟩
      rw [hzero, Nat.zero_mul]
      rfl
    | true =>
      refine ⟨['0'], _, ['0'], _, shows_pointed hdigit (List.cons_ne_nil _ _) hdigit ?_ hexponent⟩
      rw [hzero, Nat.zero_mul]
      rfl
  split
  · next h => exact shows_writeOut h
  · next h => exact shows_writeScientific (by simpa using h)

end Scaled
end GuestHarness.Decimal
