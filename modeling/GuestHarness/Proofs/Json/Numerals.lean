import GuestHarness.Json.Codec
import Mathlib.Data.List.Basic

/-! The numerals of JSON, as a grammar: what a reader takes whole from the front of a text, and what
integers and floating-point values are written as. -/
namespace GuestHarness.Json
open Decimal

/-- Digits of which the first is not zero. -/
structure Leading (cs : List Char) : Prop where
  digits : ∀ c ∈ cs, isDigit c = true
  nonempty : cs ≠ []
  nonzero : cs.head? ≠ some '0'

/-- A whole number has no superfluous zeros. -/
inductive Whole : List Char → Prop
  | zero : Whole ['0']
  | positive {cs : List Char} (h : Leading cs) : Whole cs

/-- Nothing, or a point with digits after it. -/
inductive Fraction : List Char → Prop
  | absent : Fraction []
  | digits {ds : List Char} (nonempty : ds ≠ []) (h : ∀ d ∈ ds, isDigit d = true) :
      Fraction ('.' :: ds)

/-- Nothing, or the letter, a sign and digits. -/
inductive Exponent : List Char → Prop
  | absent : Exponent []
  | signed {sign : Char} {ds : List Char} (h : sign = '-' ∨ sign = '+') (nonempty : ds ≠ [])
      (digits : ∀ d ∈ ds, isDigit d = true) : Exponent ('e' :: sign :: ds)

/-- A numeral without its sign. -/
inductive Unsigned : List Char → Prop
  | intro {whole fraction exponent : List Char} (hw : Whole whole) (hf : Fraction fraction)
      (he : Exponent exponent) : Unsigned (whole ++ fraction ++ exponent)

inductive IsNumeral : List Char → Prop
  | unsigned {cs : List Char} (h : Unsigned cs) : IsNumeral cs
  | negative {cs : List Char} (h : Unsigned cs) : IsNumeral ('-' :: cs)

/-- The text does not begin with a character of this kind. -/
def Lacks (p : Char → Bool) (cs : List Char) : Prop := ∀ c ∈ cs.head?, p c = false

/-- The characters that may go on with a numeral. -/
def goesOn (c : Char) : Bool := isDigit c || c == '.' || c == 'e' || c == 'E'

theorem Lacks.nil (p : Char → Bool) : Lacks p [] := by simp [Lacks]

theorem Lacks.cons {p : Char → Bool} {c : Char} (h : p c = false) (cs : List Char) :
    Lacks p (c :: cs) := by
  intro c' hc'
  cases hc'
  exact h

theorem Lacks.mono {p q : Char → Bool} {cs : List Char} (h : Lacks q cs)
    (hpq : ∀ c, p c = true → q c = true) : Lacks p cs := by
  intro c hc
  cases hp : p c with
  | false => rfl
  | true => exact (hpq c hp).symm.trans (h c hc)

theorem Fraction.lacks {p : Char → Bool} {cs rest : List Char} (h : Fraction cs)
    (hpoint : p '.' = false) (hrest : Lacks p rest) : Lacks p (cs ++ rest) := by
  cases h with
  | absent => exact hrest
  | digits => exact .cons hpoint _

theorem Exponent.lacks {p : Char → Bool} {cs rest : List Char} (h : Exponent cs)
    (hletter : p 'e' = false) (hrest : Lacks p rest) : Lacks p (cs ++ rest) := by
  cases h with
  | absent => exact hrest
  | signed => exact .cons hletter _

theorem takeWhile_of_lacks {p : Char → Bool} {ds rest : List Char} (h : ∀ d ∈ ds, p d = true)
    (hrest : Lacks p rest) : (ds ++ rest).takeWhile p = ds := by
  rw [List.takeWhile_append_of_pos h]
  cases rest with
  | nil => simp
  | cons c rest => simp [hrest c rfl]

theorem dropWhile_of_lacks {p : Char → Bool} {ds rest : List Char} (h : ∀ d ∈ ds, p d = true)
    (hrest : Lacks p rest) : (ds ++ rest).dropWhile p = rest := by
  rw [List.dropWhile_append_of_pos h]
  cases rest with
  | nil => rfl
  | cons c rest => simp [hrest c rfl]

section

variable {rest : List Char}

theorem skipWhole?_append {cs : List Char} (h : Whole cs) (hrest : Lacks isDigit rest) :
    skipWhole? (cs ++ rest) = some rest := by
  cases h with
  | zero =>
    cases rest with
    | nil => rfl
    | cons c rest => simp [skipWhole?, hrest c rfl]
  | positive h =>
    unfold skipWhole?
    split
    · next heq =>
      refine absurd ?_ h.nonzero
      calc cs.head? = (cs ++ rest).head? := (List.head?_append_of_ne_nil cs h.nonempty).symm
        _ = some '0' := by rw [heq]; rfl
    · rw [takeWhile_of_lacks h.digits hrest, dropWhile_of_lacks h.digits hrest, if_neg h.nonempty]

theorem skipFraction?_append {cs : List Char} (h : Fraction cs) (hdigit : Lacks isDigit rest)
    (hpoint : Lacks (· == '.') rest) : skipFraction? (cs ++ rest) = some rest := by
  cases h with
  | absent =>
    unfold skipFraction?
    split
    · next heq => simpa using hpoint '.' (by rw [← List.nil_append rest, heq]; rfl)
    · rfl
  | digits nonempty h =>
    simp [skipFraction?, takeWhile_of_lacks h hdigit, dropWhile_of_lacks h hdigit, nonempty]

theorem skipExponent?_append {cs : List Char} (h : Exponent cs) (hdigit : Lacks isDigit rest)
    (hletter : Lacks (fun c => c == 'e' || c == 'E') rest) :
    skipExponent? (cs ++ rest) = some rest := by
  cases h with
  | absent =>
    cases rest with
    | nil => rfl
    | cons c rest =>
      have := hletter c rfl
      simp only [Bool.or_eq_false_iff, beq_eq_false_iff_ne] at this
      simp [skipExponent?, this]
  | signed h nonempty digits =>
    obtain rfl | rfl := h <;>
      simp [skipExponent?, splitSign, takeWhile_of_lacks digits hdigit,
        dropWhile_of_lacks digits hdigit, nonempty]

/-- The rules for the three parts of a numeral do not run into one another. -/
theorem skipUnsigned {cs : List Char} (h : Unsigned cs) (hrest : Lacks goesOn rest) :
    ∃ middle last, skipWhole? (cs ++ rest) = some middle ∧ skipFraction? middle = some last ∧
      skipExponent? last = some rest := by
  obtain @⟨whole, fraction, exponent, hw, hf, he⟩ := h
  have hdigit : Lacks isDigit rest := hrest.mono fun c hc => by simp [goesOn, hc]
  have hpoint : Lacks (· == '.') rest := hrest.mono fun c hc => by simp_all [goesOn]
  have hletter : Lacks (fun c => c == 'e' || c == 'E') rest :=
    hrest.mono fun c hc => by
      simp only [Bool.or_eq_true, beq_iff_eq] at hc
      obtain rfl | rfl := hc <;> rfl
  refine ⟨fraction ++ (exponent ++ rest), exponent ++ rest, ?_, ?_, ?_⟩
  · rw [List.append_assoc, List.append_assoc]
    exact skipWhole?_append hw (hf.lacks rfl (he.lacks rfl hdigit))
  · exact skipFraction?_append hf (he.lacks rfl hdigit) (he.lacks rfl hpoint)
  · exact skipExponent?_append he hdigit hletter

theorem consumed_append (cs : List Char) : consumed (cs ++ rest) rest = cs := by
  simp [consumed]

theorem Unsigned.head {cs : List Char} (h : Unsigned cs) :
    ∃ c ds, cs = c :: ds ∧ isDigit c = true := by
  obtain @⟨whole, fraction, exponent, hw, -, -⟩ := h
  cases hw with
  | zero => exact ⟨'0', _, rfl, rfl⟩
  | positive h =>
    obtain ⟨c, ds, rfl⟩ := List.exists_cons_of_ne_nil h.nonempty
    exact ⟨c, _, rfl, h.digits c List.mem_cons_self⟩

theorem IsNumeral.head {cs : List Char} (h : IsNumeral cs) :
    ∃ c ds, cs = c :: ds ∧ (isDigit c = true ∨ c = '-') := by
  cases h with
  | unsigned h =>
    obtain ⟨c, ds, hcs, hc⟩ := h.head
    exact ⟨c, ds, hcs, .inl hc⟩
  | negative h => exact ⟨_, _, rfl, .inr rfl⟩

/-- A numeral is read whole, if nothing after it could go on with it. -/
theorem readNumeral_append {cs : List Char} (h : IsNumeral cs) (hrest : Lacks goesOn rest) :
    readNumeral (cs ++ rest) = some (String.ofList cs, rest) := by
  cases h with
  | unsigned h =>
    obtain ⟨middle, last, hwhole, hfraction, hexponent⟩ := skipUnsigned h hrest
    obtain ⟨c, ds, hcs, hdigit⟩ := h.head
    subst hcs
    unfold readNumeral
    split
    · next heq =>
      cases (List.cons.inj heq).1
      cases hdigit
    · simp only [hwhole, hfraction, hexponent, consumed_append, Option.bind_eq_bind, Option.bind_some,
        Option.pure_def]
  | negative h =>
    rename_i cs
    obtain ⟨middle, last, hwhole, hfraction, hexponent⟩ := skipUnsigned h hrest
    have hconsumed : consumed ('-' :: (cs ++ rest)) rest = '-' :: cs := consumed_append ('-' :: cs)
    simp only [readNumeral, List.cons_append, hwhole, hfraction, hexponent, hconsumed,
      Option.bind_eq_bind, Option.bind_some, Option.pure_def]

end

/-- The text of a natural number consists of digits. -/
theorem isDigit_of_mem_toDigits {n : Nat} : ∀ c ∈ Nat.toDigits 10 n, isDigit c = true := by
  intro c hc
  have := Nat.isDigit_of_mem_toDigits (b := 10) (by decide) (by decide) hc
  simp only [Char.isDigit, Bool.and_eq_true, decide_eq_true_eq] at this
  simp only [isDigit, Bool.and_eq_true, decide_eq_true_eq]
  exact this

theorem Leading.append {cs ds : List Char} (h : Leading cs) (hds : ∀ d ∈ ds, isDigit d = true) :
    Leading (cs ++ ds) where
  digits c hc := (List.mem_append.1 hc).elim (h.digits c) (hds c)
  nonempty := by simp [h.nonempty]
  nonzero := by
    rw [List.head?_append_of_ne_nil _ h.nonempty]
    exact h.nonzero

theorem Leading.take {cs : List Char} (h : Leading cs) {n : Nat} (hn : n ≠ 0) : Leading (cs.take n) where
  digits c hc := h.digits c (List.mem_of_mem_take hc)
  nonempty := by simp [h.nonempty, hn]
  nonzero := by
    rw [List.head?_take, if_neg hn]
    exact h.nonzero

theorem leading_toDigits {n : Nat} (h : n ≠ 0) : Leading (Nat.toDigits 10 n) := by
  induction n using Nat.strongRecOn with
  | _ n ih =>
    by_cases hlt : n < 10
    · refine ⟨isDigit_of_mem_toDigits, Nat.toDigits_ne_nil, ?_⟩
      rw [Nat.toDigits_of_lt_base hlt]
      simpa using h
    · have hdigits := @isDigit_of_mem_toDigits n
      rw [Nat.toDigits_of_base_le (by decide) (by omega)] at hdigits ⊢
      exact (ih (n / 10) (by omega) (by omega)).append fun d hd =>
        hdigits d (List.mem_append_right _ hd)

theorem whole_toDigits (n : Nat) : Whole (Nat.toDigits 10 n) := by
  by_cases h : n = 0
  · subst h
    exact .zero
  · exact .positive (leading_toDigits h)

theorem Unsigned.ofWhole {cs : List Char} (h : Whole cs) : Unsigned cs := by
  simpa using Unsigned.intro h .absent .absent

/-- The text of an integer is a numeral. -/
theorem isNumeral_integerText (n : Int) : IsNumeral (Value.integerText n).toList := by
  unfold Value.integerText
  rw [String.toList_ofList]
  split
  · exact .negative (.ofWhole (whole_toDigits _))
  · exact .unsigned (.ofWhole (whole_toDigits _))

section

variable {d : Scaled} (h : d.coefficient ≠ 0)
include h

theorem unsigned_writeOut (pointZero : Bool) : Unsigned (d.writeOut pointZero) := by
  have hleading : Leading d.digits := leading_toDigits h
  have hzeros (n : Nat) : ∀ c ∈ Scaled.zeros n, isDigit c = true := by
    intro c hc
    rw [List.eq_of_mem_replicate hc]
    rfl
  unfold Scaled.writeOut
  dsimp only
  split
  · have hfraction : Fraction ('.' :: (Scaled.zeros (-(d.leading + 1)).toNat ++ d.digits)) :=
      .digits (by simp [hleading.nonempty]) fun c hc =>
        (List.mem_append.1 hc).elim (hzeros _ c) (hleading.digits c)
    simpa using Unsigned.intro .zero hfraction .absent
  split
  · have hwhole : Whole (d.digits ++ Scaled.zeros d.exponent.toNat) :=
      .positive (hleading.append (hzeros _))
    cases pointZero with
    | false => simpa using Unsigned.intro hwhole .absent .absent
    | true =>
      have hfraction : Fraction ['.', '0'] := .digits (by simp) (by simp [isDigit])
      simpa using Unsigned.intro hwhole hfraction .absent
  · -- The point stands within the digits, so that some are left for each side of it.
    have hlength : (d.leading + 1).toNat < d.digits.length := by
      simp only [Scaled.leading] at *
      omega
    have hwhole : Whole (d.digits.take (d.leading + 1).toNat) :=
      .positive (hleading.take (by omega))
    have hfraction : Fraction ('.' :: d.digits.drop (d.leading + 1).toNat) :=
      .digits (by simpa using hlength) fun c hc => hleading.digits c (List.mem_of_mem_drop hc)
    simpa using Unsigned.intro hwhole hfraction .absent

theorem unsigned_writeScientific : Unsigned d.writeScientific := by
  have hleading : Leading d.digits := leading_toDigits h
  have hexponent : Exponent ('e' :: (if d.leading < 0 then '-' else '+') ::
      Nat.toDigits 10 d.leading.natAbs) := by
    refine .signed ?_ Nat.toDigits_ne_nil isDigit_of_mem_toDigits
    split
    · exact .inl rfl
    · exact .inr rfl
  have hfirst : Whole (d.digits.take 1) := .positive (hleading.take (by decide))
  unfold Scaled.writeScientific
  dsimp only
  split
  · next heq => exact absurd heq hleading.nonempty
  · next c heq =>
    rw [heq] at hfirst
    simpa using Unsigned.intro hfirst .absent hexponent
  · next c cs hne heq =>
    rw [heq] at hfirst hleading
    have hfraction : Fraction ('.' :: cs) :=
      .digits hne fun x hx =>
        hleading.digits x (List.mem_cons_of_mem _ hx)
    simpa using Unsigned.intro hfirst hfraction hexponent

end

/-- A finite floating-point value is written as a numeral, whatever the layout. -/
theorem isNumeral_finiteText (F : BinaryFormat) (L : Layout) (bits : Nat) :
    IsNumeral (F.finiteText L bits).toList := by
  have hbody (d : Scaled) : Unsigned (d.write L) := by
    unfold Scaled.write
    split
    · split
      · have hfraction : Fraction ['.', '0'] := .digits (by simp) (by simp [isDigit])
        exact Unsigned.intro .zero hfraction .absent
      · exact .ofWhole .zero
    · next h =>
      split
      · exact unsigned_writeOut h _
      · exact unsigned_writeScientific h
  unfold BinaryFormat.finiteText
  rw [String.toList_ofList]
  split
  · exact .negative (hbody _)
  · exact .unsigned (hbody _)

end GuestHarness.Json
