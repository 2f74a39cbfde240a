import GuestHarness.Proofs.Decimal.Digits
import Mathlib.Data.Int.ModEq
import Mathlib.Data.List.Induction
import Mathlib.Data.List.TakeWhile
import Mathlib.Data.Nat.Digits.Defs

/-! Texts of integers: blanks at both ends do not count, and between them stand one sign or none and
digits. The number may be of the signed range or of the unsigned one, and is kept as the signed number
of the same bits. -/
namespace GuestHarness
open Decimal

namespace Text
open Json (Lacks dropWhile_of_lacks)

variable {cs inner : List Char}

/-- What is left of a text without the blanks at its ends. -/
structure Trims (cs inner : List Char) : Prop where
  ends : ∃ front back, cs = front ++ (inner ++ back) ∧
    (∀ c ∈ front, isBlank c = true) ∧ ∀ c ∈ back, isBlank c = true
  first : ∀ c ∈ inner.head?, isBlank c = false
  last : ∀ c ∈ inner.getLast?, isBlank c = false

theorem lacks_dropWhile (cs : List Char) : Lacks isBlank (cs.dropWhile isBlank) := by
  intro c hc
  have hnot := List.head?_dropWhile_not isBlank cs
  rw [Option.mem_def.1 hc] at hnot
  exact hnot

theorem trims_trimChars (cs : List Char) : Trims cs (trimChars cs) := by
  let rest := cs.dropWhile isBlank
  let back := (rest.reverse.takeWhile isBlank).reverse
  have hfront : cs.takeWhile isBlank ++ rest = cs := List.takeWhile_append_dropWhile
  have hrest : rest = trimChars cs ++ back := by
    rw [trimChars, ← List.reverse_append, List.takeWhile_append_dropWhile, List.reverse_reverse]
  refine ⟨⟨cs.takeWhile isBlank, back, ?_, ?_, ?_⟩, ?_, ?_⟩
  · rw [← hrest, hfront]
  · exact fun c => List.mem_takeWhile_imp
  · exact fun c hc => List.mem_takeWhile_imp (List.mem_reverse.1 hc)
  · intro c hc
    refine lacks_dropWhile cs c ?_
    rw [show cs.dropWhile isBlank = _ from hrest, List.head?_append, Option.mem_def.1 hc]
    rfl
  · intro c hc
    rw [trimChars, List.getLast?_reverse] at hc
    exact lacks_dropWhile _ c hc

theorem Trims.eq_trimChars (h : Trims cs inner) : inner = trimChars cs := by
  obtain ⟨front, back, rfl, hfront, hback⟩ := h.ends
  have hlast : Lacks isBlank inner.reverse := fun c hc => h.last c (by rwa [← List.head?_reverse])
  have hends : ∀ c ∈ back.reverse, isBlank c = true := fun c hc => hback c (List.mem_reverse.1 hc)
  rw [trimChars, List.dropWhile_append_of_pos hfront]
  by_cases hinner : inner = []
  · subst hinner
    rw [List.nil_append, List.dropWhile_eq_nil_iff.2 hback]
    rfl
  · have hfirst : Lacks isBlank (inner ++ back) := by
      intro c hc
      rw [List.head?_append_of_ne_nil _ hinner] at hc
      exact h.first c hc
    have hkept : (inner ++ back).dropWhile isBlank = inner ++ back := by
      rw [← List.nil_append (inner ++ back)]
      exact dropWhile_of_lacks (fun c hc => absurd hc List.not_mem_nil) hfirst
    rw [hkept, List.reverse_append, dropWhile_of_lacks hends hlast, List.reverse_reverse]

end Text

namespace Decimal

variable {cs ds : List Char} {n : ℤ}

/-- One digit or more. -/
structure IsDigits (ds : List Char) : Prop where
  nonempty : ds ≠ []
  digits : ∀ c ∈ ds, isDigit c = true

/-- The number that digits denote: the last are the units, and each place is worth ten of the next. -/
def positional (ds : List Char) : ℕ := Nat.ofDigits 10 (ds.reverse.map digitValue)

/-- The ways to write an integer. -/
inductive Denotes : List Char → ℤ → Prop
  | unsigned {ds : List Char} (h : IsDigits ds) : Denotes ds (positional ds)
  | plus {ds : List Char} (h : IsDigits ds) : Denotes ('+' :: ds) (positional ds)
  | minus {ds : List Char} (h : IsDigits ds) : Denotes ('-' :: ds) (-positional ds)

theorem digitsValue_eq_positional (ds : List Char) : digitsValue ds = positional ds := by
  induction ds using List.reverseRecOn with
  | nil => rfl
  | append_singleton ds d ih =>
    have hpositional : positional (ds ++ [d]) = digitValue d + 10 * positional ds := by
      simp only [positional, List.reverse_append, List.reverse_singleton, List.singleton_append,
        List.map_cons, Nat.ofDigits_cons]
    have hdigit : digitsValue [d] = digitValue d := by simp [digitsValue]
    rw [digitsValue_append, ih, hdigit, hpositional, List.length_singleton, Nat.pow_one, Nat.add_comm]

theorem splitSign_of_isDigits (h : IsDigits ds) : splitSign ds = (false, ds) := by
  obtain ⟨c, cs, rfl⟩ := List.exists_cons_of_ne_nil h.nonempty
  exact splitSign_of_isDigit (h.digits c List.mem_cons_self) cs

theorem integer?_eq_some_iff : integer? cs = some n ↔ Denotes cs n := by
  have hread (negative : Bool) (ds : List Char) :
      (if ds ≠ [] && ds.all isDigit then
        some (if negative then -(digitsValue ds : ℤ) else digitsValue ds) else none) = some n ↔
      IsDigits ds ∧ (if negative then -(positional ds : ℤ) else positional ds) = n := by
    rw [digitsValue_eq_positional, Option.ite_none_right_eq_some, Option.some.injEq, Bool.and_eq_true,
      decide_eq_true_eq, List.all_eq_true]
    exact and_congr_left fun _ => ⟨fun h => ⟨h.1, h.2⟩, fun h => ⟨h.nonempty, h.digits⟩⟩
  constructor
  · intro h
    unfold integer? at h
    obtain ⟨hdigits, rfl⟩ := (hread (splitSign cs).1 (splitSign cs).2).1 h
    revert hdigits
    unfold splitSign
    split
    · exact .minus
    · exact .plus
    · exact .unsigned
  · intro h
    unfold integer?
    cases h with
    | unsigned h =>
      rw [splitSign_of_isDigits h]
      exact (hread _ _).2 ⟨h, rfl⟩
    | plus h => exact (hread false _).2 ⟨h, rfl⟩
    | minus h => exact (hread true _).2 ⟨h, rfl⟩

theorem Denotes.unique {m : ℤ} (h : Denotes cs n) (h' : Denotes cs m) : n = m :=
  Option.some.inj ((integer?_eq_some_iff.2 h).symm.trans (integer?_eq_some_iff.2 h'))

theorem Denotes.nonneg (h : Denotes cs n) (hminus : cs.head? ≠ some '-') : 0 ≤ n := by
  cases h with
  | unsigned | plus => omega
  | minus => exact absurd rfl hminus

theorem integerIn?_eq_some_iff {lo hi : ℤ} :
    integerIn? lo hi cs = some n ↔ Denotes cs n ∧ lo ≤ n ∧ n ≤ hi := by
  rw [integerIn?, Option.filter_eq_some_iff, integer?_eq_some_iff, Bool.and_eq_true, decide_eq_true_eq,
    decide_eq_true_eq]

theorem naturalBelow?_eq_some_iff {bound k : ℕ} :
    naturalBelow? bound cs = some k ↔ cs.head? ≠ some '-' ∧ Denotes cs k ∧ k < bound := by
  rw [naturalBelow?, Option.filter_eq_some_iff, decide_eq_true_eq, natural?,
    Option.ite_none_left_eq_some, Option.map_eq_some_iff, ← and_assoc]
  refine and_congr_left fun _ => and_congr_right fun hminus => ?_
  constructor
  · rintro ⟨n, hread, rfl⟩
    have hdenotes := integer?_eq_some_iff.1 hread
    rwa [Int.toNat_of_nonneg (hdenotes.nonneg hminus)]
  · exact fun hdenotes => ⟨k, integer?_eq_some_iff.2 hdenotes, Int.toNat_natCast k⟩

/-- A text of an integer that so many bits can hold, with a sign bit or without one. A minus sign is for
the signed range only. -/
structure Fits (width : ℕ) (cs : List Char) (n : ℤ) : Prop where
  denotes : Denotes cs n
  low : -2 ^ (width - 1) ≤ n
  high : n ≤ 2 ^ width - 1
  signed : cs.head? = some '-' → n ≤ 2 ^ (width - 1) - 1

/-- The two ranges together are one. -/
theorem integerOfText?_eq_some_iff {width : ℕ} :
    Value.integerOfText? width cs = some n ↔ Fits width cs n := by
  have hhalf : (twoTo (width - 1) : ℤ) = 2 ^ (width - 1) := by simp [twoTo_eq]
  have hwhole : (twoTo width : ℤ) = 2 ^ width := by simp [twoTo_eq]
  have hle : (2 : ℤ) ^ (width - 1) ≤ 2 ^ width := by
    exact_mod_cast Nat.pow_le_pow_right (by decide) (Nat.sub_le width 1)
  unfold Value.integerOfText?
  rw [Option.orElse_eq_some, integerIn?_eq_some_iff, Option.map_eq_some_iff, hhalf]
  constructor
  · rintro (⟨hdenotes, hlow, hhigh⟩ | ⟨-, k, hread, rfl⟩)
    · exact ⟨hdenotes, hlow, by omega, fun _ => hhigh⟩
    · obtain ⟨hminus, hdenotes, hbound⟩ := naturalBelow?_eq_some_iff.1 hread
      have hk : (k : ℤ) < 2 ^ width := by
        rw [← hwhole]
        exact_mod_cast hbound
      have hpos : (0 : ℤ) < 2 ^ (width - 1) := by positivity
      exact ⟨hdenotes, by omega, by omega, fun h => absurd h hminus⟩
  · intro h
    by_cases hsigned : n ≤ 2 ^ (width - 1) - 1
    · exact .inl ⟨h.denotes, h.low, hsigned⟩
    · have hminus : cs.head? ≠ some '-' := mt h.signed hsigned
      have hnonneg := h.denotes.nonneg hminus
      have hcast : (n.toNat : ℤ) = n := Int.toNat_of_nonneg hnonneg
      refine .inr ⟨?_, n.toNat, naturalBelow?_eq_some_iff.2 ⟨hminus, ?_, ?_⟩, hcast⟩
      · refine Option.eq_none_iff_forall_ne_some.2 fun m hm => ?_
        obtain ⟨hdenotes, -, hhigh⟩ := integerIn?_eq_some_iff.1 hm
        exact hsigned (h.denotes.unique hdenotes ▸ hhigh)
      · rw [hcast]
        exact h.denotes
      · have hhigh := h.high
        omega

end Decimal

/-- The number of bits of an integer type. -/
def ValueType.integerWidth? : ValueType → Option ℕ
  | i32 => some 32
  | i64 => some 64
  | _ => none

theorem ValueType.width_pos {type : ValueType} {width : ℕ} (h : type.integerWidth? = some width) :
    0 < width := by
  cases type <;> cases h <;> decide

namespace Value

variable {type : ValueType} {width : ℕ} {v w : Value} {m n : ℤ}

/-- The integer that a value of an integer type is. -/
def integer? : Value → Option ℤ
  | i32 v => some v.toInt
  | i64 v => some v.toInt
  | _ => none

/-- The value of a type that keeps of an integer so many bits: it is the signed integer with the same
remainder. -/
structure KeepsBits (type : ValueType) (width : ℕ) (n : ℤ) (v : Value) : Prop where
  type : v.type = type
  integer : ∃ m, v.integer? = some m ∧ -2 ^ (width - 1) ≤ m ∧ m < 2 ^ (width - 1) ∧
    m ≡ n [ZMOD 2 ^ width]

theorem eq_of_integer? (htype : v.type = w.type) (hv : v.integer? = some m) (hw : w.integer? = some m) :
    v = w := by
  cases v with
  | i32 a =>
    cases w with
    | i32 b => rw [Int32.toInt_inj.1 (Option.some.inj (hv.trans hw.symm))]
    | i64 | f32 | f64 => cases htype
  | i64 a =>
    cases w with
    | i64 b => rw [Int64.toInt_inj.1 (Option.some.inj (hv.trans hw.symm))]
    | i32 | f32 | f64 => cases htype
  | f32 | f64 => cases hv

theorem eq_of_modEq (hwidth : 0 < width) (hm : -2 ^ (width - 1) ≤ m ∧ m < 2 ^ (width - 1))
    (hn : -2 ^ (width - 1) ≤ n ∧ n < 2 ^ (width - 1)) (h : m ≡ n [ZMOD 2 ^ width]) : m = n := by
  have hpow : (2 : ℤ) ^ width = 2 * 2 ^ (width - 1) := by
    rw [← pow_succ', Nat.sub_add_cancel hwidth]
  have hzero : n - m = 0 := by
    refine Int.eq_zero_of_abs_lt_dvd h.dvd (abs_lt.2 ?_)
    omega
  omega

/-- Two values are equal if what they keep the bits of has the same remainder, and only then. -/
theorem KeepsBits.eq_iff (hwidth : 0 < width) (hv : KeepsBits type width m v)
    (hw : KeepsBits type width n w) : v = w ↔ m ≡ n [ZMOD 2 ^ width] := by
  obtain ⟨a, ha, halow, hahigh, hamod⟩ := hv.integer
  obtain ⟨b, hb, hblow, hbhigh, hbmod⟩ := hw.integer
  constructor
  · rintro rfl
    obtain rfl := Option.some.inj (ha.symm.trans hb)
    exact hamod.symm.trans hbmod
  · intro h
    obtain rfl := eq_of_modEq hwidth ⟨halow, hahigh⟩ ⟨hblow, hbhigh⟩ (hamod.trans (h.trans hbmod.symm))
    exact eq_of_integer? (hv.type.trans hw.type.symm) ha hb

theorem bmod_modEq (n : ℤ) (k : ℕ) : n.bmod k ≡ n [ZMOD k] := Int.bmod_emod

/-- Reading at an integer type is reading an integer and keeping its bits. -/
theorem exists_keepsBits (integral : type.integerWidth? = some width) :
    ∃ keep : ℤ → Value, (∀ n, KeepsBits type width n (keep n)) ∧
      ∀ text, parse type text =
        match integerOfText? width (Text.trimChars text.toList) with
        | some n => .ok (keep n)
        | none => .error (.invalid type (String.ofList (Text.trimChars text.toList))) := by
  cases type with
  | i32 =>
    cases integral
    refine ⟨fun n => .i32 (Int32.ofInt n),
      fun n => ⟨rfl, _, rfl, Int32.le_toInt _, Int32.toInt_lt _, ?_⟩, fun text => ?_⟩
    · rw [Int32.toInt_ofInt]
      exact bmod_modEq n _
    · unfold parse
      cases h : integerOfText? 32 (Text.trimChars text.toList) <;>
        simp only [h, Option.map_none, Option.map_some]
  | i64 =>
    cases integral
    refine ⟨fun n => .i64 (Int64.ofInt n),
      fun n => ⟨rfl, _, rfl, Int64.le_toInt _, Int64.toInt_lt _, ?_⟩, fun text => ?_⟩
    · rw [Int64.toInt_ofInt]
      exact bmod_modEq n _
    · unfold parse
      cases h : integerOfText? 64 (Text.trimChars text.toList) <;>
        simp only [h, Option.map_none, Option.map_some]
  | f32 | f64 => cases integral

/-- How a text is read at an integer type, `inner` being the text without the blanks at its ends. -/
structure ReadsInteger (type : ValueType) (width : ℕ) (text : String) (inner : List Char) : Prop where
  ok (v : Value) : parse type text = .ok v ↔ ∃ n, Fits width inner n ∧ KeepsBits type width n v
  error (e : LiteralError) : parse type text = .error e ↔
    e = .invalid type (String.ofList inner) ∧ ∀ n, ¬Fits width inner n

theorem readsInteger (integral : type.integerWidth? = some width) {text : String} {inner : List Char}
    (trims : Text.Trims text.toList inner) : ReadsInteger type width text inner := by
  obtain ⟨keep, hkeep, hparse⟩ := exists_keepsBits integral
  have hwidth := ValueType.width_pos integral
  have hread := hparse text
  rw [← trims.eq_trimChars] at hread
  cases hinteger : integerOfText? width inner with
  | none =>
    have hnone (n : ℤ) : ¬Fits width inner n := fun h =>
      absurd (integerOfText?_eq_some_iff.2 h) (by simp [hinteger])
    rw [hinteger] at hread
    refine ⟨fun v => ?_, fun e => ?_⟩
    · rw [hread]
      exact iff_of_false (fun h => by cases h) fun ⟨n, h, _⟩ => hnone n h
    · rw [hread]
      exact ⟨fun h => ⟨(Except.error.inj h).symm, hnone⟩, fun h => h.1 ▸ rfl⟩
  | some n =>
    have hfits : Fits width inner n := integerOfText?_eq_some_iff.1 hinteger
    rw [hinteger] at hread
    refine ⟨fun v => ?_, fun e => ?_⟩
    · rw [hread]
      constructor
      · intro h
        exact ⟨n, hfits, Except.ok.inj h ▸ hkeep n⟩
      · rintro ⟨m, h, hv⟩
        obtain rfl := hfits.denotes.unique h.denotes
        exact congrArg Except.ok (((hkeep n).eq_iff hwidth hv).2 rfl)
    · rw [hread]
      exact iff_of_false (fun h => by cases h) fun h => h.2 n hfits

end Value

open Value in
/-- A text is read at an integer type if and only if, without the blanks at its ends, it is an integer
that the bits of the type can hold with a sign or without one, and what is read are those bits; any
other text is refused, and the error shows it. Hence two such texts are read alike exactly if their
integers have the same remainder. -/
theorem integers_are_read_modulo {type : ValueType} {width : ℕ}
    (integral : type.integerWidth? = some width) :
    (∀ text : String, ∃! inner, Text.Trims text.toList inner) ∧
      (∀ (text : String) (inner : List Char), Text.Trims text.toList inner →
        ReadsInteger type width text inner) ∧
      ∀ (text text' : String) (inner inner' : List Char) (m n : ℤ),
        Text.Trims text.toList inner → Text.Trims text'.toList inner' →
        Fits width inner m → Fits width inner' n →
        (parse type text = parse type text' ↔ m ≡ n [ZMOD 2 ^ width]) := by
  refine ⟨fun text => ⟨_, Text.trims_trimChars _, fun _ h => h.eq_trimChars⟩,
    fun _ _ trims => readsInteger integral trims, ?_⟩
  intro text text' inner inner' m n trims trims' hm hn
  obtain ⟨keep, hkeep, hparse⟩ := exists_keepsBits integral
  have hwidth := ValueType.width_pos integral
  rw [hparse, hparse, ← trims.eq_trimChars, ← trims'.eq_trimChars, integerOfText?_eq_some_iff.2 hm,
    integerOfText?_eq_some_iff.2 hn]
  exact ⟨fun h => ((hkeep m).eq_iff hwidth (hkeep n)).1 (Except.ok.inj h),
    fun h => congrArg Except.ok (((hkeep m).eq_iff hwidth (hkeep n)).2 h)⟩

open Value in
/-- The greatest number of 32 bits, with a wide blank, a sign and zeros in front of it, is read as minus
one. -/
theorem integers_are_read_modulo_greatest :
    let text := "\u3000+004294967295\n"
    let inner := "+004294967295".toList
    ValueType.i32.integerWidth? = some 32 ∧ Text.Trims text.toList inner ∧ Fits 32 inner 4294967295 ∧
      Text.Trims "-1".toList "-1".toList ∧ Fits 32 "-1".toList (-1) ∧
      parse .i32 text = parse .i32 "-1" ∧ KeepsBits .i32 32 4294967295 (.i32 (-1)) ∧
      parse .i32 text = .ok (.i32 (-1)) := by
  intro text inner
  have htrims : Text.Trims text.toList inner := by
    have htrim : Text.trimChars text.toList = inner := by decide +kernel
    exact htrim ▸ Text.trims_trimChars _
  have htrims' : Text.Trims "-1".toList "-1".toList := by
    have htrim : Text.trimChars "-1".toList = "-1".toList := by decide +kernel
    exact htrim.subst (motive := Text.Trims "-1".toList) (Text.trims_trimChars _)
  have hfits : Fits 32 inner 4294967295 := integerOfText?_eq_some_iff.1 (by decide +kernel)
  have hfits' : Fits 32 "-1".toList (-1) := integerOfText?_eq_some_iff.1 (by decide +kernel)
  have hkeeps : KeepsBits .i32 32 4294967295 (.i32 (-1)) :=
    ⟨rfl, -1, rfl, by decide, by decide, by decide⟩
  obtain ⟨-, hreads, hmodulo⟩ := @integers_are_read_modulo .i32 32 rfl
  exact ⟨rfl, htrims, hfits, htrims', hfits',
    (hmodulo text "-1" inner _ _ _ htrims htrims' hfits hfits').2 (by decide), hkeeps,
    ((hreads text inner htrims).ok _).2 ⟨_, hfits, hkeeps⟩⟩

end GuestHarness
