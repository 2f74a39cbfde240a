import GuestHarness.Proofs.Json.Numerals
import Mathlib.Algebra.Group.Int.Defs
import Mathlib.Algebra.Group.Nat.Defs

/-! What lists of digits denote. The digits of a number denote it, leading zeros add nothing, and zeros
after them are a factor. -/
namespace GuestHarness.Decimal
open Json (isDigit_of_mem_toDigits)

theorem twoTo_eq (n : Nat) : twoTo n = 2 ^ n := Nat.one_shiftLeft n

theorem tenTo_eq (n : Nat) : tenTo n = 10 ^ n := rfl

theorem digitsValue_eq (cs : List Char) : digitsValue cs = Nat.ofDigitChars 10 cs 0 := rfl

@[simp] theorem digitsValue_toDigits (n : Nat) : digitsValue (Nat.toDigits 10 n) = n :=
  Nat.ofDigitChars_ten_toDigits

theorem digitsValue_append (cs ds : List Char) :
    digitsValue (cs ++ ds) = 10 ^ ds.length * digitsValue cs + digitsValue ds := by
  rw [digitsValue_eq, Nat.ofDigitChars_append, Nat.ofDigitChars_eq_ofDigitChars_zero]
  rfl

@[simp] theorem digitsValue_zeros (n : Nat) : digitsValue (List.replicate n '0') = 0 := by
  rw [digitsValue_eq, Nat.ofDigitChars_replicate_zero, Nat.mul_zero]

theorem digitsValue_zeros_append (n : Nat) (cs : List Char) :
    digitsValue (List.replicate n '0' ++ cs) = digitsValue cs := by
  simp [digitsValue_append]

theorem digitsValue_append_zeros (cs : List Char) (n : Nat) :
    digitsValue (cs ++ List.replicate n '0') = digitsValue cs * 10 ^ n := by
  simp [digitsValue_append, Nat.mul_comm]

section

variable {n : Nat}

/-- The number of digits tells between which powers of ten a number is. -/
theorem lt_pow_length_toDigits (n : Nat) : n < 10 ^ (Nat.toDigits 10 n).length :=
  (Nat.length_toDigits_le_iff (by decide) Nat.length_toDigits_pos).1 (Nat.le_refl _)

theorem pow_le_of_lt_length_toDigits {k : Nat} (hn : n ≠ 0) (hk : k < (Nat.toDigits 10 n).length) :
    10 ^ k ≤ n := by
  cases k with
  | zero => exact Nat.one_le_iff_ne_zero.2 hn
  | succ k =>
    refine Nat.le_of_not_lt fun hlt => ?_
    have hle := (Nat.length_toDigits_le_iff (by decide) (Nat.succ_pos k)).2 hlt
    omega

theorem length_toDigits_eq {k : Nat} (hlow : 10 ^ k ≤ n) (hhigh : n < 10 ^ (k + 1)) :
    (Nat.toDigits 10 n).length = k + 1 := by
  have hle := (Nat.length_toDigits_le_iff (b := 10) (by decide) (Nat.succ_pos k)).2 hhigh
  cases k with
  | zero =>
    have hpos := Nat.length_toDigits_pos (b := 10) (n := n)
    omega
  | succ k =>
    have hnot := mt (Nat.length_toDigits_le_iff (b := 10) (by decide) (Nat.succ_pos k)).1
      (Nat.not_lt_of_le hlow)
    omega

theorem length_toDigits_mul_pow (hn : n ≠ 0) (k : Nat) :
    (Nat.toDigits 10 (n * 10 ^ k)).length = (Nat.toDigits 10 n).length + k := by
  obtain ⟨j, hj⟩ : ∃ j, (Nat.toDigits 10 n).length = j + 1 :=
    ⟨_, (Nat.succ_pred_eq_of_pos Nat.length_toDigits_pos).symm⟩
  have hlow : 10 ^ j ≤ n := pow_le_of_lt_length_toDigits hn (by omega)
  have hhigh : n < 10 ^ (j + 1) := hj ▸ lt_pow_length_toDigits n
  rw [hj, show j + 1 + k = j + k + 1 by omega]
  refine length_toDigits_eq ?_ ?_
  · rw [Nat.pow_add]
    exact Nat.mul_le_mul_right _ hlow
  · rw [show j + k + 1 = j + 1 + k by omega, Nat.pow_add]
    exact Nat.mul_lt_mul_of_pos_right hhigh (Nat.pow_pos (by decide))

end

theorem splitSign_of_isDigit {c : Char} (h : isDigit c = true) (cs : List Char) :
    splitSign (c :: cs) = (false, c :: cs) := by
  unfold splitSign
  split
  · next heq =>
    cases (List.cons.inj heq).1
    cases h
  · next heq =>
    cases (List.cons.inj heq).1
    cases h
  · rfl

theorem splitSign_toDigits (n : Nat) :
    splitSign (Nat.toDigits 10 n) = (false, Nat.toDigits 10 n) := by
  obtain ⟨c, cs, hcs⟩ := List.exists_cons_of_ne_nil (Nat.toDigits_ne_nil (b := 10) (n := n))
  have hc : isDigit c = true := isDigit_of_mem_toDigits c (by rw [hcs]; exact List.mem_cons_self)
  rw [hcs, splitSign_of_isDigit hc]

theorem toList_integerText (n : Int) : (Value.integerText n).toList =
    if n < 0 then '-' :: Nat.toDigits 10 n.natAbs else Nat.toDigits 10 n.natAbs := by
  rw [Value.integerText, String.toList_ofList]

theorem splitSign_integerText (n : Int) :
    splitSign (Value.integerText n).toList = (decide (n < 0), Nat.toDigits 10 n.natAbs) := by
  rw [toList_integerText]
  by_cases hn : n < 0
  · rw [if_pos hn, decide_eq_true hn]
    rfl
  · rw [if_neg hn, decide_eq_false hn, splitSign_toDigits]

/-- The text of an integer is read as the integer. -/
theorem integer?_integerText (n : Int) : integer? (Value.integerText n).toList = some n := by
  have hall : (Nat.toDigits 10 n.natAbs).all isDigit = true :=
    List.all_eq_true.2 isDigit_of_mem_toDigits
  unfold integer?
  rw [splitSign_integerText]
  simp only [hall, digitsValue_toDigits, decide_eq_true_eq]
  rw [if_pos (by simp [Nat.toDigits_ne_nil])]
  split <;> congr 1 <;> omega

end GuestHarness.Decimal
