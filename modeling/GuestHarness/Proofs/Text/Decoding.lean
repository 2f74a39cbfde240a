import Mathlib.Logic.Basic
import Mathlib.Order.Bounds.Basic
import GuestHarness.Proofs.Text.Fronts

/-! What reading text from bytes gives: the text that has those bytes as its encoding, or a fault at
the end of the longest part that has one. -/
namespace GuestHarness.Text.Utf8
open String (utf8EncodeChar)

variable {lead : UInt8} {bs rest rest' : List UInt8} {ch ch' : Char} {cs cs' done : List Char}
  {index n : Nat} {f f' : Utf8Fault} {s : String}

theorem decodeFrom_of_char (h : front lead bs = .char ch rest) (done : List Char) (index : Nat) :
    decodeFrom done index (lead :: bs) =
      decodeFrom (ch :: done) (index + (bs.length + 1 - rest.length)) rest := by
  rw [decodeFrom]
  split <;> simp_all

theorem decodeFrom_of_invalid (h : front lead bs = .invalid n) :
    decodeFrom done index (lead :: bs) = .error (.invalid index n) := by
  rw [decodeFrom]
  split <;> simp_all

theorem decodeFrom_of_incomplete (h : front lead bs = .incomplete) :
    decodeFrom done index (lead :: bs) = .error (.incomplete index) := by
  rw [decodeFrom]
  split <;> simp_all

/-- The encodings of characters are read back one by one. -/
theorem decodeFrom_append (cs done : List Char) (index : Nat) (rest : List UInt8) :
    decodeFrom done index (cs.flatMap utf8EncodeChar ++ rest) =
      decodeFrom (cs.reverse ++ done) (index + (cs.flatMap utf8EncodeChar).length) rest := by
  induction cs generalizing done index with
  | nil => rfl
  | cons ch cs ih =>
    obtain ⟨lead, tail, hencode, hfront⟩ := exists_front_encode ch
    have hstep := decodeFrom_of_char (hfront (cs.flatMap utf8EncodeChar ++ rest)) done index
    rw [List.flatMap_cons, hencode, List.append_assoc, List.cons_append, hstep, ih,
      List.reverse_cons, List.append_assoc, List.singleton_append]
    congr 1
    simp only [List.length_append, List.length_cons]
    omega

/-- No character's encoding stands at the front of `bs`. -/
def Stuck (bs : List UInt8) : Prop := ∀ ch rest, bs ≠ utf8EncodeChar ch ++ rest

/-- Bytes are the encodings of characters up to where none stands. -/
theorem exists_split (bs : List UInt8) :
    ∃ cs rest, bs = List.flatMap utf8EncodeChar cs ++ rest ∧ Stuck rest := by
  induction hlength : bs.length using Nat.strongRecOn generalizing bs with
  | ind length ih =>
    by_cases hstuck : Stuck bs
    · exact ⟨[], bs, rfl, hstuck⟩
    simp only [Stuck, not_forall, not_not] at hstuck
    obtain ⟨ch, more, rfl⟩ := hstuck
    obtain ⟨lead, tail, hencode, -⟩ := exists_front_encode ch
    have hless : more.length < length := by
      rw [← hlength, hencode, List.length_append, List.length_cons]
      omega
    obtain ⟨cs, rest, rfl, hstuck⟩ := ih _ hless more rfl
    exact ⟨ch :: cs, rest, by rw [List.flatMap_cons, List.append_assoc], hstuck⟩

/-- An encoding says which character it is of and where it ends. -/
theorem encode_append_inj (h : utf8EncodeChar ch ++ rest = utf8EncodeChar ch' ++ rest') :
    ch = ch' ∧ rest = rest' := by
  obtain ⟨lead, tail, hencode, hfront⟩ := exists_front_encode ch
  rw [hencode, List.cons_append] at h
  have hchar := front_eq_char_iff.2 h
  rw [hfront] at hchar
  cases hchar
  exact ⟨rfl, rfl⟩

/-- Where no character stands no more of the bytes is text. -/
theorem length_le_of_stuck (hstuck : Stuck rest)
    (h : cs.flatMap utf8EncodeChar ++ rest = cs'.flatMap utf8EncodeChar ++ rest') :
    (cs'.flatMap utf8EncodeChar).length ≤ (cs.flatMap utf8EncodeChar).length := by
  induction cs' generalizing cs with
  | nil => exact Nat.zero_le _
  | cons ch' cs' ih =>
    rw [List.flatMap_cons, List.append_assoc] at h
    cases cs with
    | nil => exact (hstuck _ _ h).elim
    | cons ch cs =>
      rw [List.flatMap_cons, List.append_assoc] at h
      obtain ⟨rfl, hmore⟩ := encode_append_inj h
      have := ih hmore
      simp only [List.flatMap_cons, List.length_append]
      omega

/-- How many of the bytes, from the first on, can be the encoding of a text. -/
def textLengths (bs : List UInt8) : Set Nat := {k | k ≤ bs.length ∧ ∃ s, bs.take k = encode s}

theorem isGreatest_textLengths (cs : List Char) (hstuck : Stuck rest) :
    IsGreatest (textLengths (cs.flatMap utf8EncodeChar ++ rest)) (cs.flatMap utf8EncodeChar).length := by
  constructor
  · exact ⟨by simp, .ofList cs, by simp [encode]⟩
  · rintro k ⟨hk, s, hs⟩
    have hsplit := List.take_append_drop k (cs.flatMap utf8EncodeChar ++ rest)
    rw [hs] at hsplit
    have := length_le_of_stuck hstuck hsplit.symm
    rw [← encode, ← hs, List.length_take] at this
    omega

/-- What the bytes are where reading them ends with a fault. -/
inductive Fails (bs : List UInt8) : Utf8Fault → Prop where
  /-- The text ends in the middle of a character. -/
  | incomplete {index : Nat} (longest : IsGreatest (textLengths bs) index) (more : index < bs.length)
      (opens : Opens (bs.drop index)) : Fails bs (.incomplete index)
  /-- What comes after the text does not go on to a character; `length` of its bytes are named. -/
  | invalid {index length : Nat} (longest : IsGreatest (textLengths bs) index) (more : index < bs.length)
      (refused : ¬ Opens (bs.drop index))
      (named : IsGreatest {k | k = 1 ∨ Opens ((bs.drop index).take k)} length) :
      Fails bs (.invalid index length)

/-- Bytes have at most one fault. -/
theorem Fails.unique (h : Fails bs f) (h' : Fails bs f') : f = f' := by
  cases h with
  | incomplete longest _ opens =>
    cases h' with
    | incomplete longest' => rw [longest.unique longest']
    | invalid longest' _ refused =>
      rw [longest.unique longest'] at opens
      exact (refused opens).elim
  | invalid longest _ refused named =>
    cases h' with
    | incomplete longest' _ opens =>
      rw [longest.unique longest'] at refused
      exact (refused opens).elim
    | invalid longest' _ _ named' =>
      obtain rfl := longest.unique longest'
      rw [named.unique named']

/-- Bytes that have a fault are not the encoding of a text. -/
theorem Fails.ne_encode (h : Fails bs f) (s : String) : bs ≠ encode s := by
  intro hs
  have hwhole : bs.length ∈ textLengths bs := ⟨Nat.le_refl _, s, by rw [List.take_length, hs]⟩
  cases h with
  | incomplete longest more | invalid longest more =>
    have := longest.2 hwhole
    omega

theorem decode_encode (s : String) : decode (encode s) = .ok s := by
  have h := decodeFrom_append s.toList [] 0 []
  rw [List.append_nil, List.append_nil, decodeFrom, List.reverse_reverse] at h
  simp [decode, encode, h, Except.map]

/-- What is read from bytes is their text, or their fault. -/
theorem decode_cases (bs : List UInt8) :
    (∃ s, bs = encode s ∧ decode bs = .ok s) ∨ ∃ f, Fails bs f ∧ decode bs = .error f := by
  obtain ⟨cs, rest, rfl, hstuck⟩ := exists_split bs
  have hlongest := isGreatest_textLengths cs hstuck
  cases rest with
  | nil =>
    have hencode : cs.flatMap utf8EncodeChar ++ [] = encode (.ofList cs) := by simp [encode]
    exact .inl ⟨.ofList cs, hencode, by rw [hencode, decode_encode]⟩
  | cons lead bs =>
    refine .inr ?_
    rw [decode, decodeFrom_append]
    have hmore : (cs.flatMap utf8EncodeChar).length <
        (cs.flatMap utf8EncodeChar ++ lead :: bs).length := by simp
    have hdrop : (cs.flatMap utf8EncodeChar ++ lead :: bs).drop
        (cs.flatMap utf8EncodeChar).length = lead :: bs := List.drop_left
    rw [Nat.zero_add]
    cases hfront : front lead bs with
    | char ch more => exact (hstuck ch more (front_eq_char_iff.1 hfront)).elim
    | incomplete =>
      refine ⟨_, .incomplete hlongest hmore ?_, by rw [decodeFrom_of_incomplete hfront]; rfl⟩
      rw [hdrop]
      exact front_eq_incomplete_iff.1 hfront
    | invalid n =>
      refine ⟨.invalid _ n, .invalid hlongest hmore ?_ ?_,
        by rw [decodeFrom_of_invalid hfront]; rfl⟩
      · rw [hdrop, ← front_eq_incomplete_iff, hfront]
        exact Front.noConfusion
      · rw [hdrop]
        exact isGreatest_of_front hfront

/-- Text is read from bytes exactly if they are its encoding. -/
theorem decode_eq_ok_iff : decode bs = .ok s ↔ bs = encode s := by
  refine ⟨fun h => ?_, fun h => h ▸ decode_encode s⟩
  obtain ⟨s', rfl, hok⟩ | ⟨f, -, herror⟩ := decode_cases bs
  · cases hok.symm.trans h
    rfl
  · cases herror.symm.trans h

/-- Reading bytes fails exactly with their fault. -/
theorem decode_eq_error_iff : decode bs = .error f ↔ Fails bs f := by
  obtain ⟨s, hs, hok⟩ | ⟨f', hfails, herror⟩ := decode_cases bs
  · refine ⟨fun h => ?_, fun h => (h.ne_encode s hs).elim⟩
    cases hok.symm.trans h
  · rw [herror]
    exact ⟨fun h => by cases h; exact hfails, fun h => by rw [h.unique hfails]⟩

end GuestHarness.Text.Utf8
