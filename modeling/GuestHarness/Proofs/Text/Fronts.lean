import Mathlib.Order.Bounds.Defs
import Mathlib.Tactic.SplitIfs
import GuestHarness.Text.Utf8

/-! The front of a list of bytes, against the encodings of characters. A character is found exactly where
its encoding stands; bytes are incomplete exactly if they go on to one; and all others are invalid up to
the last byte that some encoding goes on from. -/
namespace GuestHarness.Text.Utf8
open String (utf8EncodeChar)

variable {a b c d lead lo hi : UInt8} {bs rest more : List UInt8} {ch : Char} {n v : Nat}

/-- The byte `b` may follow the lead byte `a` of a longer character. -/
structure Follows (a b : UInt8) : Prop where
  low : 0x80 ≤ b.toNat
  high : b.toNat ≤ 0xBF
  overlongThree : a.toNat = 0xE0 → 0xA0 ≤ b.toNat
  surrogate : a.toNat = 0xED → b.toNat ≤ 0x9F
  overlongFour : a.toNat = 0xF0 → 0x90 ≤ b.toNat
  above : a.toNat = 0xF4 → b.toNat ≤ 0x8F

theorem tailOf_one (h : a.toNat < 0x80) : tailOf a = some (0, 0, 0) := by
  rw [tailOf, if_pos (UInt8.lt_iff_toNat_lt.2 h)]

theorem tailOf_two (h : 0xC2 ≤ a.toNat) (h' : a.toNat < 0xE0) :
    tailOf a = some (1, 0x80, 0xBF) := by
  simp only [tailOf, UInt8.lt_iff_toNat_lt, UInt8.reduceToNat]
  rw [if_neg (by omega), if_neg (by omega), if_pos h']

theorem tailOf_three (h : 0xE0 ≤ a.toNat) (h' : a.toNat < 0xF0) :
    tailOf a = some (2, if a = 0xE0 then 0xA0 else 0x80, if a = 0xED then 0x9F else 0xBF) := by
  simp only [tailOf, UInt8.lt_iff_toNat_lt, UInt8.reduceToNat]
  rw [if_neg (by omega), if_neg (by omega), if_neg (by omega)]
  by_cases hleast : a = 0xE0
  · subst hleast
    rfl
  by_cases hsurrogate : a = 0xED
  · subst hsurrogate
    rfl
  rw [if_neg hleast, if_neg hsurrogate, if_pos h', if_neg hleast, if_neg hsurrogate]

theorem tailOf_four (h : 0xF0 ≤ a.toNat) (h' : a.toNat < 0xF5) :
    tailOf a = some (3, if a = 0xF0 then 0x90 else 0x80, if a = 0xF4 then 0x8F else 0xBF) := by
  have hthree : a ≠ 0xE0 ∧ a ≠ 0xED := by constructor <;> rintro rfl <;> simp at h
  simp only [tailOf, UInt8.lt_iff_toNat_lt, UInt8.reduceToNat]
  rw [if_neg (by omega), if_neg (by omega), if_neg (by omega), if_neg hthree.1, if_neg hthree.2,
    if_neg (by omega)]
  by_cases hleast : a = 0xF0
  · subst hleast
    rfl
  by_cases hgreatest : a = 0xF4
  · subst hgreatest
    rfl
  have hne : a.toNat ≠ 0xF4 := fun h => hgreatest (UInt8.toNat_inj.1 h)
  rw [if_neg hleast, if_pos (by omega), if_neg hleast, if_neg hgreatest]

theorem tailOf_none (h : 0x80 ≤ a.toNat ∧ a.toNat < 0xC2 ∨ 0xF5 ≤ a.toNat) : tailOf a = none := by
  simp only [tailOf, UInt8.lt_iff_toNat_lt, ← UInt8.toNat_inj, UInt8.reduceToNat]
  split_ifs <;> first | rfl | omega

/-- What the number of bytes after a lead byte says of it. -/
theorem tailOf_cases (h : tailOf a = some (n, lo, hi)) :
    n = 0 ∧ a.toNat < 0x80 ∨ n = 1 ∧ 0xC2 ≤ a.toNat ∧ a.toNat < 0xE0 ∨
      n = 2 ∧ 0xE0 ≤ a.toNat ∧ a.toNat < 0xF0 ∨ n = 3 ∧ 0xF0 ≤ a.toNat ∧ a.toNat < 0xF5 := by
  by_cases hnone : 0x80 ≤ a.toNat ∧ a.toNat < 0xC2 ∨ 0xF5 ≤ a.toNat
  · rw [tailOf_none hnone] at h
    cases h
  by_cases hone : a.toNat < 0x80
  · rw [tailOf_one hone] at h
    cases h
    omega
  by_cases htwo : a.toNat < 0xE0
  · rw [tailOf_two (by omega) htwo] at h
    cases h
    omega
  by_cases hthree : a.toNat < 0xF0
  · rw [tailOf_three (by omega) hthree] at h
    cases h
    omega
  · rw [tailOf_four (by omega) (by omega)] at h
    cases h
    omega

/-- The range of the second byte is what may follow the first. -/
theorem follows_iff (h : tailOf a = some (n + 1, lo, hi)) :
    (lo ≤ b && b ≤ hi) = true ↔ Follows a b := by
  have hbounds : (lo ≤ b && b ≤ hi) = true ↔ lo.toNat ≤ b.toNat ∧ b.toNat ≤ hi.toNat := by
    simp [UInt8.le_iff_toNat_le]
  rw [hbounds]
  obtain ⟨hn, -⟩ | ⟨-, hleast, hless⟩ | ⟨-, hleast, hless⟩ | ⟨-, hleast, hless⟩ := tailOf_cases h
  · cases hn
  · cases (tailOf_two hleast hless).symm.trans h
    simp only [UInt8.reduceToNat]
    exact ⟨fun hb => ⟨hb.1, hb.2, by omega, by omega, by omega, by omega⟩, fun hb => ⟨hb.low, hb.high⟩⟩
  · cases (tailOf_three hleast hless).symm.trans h
    simp only [← UInt8.toNat_inj, UInt8.reduceToNat]
    constructor
    · intro hb
      constructor <;> split_ifs at hb <;> simp only [UInt8.reduceToNat] at hb <;> omega
    · rintro ⟨hlow, hhigh, hoverlong, hsurrogate, -, -⟩
      constructor <;> split_ifs <;> simp only [UInt8.reduceToNat] <;> omega
  · cases (tailOf_four hleast hless).symm.trans h
    simp only [← UInt8.toNat_inj, UInt8.reduceToNat]
    constructor
    · intro hb
      constructor <;> split_ifs at hb <;> simp only [UInt8.reduceToNat] at hb <;> omega
    · rintro ⟨hlow, hhigh, -, -, hoverlong, habove⟩
      constructor <;> split_ifs <;> simp only [UInt8.reduceToNat] <;> omega

theorem isContinuation_iff : isContinuation b = true ↔ 0x80 ≤ b.toNat ∧ b.toNat ≤ 0xBF := by
  simp [isContinuation, UInt8.le_iff_toNat_le]

theorem byte_eq (h : v = b.toNat) : UInt8.ofNat v = b := by
  rw [h, UInt8.ofNat_toNat]

theorem exists_byte (h : v < 256) : ∃ b : UInt8, b.toNat = v :=
  ⟨.ofNat v, UInt8.toNat_ofNat_of_lt' h⟩

theorem val_ofNat (h : v.isValidChar) : (Char.ofNat v).val.toNat = v := by
  rw [Char.ofNat, dif_pos h]
  rfl

theorem encode_one (hv : v < 0x80) (ha : a.toNat = v) : utf8EncodeChar (Char.ofNat v) = [a] := by
  simp only [utf8EncodeChar, val_ofNat (v := v) (.inl (by omega))]
  rw [if_pos (by omega), byte_eq ha.symm]

theorem encode_two (hv : 0x80 ≤ v ∧ v < 0x800) (ha : a.toNat = v / 64 + 0xC0)
    (hb : b.toNat = v % 64 + 0x80) : utf8EncodeChar (Char.ofNat v) = [a, b] := by
  simp only [utf8EncodeChar, val_ofNat (v := v) (.inl (by omega))]
  rw [if_neg (by omega), if_pos (by omega), byte_eq (b := a) (by omega), byte_eq hb.symm]

theorem encode_three (hv : 0x800 ≤ v ∧ v < 0xD800 ∨ 0xE000 ≤ v ∧ v < 0x10000)
    (ha : a.toNat = v / 4096 + 0xE0) (hb : b.toNat = v / 64 % 64 + 0x80)
    (hc : c.toNat = v % 64 + 0x80) : utf8EncodeChar (Char.ofNat v) = [a, b, c] := by
  have hvalid : v.isValidChar := hv.imp (fun h => h.2) fun h => ⟨by omega, by omega⟩
  simp only [utf8EncodeChar, val_ofNat hvalid]
  rw [if_neg (by omega), if_neg (by omega), if_pos (by omega), byte_eq (b := a) (by omega),
    byte_eq hb.symm, byte_eq hc.symm]

theorem encode_four (hv : 0x10000 ≤ v ∧ v < 0x110000) (ha : a.toNat = v / 262144 + 0xF0)
    (hb : b.toNat = v / 4096 % 64 + 0x80) (hc : c.toNat = v / 64 % 64 + 0x80)
    (hd : d.toNat = v % 64 + 0x80) : utf8EncodeChar (Char.ofNat v) = [a, b, c, d] := by
  simp only [utf8EncodeChar, val_ofNat (v := v) (.inr ⟨by omega, by omega⟩)]
  rw [if_neg (by omega), if_neg (by omega), if_neg (by omega), byte_eq (b := a) (by omega),
    byte_eq hb.symm, byte_eq hc.symm, byte_eq hd.symm]

theorem front_one (h : tailOf a = some (0, lo, hi)) :
    front a rest = .char (Char.ofNat a.toNat) rest := by
  simp [front, h]

theorem front_two (h : tailOf a = some (1, lo, hi)) (hb : Follows a b) :
    front a (b :: rest) = .char (Char.ofNat (a.toNat % 32 * 64 + low b)) rest := by
  simp [front, h, (follows_iff h).2 hb]

theorem front_three (h : tailOf a = some (2, lo, hi)) (hb : Follows a b)
    (hc : isContinuation c = true) : front a (b :: c :: rest) =
      .char (Char.ofNat ((a.toNat % 16 * 64 + low b) * 64 + low c)) rest := by
  simp [front, h, (follows_iff h).2 hb, hc]

theorem front_four (h : tailOf a = some (3, lo, hi)) (hb : Follows a b)
    (hc : isContinuation c = true) (hd : isContinuation d = true) :
    front a (b :: c :: d :: rest) =
      .char (Char.ofNat (((a.toNat % 8 * 64 + low b) * 64 + low c) * 64 + low d)) rest := by
  simp [front, h, (follows_iff h).2 hb, hc, hd]

/-- A character that is found is there with the bytes of its encoding. -/
theorem eq_encode_append_of_front (h : front lead bs = .char ch rest) :
    lead :: bs = utf8EncodeChar ch ++ rest := by
  revert h
  fun_cases front lead bs
  case case2 lo hi htail =>
    intro h
    cases h
    have hlead := tailOf_cases htail
    rw [encode_one (a := lead) (by omega) rfl]
    rfl
  case case5 lo hi b bs hb htail =>
    intro h
    cases h
    have hlead := tailOf_cases htail
    obtain ⟨hlow, hhigh, -⟩ := (follows_iff htail).1 (by simpa using hb)
    rw [encode_two (a := lead) (b := b)]
    · rfl
    all_goals unfold low; omega
  case case8 lo hi b hb c bs hc htail =>
    intro h
    cases h
    have hlead := tailOf_cases htail
    obtain ⟨hlow, hhigh, hoverlong, hsurrogate, -⟩ := (follows_iff htail).1 (by simpa using hb)
    have hc := isContinuation_iff.1 (by simpa using hc)
    rw [encode_three (a := lead) (b := b) (c := c)]
    · rfl
    all_goals unfold low; omega
  case case11 lo hi b hb c hc n d bs hd htail =>
    intro h
    cases h
    have hlead := tailOf_cases htail
    obtain ⟨hlow, hhigh, -, -, hoverlong, habove⟩ := (follows_iff htail).1 (by simpa using hb)
    have hc := isContinuation_iff.1 (by simpa using hc)
    have hd := isContinuation_iff.1 (by simpa using hd)
    rw [encode_four (a := lead) (b := b) (c := c) (d := d)]
    · rfl
    all_goals unfold low; omega
  all_goals intro h; cases h

/-- Every character is found where its encoding stands. -/
theorem exists_front_encode (ch : Char) : ∃ lead tail, utf8EncodeChar ch = lead :: tail ∧
    ∀ rest, front lead (tail ++ rest) = .char ch rest := by
  obtain ⟨v, hv⟩ : ∃ v, ch.toNat = v := ⟨_, rfl⟩
  have hvalid : v < 0xD800 ∨ 0xDFFF < v ∧ v < 0x110000 := hv ▸ ch.valid
  have hch : Char.ofNat v = ch := hv ▸ ch.ofNat_toNat
  subst hch
  by_cases hone : v < 0x80
  · obtain ⟨a, ha⟩ := exists_byte (v := v) (by omega)
    refine ⟨a, [], encode_one hone ha, fun rest => ?_⟩
    rw [List.nil_append, front_one (tailOf_one (by omega)), ha]
  by_cases htwo : v < 0x800
  · obtain ⟨a, ha⟩ := exists_byte (v := v / 64 + 0xC0) (by omega)
    obtain ⟨b, hb⟩ := exists_byte (v := v % 64 + 0x80) (by omega)
    refine ⟨a, [b], encode_two (by omega) ha hb, fun rest => ?_⟩
    have hfollows : Follows a b := by constructor <;> omega
    rw [List.singleton_append, front_two (tailOf_two (by omega) (by omega)) hfollows]
    congr 2
    unfold low
    omega
  by_cases hthree : v < 0x10000
  · obtain ⟨a, ha⟩ := exists_byte (v := v / 4096 + 0xE0) (by omega)
    obtain ⟨b, hb⟩ := exists_byte (v := v / 64 % 64 + 0x80) (by omega)
    obtain ⟨c, hc⟩ := exists_byte (v := v % 64 + 0x80) (by omega)
    refine ⟨a, [b, c], encode_three (by omega) ha hb hc, fun rest => ?_⟩
    have hfollows : Follows a b := by constructor <;> omega
    rw [List.cons_append, List.singleton_append,
      front_three (tailOf_three (by omega) (by omega)) hfollows (isContinuation_iff.2 (by omega))]
    congr 2
    unfold low
    omega
  · obtain ⟨a, ha⟩ := exists_byte (v := v / 262144 + 0xF0) (by omega)
    obtain ⟨b, hb⟩ := exists_byte (v := v / 4096 % 64 + 0x80) (by omega)
    obtain ⟨c, hc⟩ := exists_byte (v := v / 64 % 64 + 0x80) (by omega)
    obtain ⟨d, hd⟩ := exists_byte (v := v % 64 + 0x80) (by omega)
    refine ⟨a, [b, c, d], encode_four (by omega) ha hb hc hd, fun rest => ?_⟩
    have hfollows : Follows a b := by constructor <;> omega
    rw [List.cons_append, List.cons_append, List.singleton_append,
      front_four (tailOf_four (by omega) (by omega)) hfollows (isContinuation_iff.2 (by omega))
        (isContinuation_iff.2 (by omega))]
    congr 2
    unfold low
    omega

/-- A character is at the front of some bytes exactly if they start with its encoding. -/
theorem front_eq_char_iff :
    front lead bs = .char ch rest ↔ lead :: bs = utf8EncodeChar ch ++ rest := by
  refine ⟨eq_encode_append_of_front, fun h => ?_⟩
  obtain ⟨lead', tail, hencode, hfront⟩ := exists_front_encode ch
  rw [hencode, List.cons_append, List.cons.injEq] at h
  rw [h.1, h.2, hfront]

/-- The bytes `bs` are the start of a character's encoding and not all of it. -/
def Opens (bs : List UInt8) : Prop := ∃ ch, bs <+: utf8EncodeChar ch ∧ bs ≠ utf8EncodeChar ch

theorem exists_follows (a : UInt8) : ∃ b, Follows a b := by
  obtain ⟨b, hb⟩ := exists_byte
    (v := if a.toNat = 0xE0 then 0xA0 else if a.toNat = 0xF0 then 0x90 else 0x80)
    (by split_ifs <;> omega)
  exact ⟨b, by constructor <;> split_ifs at hb <;> omega⟩

/-- Incomplete bytes can be completed. -/
theorem exists_completion (h : front lead bs = .incomplete) :
    ∃ more ch, more ≠ [] ∧ front lead (bs ++ more) = .char ch [] := by
  obtain ⟨d, hd⟩ : ∃ d, isContinuation d = true := ⟨0x80, rfl⟩
  revert h
  fun_cases front lead bs
  case case3 n lo hi htail =>
    intro _
    obtain ⟨b, hb⟩ := exists_follows lead
    obtain rfl | rfl | rfl : n = 0 ∨ n = 1 ∨ n = 2 := by have := tailOf_cases htail; omega
    · exact ⟨[b], _, by simp, front_two htail hb⟩
    · exact ⟨[b, d], _, by simp, front_three htail hb hd⟩
    · exact ⟨[b, d, d], _, by simp, front_four htail hb hd hd⟩
  case case6 lo hi b hb n htail =>
    intro _
    have hb := (follows_iff htail).1 (by simpa using hb)
    obtain rfl | rfl : n = 0 ∨ n = 1 := by have := tailOf_cases htail; omega
    · exact ⟨[d], _, by simp, front_three htail hb hd⟩
    · exact ⟨[d, d], _, by simp, front_four htail hb hd hd⟩
  case case9 lo hi b hb c hc n htail =>
    intro _
    have hb := (follows_iff htail).1 (by simpa using hb)
    obtain rfl : n = 0 := by have := tailOf_cases htail; omega
    exact ⟨[d], _, by simp, front_four htail hb (by simpa using hc) hd⟩
  all_goals intro h; cases h

/-- Bytes that start no character are found out by the last of those named and the one after it. -/
theorem front_take_append (h : front lead bs = .invalid n) (more : List UInt8) :
    front lead (bs.take n ++ more) = .invalid n := by
  revert h
  fun_cases front lead bs <;> intro h <;> cases h <;> simp_all [front]

/-- The bytes named, if more than one, are an incomplete character. -/
theorem front_take_of_invalid (h : front lead bs = .invalid n) :
    n = 1 ∨ 1 < n ∧ front lead (bs.take (n - 1)) = .incomplete := by
  revert h
  fun_cases front lead bs <;> intro h <;> cases h <;> simp_all [front]

/-- Bytes are incomplete exactly if they go on to a character's encoding. -/
theorem front_eq_incomplete_iff : front lead bs = .incomplete ↔ Opens (lead :: bs) := by
  constructor
  · intro h
    obtain ⟨more, ch, hmore, hfront⟩ := exists_completion h
    have hencode := eq_encode_append_of_front hfront
    rw [List.append_nil] at hencode
    refine ⟨ch, ⟨more, hencode⟩, fun heq => hmore ?_⟩
    rw [← heq] at hencode
    simpa using hencode
  · rintro ⟨ch, ⟨more, hmore⟩, hne⟩
    have hwhole : front lead (bs ++ more) = .char ch [] := by
      rw [front_eq_char_iff, List.append_nil, ← hmore, List.cons_append]
    cases hfront : front lead bs with
    | incomplete => rfl
    | char ch' rest =>
      have hlonger : front lead (bs ++ more) = .char ch' (rest ++ more) := by
        rw [front_eq_char_iff, ← List.append_assoc, ← front_eq_char_iff.1 hfront, List.cons_append]
      rw [hlonger] at hwhole
      injection hwhole with _ hrest
      obtain ⟨-, rfl⟩ := List.append_eq_nil_iff.1 hrest
      exact (hne (by simpa using hmore)).elim
    | invalid n =>
      have hlonger := front_take_append hfront (bs.drop n ++ more)
      rw [← List.append_assoc, List.take_append_drop, hwhole] at hlonger
      cases hlonger

/-- Bytes that start no character are named up to the last that some encoding goes on from, and the
first of them is always named. -/
theorem isGreatest_of_front (h : front lead bs = .invalid n) :
    IsGreatest {k | k = 1 ∨ Opens ((lead :: bs).take k)} n := by
  constructor
  · refine (front_take_of_invalid h).imp id fun ⟨hn, hfront⟩ => ?_
    rw [show n = n - 1 + 1 by omega, List.take_succ_cons]
    exact front_eq_incomplete_iff.1 hfront
  · rintro k (rfl | hopens)
    · rcases front_take_of_invalid h with rfl | ⟨hn, -⟩ <;> omega
    · refine Nat.le_of_not_lt fun hlt => ?_
      have hmore := List.take_append_drop n (bs.take (k - 1))
      rw [List.take_take, Nat.min_eq_left (by omega)] at hmore
      rw [show k = k - 1 + 1 by omega, List.take_succ_cons, ← front_eq_incomplete_iff, ← hmore,
        front_take_append h] at hopens
      cases hopens

end GuestHarness.Text.Utf8
