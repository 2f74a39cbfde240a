import GuestHarness.Descriptor
import GuestHarness.Proofs.Text.Decoding

/-! What a range of guest memory holds, as bytes and as text. Both are read from the memory as it is, and
nothing is put in the place of what is not there or is not text. -/
namespace GuestHarness.Wasm.Memory
open Text Text.Utf8

variable {m : Memory} {d : Descriptor} {bs : List UInt8} {e : Fault} {s : String}

theorem getElem?_slice (a n k : Nat) : (m.slice a n)[k]? =
    if k < n then some (m.byte (a + k)) else none := by
  rw [slice, List.getElem?_map]
  by_cases h : k < n
  · rw [if_pos h, List.getElem?_range' h, Option.map_some, Nat.one_mul]
  · rw [if_neg h, List.getElem?_eq_none (by rw [List.length_range']; omega), Option.map_none]

/-- Bytes are a slice of the memory exactly if they are what stands at its addresses. -/
theorem eq_slice_iff {a n : Nat} :
    bs = m.slice a n ↔ bs.length = n ∧ ∀ k < n, bs[k]? = some (m.byte (a + k)) := by
  constructor
  · rintro rfl
    exact ⟨length_slice m a n, fun k hk => by rw [getElem?_slice, if_pos hk]⟩
  · rintro ⟨hlength, hbytes⟩
    refine List.ext_getElem? fun k => ?_
    rw [getElem?_slice]
    split
    · next hk => exact hbytes k hk
    · next hk => exact List.getElem?_eq_none (by omega)

theorem readBytes_eq_error_iff : m.readBytes d = .error e ↔
    m.size < d.stop ∧ e = .memoryBounds d.offset d.length m.size := by
  by_cases h : d.stop ≤ m.size
  · simp [readBytes_eq, h]
  · simp [readBytes_eq, h, Nat.lt_of_not_le h, eq_comm]

theorem readText_eq_ok_iff : m.readText d = .ok s ↔ m.readBytes d = .ok (encode s) := by
  cases hbytes : m.readBytes d with
  | error e => simp [readText_of_error hbytes]
  | ok bs =>
    rw [Except.ok.injEq, ← decode_eq_ok_iff]
    cases hdecode : decode bs with
    | ok s' => rw [readText_of_text hbytes hdecode, Except.ok.injEq, Except.ok.injEq]
    | error f => simp [readText_of_fault hbytes hdecode]

theorem readText_eq_error_iff : m.readText d = .error e ↔ m.readBytes d = .error e ∨
    ∃ bs f, m.readBytes d = .ok bs ∧ Fails bs f ∧ e = .decode d.offset d.length f.message := by
  cases hbytes : m.readBytes d with
  | error e' => simp [readText_of_error hbytes]
  | ok bs =>
    simp only [← decode_eq_error_iff]
    cases hdecode : decode bs with
    | ok s => simp [readText_of_text hbytes hdecode, hdecode]
    | error f => simp [readText_of_fault hbytes hdecode, hdecode, eq_comm]

/-- The range `d` of the memory `m` is read strictly. -/
structure ReadStrictly (m : Memory) (d : Descriptor) : Prop where
  /-- The range ends where it would in unbounded numbers. -/
  stop : d.stop = d.offset.toNat + d.length.toNat
  /-- Bytes are read exactly if the whole range is there, and they are the range's. -/
  bytes : ∀ bs, m.readBytes d = .ok bs ↔ d.offset.toNat + d.length.toNat ≤ m.size ∧
    bs.length = d.length.toNat ∧ ∀ k < d.length.toNat, bs[k]? = some (m.byte (d.offset.toNat + k))
  /-- Otherwise the fault has the range and the memory's size. -/
  outside : ∀ e, m.readBytes d = .error e ↔ m.size < d.offset.toNat + d.length.toNat ∧
    e = .memoryBounds d.offset d.length m.size
  /-- It is the first look that finds a range to lie outside, never the second. -/
  looks : d.stop ≤ m.size → m.between? d.offset.toNat d.stop ≠ none
  /-- Text is read exactly if the bytes are there and are its encoding. -/
  text : ∀ s, m.readText d = .ok s ↔ m.readBytes d = .ok (encode s)
  /-- Otherwise the bytes are not there, or their fault is told with the range. -/
  refused : ∀ e, m.readText d = .error e ↔ m.readBytes d = .error e ∨
    ∃ bs f, m.readBytes d = .ok bs ∧ Fails bs f ∧ e = .decode d.offset d.length f.message

end GuestHarness.Wasm.Memory
