import GuestHarness.Fault
import GuestHarness.Text.Utf8
import GuestHarness.Wasm.Memory

/-! Ranges of bytes in guest memory. A range is read only if all of it lies within the memory, and as
text only if it is UTF-8 throughout. -/
namespace GuestHarness

structure Descriptor where
  offset : UInt32
  length : UInt32
  deriving Repr, DecidableEq

namespace Descriptor

variable (d : Descriptor)

/-- The first address beyond the range, added up in 64 bits. -/
def stop : Nat := (d.offset.toUInt64 + d.length.toUInt64).toNat

def isEmpty : Bool := d.length == 0

/-- Two numbers of 32 bits have a sum of 64. -/
theorem stop_eq : d.stop = d.offset.toNat + d.length.toNat := by
  have hoffset := d.offset.toNat_lt
  have hlength := d.length.toNat_lt
  rw [stop, UInt64.toNat_add, UInt32.toNat_toUInt64, UInt32.toNat_toUInt64]
  exact Nat.mod_eq_of_lt (by omega)

end Descriptor

namespace Wasm.Memory

variable (m : Memory) (d : Descriptor)

/-- The bytes from one address up to another, if all of these addresses are there. -/
def between? (start stop : Nat) : Option (List UInt8) :=
  if start ≤ stop ∧ stop ≤ m.size then some (m.slice start (stop - start)) else none

/-- The bytes of a range. That it lies within the memory is looked at twice: before the bytes are asked
for, and by asking. -/
def readBytes : Except Fault (List UInt8) :=
  if m.size < d.stop then .error (.memoryBounds d.offset d.length m.size)
  else
    match m.between? d.offset.toNat d.stop with
    | some bytes => .ok bytes
    | none => .error (.memoryBounds d.offset d.length m.size)

/-- The text that a range holds in UTF-8. -/
def readText : Except Fault String :=
  match m.readBytes d with
  | .error e => .error e
  | .ok bytes =>
    match Text.Utf8.decode bytes with
    | .ok text => .ok text
    | .error e => .error (.decode d.offset d.length e.message)

/-- A range that ends within the memory is there when it is asked for. -/
theorem between?_of_stop_le (h : d.stop ≤ m.size) :
    m.between? d.offset.toNat d.stop = some (m.slice d.offset.toNat d.length.toNat) := by
  have hstop := d.stop_eq
  rw [between?, if_pos ⟨by omega, h⟩, hstop, Nat.add_sub_cancel_left]

theorem readBytes_eq : m.readBytes d =
    if d.stop ≤ m.size then .ok (m.slice d.offset.toNat d.length.toNat)
    else .error (.memoryBounds d.offset d.length m.size) := by
  unfold readBytes
  by_cases h : d.stop ≤ m.size
  · rw [if_neg (Nat.not_lt.2 h), between?_of_stop_le m d h, if_pos h]
  · rw [if_pos (Nat.lt_of_not_le h), if_neg h]

theorem readBytes_eq_ok_iff {bs : List UInt8} :
    m.readBytes d = .ok bs ↔
      d.stop ≤ m.size ∧ bs = m.slice d.offset.toNat d.length.toNat := by
  by_cases h : d.stop ≤ m.size <;> simp [readBytes_eq, h, eq_comm]

section

variable {m d}

theorem readText_of_error {e : Fault} (h : m.readBytes d = .error e) : m.readText d = .error e := by
  rw [readText, h]

theorem readText_of_text {bs : List UInt8} {text : String} (h : m.readBytes d = .ok bs)
    (ht : Text.Utf8.decode bs = .ok text) : m.readText d = .ok text := by
  rw [readText, h]
  dsimp only
  rw [ht]

theorem readText_of_fault {bs : List UInt8} {f : Text.Utf8Fault} (h : m.readBytes d = .ok bs)
    (hf : Text.Utf8.decode bs = .error f) :
    m.readText d = .error (.decode d.offset d.length f.message) := by
  rw [readText, h]
  dsimp only
  rw [hf]

end

@[simp] theorem length_slice (a n : Nat) : (m.slice a n).length = n := by
  simp [slice]

end Wasm.Memory
end GuestHarness
