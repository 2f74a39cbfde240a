import GuestHarness.Wasm.Operand

/-! Linear memories. Bytes are kept up to the last one that was written; all beyond it are zero, so a
large memory costs nothing until it is used. -/
namespace GuestHarness.Wasm

structure Memory where
  pages : Nat
  maximum : Option Nat
  shared : Bool
  /-- The bytes from address zero on, as far as they were written. -/
  data : ByteArray
  deriving Inhabited

/-- `n` zeros. -/
def zeroBytes (n : Nat) : ByteArray :=
  if n = 0 then .empty
  else
    let half := zeroBytes (n / 2)
    if n % 2 = 0 then half ++ half else (half ++ half).push 0
termination_by n

/-- A bound that may be missing admits `n`. -/
def atMost (bound : Option Nat) (n : Nat) : Bool :=
  match bound with
  | none => true
  | some b => n ≤ b

namespace Memory

def new (type : MemoryType) : Memory :=
  ⟨type.limits.minimum, type.limits.maximum, type.shared, .empty⟩

variable (m : Memory)

/-- The memory can be given where a module declares an import of this type. -/
def fits (type : MemoryType) : Bool :=
  m.shared = type.shared && type.limits.minimum ≤ m.pages &&
    match type.limits.maximum, m.maximum with
    | none, _ => true
    | some _, none => false
    | some bound, some top => top ≤ bound

/-- The size in bytes. -/
def size : Nat := m.pages * pageSize

def byte (a : Nat) : UInt8 := if h : a < m.data.size then m.data[a] else 0

/-- A range of bytes lies within the memory. -/
def contains (a n : Nat) : Bool := a + n ≤ m.size

/-- `n` bytes from `a` on. -/
def slice (a n : Nat) : List UInt8 := (List.range' a n).map m.byte

/-- `n` bytes from `a` on, in one piece. -/
def extract (a n : Nat) : ByteArray :=
  let bs := m.data.extract a (a + n)
  bs ++ zeroBytes (n - bs.size)

/-- The bytes up to address `n` are kept. -/
def reserve (n : Nat) : Memory :=
  if n ≤ m.data.size then m
  else { m with data := m.data ++ zeroBytes (n - m.data.size) }

/-- Puts bytes at `a`; the caller has checked the range. -/
def write (a : Nat) (bs : ByteArray) : Memory :=
  let m := m.reserve (a + bs.size)
  { m with data := bs.copySlice 0 m.data a bs.size false }

/-- Sets `n` bytes from `a` on. -/
def setBytes (v : UInt8) (data : ByteArray) (a : Nat) : Nat → ByteArray
  | 0 => data
  | n + 1 => setBytes v (data.set! a v) (a + 1) n

def fill (a n : Nat) (v : UInt8) : Memory :=
  let m := m.reserve (a + n)
  { m with data := setBytes v m.data a n }

/-- `n` bytes from `a` on as a number, the low byte first. -/
def word (a : Nat) : Nat → UInt64
  | 0 => 0
  | n + 1 => word (a + 1) n <<< 8 ||| (m.byte a).toUInt64

/-- Puts the low `n` bytes of a number into kept bytes. -/
def putWord (data : ByteArray) (a : Nat) (w : UInt64) : Nat → ByteArray
  | 0 => data
  | n + 1 => putWord (data.set! a w.toUInt8) (a + 1) (w >>> 8) n

def setWord (a n : Nat) (w : UInt64) : Memory :=
  let m := m.reserve (a + n)
  { m with data := putWord m.data a w n }

/-- The size that `delta` further pages give, if every bound admits it. -/
def grownPages? (cap : Option Nat) (delta : Nat) : Option Nat :=
  if delta = 0 then some m.pages
  else if m.pages + delta ≤ maxPages && atMost m.maximum (m.pages + delta)
      && atMost cap (m.pages + delta) then some (m.pages + delta)
  else none

/-- Grows the memory, or leaves it alone if a bound forbids it. -/
def grow? (cap : Option Nat) (delta : Nat) : Option Memory :=
  (m.grownPages? cap delta).map fun pages => { m with pages }

theorem pages_le_of_grow? {m m' : Memory} {cap : Option Nat} {delta : Nat}
    (h : m.grow? cap delta = some m') : m.pages ≤ m'.pages := by
  simp only [grow?, grownPages?] at h
  split at h
  · simp at h; simp [← h]
  · split at h
    · simp at h; simp [← h]
    · simp at h

end Memory

namespace LoadOp

/-- A word that was loaded, as an operand. -/
def operand (op : LoadOp) (w : UInt64) : Operand :=
  let w := if op.signed then
      match op.bytes with
      | 1 => w.toInt64.toInt8.toInt64.toUInt64
      | 2 => w.toInt64.toInt16.toInt64.toUInt64
      | _ => w.toInt64.toInt32.toInt64.toUInt64
    else w
  match op.type with
  | .i32 => .i32 w.toUInt32
  | .i64 => .i64 w
  | .f32 => .f32 w.toUInt32
  | .f64 => .f64 w

end LoadOp

/-- The bits of a number that a store takes. -/
def Operand.word? : Operand → Option UInt64
  | .i32 b | .f32 b => some b.toUInt64
  | .i64 b | .f64 b => some b
  | .vector _ _ | .ref _ => none

end GuestHarness.Wasm
