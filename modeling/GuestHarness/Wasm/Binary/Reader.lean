import GuestHarness.Text.Utf8

/-! Reading the binary format from the front of a list of bytes. A reader fails on malformed input
and otherwise leaves what follows. -/
namespace GuestHarness.Wasm.Binary

abbrev Reader := StateT (List UInt8) Option

def byte : Reader UInt8 := do
  match ← get with
  | [] => failure
  | b :: bs => set bs; return b

def atEnd : Reader Bool := return (← get).isEmpty

/-- The next byte, which stays where it is. -/
def peek : Reader UInt8 := do
  match ← get with
  | [] => failure
  | b :: _ => return b

def expect (b : UInt8) : Reader Unit := do
  if (← byte) ≠ b then failure

def bytes (n : Nat) : Reader (List UInt8) := do
  let bs ← get
  if bs.length < n then failure
  set (bs.drop n)
  return bs.take n

/-- Runs a reader on the next `n` bytes, which it has to use up. -/
def within (n : Nat) (r : Reader α) : Reader α := do
  match r.run (← bytes n) with
  | some (a, []) => return a
  | _ => failure

/-- An unsigned number of at most `width` bits in groups of seven, the low group first. The last
group a width admits may set no bit beyond it. -/
def unsigned (width : Nat) : Nat → Reader Nat
  | 0 => failure
  | groups + 1 => do
    let b ← byte
    let n := b.toNat % 128
    if width < 7 ∧ 1 <<< width ≤ n then failure
    else if b.toNat < 128 then return n
    else if width ≤ 7 then failure
    else return n + 128 * (← unsigned (width - 7) groups)

/-- A signed number; the bits of the last group beyond the width repeat the sign. -/
def signed (width : Nat) : Nat → Reader Int
  | 0 => failure
  | groups + 1 => do
    let b ← byte
    let n := b.toNat % 128
    if width < 7 ∧ 1 <<< (width - 1) ≤ n ∧ n < 128 - 1 <<< (width - 1) then failure
    else if b.toNat < 128 then return if n < 64 then n else (n : Int) - 128
    else if width ≤ 7 then failure
    else return n + 128 * (← signed (width - 7) groups)

def u32 : Reader Nat := unsigned 32 5
def s32 : Reader Int := signed 32 5
def s33 : Reader Int := signed 33 5
def s64 : Reader Int := signed 64 10

/-- `n` bytes as a number, the low byte first. -/
def fixed (n : Nat) : Reader Nat := do
  return (← bytes n).foldr (fun b acc => b.toNat + 256 * acc) 0

def repeated (r : Reader α) : Nat → Reader (List α)
  | 0 => return []
  | n + 1 => do
    let a ← r
    return a :: (← repeated r n)

/-- A count and as many items. Every item takes a byte, so a larger count than there are bytes is
refused at once. -/
def listOf (r : Reader α) : Reader (List α) := do
  let n ← u32
  if (← get).length < n then failure
  repeated r n

/-- Names are texts in UTF-8 of at most 100000 bytes. -/
def name : Reader String := do
  let n ← u32
  if 100000 < n then failure
  match Text.Utf8.decode (← bytes n) with
  | .ok s => return s
  | .error _ => failure

end GuestHarness.Wasm.Binary
