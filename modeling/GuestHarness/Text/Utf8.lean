/-! UTF-8 read strictly: no overlong forms, no surrogates, nothing above U+10FFFF.
A fault names how many bytes before it are well formed. -/
namespace GuestHarness.Text

/-- Why bytes are not UTF-8. -/
inductive Utf8Fault where
  /-- The `length` bytes at `index` start no character. -/
  | invalid (index length : Nat)
  /-- The bytes from `index` on are a proper start of a character. -/
  | incomplete (index : Nat)
  deriving Repr, DecidableEq

namespace Utf8Fault

def index : Utf8Fault → Nat
  | invalid i _ => i
  | incomplete i => i

def message : Utf8Fault → String
  | invalid i n => s!"invalid utf-8 sequence of {n} bytes from index {i}"
  | incomplete i => s!"incomplete utf-8 byte sequence from index {i}"

end Utf8Fault

namespace Utf8

/-- A byte that may follow the first byte of a character. -/
def isContinuation (b : UInt8) : Bool := 0x80 ≤ b && b ≤ 0xBF

/-- How many bytes follow `lead`, and the range of the first of them. The narrowed ranges shut
out overlong forms, surrogates and values above U+10FFFF. -/
def tailOf (lead : UInt8) : Option (Nat × UInt8 × UInt8) :=
  if lead < 0x80 then some (0, 0, 0)
  else if lead < 0xC2 then none
  else if lead < 0xE0 then some (1, 0x80, 0xBF)
  else if lead = 0xE0 then some (2, 0xA0, 0xBF)
  else if lead = 0xED then some (2, 0x80, 0x9F)
  else if lead < 0xF0 then some (2, 0x80, 0xBF)
  else if lead = 0xF0 then some (3, 0x90, 0xBF)
  else if lead < 0xF4 then some (3, 0x80, 0xBF)
  else if lead = 0xF4 then some (3, 0x80, 0x8F)
  else none

/-- The six low bits of a continuation byte. -/
def low (b : UInt8) : Nat := b.toNat % 64

/-- What the front of a list of bytes is. -/
inductive Front where
  | char (c : Char) (rest : List UInt8)
  | invalid (length : Nat)
  | incomplete
  deriving Repr

/-- The character at the front of `lead :: bs`. -/
def front (lead : UInt8) (bs : List UInt8) : Front :=
  match tailOf lead with
  | none => .invalid 1
  | some (0, _, _) => .char (Char.ofNat lead.toNat) bs
  | some (n + 1, lo, hi) =>
    match bs with
    | [] => .incomplete
    | b :: bs =>
      if !(lo ≤ b && b ≤ hi) then .invalid 1
      else match n with
      | 0 => .char (Char.ofNat ((lead.toNat % 32) * 64 + low b)) bs
      | n + 1 =>
        match bs with
        | [] => .incomplete
        | c :: bs =>
          if !isContinuation c then .invalid 2
          else match n with
          | 0 => .char (Char.ofNat (((lead.toNat % 16) * 64 + low b) * 64 + low c)) bs
          | _ + 1 =>
            match bs with
            | [] => .incomplete
            | d :: bs =>
              if !isContinuation d then .invalid 3
              else .char (Char.ofNat
                ((((lead.toNat % 8) * 64 + low b) * 64 + low c) * 64 + low d)) bs

/-- A character takes at least its first byte. -/
theorem front_length {lead : UInt8} {bs : List UInt8} {c : Char} {rest : List UInt8}
    (h : front lead bs = .char c rest) : rest.length ≤ bs.length := by
  unfold front at h
  repeat' split at h
  all_goals first
    | contradiction
    | (injection h with _ h; subst h; simp only [List.length_cons, Nat.le_refl, Nat.le_add_right]; done)
    | (injection h with _ h; subst h; simp only [List.length_cons]; omega)

/-- Reads character after character; `index` bytes have been read and give `done`, reversed. -/
def decodeFrom (done : List Char) (index : Nat) (bs : List UInt8) : Except Utf8Fault (List Char) :=
  match bs with
  | [] => .ok done.reverse
  | lead :: bs =>
    match _h : front lead bs with
    | .char c rest => decodeFrom (c :: done) (index + (bs.length + 1 - rest.length)) rest
    | .invalid n => .error (.invalid index n)
    | .incomplete => .error (.incomplete index)
termination_by bs.length
decreasing_by
  have := front_length _h
  simp only [List.length_cons]
  omega

def decode (bs : List UInt8) : Except Utf8Fault String :=
  (decodeFrom [] 0 bs).map String.ofList

def encode (s : String) : List UInt8 := s.toList.flatMap String.utf8EncodeChar

end Utf8
end GuestHarness.Text
