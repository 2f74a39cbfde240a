import GuestHarness.Wasm.Typing.Module
import GuestHarness.Text.Utf8

/-! Modules as bytes: the binary format, and of the text format the empty module, with or without a
name. Line comments begin with two semicolons; block comments nest. -/
namespace GuestHarness.Wasm

namespace ModuleText

/-- Text is read as parentheses and words. -/
inductive Token where
  | opening
  | closing
  | word (cs : List Char)
  deriving Repr, DecidableEq

def isSpace (c : Char) : Bool := c == ' ' || c == '\t' || c == '\n' || c == '\r'

/-- What may stand in a name besides letters and digits. -/
def isWordChar (c : Char) : Bool := c.isAlphanum || "!#$%&'*+-./:<=>?@\\^_`|~".toList.contains c

/-- The text after a block comment, of which `depth` levels are open. -/
def skipBlock : Nat → List Char → Option (List Char)
  | _, [] => none
  | depth, '(' :: ';' :: cs => skipBlock (depth + 1) cs
  | depth, ';' :: ')' :: cs => if depth ≤ 1 then some cs else skipBlock (depth - 1) cs
  | depth, _ :: cs => skipBlock depth cs

theorem length_of_skipBlock {depth : Nat} {cs rest : List Char} (h : skipBlock depth cs = some rest) :
    rest.length < cs.length := by
  fun_induction skipBlock depth cs with
  | case1 => simp at h
  | case2 _ _ ih =>
    have := ih h
    simp only [List.length_cons]
    omega
  | case3 =>
    rw [← Option.some.inj h]
    simp only [List.length_cons]
    omega
  | case4 _ _ _ ih =>
    have := ih h
    simp only [List.length_cons]
    omega
  | case5 _ _ _ _ _ ih =>
    have := ih h
    simp only [List.length_cons]
    omega

/-- The tokens of a text, or nothing if it has a character that begins none. -/
def tokens (cs : List Char) : Option (List Token) :=
  match cs with
  | [] => some []
  | ';' :: ';' :: cs => tokens (cs.dropWhile (· != '\n'))
  | '(' :: ';' :: cs =>
    match h : skipBlock 1 cs with
    | none => none
    | some rest =>
      have := length_of_skipBlock h
      tokens rest
  | '(' :: cs => (tokens cs).map (.opening :: ·)
  | ')' :: cs => (tokens cs).map (.closing :: ·)
  | c :: cs =>
    if isSpace c then tokens cs
    else if isWordChar c then
      (tokens (cs.dropWhile isWordChar)).map (.word (c :: cs.takeWhile isWordChar) :: ·)
    else none
termination_by cs.length
decreasing_by
  · have := (List.dropWhile_suffix (l := cs) (· != '\n')).length_le
    simp only [List.length_cons]
    omega
  · simp only [List.length_cons]
    omega
  · simp only [List.length_cons]
    omega
  · simp only [List.length_cons]
    omega
  · simp only [List.length_cons]
    omega
  · have := (List.dropWhile_suffix (l := cs) isWordChar).length_le
    simp only [List.length_cons]
    omega

/-- A name begins with a dollar sign and goes on. -/
def isIdentifier : List Char → Bool
  | '$' :: _ :: _ => true
  | _ => false

/-- The tokens of an empty module. -/
def isEmptyModule : List Token → Bool
  | [.opening, .word k, .closing] => k = "module".toList
  | [.opening, .word k, .word id, .closing] => k = "module".toList && isIdentifier id
  | _ => false

end ModuleText

/-- The bytes with which the binary format begins. -/
def magic : List UInt8 := [0x00, 0x61, 0x73, 0x6D]

/-- Reads a module from the binary format, or from text if the bytes do not begin as binary. -/
def Module.compile? (bytes : List UInt8) : Option Module :=
  if magic.isPrefixOf bytes then Module.read? bytes
  else
    match Text.Utf8.decode bytes with
    | .error _ => none
    | .ok text =>
      if ((ModuleText.tokens text.toList).map ModuleText.isEmptyModule).getD false then some {}
      else none

namespace Module

/-- What is read from the binary format begins as it does. -/
theorem isPrefixOf_of_read? {bytes : List UInt8} {m : Module} (h : read? bytes = some m) :
    magic.isPrefixOf bytes = true := by
  unfold read? Binary.decode? at h
  split at h
  · next hpreamble =>
    rw [List.isPrefixOf_iff_prefix, ← List.take_append_drop 8 bytes, hpreamble]
    exact ⟨_, List.append_assoc magic [1, 0, 0, 0] _ |>.symm⟩
  · cases h

theorem compile?_of_read? {bytes : List UInt8} {m : Module} (h : read? bytes = some m) :
    compile? bytes = some m := by
  rw [compile?, if_pos (isPrefixOf_of_read? h), h]

/-- Bytes that compile can be read as binary exactly if they begin as it does. -/
theorem read?_eq_compile?_iff {bytes : List UInt8} :
    read? bytes = compile? bytes ↔ magic.isPrefixOf bytes = true ∨ compile? bytes = none := by
  by_cases hmagic : magic.isPrefixOf bytes = true
  · rw [compile?, if_pos hmagic]
    exact iff_of_true rfl (.inl hmagic)
  · have hnone : read? bytes = none := by
      cases hread : read? bytes with
      | none => rfl
      | some m => exact (hmagic (isPrefixOf_of_read? hread)).elim
    rw [hnone]
    exact ⟨fun h => .inr h.symm, fun h => (h.resolve_left hmagic).symm⟩

end Module

end GuestHarness.Wasm
