import GuestHarness.Json.Basic
import GuestHarness.Decimal.Literal

/-! Strict reading of JSON: four kinds of blanks, no control characters in strings, no leading
zeros, nothing after the document. -/
namespace GuestHarness.Json
open Decimal (isDigit)

def isSpace (c : Char) : Bool := c == ' ' || c == '\n' || c == '\t' || c == '\r'

def skipSpace (cs : List Char) : List Char := cs.dropWhile isSpace

theorem skipSpace_length (cs : List Char) : (skipSpace cs).length ≤ cs.length :=
  (List.dropWhile_suffix _).length_le

def hexValue? (c : Char) : Option Nat :=
  if isDigit c then some (Decimal.digitValue c)
  else if 'a' ≤ c && c ≤ 'f' then some (c.toNat - 'a'.toNat + 10)
  else if 'A' ≤ c && c ≤ 'F' then some (c.toNat - 'A'.toNat + 10)
  else none

/-- The 16-bit unit that four hexadecimal digits denote. -/
def unit? (a b c d : Char) : Option Nat := do
  return (((← hexValue? a) * 16 + (← hexValue? b)) * 16 + (← hexValue? c)) * 16 + (← hexValue? d)

def isHighSurrogate (u : Nat) : Bool := 0xD800 ≤ u && u < 0xDC00
def isLowSurrogate (u : Nat) : Bool := 0xDC00 ≤ u && u < 0xE000

def ofSurrogates (high low : Nat) : Char :=
  Char.ofNat (0x10000 + (high - 0xD800) * 0x400 + (low - 0xDC00))

/-- The escapes of two characters. -/
def shortEscape? : Char → Option Char
  | '"' => some '"'
  | '\\' => some '\\'
  | '/' => some '/'
  | 'b' => some '\x08'
  | 'f' => some '\x0c'
  | 'n' => some '\n'
  | 'r' => some '\r'
  | 't' => some '\t'
  | _ => none

/-- A string while it is read: its characters, reversed, unless a surrogate stood alone, and a
high surrogate that waits for its other half. -/
structure Scan where
  chars : Option (List Char) := some []
  pending : Option Nat := none

namespace Scan

/-- No high surrogate waits any more: one that did stood alone. -/
def settle (s : Scan) : Scan :=
  if s.pending.isSome then ⟨none, none⟩ else s

def push (s : Scan) (c : Char) : Scan :=
  let s := s.settle
  ⟨s.chars.map (c :: ·), none⟩

def pushUnit (s : Scan) (u : Nat) : Scan :=
  if isLowSurrogate u then
    match s.pending with
    | some high => ⟨s.chars.map (ofSurrogates high u :: ·), none⟩
    | none => ⟨none, none⟩
  else if isHighSurrogate u then ⟨s.settle.chars, some u⟩
  else s.push (Char.ofNat u)

def finish (s : Scan) : JsonText := s.settle.chars.map fun cs => String.ofList cs.reverse

end Scan

/-- The rest of a string after its opening quote, and what follows the closing one. -/
def readString (s : Scan) : List Char → Option (JsonText × List Char)
  | [] => none
  | '"' :: cs => some (s.finish, cs)
  | '\\' :: 'u' :: a :: b :: c :: d :: cs =>
    match unit? a b c d with
    | some u => readString (s.pushUnit u) cs
    | none => none
  | '\\' :: e :: cs =>
    match shortEscape? e with
    | some c => readString (s.push c) cs
    | none => none
  | c :: cs => if c.toNat < 0x20 then none else readString (s.push c) cs

/-- The front of `cs` up to `rest`, one of its ends. -/
def consumed (cs rest : List Char) : List Char := cs.take (cs.length - rest.length)

/-- After the digits of a numeral: nothing, or a point with at least one digit. -/
def skipFraction? : List Char → Option (List Char)
  | '.' :: cs => if cs.takeWhile isDigit = [] then none else some (cs.dropWhile isDigit)
  | cs => some cs

/-- Nothing, or an exponent with at least one digit. -/
def skipExponent? : List Char → Option (List Char)
  | c :: cs =>
    if c = 'e' ∨ c = 'E' then
      let (_, ds) := Decimal.splitSign cs
      if ds.takeWhile isDigit = [] then none else some (ds.dropWhile isDigit)
    else some (c :: cs)
  | [] => some []

/-- A whole number without superfluous zeros. -/
def skipWhole? : List Char → Option (List Char)
  | '0' :: cs => if (cs.head?.map isDigit).getD false then none else some cs
  | cs => if cs.takeWhile isDigit = [] then none else some (cs.dropWhile isDigit)

def readNumeral (cs : List Char) : Option (String × List Char) := do
  let body := match cs with
    | '-' :: rest => rest
    | rest => rest
  let rest ← skipExponent? (← skipFraction? (← skipWhole? body))
  return (String.ofList (consumed cs rest), rest)

mutual

/-- A value at the front of `cs`, which starts with no blank. The depth is bounded by the first
argument, and no document is deeper than it is long. -/
def readValue : Nat → List Char → Option (Json × List Char)
  | 0, _ => none
  | fuel + 1, cs =>
    match cs with
    | 'n' :: 'u' :: 'l' :: 'l' :: cs => some (.null, cs)
    | 't' :: 'r' :: 'u' :: 'e' :: cs => some (.bool true, cs)
    | 'f' :: 'a' :: 'l' :: 's' :: 'e' :: cs => some (.bool false, cs)
    | '"' :: cs => (readString {} cs).map fun (s, rest) => (.string s, rest)
    | '[' :: cs =>
      match skipSpace cs with
      | ']' :: cs => some (.array [], cs)
      | cs => (readItems fuel cs).map fun (items, rest) => (.array items, rest)
    | '\x7b' :: cs =>
      match skipSpace cs with
      | '\x7d' :: cs => some (.object [], cs)
      | cs => (readMembers fuel cs).map fun (members, rest) => (.object members, rest)
    | cs => (readNumeral cs).map fun (n, rest) => (.number n, rest)

/-- At least one value, commas between them, and the closing bracket. -/
def readItems : Nat → List Char → Option (List Json × List Char)
  | 0, _ => none
  | fuel + 1, cs =>
    match readValue fuel cs with
    | none => none
    | some (item, rest) =>
      match skipSpace rest with
      | ',' :: rest => (readItems fuel (skipSpace rest)).map fun (items, rest) => (item :: items, rest)
      | ']' :: rest => some ([item], rest)
      | _ => none

/-- At least one member, commas between them, and the closing brace. -/
def readMembers : Nat → List Char → Option (List (JsonText × Json) × List Char)
  | 0, _ => none
  | fuel + 1, cs =>
    match cs with
    | '"' :: cs =>
      match readString {} cs with
      | none => none
      | some (key, rest) =>
        match skipSpace rest with
        | ':' :: rest =>
          match readValue fuel (skipSpace rest) with
          | none => none
          | some (value, rest) =>
            match skipSpace rest with
            | ',' :: rest =>
              (readMembers fuel (skipSpace rest)).map fun (ms, rest) => ((key, value) :: ms, rest)
            | '\x7d' :: rest => some ([(key, value)], rest)
            | _ => none
        | _ => none
    | _ => none

end

/-- The whole text is one document, with blanks around it. -/
def parse? (s : String) : Option Json :=
  let cs := skipSpace s.toList
  match readValue (2 * cs.length + 1) cs with
  | some (v, rest) => if skipSpace rest = [] then some v else none
  | none => none

end GuestHarness.Json
