import GuestHarness.Json.Basic

/-! JSON as text, on one line or indented by two blanks. Control characters are escaped, all others
stand for themselves. -/
namespace GuestHarness.Json

/-- A control character without a short escape, as four hexadecimal digits. -/
def unitEscape (c : Char) : List Char :=
  let ds := Nat.toDigits 16 c.toNat
  '\\' :: 'u' :: List.replicate (4 - ds.length) '0' ++ ds

def escapeChar (c : Char) : List Char :=
  match c with
  | '"' => ['\\', '"']
  | '\\' => ['\\', '\\']
  | '\x08' => ['\\', 'b']
  | '\x0c' => ['\\', 'f']
  | '\n' => ['\\', 'n']
  | '\r' => ['\\', 'r']
  | '\t' => ['\\', 't']
  | c => if c.toNat < 0x20 then unitEscape c else [c]

def writeText (s : String) : List Char := '"' :: s.toList.flatMap escapeChar ++ ['"']

/-- A string without text has no written form; it never comes up when a document is built. -/
def writeJsonText (s : JsonText) : List Char := writeText (s.getD "")

mutual

/-- On one line, without blanks. -/
def writeCompact : Json → List Char
  | .null => "null".toList
  | .bool true => "true".toList
  | .bool false => "false".toList
  | .number n => n.toList
  | .string s => writeJsonText s
  | .array items => '[' :: writeItems items ++ [']']
  | .object members => '\x7b' :: writeMembers members ++ ['\x7d']

def writeItems : List Json → List Char
  | [] => []
  | [v] => writeCompact v
  | v :: vs => writeCompact v ++ ',' :: writeItems vs

def writeMembers : List (JsonText × Json) → List Char
  | [] => []
  | [(k, v)] => writeJsonText k ++ ':' :: writeCompact v
  | (k, v) :: ms => writeJsonText k ++ ':' :: writeCompact v ++ ',' :: writeMembers ms

end

def newline (depth : Nat) : List Char := '\n' :: List.replicate (2 * depth) ' '

mutual

/-- Every item and member on a line of its own; what is empty stays closed. -/
def writePretty (depth : Nat) : Json → List Char
  | .array (v :: vs) =>
    '[' :: newline (depth + 1) ++ writePretty (depth + 1) v ++ writePrettyItems (depth + 1) vs
      ++ newline depth ++ [']']
  | .object ((k, v) :: ms) =>
    '\x7b' :: newline (depth + 1) ++ writeJsonText k ++ ':' :: ' ' :: writePretty (depth + 1) v
      ++ writePrettyMembers (depth + 1) ms ++ newline depth ++ ['\x7d']
  | v => writeCompact v

def writePrettyItems (depth : Nat) : List Json → List Char
  | [] => []
  | v :: vs => ',' :: newline depth ++ writePretty depth v ++ writePrettyItems depth vs

def writePrettyMembers (depth : Nat) : List (JsonText × Json) → List Char
  | [] => []
  | (k, v) :: ms =>
    ',' :: newline depth ++ writeJsonText k ++ ':' :: ' ' :: writePretty depth v
      ++ writePrettyMembers depth ms

end

def compact (v : Json) : String := String.ofList (writeCompact v)

def pretty (v : Json) : String := String.ofList (writePretty 0 v)

end GuestHarness.Json
