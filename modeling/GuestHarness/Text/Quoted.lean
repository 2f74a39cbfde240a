import GuestHarness.Text.Printable

/-! Quoted text for diagnostics. Six characters have escapes of two letters, and what would not
show as a character of its own is written as its code point in hexadecimal. -/
namespace GuestHarness.Text

/-- The code point in braces, in lower-case hexadecimal without padding. -/
def codePointEscape (c : Char) : List Char :=
  ['\\', 'u', '\x7b'] ++ Nat.toDigits 16 c.toNat ++ ['\x7d']

def quoteChar (c : Char) : List Char :=
  match c with
  | '"' => ['\\', '"']
  | '\\' => ['\\', '\\']
  | '\n' => ['\\', 'n']
  | '\t' => ['\\', 't']
  | '\r' => ['\\', 'r']
  | '\x00' => ['\\', '0']
  | c => if isPrintable c && !extendsGrapheme c then [c] else codePointEscape c

def quote (s : String) : String :=
  String.ofList ('"' :: s.toList.flatMap quoteChar ++ ['"'])

end GuestHarness.Text
