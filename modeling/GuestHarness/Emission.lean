import GuestHarness.Value.Basic

/-! What guests emit through logging imports. -/
namespace GuestHarness

/-- An integer, or a text that was read from guest memory. -/
inductive Emission where
  | integer (v : Int64)
  | text (s : String)
  deriving Repr, DecidableEq, Inhabited

namespace Emission

def display : Emission → String
  | integer v => Value.integerText v.toInt
  | text s => s

def integer? : Emission → Option Int64
  | integer v => some v
  | text _ => none

def text? : Emission → Option String
  | text s => some s
  | integer _ => none

end Emission
end GuestHarness
