/-! JSON documents. A numeral stays as it was written, since its meaning depends on the reader, and
an object keeps all members in order, repeated keys included. -/
namespace GuestHarness

/-- A string of a document; `none` if an escape in it is half of a surrogate pair. Such a string
may be skipped, but it has no text. -/
abbrev JsonText := Option String

inductive Json where
  | null
  | bool (b : Bool)
  | number (numeral : String)
  | string (s : JsonText)
  | array (items : List Json)
  | object (members : List (JsonText × Json))
  deriving Inhabited

namespace Json

def text (s : String) : Json := .string (some s)

/-- An object whose keys are plain texts. -/
def record (members : List (String × Json)) : Json :=
  .object (members.map fun (k, v) => (some k, v))

def text? : Json → Option String
  | .string s => s
  | _ => none

end Json
end GuestHarness
