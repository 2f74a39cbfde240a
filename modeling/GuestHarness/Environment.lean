/-! Environments: texts under names. -/
namespace GuestHarness

/-- The text of a variable, if it is set. -/
abbrev Environment := String → Option String

/-- The entries of a list; of two with one name the first counts. -/
def Environment.ofList (entries : List (String × String)) : Environment :=
  fun name => entries.lookup name

/-- A text with the letters from A to Z in lower case. -/
def lowerCased (s : String) : String := String.ofList (s.toList.map Char.toLower)

end GuestHarness
