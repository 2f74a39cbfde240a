/-! Paths as texts of names between slashes. Empty names and single points count for nothing; two
points lead to the directory above. -/
namespace GuestHarness.Path

/-- What stands between the slashes. -/
def parts (path : String) : List String :=
  (path.toList.splitOn '/').map String.ofList

/-- The part adds nothing to a path. -/
def isIdle (part : String) : Bool := part = "" || part = "."

def isAbsolute (path : String) : Bool := path.toList.head? = some '/'

/-- The last name of a path, unless that leads upward. -/
def fileName? (path : String) : Option String :=
  match ((parts path).filter (!isIdle ·)).getLast? with
  | some ".." => none
  | name => name

/-- What follows the last point of a file's name; a point in front does not count. -/
def extension? (path : String) : Option String := do
  let name ← fileName? path
  let reversed := name.toList.reverse
  let after := reversed.takeWhile (· ≠ '.')
  match reversed.dropWhile (· ≠ '.') with
  | '.' :: _ :: _ => some (String.ofList after.reverse)
  | _ => none

/-- A path below a directory; an absolute path stays as it is. -/
def join (base path : String) : String :=
  if isAbsolute path || base = "" then path
  else if base.toList.getLast? = some '/' then base ++ path
  else base ++ "/" ++ path

/-- The path without idle parts at either end. -/
def trimmed (path : String) : String :=
  let front := (parts path).dropWhile isIdle
  String.intercalate "/" (front.reverse.dropWhile isIdle).reverse

end GuestHarness.Path
