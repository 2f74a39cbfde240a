import GuestHarness.Value.Basic
import GuestHarness.Fault

/-! Signatures of functions on numbers, and the two checks of arguments against them: of values by
their types, and of texts by reading each at the type of its place. -/
namespace GuestHarness

/-- The types of the parameters and of the results, in order. -/
structure Signature where
  params : List ValueType
  results : List ValueType
  deriving Repr, DecidableEq, Inhabited

namespace Signature

/-- Names of types in parentheses. -/
def typesText (ts : List ValueType) : String :=
  "(" ++ String.intercalate ", " (ts.map ValueType.name) ++ ")"

/-- The arrow and what follows it are left out if there is no result. -/
def text (s : Signature) : String :=
  if s.results = [] then typesText s.params
  else typesText s.params ++ " -> " ++ typesText s.results

/-- Values are accepted if their types are the parameters' types. -/
def checkArgs (s : Signature) (exported : String) (args : List Value) : Except Fault Unit :=
  if args.map Value.type = s.params then .ok ()
  else .error (.arityOrType exported (typesText s.params) (typesText (args.map Value.type)))

/-- Reads each text at the type of its place; the first that fails decides. -/
def parseEach (s : Signature) (exported : String) :
    List ValueType → List String → Except Fault (List Value)
  | t :: ts, text :: texts =>
    match Value.parse t text with
    | .error e => .error (.arityOrType exported (typesText s.params) e.message)
    | .ok v => (s.parseEach exported ts texts).map (v :: ·)
  | _, _ => .ok []

/-- Reads texts as arguments, after their number has been compared. -/
def parseArgs (s : Signature) (exported : String) (texts : List String) :
    Except Fault (List Value) :=
  if texts.length = s.params.length then s.parseEach exported s.params texts
  else .error (.arityOrType exported (typesText s.params) s!"{texts.length} argument(s)")

theorem checkArgs_eq_ok_iff {s : Signature} {exported : String} {args : List Value} :
    s.checkArgs exported args = .ok () ↔ args.map Value.type = s.params := by
  unfold checkArgs
  split <;> simp_all

end Signature
end GuestHarness
