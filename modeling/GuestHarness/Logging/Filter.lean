import GuestHarness.Decimal.Literal
import GuestHarness.Event
import GuestHarness.Logging.Settings

/-! Which events the log shows. A filter is a list of directives between commas; of the directives
that bear on an event the one with the longest target decides. -/
namespace GuestHarness.Logging

/-- Admits events up to a detail, of all targets or of those that begin as `target`. -/
structure Directive where
  target : Option String
  detail : Nat
  deriving Repr, DecidableEq

/-- The detail that a word or a number from 0 to 5 asks for. -/
def detail? (word : String) : Option Nat :=
  let name := lowerCased word
  if name = "off" then some 0
  else if name = "error" then some 1
  else if name = "warn" then some 2
  else if name = "info" then some 3
  else if name = "debug" then some 4
  else if name = "trace" then some 5
  else Decimal.naturalBelow? 6 word.toList

namespace Directive

/-- A target may begin with this. -/
def isStart (c : Char) : Bool := c.isAlphanum || c == '-' || c == ':' || c == '_'

/-- A level, a target, or a target with a level; without a level all detail is asked for. -/
def parse? (text : String) : Option Directive :=
  let cs := Text.trimChars text.toList
  let target := cs.takeWhile (· ≠ '=')
  match detail? (String.ofList cs), cs.dropWhile (· ≠ '=') with
  | some n, _ => some ⟨none, n⟩
  | none, rest =>
    if !(target.head?.map isStart).getD false || target.contains '[' then none
    else match rest with
      | [] | ['='] => some ⟨some (String.ofList target), 5⟩
      | _ :: level => (detail? (String.ofList level)).map (⟨some (String.ofList target), ·⟩)

def bearsOn (d : Directive) (e : Event) : Bool :=
  match d.target with
  | none => true
  | some t => t.toList.isPrefixOf e.target.toList

/-- The length of the target; a directive for all targets is the least specific. -/
def rank (d : Directive) : Nat :=
  match d.target with
  | none => 0
  | some t => t.length + 1

end Directive

structure Filter where
  directives : List Directive
  deriving Repr, DecidableEq

namespace Filter

/-- Empty directives are skipped, and one that cannot be read spoils the filter. -/
def parse? (text : String) : Option Filter :=
  let parts := ((text.toList.splitOn ',').filter fun cs => !cs.isEmpty).map String.ofList
  (parts.mapM Directive.parse?).map Filter.mk

/-- A spoilt filter gives way to that for general information. -/
def ofText (text : String) : Filter := (parse? text).getD ⟨[⟨none, 3⟩]⟩

/-- The most specific of the directives that bear on an event; of equals the last. -/
def deciding? (f : Filter) (e : Event) : Option Directive :=
  (f.directives.filter (·.bearsOn e)).foldl
    (fun best d =>
      match best with
      | none => some d
      | some b => if b.rank ≤ d.rank then some d else some b) none

/-- Nothing is admitted that no directive bears on. -/
def admits (f : Filter) (e : Event) : Bool :=
  match f.deciding? e with
  | none => false
  | some d => e.level.detail ≤ d.detail

end Filter

/-- An event as the log shows it, with the names of all that is written beside its text. -/
structure LogLine where
  level : Level
  message : String
  keys : List String
  deriving Repr, DecidableEq

/-- The names in order, besides the time. -/
def Settings.line (s : Settings) (e : Event) : LogLine :=
  let keys := ["level", "message"] ++ e.fields.map Prod.fst
    ++ (if s.target then ["target"] else [])
    ++ (if s.location then ["filename", "line_number"] else [])
    ++ (if s.threadNames then ["threadName"] else [])
    ++ (if s.threadIds then ["threadId"] else [])
  ⟨e.level, e.message, keys.mergeSort⟩

/-- The lines for events, as far as the filter admits them. -/
def Settings.lines (s : Settings) (events : List Event) : List LogLine :=
  let filter := Filter.ofText s.filter
  (events.filter filter.admits).map s.line

end GuestHarness.Logging
