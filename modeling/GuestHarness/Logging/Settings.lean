import GuestHarness.Environment
import GuestHarness.Text.Blank

/-! Settings of the log, put together from what is set: by the environment first, by explicit choices
after that, and for the rest by defaults. Whatever cannot be used counts as not set. -/
namespace GuestHarness.Logging

inductive LogFormat where
  | json
  | pretty
  | compact
  deriving Repr, DecidableEq, Inhabited

namespace LogFormat

def name : LogFormat → String
  | json => "Json"
  | pretty => "Pretty"
  | compact => "Compact"

/-- Blanks around the word and the case of its letters do not count; the error shows the word
without them. -/
def parse (text : String) : Except String LogFormat :=
  let word := lowerCased (Text.trim text)
  if word = "json" then .ok json
  else if word = "pretty" then .ok pretty
  else if word = "compact" then .ok compact
  else .error s!"unknown log format `{word}`"

end LogFormat

/-- A flag that is switched on or off by one of several words; a blank switches it off. -/
def flag? (text : String) : Option Bool :=
  let word := lowerCased (Text.trim text)
  if ["1", "true", "yes", "on"].contains word then some true
  else if ["0", "false", "no", "off", ""].contains word then some false
  else none

structure Settings where
  format : LogFormat := .compact
  /-- Directives that select events. -/
  filter : String := "info"
  /-- Whether events carry the place in the program they come from. -/
  location : Bool := false
  target : Bool := true
  threadNames : Bool := false
  threadIds : Bool := false
  deriving Repr, DecidableEq, Inhabited

/-- Settings while they are put together. -/
structure Draft where
  format : Option LogFormat := none
  filter : Option String := none
  location : Option Bool := none
  target : Option Bool := none
  threadNames : Option Bool := none
  threadIds : Option Bool := none
  deriving Repr, DecidableEq, Inhabited

namespace Draft

/-- A filter that says something. -/
def usableFilter (text : Option String) : Option String :=
  text.filter fun s => !(Text.trimChars s.toList).isEmpty

/-- What the environment sets. A level that is set hides the general filter, even if it is blank. -/
def ofEnvironment (env : Environment) : Draft where
  format := (env "WASMHOST_LOG_FORMAT").bind fun text => (LogFormat.parse text).toOption
  filter := usableFilter ((env "WASMHOST_LOG_LEVEL").or (env "RUST_LOG"))
  location := (env "WASMHOST_LOG_LOCATION").bind flag?
  target := (env "WASMHOST_LOG_TARGET").bind flag?
  threadNames := (env "WASMHOST_LOG_THREAD_NAMES").bind flag?
  threadIds := (env "WASMHOST_LOG_THREAD_IDS").bind flag?

def ofSettings (s : Settings) : Draft :=
  ⟨some s.format, some s.filter, some s.location, some s.target, some s.threadNames,
    some s.threadIds⟩

variable (d : Draft)

/-- The filter for a degree of verbosity. -/
def verbosityFilter : Nat → String
  | 0 => "warn"
  | 1 => "info"
  | 2 => "debug"
  | _ => "trace"

/-- Asks for more detail; the degree zero leaves a filter that is set alone. -/
def verbosity (degree : Nat) : Draft :=
  if degree = 0 && d.filter.isSome then d
  else { d with filter := some (verbosityFilter degree) }

/-- What is not set takes its default. -/
def build : Settings :=
  let s : Settings := {}
  { format := d.format.getD s.format
    filter := d.filter.getD s.filter
    location := d.location.getD s.location
    target := d.target.getD s.target
    threadNames := d.threadNames.getD s.threadNames
    threadIds := d.threadIds.getD s.threadIds }

@[simp] theorem build_ofSettings (s : Settings) : (ofSettings s).build = s := rfl

end Draft
end GuestHarness.Logging
