/-! Events of the log: a level, the part of the program that speaks, a message, and fields. -/
namespace GuestHarness

/-- Levels from the most urgent to the most detailed. -/
inductive Level where
  | error
  | warn
  | info
  | debug
  | trace
  deriving Repr, DecidableEq, Inhabited

namespace Level

/-- The detail of a level; a filter admits all levels up to one. -/
def detail : Level → Nat
  | error => 1
  | warn => 2
  | info => 3
  | debug => 4
  | trace => 5

def name : Level → String
  | error => "ERROR"
  | warn => "WARN"
  | info => "INFO"
  | debug => "DEBUG"
  | trace => "TRACE"

end Level

structure Event where
  level : Level
  /-- Who speaks, as a path of names; filters select by its beginning. -/
  target : String
  message : String
  /-- Names with the texts of their values. -/
  fields : List (String × String)
  deriving Repr, DecidableEq, Inhabited

/-! The parts of the program that speak in the log. -/
namespace Target

def sink : String := "wasmhost_core::sink"
def loggers : String := "wasmhost_executor::wasm::host"
def imports : String := "wasmhost_executor::wasm::imports"
def instance_ : String := "wasmhost_executor::wasm::instance"
def loading : String := "wasmhost_executor::wasm::runtime"
def lookup : String := "wasmhost::commands"
def run : String := "wasmhost::commands::run"
def inspect : String := "wasmhost::commands::inspect"
def validate : String := "wasmhost::commands::validate"

end Target
end GuestHarness
