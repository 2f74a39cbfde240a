import GuestHarness.Import.Offer

/-! Tables of offers. A table is an ordered map: its keys, pairs of a module and a name, are distinct,
and they stand in the order in which they were last registered. -/
namespace GuestHarness

structure ImportEntry where
  module : String
  name : String
  offer : Offer
  deriving Repr, DecidableEq

/-- The entry stands at this key. -/
def ImportEntry.isAt (e : ImportEntry) (module name : String) : Bool :=
  e.module = module && e.name = name

structure ImportTable where
  entries : List ImportEntry := []
  deriving Repr, DecidableEq, Inhabited

/-- The module and the name that logging imports have. -/
def consoleModule : String := "console"
def logFunction : String := "log"

/-- The module and the name that a host's memory has. -/
def memoryModule : String := "js"
def memoryName : String := "mem"

/-- The name under which modules export their own memory. -/
def defaultMemoryExport : String := "memory"

namespace ImportTable

def empty : ImportTable := {}

variable (t : ImportTable)

def find? (module name : String) : Option ImportEntry :=
  t.entries.find? fun e => e.isAt module name

def size : Nat := t.entries.length

def isEmpty : Bool := t.entries.isEmpty

/-- Registers an offer at the end; an earlier one at the same key goes. -/
def insert (module name : String) (offer : Offer) : ImportTable :=
  ⟨t.entries.filter (fun e => !e.isAt module name) ++ [⟨module, name, offer⟩]⟩

/-- Adds an integer logger in the usual place. -/
def withIntegerLogger (width : Wasm.Width) (sink : Sink) : ImportTable :=
  t.insert consoleModule logFunction (.logger (.integer width) sink)

/-- Gives every memory of the table this size. -/
def withMemoryPages (pages : MemoryPages) : ImportTable :=
  ⟨t.entries.map fun e =>
    match e.offer with
    | .memory _ => { e with offer := .memory pages }
    | .logger .. => e⟩

/-- An integer logger and nothing else. -/
def integerLogger (width : Wasm.Width) (sink : Sink) : ImportTable :=
  empty.withIntegerLogger width sink

/-- A memory of one page and a string logger that reads it. -/
def stringLogger (sink : Sink) : ImportTable :=
  (empty.insert memoryModule memoryName (.memory {})).insert consoleModule logFunction
    (.logger (.string (.imported memoryModule memoryName)) sink)

/-- A string logger that reads the memory which the module exports under a name. -/
def stringLoggerExported (sink : Sink) (exported : String) : ImportTable :=
  empty.insert consoleModule logFunction (.logger (.string (.exported exported)) sink)

theorem find?_insert_self (module name : String) (offer : Offer) :
    (t.insert module name offer).find? module name = some ⟨module, name, offer⟩ := by
  have : (t.entries.filter fun e => !e.isAt module name).find? (fun e => e.isAt module name)
      = none := by
    simp
  simp only [insert, find?, List.find?_append, this]
  simp [ImportEntry.isAt]

end ImportTable
end GuestHarness
