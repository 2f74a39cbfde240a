import GuestHarness.Import.Check
import GuestHarness.Descriptor
import GuestHarness.Wasm.Instantiation

/-! Making a table's offers real: each memory entry becomes a memory with an address, and loggers
become functions that a guest can call. -/
namespace GuestHarness
open Wasm (Operand Memory)

/-- Why nothing was loaded. -/
inductive LoadError where
  | fault (fault : Fault)
  /-- The host asked for a memory that cannot be, which ends the program. -/
  | impossibleMemory (pages : MemoryPages)
  deriving Repr, DecidableEq

/-- What stands under a key of a linkage. -/
inductive Definition where
  | memory (address : Nat)
  | logger (logger : Logger) (sink : Sink)
  deriving Repr, DecidableEq

/-- What was made of a table. A memory's address is its place among the memories. -/
structure Linkage where
  memories : Array Memory := #[]
  /-- What guests are given, by the keys of the entries. -/
  definitions : List ((String × String) × Definition) := []
  /-- The addresses of the memories by joined names. -/
  registry : Registry := {}

namespace Linkage

variable (l : Linkage)

def definition? (module name : String) : Option Definition := l.definitions.lookup (module, name)

def address? (module name : String) : Option Nat :=
  match l.definition? module name with
  | some (.memory a) => some a
  | _ => none

/-- Puts a definition under a key that has none. -/
def define (module name : String) (d : Definition) : Except LoadError Linkage :=
  match l.definition? module name with
  | none => .ok { l with definitions := ((module, name), d) :: l.definitions }
  | some _ =>
    .error (.fault (.hostFunction module name s!"import of `{module}::{name}` defined twice"))

/-- Makes a memory, and lets it be found by its key and by its joined name. -/
def addMemory (module name : String) (pages : MemoryPages) : Except LoadError Linkage :=
  (l.define module name (.memory l.memories.size)).map fun defined =>
    { defined with
      memories := l.memories.push (.new pages.type)
      registry := l.registry.insert (qualifiedName module name) l.memories.size }

end Linkage

namespace ImportEntry

variable (e : ImportEntry)

def linked : Event where
  level := .trace
  target := Target.imports
  message := "Linked host import"
  fields := [("import", qualifiedName e.module e.name)]

/-- The linkage with the entry made real. A cap bounds the size that a memory may have. -/
def addTo (cap : Option Nat) (l : Linkage) : Except LoadError Linkage :=
  match e.offer with
  | .logger logger sink => l.define e.module e.name (.logger logger sink)
  | .memory pages =>
    if !pages.isPossible then .error (.impossibleMemory pages)
    else if Wasm.atMost cap pages.limits.minimum then l.addMemory e.module e.name pages
    else .error (.fault (.hostFunction e.module e.name
      s!"memory minimum size of {pages.limits.minimum} pages exceeds memory limits"))

/-- Makes the entry real, and says so. -/
def link (cap : Option Nat) (l : Linkage) : Account LoadError Linkage :=
  match e.addTo cap l with
  | .error err => .fail err
  | .ok l => ⟨[.logged e.linked], .ok l⟩

end ImportEntry

/-- Makes all entries of the table real, in order. -/
def ImportTable.link (t : ImportTable) (cap : Option Nat) : Account LoadError Linkage :=
  t.entries.foldlM (fun l e => e.link cap l) {}

namespace Logger

/-- Finds the memory that a string logger reads, as of this call. -/
def source (registry : Registry) (exported? : String → Option Nat) (caller : Wasm.Caller) :
    MemorySource → Except Fault Nat
  | .imported module name =>
    let key := qualifiedName module name
    match registry.find? key with
    | some a => .ok a
    | none => .error (.memoryUnavailable key)
  | .exported name =>
    let found := match caller with
      | .guest => exported? name
      | .host => none
    match found with
    | some a => .ok a
    | none => .error (.memoryUnavailable name)

theorem source_imported_eq_ok_iff {registry : Registry} {exported? : String → Option Nat}
    {caller : Wasm.Caller} {module name : String} {a : Nat} :
    source registry exported? caller (.imported module name) = .ok a ↔
      registry.find? (qualifiedName module name) = some a := by
  cases h : registry.find? (qualifiedName module name) <;> simp [source, h]

/-- The text at a range of the memory that a string logger reads. -/
def read (registry : Registry) (exported? : String → Option Nat) (caller : Wasm.Caller)
    (memory : MemorySource) (d : Descriptor) (memories : Array Memory) : Except Fault String := do
  let a ← source registry exported? caller memory
  (memories[a]?.getD default).readText d

def event (level : Level) (message : String) (fields : List (String × String)) : Occurrence :=
  .logged ⟨level, Target.loggers, message, fields⟩

/-- What happens when a logger is called: it emits once, or fails and emits nothing. -/
def call (registry : Registry) (exported? : String → Option Nat) (l : Logger) (sink : Sink)
    (caller : Wasm.Caller) (args : List Operand) (memories : Array Memory) :
    List Occurrence × Except Fault Unit :=
  match l, args with
  | .integer .w32, [.i32 b] =>
    let v := b.toInt32.toInt
    ([event .trace "console.log (i32)" [("value", Value.integerText v)],
      .emitted sink (.integer (Int64.ofInt v))], .ok ())
  | .integer .w64, [.i64 b] =>
    let v := b.toInt64
    ([event .trace "console.log (i64)" [("value", Value.integerText v.toInt)],
      .emitted sink (.integer v)], .ok ())
  | .string memory, [.i32 offset, .i32 length] =>
    let place := [("offset", toString offset), ("length", toString length)]
    match read registry exported? caller memory ⟨offset, length⟩ memories with
    | .ok text =>
      ([event .trace "console.log (string)" place, .emitted sink (.text text)], .ok ())
    | .error e =>
      ([event .warn "console.log rejected descriptor" (place ++ [("error", e.message)])], .error e)
  | _, _ => ([], .ok ())

end Logger
end GuestHarness
