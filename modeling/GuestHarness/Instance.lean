import GuestHarness.Import.Link

/-! Instances: modules made ready against a table of imports, and calls of what they export. A call is
checked against the function's signature first; what is refused there leaves the instance as it was. -/
namespace GuestHarness
open Wasm (Operand Memory Program Store FuncType)

/-- The instance owns all that belongs to it: two of them have nothing in common. -/
structure Instance where
  name : String
  module : Wasm.Module
  /-- The memories of the host by their joined names. -/
  registry : Registry
  program : Program (Array Occurrence) Fault
  /-- The host's part of the store is the account of the running call, and empty between calls. -/
  store : Store (Array Occurrence)

/-- Stands for what the engine itself has to say about a failure. -/
def engineText : String := "*"

namespace Instance

variable (i : Instance)

/-- Names with the kinds of what is exported, in order. -/
def exports : List (String × ItemKind) := i.module.exportKinds

/-- The index and the type of a function, by the name it is exported under. -/
def function? (exported : String) : Option (Nat × FuncType) := do
  let index ← i.module.export? .func exported
  let f ← i.program.functions[index]?
  return (index, f.type)

def hasFunction (exported : String) : Bool := (i.function? exported).isSome

/-- The index of a function and its signature. -/
def resolve (exported : String) : Except Fault (Nat × Signature) :=
  match i.function? exported with
  | none => .error (.notFound exported)
  | some (index, type) =>
    match type.signature? with
    | some s => .ok (index, s)
    | none => .error (.arityOrType exported "numeric parameters and results" functionTypeText)

def signature (exported : String) : Except Fault Signature :=
  (i.resolve exported).map Prod.snd

/-- The address of a memory by the name it is exported under; memories shared between threads do not
count. -/
def exportedMemory? (m : Wasm.Module) (addresses : Array Nat) (name : String) : Option Nat := do
  let index ← m.export? .memory name
  let type ← m.memoryTypes[index]?
  if type.shared then none else addresses[index]?

/-- A memory by the name it is exported under, or else by the joined name of the host's import. -/
def memory? (name : String) : Option Memory := do
  let address ← exportedMemory? i.module i.program.memories name <|> i.registry.find? name
  i.store.memories[address]?

/-- The bytes of a range of the memory under this name. -/
def readMemory (name : String) (d : Descriptor) : Except Fault (List UInt8) :=
  match i.memory? name with
  | none => .error (.memoryUnavailable name)
  | some m => m.readBytes d

/-- What is left of the fuel, if it is metered. -/
def fuel : Option Nat := i.program.fuel.map (· - i.store.spent)

def debugText : String := s!"Instance \x7b name: {Text.quote i.name}, .. \x7d"

/-- Runs a function; the account of the run, and the instance afterwards. -/
def run (exported : String) (index : Nat) (args : List Value) :
    Account Fault (List Operand) × Instance :=
  let ⟨name, module, registry, program, store⟩ := i
  let (ending, store) := Wasm.Machine.invoke program store index (args.map .ofValue)
  let noticed := store.host.toList
  let outcome := match ending with
    | .returned results => .ok results
    | .raised e => .error e
    | .trapped kind => .error (.trap exported kind engineText)
    | .stuck | .unfinished => .error (.trap exported .other engineText)
  (⟨noticed, outcome⟩, ⟨name, module, registry, program, { store with host := #[] }⟩)

/-- The results as values, if all are numbers. -/
def values (exported : String) (s : Signature) (results : List Operand) :
    Except Fault (List Value) :=
  match results.mapM Operand.toValue? with
  | some vs => .ok vs
  | none => .error (.arityOrType exported s.text "non-numeric result")

def event (level : Level) (message : String) (fields : List (String × String)) : Event :=
  ⟨level, Target.instance_, message, ("module", i.name) :: fields⟩

/-- Calls a function whose signature is known. -/
def call (exported : String) (index : Nat) (s : Signature) (args : List Value) :
    Account Fault (List Value) × Instance :=
  match s.checkArgs exported args with
  | .error e => (.fail e, i)
  | .ok () =>
    let begun := i.event .debug "Invoking export"
      [("export", exported), ("args", toString args.length)]
    let failed (e : Fault) := i.event .warn "Export failed"
      [("export", exported), ("error", e.message)]
    let (ran, i) := i.run exported index args
    (do
      Account.log begun
      let results ← ran.logFailure failed
      .ofExcept (values exported s results), i)

/-- Calls a function and gives all of its results. -/
def invokeMulti (exported : String) (args : List Value) : Account Fault (List Value) × Instance :=
  match i.resolve exported with
  | .error e => (.fail e, i)
  | .ok (index, s) => i.call exported index s args

/-- Calls a function that has at most one result. -/
def invoke (exported : String) (args : List Value) : Account Fault (Option Value) × Instance :=
  match i.resolve exported with
  | .error e => (.fail e, i)
  | .ok (index, s) =>
    if 1 < s.results.length then
      (.fail (.arityOrType exported "at most one result" s.text), i)
    else
      let (called, i) := i.call exported index s args
      (List.getLast? <$> called, i)

/-- The index of a function, if it has the type that a caller has in mind. The parameters are compared
first. -/
def typedAs (exported : String) (wanted : FuncType) : Except Fault Nat :=
  match i.function? exported with
  | none => .error (.notFound exported)
  | some (index, type) =>
    if type.params ≠ wanted.params then
      .error (.arityOrType exported functionTypeText "type mismatch with parameters")
    else if type.results ≠ wanted.results then
      .error (.arityOrType exported functionTypeText "type mismatch with results")
    else .ok index

/-- The index of a function, if it has the type of a signature. -/
def typed (exported : String) (expected : Signature) : Except Fault Nat :=
  i.typedAs exported (.ofSignature expected)

/-- Calls a function at a type that the caller has in mind, with arguments of that type. -/
def invokeTyped (exported : String) (expected : Signature) (args : List Value) :
    Account Fault (List Value) × Instance :=
  match i.typed exported expected with
  | .error e => (.fail e, i)
  | .ok index =>
    let begun := i.event .debug "Invoking typed export" [("export", exported)]
    let (ran, i) := i.run exported index args
    (do
      Account.log begun
      let results ← ran
      .ofExcept (values exported expected results), i)

end Instance

namespace Linkage

variable (l : Linkage)

/-- The engine's rule for imports: a function has the very type, and a memory is shared or not as the
type says, is not smaller than asked for, and cannot grow further. -/
def fits (d : Definition) (declared : Wasm.ExternType) : Bool :=
  match d, declared with
  | .memory a, .memory type =>
    match l.memories[a]? with
    | some m => m.fits type
    | none => false
  | .logger logger _, .func type => type = FuncType.ofSignature logger.signature
  | _, _ => false

variable (m : Wasm.Module)

/-- The import finds something under its key that fits its type. -/
def provides (i : Wasm.Import) : Bool :=
  match m.importType? i, l.definition? i.module i.name with
  | some declared, some d => l.fits d declared
  | _, _ => false

/-- The addresses of the memories that the module imports, in order. -/
def importedMemories : List Nat :=
  m.imports.filterMap fun i => match i.type with
    | .memory _ => l.address? i.module i.name
    | _ => none

/-- The functions that the module imports, in order. -/
def importedLoggers : List (Option (Logger × Sink)) :=
  m.imports.filterMap fun i => match i.type with
    | .func _ =>
      match l.definition? i.module i.name with
      | some (.logger logger sink) => some (some (logger, sink))
      | _ => some none
    | _ => none

/-- Calls a function that the module imports, at its place among these. -/
def callLogger (caller : Wasm.Caller) (index : Nat) (args : List Operand) (memories : Array Memory)
    (occurred : Array Occurrence) : Array Occurrence × Except Fault (List Operand) :=
  match (l.importedLoggers m)[index]?.join with
  | none => (occurred, .ok [])
  | some (logger, sink) =>
    let addresses := (l.importedMemories m ++ List.range' l.memories.size m.memories.length).toArray
    let (more, answer) := logger.call l.registry (Instance.exportedMemory? m addresses) sink
      caller args memories
    (occurred ++ more, answer.map fun () => [])

/-- The program of a module that was linked. -/
def program (fuel cap : Option Nat) : Program (Array Occurrence) Fault :=
  m.program (l.importedMemories m) l.memories.size (l.callLogger m) fuel cap

end Linkage

namespace Linkage

variable (l : Linkage) (m : Wasm.Module) (name : String) (fuel cap : Option Nat)

/-- Makes a module ready whose imports are all provided. Whatever fails here is a failure of
instantiation, unless a logger raised it while the start function ran. -/
def start : Account Fault Instance :=
  let program := l.program m fuel cap
  let (store, made) := Wasm.Machine.setup program m (m.initialStore l.memories #[])
  let noticed := store.host.toList
  match made with
  | .ok () => ⟨noticed, .ok ⟨name, m, l.registry, program, { store with host := #[] }⟩⟩
  | .error (.raised e) => ⟨noticed, .error e⟩
  | .error _ => ⟨noticed, .error (.instantiation name engineText)⟩

/-- Makes a module an instance, unless an import is unknown or does not fit. -/
def instantiate : Account Fault Instance :=
  if m.imports.all (l.provides m) then l.start m name fuel cap
  else .fail (.instantiation name engineText)

end Linkage
end GuestHarness
