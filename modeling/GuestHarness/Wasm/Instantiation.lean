import GuestHarness.Wasm.Machine

/-! Making a module ready to run: its own memories, tables and globals are set up, the active
segments are copied in order, and the start function is called. -/
namespace GuestHarness.Wasm

/-- The value of a constant expression, with what is on the stack before it. -/
def constant? (globals : Array Operand) (stack : List Operand) : List Instr → Option Operand
  | [] => stack.head?
  | .literal v :: code => constant? globals (.ofLiteral v :: stack) code
  | .refNull _ :: code => constant? globals (.ref none :: stack) code
  | .refFunc f :: code => constant? globals (.ref (some f) :: stack) code
  | .globalGet x :: code =>
    match globals[x]? with
    | some v => constant? globals (v :: stack) code
    | none => none
  | .numeric op :: code =>
    match Numeric.apply op stack with
    | .ok stack => constant? globals stack code
    | .error _ => none
  | _ => none

/-- Why a module cannot be made ready. -/
inductive SetupError (ε : Type) where
  /-- A memory of the module is larger than the cap from the start. -/
  | memoryRefused
  | trapped (kind : TrapKind)
  /-- An imported function failed while the start function ran. -/
  | raised (error : ε)
  deriving Repr

/-- The references in an element segment. -/
def ElementSegment.references (segment : ElementSegment) (globals : Array Operand) :
    List (Option Nat) :=
  segment.items.map fun item =>
    match constant? globals [] item with
    | some (.ref r) => r
    | _ => none

namespace Module

variable (m : Module)

/-- The values of the globals; each may refer to those before it. -/
def initialGlobals : Array Operand :=
  m.globals.foldl (fun vs g => vs.push ((constant? vs [] g.init).getD (.zero g.type.type))) #[]

def functionType (type : Nat) : FuncType := m.types[type]?.getD ⟨[], []⟩

/-- The functions of the module: the imported ones come first. -/
def functionSpace : Array Function :=
  let imported := m.importedFunctions.mapIdx fun i t => Function.imported (m.functionType t) i
  let defined := m.functions.zipWith
    (fun t code => Function.defined (m.functionType t)
      (code.locals.flatMap fun (n, t) => List.replicate n (.zero t)) code.body) m.codes
  (imported ++ defined).toArray

/-- The program of the module, when its imported memories are at the addresses `imported` and its
own begin at `base`. -/
def program {σ ε : Type} (imported : List Nat) (base : Nat)
    (call : Caller → Nat → List Operand → Array Memory → σ → σ × Except ε (List Operand))
    (fuel cap : Option Nat) : Program σ ε where
  types := m.types
  functions := m.functionSpace
  memories := (imported ++ List.range' base m.memories.length).toArray
  call := call
  fuel := fuel
  cap := cap

/-- The store before any segment is copied: passive segments wait in it. -/
def initialStore {σ : Type} (memories : Array Memory) (host : σ) : Store σ :=
  let globals := m.initialGlobals
  { memories := memories ++ (m.memories.map Memory.new).toArray
    tables := (m.tables.map Table.new).toArray
    globals := globals
    elements := (m.elements.map fun segment =>
      match segment.mode with
      | .passive => segment.references globals
      | _ => []).toArray
    datas := (m.datas.map fun segment =>
      match segment.mode with
      | .passive => ⟨segment.bytes.toArray⟩
      | _ => .empty).toArray
    host := host }

end Module

namespace Machine

variable {σ ε : Type} (p : Program σ ε)

def offset (s : Store σ) (code : List Instr) : Nat :=
  match constant? s.globals [] code with
  | some (.i32 b) => b.toNat
  | _ => 0

/-- Copies an element segment to its table. -/
def placeElements (s : Store σ) (segment : ElementSegment) :
    Except TrapKind (Store σ) :=
  match segment.mode with
  | .active x code =>
    let at_ := offset s code
    let items := segment.references s.globals
    match s.tables[x]?.map fun tab => tab.elements.size with
    | none => .error .tableOutOfBounds
    | some size =>
      if at_ + items.length ≤ size then .ok (updateTable s x (·.write at_ items))
      else .error .tableOutOfBounds
  | _ => .ok s

/-- Copies a data segment to its memory. -/
def placeData (s : Store σ) (segment : DataSegment) : Except TrapKind (Store σ) :=
  match segment.mode with
  | .active x code =>
    let at_ := offset s code
    match address? p x with
    | none => .error .memoryOutOfBounds
    | some a =>
      match s.memories[a]?.map fun m => m.contains at_ segment.bytes.length with
      | some true => .ok (updateMemory s a (·.write at_ ⟨segment.bytes.toArray⟩))
      | _ => .error .memoryOutOfBounds
  | _ => .ok s

/-- Calls the start function, if there is one. -/
def start (m : Module) (s : Store σ) : Store σ × Except (SetupError ε) Unit :=
  match m.start with
  | none => (s, .ok ())
  | some f =>
    match invoke p s f [] with
    | (.returned _, s) => (s, .ok ())
    | (.trapped kind, s) => (s, .error (.trapped kind))
    | (.raised e, s) => (s, .error (.raised e))
    | (_, s) => (s, .error (.trapped .other))

/-- Makes the module ready in its initial store. -/
def setup (m : Module) (s : Store σ) : Store σ × Except (SetupError ε) Unit :=
  if !m.memories.all fun t => atMost p.cap t.limits.minimum then (s, .error .memoryRefused)
  else
    match m.elements.foldlM placeElements s with
    | .error kind => (s, .error (.trapped kind))
    | .ok s =>
      match m.datas.foldlM (placeData p) s with
      | .error kind => (s, .error (.trapped kind))
      | .ok s => start p m s

end Machine
end GuestHarness.Wasm
