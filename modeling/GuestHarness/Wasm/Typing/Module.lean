import GuestHarness.Wasm.Typing.Instruction
import GuestHarness.Wasm.Binary.Module

/-! Valid modules: indices in range, expressions and bodies typed, sizes within their limits. -/
namespace GuestHarness.Wasm.Typing

/-- Instructions whose value is known before the module runs. Of globals only imported ones that
never change count. -/
def isConstant (imported : Array GlobalType) : Instr → Bool
  | .literal _ | .refNull _ | .refFunc _ => true
  | .globalGet x => match imported[x]? with
    | some g => !g.isMutable
    | none => false
  | .numeric (.intBinary _ op) => op = .add || op = .sub || op = .mul
  | _ => false

/-- A constant expression of a type. -/
def constant (c : Context) (imported : Array GlobalType) (t : ValType) (is : List Instr) : Bool :=
  is.all (isConstant imported) &&
    match instrs { c with globals := imported, declared := fun _ => true } is (.ofTypes []) with
    | some s => s.holds [t]
    | none => false

/-- The functions that an expression names. -/
def namedIn (is : List Instr) : List Nat :=
  is.filterMap fun i => match i with
    | .refFunc f => some f
    | _ => none

/-- The functions named outside of function bodies. -/
def declaredFunctions (m : Module) : List Nat :=
  (m.exports.filterMap fun e => if e.kind = .func then some e.index else none)
    ++ m.globals.flatMap (fun g => namedIn g.init)
    ++ m.elements.flatMap (fun e => e.items.flatMap namedIn)

/-- A function has at most so many parameters, and as many results. -/
def maxArity : Nat := 1000

def funcType (t : FuncType) : Bool := t.params.length ≤ maxArity && t.results.length ≤ maxArity

/-- A module has at most so many tables, and as many memories. -/
def maxTables : Nat := 100

/-- A table begins with at most so many elements. -/
def maxElements : Nat := 10000000

def memoryType (t : MemoryType) : Bool := t.limits.within maxPages

def tableType (t : TableType) : Bool := t.limits.minimum ≤ maxElements && t.limits.within (UInt32.size - 1)

def importEntry (m : Module) (i : Import) : Bool :=
  match i.type with
  | .func t => t < m.types.size
  | .table t => tableType t
  | .memory t => memoryType t
  | .global _ => true

def segmentMode (c : Context) (imported : Array GlobalType) (target : Nat → Bool) :
    SegmentMode → Bool
  | .active t offset => target t && constant c imported .i32 offset
  | .passive | .declared => true

def elementSegment (c : Context) (imported : Array GlobalType) (e : ElementSegment) : Bool :=
  segmentMode c imported (fun t => (c.tables[t]?.map TableType.element) = some e.type) e.mode
    && e.items.all (constant c imported (.ref e.type))

def dataSegment (c : Context) (imported : Array GlobalType) (d : DataSegment) : Bool :=
  segmentMode c imported (· < c.memories.size) d.mode

/-- Local variables one by one. -/
def expandLocals (runs : List (Nat × ValType)) : List ValType :=
  runs.flatMap fun (n, t) => List.replicate n t

def code (c : Context) (t : FuncType) (k : Code) : Bool :=
  t.params.length + Binary.localCount k.locals ≤ Binary.maxLocals &&
    body c t (expandLocals k.locals) k.body

/-- The types of the functions, if all exist. -/
def functionTypes? (m : Module) : Option (Array FuncType) :=
  (m.importedFunctions ++ m.functions).mapM (m.types[·]?) |>.map List.toArray

/-- What the indices of a module refer to. -/
def moduleContext (m : Module) (functions : Array FuncType) : Context where
  types := m.types
  functions := functions
  tables := m.tableTypes
  memories := m.memoryTypes
  globals := m.globalTypes
  elements := (m.elements.map ElementSegment.type).toArray
  datas := m.dataCount
  declared := (declaredFunctions m).contains

def module (m : Module) : Bool :=
  match functionTypes? m with
  | none => false
  | some functions =>
    let imported := m.importedGlobals.toArray
    let c := moduleContext m functions
    m.types.all funcType
      && m.imports.all (importEntry m)
      && m.tables.all tableType && c.tables.size ≤ maxTables
      && m.memories.all memoryType && c.memories.size ≤ maxTables
      && m.globals.all (fun g => constant c imported g.type.type g.init)
      && m.exports.all (fun e => (m.exportType? e).isSome)
      && (m.exports.map Export.name).Nodup
      && (match m.start with
        | some f => functions[f]? = some ⟨[], []⟩
        | none => true)
      && m.elements.all (elementSegment c imported)
      && (match m.dataCount with
        | some n => n = m.datas.length
        | none => true)
      && m.datas.all (dataSegment c imported)
      && m.functions.length = m.codes.length
      && ((functions.toList.drop m.importedFunctions.length).zip m.codes).all
          (fun (t, k) => code c t k)

end GuestHarness.Wasm.Typing

namespace GuestHarness.Wasm

/-- The valid module that bytes are the binary form of. -/
def Module.read? (bs : List UInt8) : Option Module := (Binary.decode? bs).filter Typing.module

end GuestHarness.Wasm
