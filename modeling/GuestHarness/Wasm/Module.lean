import GuestHarness.Wasm.Instruction

/-! Modules as they are written: index spaces begin with the imports of their kind, in order. -/
namespace GuestHarness.Wasm

inductive ImportType where
  /-- A function by the index of its type. -/
  | func (type : Nat)
  | table (type : TableType)
  | memory (type : MemoryType)
  | global (type : GlobalType)
  deriving Repr, DecidableEq

structure Import where
  module : String
  name : String
  type : ImportType
  deriving Repr, DecidableEq

inductive ExportKind where
  | func
  | table
  | memory
  | global
  deriving Repr, DecidableEq

structure Export where
  name : String
  kind : ExportKind
  index : Nat
  deriving Repr, DecidableEq

structure Global where
  type : GlobalType
  init : List Instr
  deriving Repr

/-- Runs of local variables of one type, and the instructions. -/
structure Code where
  locals : List (Nat × ValType)
  body : List Instr
  deriving Repr

/-- When a segment is copied: at instantiation to an offset, or on demand. -/
inductive SegmentMode where
  | active (target : Nat) (offset : List Instr)
  | passive
  /-- Only declares the functions it names. -/
  | declared
  deriving Repr

structure ElementSegment where
  mode : SegmentMode
  type : RefType
  items : List (List Instr)
  deriving Repr

structure DataSegment where
  mode : SegmentMode
  bytes : List UInt8
  deriving Repr

structure Module where
  types : Array FuncType := #[]
  imports : List Import := []
  /-- The type indices of the functions that the module defines. -/
  functions : List Nat := []
  tables : List TableType := []
  memories : List MemoryType := []
  globals : List Global := []
  exports : List Export := []
  start : Option Nat := none
  elements : List ElementSegment := []
  /-- The number of data segments as announced before the code. -/
  dataCount : Option Nat := none
  codes : List Code := []
  datas : List DataSegment := []
  deriving Repr, Inhabited

namespace Module

variable (m : Module)

def importedFunctions : List Nat :=
  m.imports.filterMap fun i => match i.type with | .func t => some t | _ => none

def importedTables : List TableType :=
  m.imports.filterMap fun i => match i.type with | .table t => some t | _ => none

def importedMemories : List MemoryType :=
  m.imports.filterMap fun i => match i.type with | .memory t => some t | _ => none

def importedGlobals : List GlobalType :=
  m.imports.filterMap fun i => match i.type with | .global t => some t | _ => none

/-- The index spaces. -/
def functionTypes : Array (Option FuncType) :=
  ((m.importedFunctions ++ m.functions).map fun t => m.types[t]?).toArray

def tableTypes : Array TableType := (m.importedTables ++ m.tables).toArray

def memoryTypes : Array MemoryType := (m.importedMemories ++ m.memories).toArray

def globalTypes : Array GlobalType :=
  (m.importedGlobals ++ m.globals.map Global.type).toArray

def importType? (i : Import) : Option ExternType :=
  match i.type with
  | .func t => m.types[t]?.map .func
  | .table t => some (.table t)
  | .memory t => some (.memory t)
  | .global t => some (.global t)

def exportType? (e : Export) : Option ExternType :=
  match e.kind with
  | .func => (m.functionTypes[e.index]?.join).map .func
  | .table => m.tableTypes[e.index]?.map .table
  | .memory => m.memoryTypes[e.index]?.map .memory
  | .global => m.globalTypes[e.index]?.map .global

/-- The export of a kind under a name. -/
def export? (kind : ExportKind) (name : String) : Option Nat :=
  (m.exports.find? fun e => e.name = name && e.kind = kind).map Export.index

end Module
end GuestHarness.Wasm
