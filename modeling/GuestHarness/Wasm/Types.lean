import GuestHarness.Signature

/-! The types of WebAssembly: of operands, functions, memories, tables and globals. -/
namespace GuestHarness.Wasm

inductive RefType where
  | func
  | external
  deriving Repr, DecidableEq, Inhabited

/-- The type of an operand: a number, a vector of 128 bits or a reference. -/
inductive ValType where
  | num (t : ValueType)
  | vector
  | ref (t : RefType)
  deriving Repr, DecidableEq, Inhabited

namespace ValType

abbrev i32 : ValType := .num .i32
abbrev i64 : ValType := .num .i64
abbrev f32 : ValType := .num .f32
abbrev f64 : ValType := .num .f64
abbrev funcref : ValType := .ref .func
abbrev externref : ValType := .ref .external

def number? : ValType → Option ValueType
  | num t => some t
  | _ => none

def isRef : ValType → Bool
  | ref _ => true
  | _ => false

end ValType

structure FuncType where
  params : List ValType
  results : List ValType
  deriving Repr, DecidableEq, Inhabited

/-- The signature of a function that exchanges numbers only. -/
def FuncType.signature? (t : FuncType) : Option Signature := do
  return ⟨← t.params.mapM ValType.number?, ← t.results.mapM ValType.number?⟩

/-- The function type of a signature. -/
def FuncType.ofSignature (s : Signature) : FuncType :=
  ⟨s.params.map .num, s.results.map .num⟩

structure Limits where
  minimum : Nat
  maximum : Option Nat
  deriving Repr, DecidableEq, Inhabited

/-- The bounds are in order, and none is above `top`. -/
def Limits.within (l : Limits) (top : Nat) : Bool :=
  l.minimum ≤ top && match l.maximum with
    | none => true
    | some n => l.minimum ≤ n && n ≤ top

/-- Sizes are in pages. -/
structure MemoryType where
  limits : Limits
  shared : Bool
  deriving Repr, DecidableEq, Inhabited

structure TableType where
  element : RefType
  limits : Limits
  deriving Repr, DecidableEq, Inhabited

structure GlobalType where
  type : ValType
  isMutable : Bool
  deriving Repr, DecidableEq, Inhabited

/-- The type of what is imported or exported. -/
inductive ExternType where
  | func (type : FuncType)
  | table (type : TableType)
  | memory (type : MemoryType)
  | global (type : GlobalType)
  deriving Repr, DecidableEq, Inhabited

/-- The size of a page of memory in bytes. -/
def pageSize : Nat := 65536

/-- No memory has more pages. -/
def maxPages : Nat := 65536

end GuestHarness.Wasm
