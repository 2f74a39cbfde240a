import GuestHarness.Wasm.Typing.Stack
import GuestHarness.Wasm.Instruction

/-! Which instructions may stand on which stack of operand types. -/
namespace GuestHarness.Wasm.Typing

/-- What the indices in a function body may refer to. -/
structure Context where
  types : Array FuncType
  functions : Array FuncType
  tables : Array TableType
  memories : Array MemoryType
  globals : Array GlobalType
  /-- Element types of the element segments. -/
  elements : Array RefType
  /-- The number of data segments, if it is announced. -/
  datas : Option Nat
  /-- Whether a function is named outside of function bodies. -/
  declared : Nat → Bool
  locals : Array ValType := #[]
  /-- What a jump to each enclosing block takes along, the innermost first. -/
  labels : List (List ValType) := []
  results : List ValType := []

namespace Context

variable (c : Context)

def enter (label : List ValType) : Context := { c with labels := label :: c.labels }

/-- A segment that the announced count covers. -/
def hasData (segment : Nat) : Bool := (c.datas.map fun n => decide (segment < n)).getD false

/-- An access to a memory of the module, of at most `2 ^ align` bytes of alignment. -/
def admits (arg : MemArg) (align : Nat) : Bool := arg.memory < c.memories.size && arg.align ≤ align

end Context

/-- A value that may be chosen without naming its type. -/
def selectable : Option ValType → Bool
  | some t => !t.isRef
  | none => true

/-- Instructions that are no blocks. -/
def plain (c : Context) (i : Instr) (s : Stack) : Option Stack :=
  match i with
  | .unreachable => some .bottom
  | .nop | .fence => some s
  | .br l => do
    let _ ← s.popAll (← c.labels[l]?)
    some .bottom
  | .brIf l => do
    let ts ← c.labels[l]?
    (← s.pop .i32).apply ts ts
  | .brTable ls l => do
    let ts ← c.labels[l]?
    let s ← s.pop .i32
    let fits := fun k => match c.labels[k]? with
      | some us => us.length = ts.length && (s.popAll us).isSome
      | none => false
    if ls.all fits && fits l then some .bottom else none
  | .ret => do
    let _ ← s.popAll c.results
    some .bottom
  | .call f => do
    let t ← c.functions[f]?
    s.apply t.params t.results
  | .callIndirect table type => do
    let t ← c.types[type]?
    if (← c.tables[table]?).element ≠ .func then none
    (← s.pop .i32).apply t.params t.results
  | .returnCall f => do
    let t ← c.functions[f]?
    if t.results ≠ c.results then none
    let _ ← s.popAll t.params
    some .bottom
  | .returnCallIndirect table type => do
    let t ← c.types[type]?
    if (← c.tables[table]?).element ≠ .func || t.results ≠ c.results then none
    let _ ← (← s.pop .i32).popAll t.params
    some .bottom
  | .drop => s.popAny.map Prod.snd
  | .select (some t) => do
    let s ← s.pop .i32
    s.apply [t, t] [t]
  | .select none => do
    let s ← s.pop .i32
    let (t, s) ← s.popAny
    let (u, s) ← s.popAny
    if selectable t && selectable u && (t = none || u = none || t = u) then
      some { s with operands := (t <|> u) :: s.operands }
    else none
  | .localGet x => do return s.push (← c.locals[x]?)
  | .localSet x => do s.pop (← c.locals[x]?)
  | .localTee x => do
    let t ← c.locals[x]?
    s.apply [t] [t]
  | .globalGet x => do return s.push (← c.globals[x]?).type
  | .globalSet x => do
    let g ← c.globals[x]?
    if g.isMutable then s.pop g.type else none
  | .tableGet x => do s.apply [.i32] [.ref (← c.tables[x]?).element]
  | .tableSet x => do s.apply [.i32, .ref (← c.tables[x]?).element] []
  | .tableSize x => do
    let _ ← c.tables[x]?
    s.apply [] [.i32]
  | .tableGrow x => do s.apply [.ref (← c.tables[x]?).element, .i32] [.i32]
  | .tableFill x => do s.apply [.i32, .ref (← c.tables[x]?).element, .i32] []
  | .tableCopy x y => do
    if (← c.tables[x]?).element ≠ (← c.tables[y]?).element then none
    s.apply [.i32, .i32, .i32] []
  | .tableInit x segment => do
    if (← c.tables[x]?).element ≠ (← c.elements[segment]?) then none
    s.apply [.i32, .i32, .i32] []
  | .elemDrop segment => do
    let _ ← c.elements[segment]?
    some s
  | .load op arg =>
    if c.admits arg op.bytes.log2 then s.apply [.i32] [.num op.type] else none
  | .store op arg =>
    if c.admits arg op.bytes.log2 then s.apply [.i32, .num op.type] [] else none
  | .memorySize x => if x < c.memories.size then s.apply [] [.i32] else none
  | .memoryGrow x => if x < c.memories.size then s.apply [.i32] [.i32] else none
  | .memoryFill x => if x < c.memories.size then s.apply [.i32, .i32, .i32] [] else none
  | .memoryCopy x y =>
    if x < c.memories.size && y < c.memories.size then s.apply [.i32, .i32, .i32] [] else none
  | .memoryInit x segment =>
    if x < c.memories.size && c.hasData segment then s.apply [.i32, .i32, .i32] [] else none
  | .dataDrop segment => if c.hasData segment then some s else none
  | .atomic op arg =>
    if arg.memory < c.memories.size && arg.align = op.bytes.log2 then
      s.apply op.type.1 op.type.2
    else none
  | .literal v => some (s.push v.type)
  | .refNull t => some (s.push (.ref t))
  | .refIsNull => do
    let (t, s) ← s.popAny
    if t = none || (t.map ValType.isRef).getD false then some (s.push .i32) else none
  | .refFunc f => if f < c.functions.size && c.declared f then some (s.push .funcref) else none
  | .numeric op => s.apply op.type.1 [op.type.2]
  | .vector op =>
    match op.access with
    | none => s.apply op.operands op.results
    | some (arg, align) => if c.admits arg align then s.apply op.operands op.results else none
  | .block .. | .loop .. | .cond .. => none

mutual

/-- A jump to a block leaves it with its results, one to a loop starts it over with its
parameters. -/
def instr (c : Context) (i : Instr) (s : Stack) : Option Stack :=
  match i with
  | .block t body => do
    let s ← s.popAll t.params
    let e ← instrs (c.enter t.results) body (.ofTypes t.params)
    if e.holds t.results then some (s.pushAll t.results) else none
  | .loop t body => do
    let s ← s.popAll t.params
    let e ← instrs (c.enter t.params) body (.ofTypes t.params)
    if e.holds t.results then some (s.pushAll t.results) else none
  | .cond t yes no => do
    let s ← (← s.pop .i32).popAll t.params
    let e ← instrs (c.enter t.results) yes (.ofTypes t.params)
    let f ← instrs (c.enter t.results) no (.ofTypes t.params)
    if e.holds t.results && f.holds t.results then some (s.pushAll t.results) else none
  | i => plain c i s

def instrs (c : Context) (is : List Instr) (s : Stack) : Option Stack :=
  match is with
  | [] => some s
  | i :: is => do instrs c is (← instr c i s)

end

/-- The body of a function of type `t` with these further local variables. -/
def body (c : Context) (t : FuncType) (locals : List ValType) (is : List Instr) : Bool :=
  let c := { c with
    locals := (t.params ++ locals).toArray
    labels := [t.results]
    results := t.results }
  match instrs c is (.ofTypes []) with
  | some s => s.holds t.results
  | none => false

end GuestHarness.Wasm.Typing
