import GuestHarness.Wasm.Store
import GuestHarness.Wasm.Numeric.Operator

/-! Running guest code, one instruction at a time. A thread keeps its own count of the fuel it spends;
the store learns it at calls, returns and `unreachable`, and whether any is left is asked only on
entering a function and on arriving at a loop. -/
namespace GuestHarness.Wasm

/-- An enclosing block. -/
structure Label where
  /-- How many operands a jump takes along. -/
  arity : Nat
  /-- Where a jump goes on. -/
  target : List Instr
  /-- What follows the block. -/
  after : List Instr
  /-- The operands below the block's own. -/
  below : List Operand

/-- A function that waits for one it called. -/
structure Frame where
  code : List Instr
  stack : List Operand
  labels : List Label
  locals : Array Operand
  arity : Nat

structure Thread where
  code : List Instr
  stack : List Operand
  labels : List Label
  locals : Array Operand
  /-- The number of results of the running function. -/
  arity : Nat
  callers : List Frame
  /-- The number of waiting callers. -/
  depth : Nat
  spent : Nat

/-- More waiting callers than this exhaust the call stack. -/
def maxDepth : Nat := 16384

/-- No run is carried on beyond this many steps. -/
def maxSteps : Nat := 0x4000000000000000

inductive Step (σ ε : Type) where
  | next (store : Store σ) (thread : Thread)
  | ended (ending : Ending ε) (store : Store σ)

namespace Step

def trap (kind : TrapKind) (s : Store σ) : Step σ ε := .ended (.trapped kind) s

def stuck (s : Store σ) : Step σ ε := .ended .stuck s

end Step

namespace Machine

variable {σ ε : Type} (p : Program σ ε)

/-- The store after the thread has written its count back. -/
def writeBack (s : Store σ) (t : Thread) : Store σ := { s with spent := t.spent }

/-- The end of the running function, whose results are on top of the stack. -/
def leave (s : Store σ) (t : Thread) : Step σ ε :=
  let s := writeBack s t
  match t.callers with
  | [] => .ended (.returned (t.stack.take t.arity)) s
  | f :: callers =>
    .next s
      { code := f.code
        stack := t.stack.take t.arity ++ f.stack
        labels := f.labels
        locals := f.locals
        arity := f.arity
        callers
        depth := t.depth - 1
        spent := t.spent }

/-- The end of the innermost block, or of the function. -/
def close (s : Store σ) (t : Thread) : Step σ ε :=
  match t.labels with
  | [] => leave s t
  | l :: labels => .next s { t with code := l.after, stack := t.stack ++ l.below, labels }

/-- A jump to the block that `k` others enclose the jump in; the outermost block is the function. -/
def branch (s : Store σ) (t : Thread) (k : Nat) : Step σ ε :=
  match t.labels.drop k with
  | [] => leave s t
  | l :: labels =>
    .next s { t with code := l.target, stack := t.stack.take l.arity ++ l.below, labels }

/-- Entering a function or a loop asks whether there is fuel. -/
def proceed (s : Store σ) (t : Thread) : Step σ ε :=
  if p.exhausted t.spent then .trap .outOfFuel (writeBack s t) else .next s t

/-- Begins a function with its arguments, the last of which comes first. -/
def enter (s : Store σ) (args : List Operand) (type : FuncType) (locals : List Operand)
    (body : List Instr) (callers : List Frame) (depth spent : Nat) : Step σ ε :=
  if maxDepth ≤ depth then .trap .stackOverflow s
  else proceed p s
    { code := body
      stack := []
      labels := []
      locals := (args.reverse ++ locals).toArray
      arity := type.results.length
      callers
      depth
      spent := spent + 1 }

/-- An imported function gets its arguments in order and gives back its results, the first one
first. -/
def callImport (caller : Caller) (index : Nat) (args : List Operand) (s : Store σ) :
    Store σ × Except ε (List Operand) :=
  let (host, answer) := p.call caller index args.reverse s.memories s.host
  ({ s with host }, answer.map List.reverse)

def call (s : Store σ) (t : Thread) (f : Nat) : Step σ ε :=
  match p.functions[f]? with
  | none => .stuck s
  | some (.defined type locals body) =>
    let n := type.params.length
    enter p s (t.stack.take n) type locals body
      (⟨t.code, t.stack.drop n, t.labels, t.locals, t.arity⟩ :: t.callers) (t.depth + 1) t.spent
  | some (.imported type index) =>
    let n := type.params.length
    match callImport p .guest index (t.stack.take n) s with
    | (s, .ok results) => .next s { t with stack := results ++ t.stack.drop n }
    | (s, .error e) => .ended (.raised e) s

/-- A call in the place of the running function. -/
def tailCall (s : Store σ) (t : Thread) (f : Nat) : Step σ ε :=
  match p.functions[f]? with
  | none => .stuck s
  | some (.defined type locals body) =>
    enter p s (t.stack.take type.params.length) type locals body t.callers t.depth t.spent
  | some (.imported type index) =>
    match callImport p .guest index (t.stack.take type.params.length) s with
    | (s, .ok results) => leave s { t with stack := results }
    | (s, .error e) => .ended (.raised e) s

/-- The function that an element of a table refers to, if it has the type. -/
def indirect (s : Store σ) (table type index : Nat) : Except TrapKind Nat :=
  match s.tables[table]? with
  | none => .error .tableOutOfBounds
  | some tab =>
    match tab.elements[index]? with
    | none => .error .tableOutOfBounds
    | some none => .error .badIndirectCall
    | some (some f) =>
      if p.functions[f]?.map Function.type = p.types[type]? then .ok f
      else .error .badIndirectCall

/-- The address in the store of a memory of the module. -/
def address? (memory : Nat) : Option Nat := p.memories[memory]?

/-- The address of an access, if all of its bytes lie within the memory. -/
def effective? (m : Memory) (base : UInt32) (offset bytes : Nat) : Option Nat :=
  let a := base.toNat + offset
  if a + bytes ≤ m.pages * pageSize then some a else none

def updateMemory (s : Store σ) (a : Nat) (f : Memory → Memory) : Store σ :=
  { s with memories := s.memories.modify a f }

def updateTable (s : Store σ) (x : Nat) (f : Table → Table) : Store σ :=
  { s with tables := s.tables.modify x f }

/-- The value that an atomic change leaves behind. -/
def combine (op : RmwOp) (old new : UInt64) : UInt64 :=
  match op with
  | .add => old + new
  | .sub => old - new
  | .and => old &&& new
  | .or => old ||| new
  | .xor => old ^^^ new
  | .xchg => new

/-- The low bytes of a word. -/
def lowBytes (w : UInt64) (bytes : Nat) : UInt64 :=
  if 8 ≤ bytes then w else w &&& ((1 <<< (8 * UInt64.ofNat bytes)) - 1)

def ofWidth (w : Width) (bits : UInt64) : Operand :=
  match w with
  | .w32 => .i32 bits.toUInt32
  | .w64 => .i64 bits

/-- Atomic accesses demand an address that is a multiple of their size. -/
def atomic (s : Store σ) (t : Thread) (op : AtomicOp) (arg : MemArg) : Step σ ε :=
  let n := op.type.1.length - 1
  match address? p arg.memory, t.stack.take n, t.stack.drop n with
  | some a, args, .i32 base :: stack =>
    match s.memories[a]? with
    | none => .stuck s
    | some m =>
      match effective? m base arg.offset op.bytes with
      | none => .trap .memoryOutOfBounds s
      | some at_ =>
        if at_ % op.bytes ≠ 0 then .trap .memoryOutOfBounds s
        else
          let old := m.word at_ op.bytes
          match op, args with
          | .notify, _ => .next s { t with stack := .i32 0 :: stack }
          | .wait _, [_, expected] =>
            if !m.shared then .trap .other s
            else
              let answer : UInt32 := if expected.word? = some old then 2 else 1
              .next s { t with stack := .i32 answer :: stack }
          | .load w _, _ => .next s { t with stack := ofWidth w old :: stack }
          | .store _ n, [v] =>
            match v.word? with
            | some v => .next (updateMemory s a (·.setWord at_ n v)) { t with stack }
            | none => .stuck s
          | .rmw op w n, [v] =>
            match v.word? with
            | some v =>
              .next (updateMemory s a (·.setWord at_ n (combine op old v)))
                { t with stack := ofWidth w old :: stack }
            | none => .stuck s
          | .cmpxchg w n, [new, expected] =>
            match new.word?, expected.word? with
            | some new, some expected =>
              let s := if lowBytes expected n = old && expected = lowBytes expected n then
                  updateMemory s a (·.setWord at_ n new)
                else s
              .next s { t with stack := ofWidth w old :: stack }
            | _, _ => .stuck s
          | _, _ => .stuck s
  | _, _, _ => .stuck s

/-- Loads, stores and the operations on whole memories. -/
def memoryStep (s : Store σ) (t : Thread) (i : Instr) : Step σ ε :=
  match i, t.stack with
  | .load op arg, .i32 base :: stack =>
    match address? p arg.memory with
    | none => .stuck s
    | some a =>
      match s.memories[a]? with
      | none => .stuck s
      | some m =>
        match effective? m base arg.offset op.bytes with
        | none => .trap .memoryOutOfBounds s
        | some at_ => .next s { t with stack := op.operand (m.word at_ op.bytes) :: stack }
  | .store op arg, v :: .i32 base :: stack =>
    match address? p arg.memory, v.word? with
    | some a, some w =>
      match s.memories[a]?.bind fun m => effective? m base arg.offset op.bytes with
      | none => .trap .memoryOutOfBounds s
      | some at_ => .next (updateMemory s a (·.setWord at_ op.bytes w)) { t with stack }
    | _, _ => .stuck s
  | .memorySize x, stack =>
    match (address? p x).bind (s.memories[·]?) with
    | none => .stuck s
    | some m => .next s { t with stack := .i32 (.ofNat m.pages) :: stack }
  | .memoryGrow x, .i32 delta :: stack =>
    match address? p x with
    | none => .stuck s
    | some a =>
      match s.memories[a]?.map fun m => (m.pages, m.grownPages? p.cap delta.toNat) with
      | none => .stuck s
      | some (_, none) => .next s { t with stack := .i32 0xFFFFFFFF :: stack }
      | some (old, some pages) =>
        .next (updateMemory s a fun m => { m with pages }) { t with stack := .i32 (.ofNat old) :: stack }
  | .memoryFill x, .i32 n :: .i32 v :: .i32 d :: stack =>
    match address? p x with
    | none => .stuck s
    | some a =>
      match s.memories[a]?.map fun m => m.contains d.toNat n.toNat with
      | none => .stuck s
      | some false => .trap .memoryOutOfBounds s
      | some true => .next (updateMemory s a (·.fill d.toNat n.toNat v.toUInt8)) { t with stack }
  | .memoryCopy x y, .i32 n :: .i32 d₂ :: .i32 d₁ :: stack =>
    match address? p x, address? p y with
    | some a, some b =>
      match s.memories[a]?.map fun m => m.contains d₁.toNat n.toNat,
          s.memories[b]?.map fun m => (m.contains d₂.toNat n.toNat, m.extract d₂.toNat n.toNat) with
      | some true, some (true, bs) => .next (updateMemory s a (·.write d₁.toNat bs)) { t with stack }
      | some _, some _ => .trap .memoryOutOfBounds s
      | _, _ => .stuck s
    | _, _ => .stuck s
  | .memoryInit x segment, .i32 n :: .i32 d₂ :: .i32 d₁ :: stack =>
    match address? p x, s.datas[segment]? with
    | some a, some bs =>
      match s.memories[a]?.map fun m => m.contains d₁.toNat n.toNat with
      | none => .stuck s
      | some inside =>
        if inside && d₂.toNat + n.toNat ≤ bs.size then
          let bs := bs.extract d₂.toNat (d₂.toNat + n.toNat)
          .next (updateMemory s a (·.write d₁.toNat bs)) { t with stack }
        else .trap .memoryOutOfBounds s
    | _, _ => .stuck s
  | .dataDrop segment, _ =>
    .next { s with datas := s.datas.setIfInBounds segment .empty } t
  | _, _ => .stuck s

/-- The operations on tables. -/
def tableStep (s : Store σ) (t : Thread) (i : Instr) : Step σ ε :=
  match i, t.stack with
  | .tableGet x, .i32 k :: stack =>
    match s.tables[x]?.map fun tab => tab.elements[k.toNat]? with
    | none => .stuck s
    | some none => .trap .tableOutOfBounds s
    | some (some r) => .next s { t with stack := .ref r :: stack }
  | .tableSet x, .ref r :: .i32 k :: stack =>
    match s.tables[x]?.map fun tab => tab.elements.size with
    | none => .stuck s
    | some size =>
      if k.toNat < size then .next (updateTable s x (·.write k.toNat [r])) { t with stack }
      else .trap .tableOutOfBounds s
  | .tableSize x, stack =>
    match s.tables[x]? with
    | none => .stuck s
    | some tab => .next s { t with stack := .i32 (.ofNat tab.elements.size) :: stack }
  | .tableGrow x, .i32 n :: .ref r :: stack =>
    match s.tables[x]?.map fun tab => (tab.elements.size, tab.grow? n.toNat r) with
    | none => .stuck s
    | some (_, none) => .next s { t with stack := .i32 0xFFFFFFFF :: stack }
    | some (old, some tab) =>
      .next (updateTable s x fun _ => tab) { t with stack := .i32 (.ofNat old) :: stack }
  | .tableFill x, .i32 n :: .ref r :: .i32 k :: stack =>
    match s.tables[x]?.map fun tab => tab.elements.size with
    | none => .stuck s
    | some size =>
      if k.toNat + n.toNat ≤ size then
        .next (updateTable s x (·.write k.toNat (List.replicate n.toNat r))) { t with stack }
      else .trap .tableOutOfBounds s
  | .tableCopy x y, .i32 n :: .i32 k₂ :: .i32 k₁ :: stack =>
    match s.tables[x]?.map fun tab => tab.elements.size, s.tables[y]? with
    | some size, some source =>
      if k₁.toNat + n.toNat ≤ size && k₂.toNat + n.toNat ≤ source.elements.size then
        .next (updateTable s x (·.write k₁.toNat (source.slice k₂.toNat n.toNat))) { t with stack }
      else .trap .tableOutOfBounds s
    | _, _ => .stuck s
  | .tableInit x segment, .i32 n :: .i32 k₂ :: .i32 k₁ :: stack =>
    match s.tables[x]?.map fun tab => tab.elements.size, s.elements[segment]? with
    | some size, some items =>
      if k₁.toNat + n.toNat ≤ size && k₂.toNat + n.toNat ≤ items.length then
        let items := (items.drop k₂.toNat).take n.toNat
        .next (updateTable s x (·.write k₁.toNat items)) { t with stack }
      else .trap .tableOutOfBounds s
    | _, _ => .stuck s
  | .elemDrop segment, _ =>
    .next { s with elements := s.elements.setIfInBounds segment [] } t
  | _, _ => .stuck s

/-- Carries out an instruction that the thread has already left behind. -/
def execute (s : Store σ) (t : Thread) (i : Instr) : Step σ ε :=
  match i with
  | .numeric op =>
    match Numeric.apply op t.stack with
    | .ok stack => .next s { t with stack }
    | .error (.trap kind) => .trap kind s
    | .error .stuck => .stuck s
  | .literal v => .next s { t with stack := .ofLiteral v :: t.stack }
  | .localGet x =>
    match t.locals[x]? with
    | some v => .next s { t with stack := v :: t.stack }
    | none => .stuck s
  | .localSet x =>
    match t.stack with
    | v :: stack => .next s { t with stack, locals := t.locals.setIfInBounds x v }
    | [] => .stuck s
  | .localTee x =>
    match t.stack with
    | v :: _ => .next s { t with locals := t.locals.setIfInBounds x v }
    | [] => .stuck s
  | .block type body =>
    let n := type.params.length
    .next s { t with
      code := body
      stack := t.stack.take n
      labels := ⟨type.results.length, t.code, t.code, t.stack.drop n⟩ :: t.labels }
  | .loop type body =>
    let n := type.params.length
    proceed p s { t with
      code := body
      stack := t.stack.take n
      labels := ⟨n, .loop type body :: t.code, t.code, t.stack.drop n⟩ :: t.labels }
  | .cond type yes no =>
    match t.stack with
    | .i32 c :: stack =>
      let n := type.params.length
      .next s { t with
        code := if c = 0 then no else yes
        stack := stack.take n
        labels := ⟨type.results.length, t.code, t.code, stack.drop n⟩ :: t.labels }
    | _ => .stuck s
  | .br k => branch s t k
  | .brIf k =>
    match t.stack with
    | .i32 c :: stack => if c = 0 then .next s { t with stack } else branch s { t with stack } k
    | _ => .stuck s
  | .brTable ks k =>
    match t.stack with
    | .i32 c :: stack => branch s { t with stack } (ks[c.toNat]?.getD k)
    | _ => .stuck s
  | .ret => leave s t
  | .call f => call p s t f
  | .callIndirect table type =>
    match t.stack with
    | .i32 index :: stack =>
      match indirect p s table type index.toNat with
      | .ok f => call p s { t with stack } f
      | .error kind => .trap kind s
    | _ => .stuck s
  | .returnCall f => tailCall p s t f
  | .returnCallIndirect table type =>
    match t.stack with
    | .i32 index :: stack =>
      match indirect p s table type index.toNat with
      | .ok f => tailCall p s { t with stack } f
      | .error kind => .trap kind s
    | _ => .stuck s
  | .unreachable => .trap .unreachable s
  | .nop | .fence => .next s t
  | .drop =>
    match t.stack with
    | _ :: stack => .next s { t with stack }
    | [] => .stuck s
  | .select _ =>
    match t.stack with
    | .i32 c :: w :: v :: stack => .next s { t with stack := (if c = 0 then w else v) :: stack }
    | _ => .stuck s
  | .globalGet x =>
    match s.globals[x]? with
    | some v => .next s { t with stack := v :: t.stack }
    | none => .stuck s
  | .globalSet x =>
    match t.stack with
    | v :: stack => .next { s with globals := s.globals.setIfInBounds x v } { t with stack }
    | [] => .stuck s
  | .refNull _ => .next s { t with stack := .ref none :: t.stack }
  | .refIsNull =>
    match t.stack with
    | .ref r :: stack => .next s { t with stack := .ofBool r.isNone :: stack }
    | _ => .stuck s
  | .refFunc f => .next s { t with stack := .ref (some f) :: t.stack }
  | .load .. | .store .. | .memorySize _ | .memoryGrow _ | .memoryFill _ | .memoryCopy ..
  | .memoryInit .. | .dataDrop _ => memoryStep p s t i
  | .tableGet _ | .tableSet _ | .tableSize _ | .tableGrow _ | .tableFill _ | .tableCopy ..
  | .tableInit .. | .elemDrop _ => tableStep s t i
  | .atomic op arg => atomic p s t op arg
  | .vector _ => .trap .other s

def step (s : Store σ) (t : Thread) : Step σ ε :=
  match t.code with
  | [] => close s t
  | i :: code =>
    let spent := t.spent + i.cost
    let t := { t with code, spent }
    execute p (if i.writesBack then { s with spent } else s) t i

/-- Steps until the thread ends. -/
def run : Nat → Store σ → Thread → Ending ε × Store σ
  | 0, s, _ => (.unfinished, s)
  | n + 1, s, t =>
    match step p s t with
    | .next s t => run n s t
    | .ended ending s => (ending, s)

/-- Calls a function from outside. -/
def invoke (s : Store σ) (f : Nat) (args : List Operand) : Ending ε × Store σ :=
  match p.functions[f]? with
  | none => (.stuck, s)
  | some (.imported _ index) =>
    match callImport p .host index args.reverse s with
    | (s, .ok results) => (.returned results.reverse, s)
    | (s, .error e) => (.raised e, s)
  | some (.defined type locals body) =>
    match enter p s args.reverse type locals body [] 0 s.spent with
    | .next s t =>
      match run p maxSteps s t with
      | (.returned results, s) => (.returned results.reverse, s)
      | other => other
    | .ended ending s => (ending, s)

end Machine
end GuestHarness.Wasm
