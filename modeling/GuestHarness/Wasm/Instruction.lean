import GuestHarness.Wasm.Types

/-! Instructions as a tree: a block holds its body. Operators on numbers are named by what they
compute and the width they compute at. -/
namespace GuestHarness.Wasm

inductive Width where
  | w32
  | w64
  deriving Repr, DecidableEq, Inhabited

def Width.int : Width → ValType
  | w32 => .i32
  | w64 => .i64

def Width.float : Width → ValType
  | w32 => .f32
  | w64 => .f64

inductive IntUnary where
  | clz | ctz | popcnt | extend8 | extend16 | extend32
  deriving Repr, DecidableEq

inductive IntBinary where
  | add | sub | mul | divS | divU | remS | remU | and | or | xor | shl | shrS | shrU | rotl | rotr
  deriving Repr, DecidableEq

inductive IntCompare where
  | eq | ne | ltS | ltU | gtS | gtU | leS | leU | geS | geU
  deriving Repr, DecidableEq

inductive FloatUnary where
  | abs | neg | ceil | floor | trunc | nearest | sqrt
  deriving Repr, DecidableEq

inductive FloatBinary where
  | add | sub | mul | div | min | max | copysign
  deriving Repr, DecidableEq

inductive FloatCompare where
  | eq | ne | lt | gt | le | ge
  deriving Repr, DecidableEq

/-- Operators that take numbers and give one number. -/
inductive NumericOp where
  | eqz (w : Width)
  | intCompare (w : Width) (op : IntCompare)
  | floatCompare (w : Width) (op : FloatCompare)
  | intUnary (w : Width) (op : IntUnary)
  | intBinary (w : Width) (op : IntBinary)
  | floatUnary (w : Width) (op : FloatUnary)
  | floatBinary (w : Width) (op : FloatBinary)
  /-- The low half of a 64-bit integer. -/
  | wrap
  | extend (signed : Bool)
  /-- A float to an integer; out of range it traps, or saturates. -/
  | truncate (target source : Width) (signed saturating : Bool)
  | convert (target source : Width) (signed : Bool)
  | demote
  | promote
  /-- The bits of a float as an integer. -/
  | bitsOfFloat (w : Width)
  | floatOfBits (w : Width)
  deriving Repr, DecidableEq

namespace NumericOp

/-- Operand types, the last one on top, and the type of the result. -/
def type : NumericOp → List ValType × ValType
  | eqz w => ([w.int], .i32)
  | intCompare w _ => ([w.int, w.int], .i32)
  | floatCompare w _ => ([w.float, w.float], .i32)
  | intUnary w _ => ([w.int], w.int)
  | intBinary w _ => ([w.int, w.int], w.int)
  | floatUnary w _ => ([w.float], w.float)
  | floatBinary w _ => ([w.float, w.float], w.float)
  | wrap => ([.i64], .i32)
  | extend _ => ([.i32], .i64)
  | truncate target source _ _ => ([source.float], target.int)
  | convert target source _ => ([source.int], target.float)
  | demote => ([.f64], .f32)
  | promote => ([.f32], .f64)
  | bitsOfFloat w => ([w.float], w.int)
  | floatOfBits w => ([w.int], w.float)

end NumericOp

/-- Where an access to memory goes: to `memory`, `offset` above the address on the stack. -/
structure MemArg where
  memory : Nat
  /-- The exponent of the promised alignment. -/
  align : Nat
  offset : Nat
  deriving Repr, DecidableEq, Inhabited

/-- A load of `bytes` bytes into a number, extended with its sign if `signed`. -/
structure LoadOp where
  type : ValueType
  bytes : Nat
  signed : Bool
  deriving Repr, DecidableEq

/-- A store of the low `bytes` bytes of a number. -/
structure StoreOp where
  type : ValueType
  bytes : Nat
  deriving Repr, DecidableEq

inductive RmwOp where
  | add | sub | and | or | xor | xchg
  deriving Repr, DecidableEq

/-- Accesses that demand natural alignment. -/
inductive AtomicOp where
  | notify
  | wait (w : Width)
  | load (w : Width) (bytes : Nat)
  | store (w : Width) (bytes : Nat)
  | rmw (op : RmwOp) (w : Width) (bytes : Nat)
  | cmpxchg (w : Width) (bytes : Nat)
  deriving Repr, DecidableEq

namespace AtomicOp

def bytes : AtomicOp → Nat
  | notify => 4
  | wait .w32 => 4
  | wait .w64 => 8
  | load _ n | store _ n | rmw _ _ n | cmpxchg _ n => n

def type : AtomicOp → List ValType × List ValType
  | notify => ([.i32, .i32], [.i32])
  | wait w => ([.i32, w.int, .i64], [.i32])
  | load w _ => ([.i32], [w.int])
  | store w _ => ([.i32, w.int], [])
  | rmw _ w _ => ([.i32, w.int], [w.int])
  | cmpxchg w _ => ([.i32, w.int, w.int], [w.int])

end AtomicOp

/-- A vector operator by its operand and result types, with its access to memory if it has one.
Vector operators are typed here and have no meaning beyond that. -/
structure VectorOp where
  operands : List ValType
  results : List ValType
  access : Option (MemArg × Nat)
  deriving Repr, DecidableEq

/-- A literal operand, as bits. -/
inductive Literal where
  | i32 (bits : UInt32)
  | i64 (bits : UInt64)
  | f32 (bits : UInt32)
  | f64 (bits : UInt64)
  | vector (low high : UInt64)
  deriving Repr, DecidableEq

def Literal.type : Literal → ValType
  | i32 _ => .i32
  | i64 _ => .i64
  | f32 _ => .f32
  | f64 _ => .f64
  | vector _ _ => .vector

inductive Instr where
  | unreachable
  | nop
  | block (type : FuncType) (body : List Instr)
  | loop (type : FuncType) (body : List Instr)
  | cond (type : FuncType) (yes no : List Instr)
  | br (label : Nat)
  | brIf (label : Nat)
  | brTable (labels : List Nat) (default : Nat)
  | ret
  | call (function : Nat)
  | callIndirect (table type : Nat)
  | returnCall (function : Nat)
  | returnCallIndirect (table type : Nat)
  | drop
  | select (type : Option ValType)
  | localGet (index : Nat)
  | localSet (index : Nat)
  | localTee (index : Nat)
  | globalGet (index : Nat)
  | globalSet (index : Nat)
  | tableGet (table : Nat)
  | tableSet (table : Nat)
  | tableSize (table : Nat)
  | tableGrow (table : Nat)
  | tableFill (table : Nat)
  | tableCopy (target source : Nat)
  | tableInit (table segment : Nat)
  | elemDrop (segment : Nat)
  | load (op : LoadOp) (arg : MemArg)
  | store (op : StoreOp) (arg : MemArg)
  | memorySize (memory : Nat)
  | memoryGrow (memory : Nat)
  | memoryFill (memory : Nat)
  | memoryCopy (target source : Nat)
  | memoryInit (memory segment : Nat)
  | dataDrop (segment : Nat)
  | atomic (op : AtomicOp) (arg : MemArg)
  | fence
  | literal (value : Literal)
  | refNull (type : RefType)
  | refIsNull
  | refFunc (function : Nat)
  | numeric (op : NumericOp)
  | vector (op : VectorOp)
  deriving Repr, Inhabited

namespace Instr

/-- What an instruction takes from the fuel. Structure and jumps that only leave are free. -/
def cost : Instr → Nat
  | nop | drop | block .. | loop .. | unreachable | ret => 0
  | _ => 1

/-- The counter is written back before these are carried out. -/
def writesBack : Instr → Bool
  | unreachable | ret | call _ | callIndirect .. | returnCall _ | returnCallIndirect .. => true
  | _ => false

end Instr
end GuestHarness.Wasm
