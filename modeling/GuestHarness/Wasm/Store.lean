import GuestHarness.Wasm.Memory
import GuestHarness.Wasm.Module
import GuestHarness.Fault

/-! What a guest can change while it runs, together with a state of the host's own. -/
namespace GuestHarness.Wasm

structure Table where
  elements : Array (Option Nat)
  maximum : Option Nat
  deriving Inhabited

/-- No table grows beyond this many elements. -/
def maxTableSize : Nat := 10000000

namespace Table

def new (type : TableType) : Table :=
  ⟨Array.replicate type.limits.minimum none, type.limits.maximum⟩

/-- Grows the table by elements that all are `v`. -/
def grow? (t : Table) (delta : Nat) (v : Option Nat) : Option Table :=
  let size := t.elements.size + delta
  if atMost t.maximum size && size ≤ maxTableSize then
    some { t with elements := t.elements ++ Array.replicate delta v }
  else none

/-- Puts elements from `i` on; the caller has checked the range. -/
def write (t : Table) (i : Nat) : List (Option Nat) → Table
  | [] => t
  | v :: vs => write { t with elements := t.elements.setIfInBounds i v } (i + 1) vs

def slice (t : Table) (i n : Nat) : List (Option Nat) := (t.elements.extract i (i + n)).toList

end Table

/-- The state of an instance. Memories are kept by address, since an imported memory may be known
under several indices. -/
structure Store (σ : Type) where
  memories : Array Memory
  tables : Array Table := #[]
  globals : Array Operand := #[]
  /-- What is left of the element segments; a dropped segment is empty. -/
  elements : Array (List (Option Nat)) := #[]
  /-- What is left of the data segments. -/
  datas : Array ByteArray := #[]
  /-- The fuel spent, as far as it was written back. -/
  spent : Nat := 0
  host : σ

inductive Function where
  | imported (type : FuncType) (index : Nat)
  /-- A body with the initial values of its further local variables. -/
  | defined (type : FuncType) (locals : List Operand) (body : List Instr)
  deriving Inhabited

def Function.type : Function → FuncType
  | imported t _ => t
  | defined t _ _ => t

/-- Who calls an imported function. -/
inductive Caller where
  | guest
  | host
  deriving Repr, DecidableEq

/-- What stays the same while a guest runs. -/
structure Program (σ ε : Type) where
  types : Array FuncType
  functions : Array Function
  /-- The addresses of the memories by their indices. -/
  memories : Array Nat
  /-- Calls an imported function: it sees the memories, and changes nothing but the host's state. -/
  call : Caller → Nat → List Operand → Array Memory → σ → σ × Except ε (List Operand)
  /-- The fuel that may be spent, if it is metered. -/
  fuel : Option Nat
  /-- The number of pages that no memory may exceed. -/
  cap : Option Nat

/-- Nothing of the fuel is left. -/
def Program.exhausted (p : Program σ ε) (spent : Nat) : Bool :=
  match p.fuel with
  | none => false
  | some n => n ≤ spent

/-- How a run ends. -/
inductive Ending (ε : Type) where
  | returned (results : List Operand)
  | trapped (kind : TrapKind)
  /-- An imported function failed. -/
  | raised (error : ε)
  /-- An instruction did not find its operands; typed code never ends so. -/
  | stuck
  /-- The bound on the number of steps was reached. -/
  | unfinished
  deriving Repr

end GuestHarness.Wasm
