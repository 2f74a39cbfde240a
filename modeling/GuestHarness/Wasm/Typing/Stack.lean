import GuestHarness.Wasm.Types

/-! The operand types at a point of a program. After a jump that never returns every further operand
is there for the asking, of whatever type is asked for. -/
namespace GuestHarness.Wasm.Typing

/-- Known operands, the top first; `none` is an operand of any type. -/
structure Stack where
  operands : List (Option ValType)
  /-- Nothing reaches this point, so the stack never runs out. -/
  unreachable : Bool
  deriving Repr

namespace Stack

def ofTypes (ts : List ValType) : Stack := ⟨ts.reverse.map some, false⟩

/-- The stack after a jump that does not return. -/
def bottom : Stack := ⟨[], true⟩

def push (s : Stack) (t : ValType) : Stack := { s with operands := some t :: s.operands }

def pushAll (s : Stack) (ts : List ValType) : Stack := ts.foldl push s

def popAny (s : Stack) : Option (Option ValType × Stack) :=
  match s.operands with
  | t :: ts => some (t, { s with operands := ts })
  | [] => if s.unreachable then some (none, s) else none

def pop (s : Stack) (t : ValType) : Option Stack := do
  let (u, s) ← s.popAny
  if u = none ∨ u = some t then some s else none

/-- Takes operands of the given types, the last of which is on top. -/
def popAll (s : Stack) (ts : List ValType) : Option Stack := ts.reverse.foldlM pop s

/-- From operands to results. -/
def apply (s : Stack) (operands results : List ValType) : Option Stack :=
  (s.popAll operands).map (·.pushAll results)

/-- The stack holds operands of these types and no others. -/
def holds (s : Stack) (ts : List ValType) : Bool :=
  match s.popAll ts with
  | some s => s.operands.isEmpty
  | none => false

end Stack
end GuestHarness.Wasm.Typing
