import GuestHarness.ItemKind
import GuestHarness.Sink
import GuestHarness.Text.Quoted

/-! What a host may offer under an import's name: a memory of its own, or a logger that passes what
the guest gives it to a sink. -/
namespace GuestHarness

/-- The size of a host's memory in pages, and how far it may grow. -/
structure MemoryPages where
  initial : UInt32 := 1
  maximum : Option UInt32 := none
  deriving Repr, DecidableEq, Inhabited

namespace MemoryPages

variable (p : MemoryPages)

def limits : Wasm.Limits := ⟨p.initial.toNat, p.maximum.map UInt32.toNat⟩

/-- There can be a memory of this size: bounds are in order and addressable. -/
def isPossible : Bool := p.limits.within Wasm.maxPages

def type : Wasm.MemoryType := ⟨p.limits, false⟩

def debugText : String :=
  let maximum := match p.maximum with
    | none => "None"
    | some n => s!"Some({n})"
  s!"MemoryPages \x7b initial: {p.initial}, maximum: {maximum} \x7d"

end MemoryPages

/-- Where a string logger finds the memory it reads. -/
inductive MemorySource where
  /-- A memory of the host, by the key it is offered under. -/
  | imported (module name : String)
  /-- A memory that the calling module exports. -/
  | exported (name : String)
  deriving Repr, DecidableEq

def MemorySource.debugText : MemorySource → String
  | imported module name =>
    s!"Imported \x7b module: {Text.quote module}, name: {Text.quote name} \x7d"
  | exported name => s!"Exported({Text.quote name})"

/-- Functions that emit what they are called with. -/
inductive Logger where
  | integer (width : Wasm.Width)
  /-- Takes a range of bytes and emits the text there. -/
  | string (memory : MemorySource)
  deriving Repr, DecidableEq

def Logger.signature : Logger → Signature
  | integer .w32 => ⟨[.i32], []⟩
  | integer .w64 => ⟨[.i64], []⟩
  | string _ => ⟨[.i32, .i32], []⟩

inductive Offer where
  | memory (pages : MemoryPages)
  | logger (logger : Logger) (sink : Sink)
  deriving Repr, DecidableEq

namespace Offer

def kind : Offer → ItemKind
  | memory p => .memory p.limits.minimum p.limits.maximum
  | logger l _ => .function l.signature

/-- Sinks do not show. -/
def debugText : Offer → String
  | memory p => s!"Memory({p.debugText})"
  | logger (.integer .w32) _ => "IntegerLogger \x7b width: I32, .. \x7d"
  | logger (.integer .w64) _ => "IntegerLogger \x7b width: I64, .. \x7d"
  | logger (.string source) _ => s!"StringLogger \x7b memory: {source.debugText}, .. \x7d"

end Offer
end GuestHarness
