/-! What can go wrong between a host and its guest. Each kind of failure is a cause of its own with a
stable code, and its message begins with that code. -/
namespace GuestHarness

/-- The conditions under which a guest is stopped. -/
inductive TrapKind where
  | memoryOutOfBounds
  | tableOutOfBounds
  | badIndirectCall
  | integerDivisionByZero
  | integerOverflow
  | badConversionToInteger
  | unreachable
  | stackOverflow
  | outOfFuel
  | other
  deriving Repr, DecidableEq, Inhabited

def TrapKind.message : TrapKind → String
  | memoryOutOfBounds => "out of bounds memory access"
  | tableOutOfBounds => "out of bounds table access"
  | badIndirectCall => "bad indirect call"
  | integerDivisionByZero => "integer divide by zero"
  | integerOverflow => "integer overflow"
  | badConversionToInteger => "invalid conversion to integer"
  | unreachable => "unreachable"
  | stackOverflow => "call stack exhausted"
  | outOfFuel => "all fuel consumed"
  | other => "trap"

/-- A failure of loading a module or of calling into it. -/
inductive Fault where
  /-- The engine could not be set up. -/
  | engine (cause : String)
  /-- A host import could not be provided. -/
  | hostFunction (module name cause : String)
  /-- The bytes are no valid module. -/
  | validation (module cause : String)
  /-- The table of imports does not satisfy the module. -/
  | link (module cause : String)
  /-- The module could not be started. -/
  | instantiation (module cause : String)
  /-- No function is exported under the name. -/
  | notFound (exported : String)
  /-- The arguments or the way of calling do not suit the function. -/
  | arityOrType (exported expected actual : String)
  /-- The guest was stopped. -/
  | trap (exported : String) (kind : TrapKind) (cause : String)
  /-- A range of bytes reaches beyond the memory. -/
  | memoryBounds (offset length : UInt32) (memorySize : Nat)
  /-- Bytes that should be text are not UTF-8. -/
  | decode (offset length : UInt32) (cause : String)
  /-- There is no memory under the name. -/
  | memoryUnavailable (name : String)
  /-- A file could not be read. -/
  | io (path cause : String)
  deriving Repr, DecidableEq, Inhabited

namespace Fault

def code : Fault → String
  | engine .. => "E001"
  | hostFunction .. => "E002"
  | validation .. => "E101"
  | link .. => "E102"
  | instantiation .. => "E103"
  | notFound .. => "E201"
  | arityOrType .. => "E202"
  | trap .. => "E203"
  | memoryBounds .. => "E301"
  | decode .. => "E302"
  | memoryUnavailable .. => "E303"
  | io .. => "E901"

/-- What happened, without the code. -/
def description : Fault → String
  | engine cause => s!"Failed to create WASM engine: {cause}"
  | hostFunction module name cause =>
    s!"Failed to register host import '{module}.{name}': {cause}"
  | validation module cause => s!"Invalid WASM module '{module}': {cause}"
  | link module cause => s!"Failed to link WASM module '{module}': {cause}"
  | instantiation module cause => s!"Failed to instantiate WASM module '{module}': {cause}"
  | notFound exported => s!"Export '{exported}' not found"
  | arityOrType exported expected actual =>
    s!"Arguments to '{exported}' do not match its signature: expected {expected}, got {actual}"
  | trap exported kind cause => s!"WASM trap in '{exported}': {kind.message}: {cause}"
  | memoryBounds offset length memorySize =>
    s!"Memory access out of bounds: offset {offset} + length {length} exceeds memory size {memorySize}"
  | decode offset length cause => s!"Invalid UTF-8 at offset {offset} (length {length}): {cause}"
  | memoryUnavailable name => s!"Guest memory '{name}' is not available"
  | io path cause => s!"Failed to read module at {path}: {cause}"

def message (e : Fault) : String := e.code ++ ": " ++ e.description

/-- The failure arose while bytes were made into an instance. -/
def isLoadError : Fault → Bool
  | validation .. | link .. | instantiation .. => true
  | _ => false

/-- The guest is at fault, by a trap or by a bad descriptor. -/
def isGuestFault : Fault → Bool
  | trap .. | memoryBounds .. | decode .. | memoryUnavailable .. => true
  | _ => false

def trapKind? : Fault → Option TrapKind
  | trap _ kind _ => some kind
  | _ => none

/-- A logger raised the failure while it read guest memory. -/
def isDescriptorFault : Fault → Bool
  | memoryBounds .. | decode .. | memoryUnavailable .. => true
  | _ => false

/-- Loading and the guest are never both to blame. -/
theorem isGuestFault_of_isLoadError {e : Fault} (h : e.isLoadError = true) :
    e.isGuestFault = false := by
  cases e <;> simp_all [isLoadError, isGuestFault]

end Fault
end GuestHarness
