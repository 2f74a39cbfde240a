import GuestHarness.Decimal.Literal
import GuestHarness.Environment
import GuestHarness.Wasm.Types

/-! Settings of a loader: how large memories may grow, whether and how much fuel is given, and whether
compiled modules are kept. Each variable of the environment bears on its own setting alone. -/
namespace GuestHarness.Loader

structure Settings where
  /-- The pages that no memory may exceed. -/
  maxMemoryPages : UInt32 := 1024
  fuelEnabled : Bool := false
  /-- The fuel that each instance starts with, if fuel is metered. -/
  fuelAmount : UInt64 := 10000000
  cacheModules : Bool := true
  debugInfo : Bool := false
  deriving Repr, DecidableEq, Inhabited

namespace Settings

/-- For guests that are not trusted. -/
def production : Settings := { fuelEnabled := true }

/-- Stricter bounds. -/
def testing : Settings :=
  { maxMemoryPages := 256, fuelEnabled := true, fuelAmount := 1000000, cacheModules := false,
    debugInfo := true }

/-- A word that switches something off. -/
def isOff (word : String) : Bool := word = "0" || word = "off" || word = "false"

variable (s : Settings)

def withFuel (enabled : Bool) (amount : UInt64) : Settings :=
  { s with fuelEnabled := enabled, fuelAmount := amount }

def setMemory : Option String → Settings
  | none => s
  | some text =>
    match Decimal.naturalBelow? UInt32.size text.toList with
    | some n => { s with maxMemoryPages := .ofNat n }
    | none => s

/-- A word that switches fuel off keeps the amount. -/
def setFuel : Option String → Settings
  | none => s
  | some text =>
    if isOff (lowerCased text) then { s with fuelEnabled := false }
    else
      match Decimal.naturalBelow? UInt64.size (lowerCased text).toList with
      | some n => s.withFuel true (.ofNat n)
      | none => s

def setCache : Option String → Settings
  | none => s
  | some text => { s with cacheModules := !isOff (lowerCased text) }

/-- The default settings with what the environment says. -/
def ofEnvironment (env : Environment) : Settings :=
  let s : Settings := {}
  ((s.setMemory (env "WASMHOST_MAX_MEMORY_PAGES")).setFuel (env "WASMHOST_FUEL")).setCache
    (env "WASMHOST_CACHE")

/-- The largest size of a memory in bytes. -/
def maxMemoryBytes : Nat := s.maxMemoryPages.toNat * Wasm.pageSize

/-- The fuel of a new instance. -/
def initialFuel : Option UInt64 := if s.fuelEnabled then some s.fuelAmount else none

def debugText : String :=
  s!"WasmRuntimeConfig \x7b max_memory_pages: {s.maxMemoryPages}, " ++
    s!"fuel_enabled: {s.fuelEnabled}, fuel_amount: {s.fuelAmount}, " ++
    s!"cache_modules: {s.cacheModules}, debug_info: {s.debugInfo} \x7d"

end Settings
end GuestHarness.Loader
