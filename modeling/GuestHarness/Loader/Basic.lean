import GuestHarness.FileTree
import GuestHarness.Instance
import GuestHarness.Loader.Settings
import GuestHarness.Wasm.Text

/-! Loading: bytes are compiled to a module, and the module is made an instance against a table of
imports. Compiled modules may be kept and found again by a hash of their bytes; a module found so
answers to the name it is asked for under, and nothing else tells it from one compiled anew. -/
namespace GuestHarness

/-- A compiled module. -/
structure Compiled where
  name : String
  module : Wasm.Module
  /-- The hash of the bytes it was compiled from. -/
  hash : UInt64

namespace Compiled

def imports (c : Compiled) : List (String × String × ItemKind) := c.module.importKinds

def exports (c : Compiled) : List (String × ItemKind) := c.module.exportKinds

end Compiled

/-- A reference to a compiled module. Two handles are the same if their numbers are. -/
structure Handle where
  number : Nat
  compiled : Compiled

/-- A hash of bytes: each byte is mixed in and multiplied away. -/
def contentHash (bytes : List UInt8) : UInt64 :=
  bytes.foldl (fun h b => (h ^^^ b.toUInt64) * 0x100000001b3) 0xcbf29ce484222325

structure Loader where
  settings : Loader.Settings := {}
  hash : List UInt8 → UInt64 := contentHash
  /-- The modules that are kept, each under the hash of its bytes. -/
  cache : List (UInt64 × Handle) := []
  /-- The number of handles given out so far. -/
  issued : Nat := 0

namespace Loader

/-- The name of a module that is loaded without one. -/
def anonymous : String := "module"

def event (level : Level) (message : String) (fields : List (String × String)) : Event :=
  ⟨level, Target.loading, message, fields⟩

/-- A loader with nothing kept. -/
def create (settings : Settings) : Account Fault Loader :=
  ⟨[.logged (event .debug "Created WASM runtime" [("config", settings.debugText)])],
    .ok { settings }⟩

variable (l : Loader)

def cacheSize : Nat := l.cache.length

def clearCache : Loader := { l with cache := [] }

/-- The module that is kept for bytes with this hash. -/
def kept? (hash : UInt64) : Option Handle :=
  if l.settings.cacheModules then l.cache.lookup hash else none

/-- Gives out a handle; the module is kept if the settings say so. -/
def issue (c : Compiled) : Handle × Loader :=
  let h : Handle := ⟨l.issued, c⟩
  let l := { l with issued := l.issued + 1 }
  (h, if l.settings.cacheModules then { l with cache := (c.hash, h) :: l.cache } else l)

/-- Compiles bytes under a name, unless a module is kept for them. -/
def compile (name : String) (bytes : List UInt8) : Account Fault Handle × Loader :=
  let hash := l.hash bytes
  let place := [("module", name), ("hash", toString hash)]
  match l.kept? hash with
  | some h =>
    let hit := .logged (event .debug "Module cache hit" place)
    if h.compiled.name = name then (⟨[hit], .ok h⟩, l)
    else
      (⟨[hit], .ok ⟨l.issued, { h.compiled with name }⟩⟩, { l with issued := l.issued + 1 })
  | none =>
    match Wasm.Module.compile? bytes with
    | none => (.fail (.validation name engineText), l)
    | some module =>
      let (h, l) := l.issue ⟨name, module, hash⟩
      let done := event .debug "Compiled module" (place ++ [("size", toString bytes.length)])
      (⟨[.logged done], .ok h⟩, l)

/-- Compiles a file under its name. -/
def compileFile (files : FileTree) (path : String) : Account Fault Handle × Loader :=
  match files.read path with
  | .error e => (.fail (.io path e.message), l)
  | .ok bytes => l.compile ((Path.fileName? path).getD anonymous) bytes

/-- Accepts bytes in the binary format that are a valid module. -/
def validate (bytes : List UInt8) : Except Fault Unit :=
  match Wasm.Module.read? bytes with
  | some _ => .ok ()
  | none => .error (.validation anonymous engineText)

/-- The pages that no memory of an instance may exceed. -/
def cap : Option Nat := some l.settings.maxMemoryPages.toNat

/-- Makes a compiled module an instance with a store of its own. -/
def instantiate (c : Compiled) (table : ImportTable) : Account LoadError Instance := do
  let name := ("module", c.name)
  .ofExcept ((table.check c.module c.name).mapError .fault)
  let linkage ← table.link l.cap
  Account.log (event .debug "Linked imports" [name, ("imports", toString table.size)])
  let made := linkage.instantiate c.module c.name (l.settings.initialFuel.map UInt64.toNat) l.cap
  let instance_ ← (made.logFailure fun e =>
    event .warn "Instantiation failed" [name, ("error", e.message)]).mapError .fault
  Account.log (event .info "Instantiated module" [name])
  return instance_

/-- Compiles bytes and makes them an instance. -/
def load (name : String) (bytes : List UInt8) (table : ImportTable) :
    Account LoadError Instance × Loader :=
  let (compiled, l) := l.compile name bytes
  ((do
    let h ← compiled.mapError .fault
    l.instantiate h.compiled table), l)

/-- Loads bytes with a loader of default settings that keeps nothing. -/
def loadOnce (bytes : List UInt8) (table : ImportTable) : Account LoadError Instance := do
  let l ← (create { cacheModules := false }).mapError .fault
  (l.load anonymous bytes table).1

end Loader
end GuestHarness
