import GuestHarness.CommandLine.Run

/-! The commands that look at a module without running it. -/
namespace GuestHarness.CommandLine

/-- A module's imports and exports, each with a description of its kind. -/
structure Summary where
  module : String
  imports : List (String × String)
  exports : List (String × String)
  deriving Repr, DecidableEq

namespace Summary

def of (c : Compiled) : Summary where
  module := c.name
  imports := c.imports.map fun (module, name, kind) => (qualifiedName module name, kind.describe)
  exports := c.exports.map fun (name, kind) => (name, kind.describe)

def entriesJson (entries : List (String × String)) : Json :=
  .array (entries.map fun (name, kind) => .record [("name", .text name), ("kind", .text kind)])

def toJson (s : Summary) : Json :=
  .record [("module", .text s.module), ("imports", entriesJson s.imports),
    ("exports", entriesJson s.exports)]

/-- Names are filled up to 24 characters. -/
def entryLine (entry : String × String) : String :=
  "  " ++ entry.1 ++ String.ofList (List.replicate (24 - entry.1.length) ' ') ++ " " ++ entry.2

/-- The summary as lines, with the module's name underlined. -/
def lines (s : Summary) : List String :=
  [s!"Module: {s.module}",
    "========" ++ String.ofList (List.replicate s.module.utf8ByteSize '='),
    "",
    s!"Imports ({s.imports.length}):"]
    ++ s.imports.map entryLine ++ ["", s!"Exports ({s.exports.length}):"]
    ++ s.exports.map entryLine

end Summary

def inspect (files : FileTree) (buildDir module : String) (json : Bool) :
    Account CommandError Unit := do
  let path ← resolveModule files module buildDir
  Account.log ⟨.info, Target.inspect, "Inspecting module", [("path", path)]⟩
  let failed (e : Fault) : CommandError := ⟨s!"Failed to compile {path}", some e.message⟩
  let loader ← (Loader.create {}).mapError failed
  let handle ← (loader.compileFile files path).1.mapError failed
  let summary := Summary.of handle.compiled
  if json then printLine summary.toJson.pretty
  else summary.lines.forM printLine

/-- Reports whether a file is a valid module in the binary format. -/
def validate (files : FileTree) (buildDir module : String) : Account CommandError Unit := do
  let path ← resolveModule files module buildDir
  Account.log ⟨.info, Target.validate, "Validating module", [("path", path)]⟩
  match files.read path with
  | .error e => .fail ⟨s!"Failed to read {path}", some e.message⟩
  | .ok bytes =>
    let _ ← (Loader.create {}).mapError fun e => ⟨e.message, none⟩
    match Loader.validate bytes with
    | .ok () => printLine s!"✓ {path} is a valid WebAssembly module"
    | .error e =>
      printLine s!"✗ {path} is not valid:"
      printLine s!"  {e.message}"
      .fail { message := "Module validation failed" }

/-- The version of the program. -/
def versionNumber : String := "0.1.0"

def versionLines : List String :=
  ["wasmhost - WebAssembly host harness",
    "",
    "Version:     " ++ versionNumber,
    "Platform:    linux / x86_64",
    "",
    "Components:",
    "  wasmhost-core      Values, signatures, output sinks, errors",
    "  wasmhost-executor  Wasmtime loader, import tables, invoker",
    "  wasmhost-cli       Command-line interface",
    "",
    "Host imports:",
    "  console.log  (i32) | (i64) | (offset: u32, length: u32)",
    "  js.mem       memory, 1 page"]

end GuestHarness.CommandLine
