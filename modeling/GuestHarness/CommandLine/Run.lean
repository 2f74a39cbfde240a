import GuestHarness.CommandLine.Lookup
import GuestHarness.Json.Codec
import GuestHarness.Loader.Basic

/-! The command that loads a module and calls one of its exports. The run itself is the same in plain
mode and in JSON mode; the modes differ in the sink and in what is printed in the end. -/
namespace GuestHarness.CommandLine

/-- Prints text with a line's end after it. -/
def printLine {ε : Type} (text : String) : Account ε Unit :=
  ⟨[.emitted .standardOutput (.text text)], .ok ()⟩

/-- The sink that keeps emissions for the report. -/
def reportSink : Sink := .recorder 0

def ImportChoice.table (sink : Sink) : ImportChoice → ImportTable
  | none => .empty
  | int => .integerLogger .w32 sink
  | int64 => .integerLogger .w64 sink
  | string => .stringLogger sink
  | stringExported => .stringLoggerExported sink defaultMemoryExport

/-- What a run gives in the end. -/
structure RunOutcome where
  result : Option Value
  remainingFuel : Option Nat
  deriving Repr, DecidableEq

/-- A failure of loading as a fault. The memories that are offered here can all be. -/
def faultOf : LoadError → Fault
  | .fault e => e
  | .impossibleMemory pages => .engine pages.debugText

/-- The settings of the environment, with nothing kept and with the fuel that was asked for. -/
def runSettings (env : Environment) (fuel : Option UInt64) : Loader.Settings :=
  let s := { Loader.Settings.ofEnvironment env with cacheModules := false }
  match fuel with
  | some n => s.withFuel true n
  | none => s

/-- Reads the arguments at the export's signature and calls it. -/
def callExport (i : Instance) (options : RunOptions) : Account Fault RunOutcome := do
  let s ← .ofExcept (i.signature options.exported)
  let args ← .ofExcept (s.parseArgs options.exported options.args)
  let (called, i) := i.invoke options.exported args
  let result ← called
  return ⟨result, i.fuel⟩

/-- Loads the module at a path, links it and calls the export. -/
def execute (files : FileTree) (env : Environment) (path : String) (options : RunOptions)
    (sink : Sink) : Account Fault RunOutcome := do
  let loader ← Loader.create (runSettings env options.fuel)
  let handle ← (loader.compileFile files path).1
  let i ← (loader.instantiate handle.compiled (options.imports.table sink)).mapError faultOf
  callExport i options

def RunOutcome.members (o : RunOutcome) : List (String × Json) :=
  [("result", Json.optional Value.toJson o.result),
    ("remaining_fuel", Json.optional (fun n => Json.integer n) o.remainingFuel)]

def errorMembers (e : Fault) : List (String × Json) :=
  [("error", .record [("code", .text e.code), ("message", .text e.message)])]

/-- The report of a run: its emissions, and then its outcome or its error. -/
def report (module : String) (options : RunOptions) (ran : Account Fault RunOutcome) : Json :=
  .record ([("module", .text module), ("export", .text options.exported),
      ("emissions", .array ((emissionsTo reportSink ran.noticed).map Emission.toJson))]
    ++ match ran.outcome with
      | .ok o => o.members
      | .error e => errorMembers e)

/-- The error of the command, when the run failed. -/
def runError (path : String) (e : Fault) : CommandError :=
  ⟨s!"Failed to run {path}", some e.message⟩

def running (path : String) (options : RunOptions) : Event :=
  ⟨.info, Target.run, "Running module", [("path", path), ("export", options.exported)]⟩

def run (files : FileTree) (env : Environment) (buildDir module : String) (options : RunOptions)
    (json : Bool) : Account CommandError Unit := do
  let path ← resolveModule files module buildDir
  Account.log (running path options)
  if json then
    let ran := execute files env path options reportSink
    ⟨ran.noticed ++ [.emitted .standardOutput (.text (report module options ran).pretty)],
      (ran.outcome.map fun _ => ()).mapError (runError path)⟩
  else
    let o ← (execute files env path options .standardOutput).mapError (runError path)
    match o.result with
    | some v => printLine v.text
    | none => return ()

end GuestHarness.CommandLine
