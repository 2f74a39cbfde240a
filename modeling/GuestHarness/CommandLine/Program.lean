import GuestHarness.CommandLine.Inspect
import GuestHarness.Logging.Filter

/-! The program as a function: from arguments, environment and files to what it writes and how it
exits. -/
namespace GuestHarness.CommandLine

/-- The end of the program. -/
structure Exit where
  code : UInt8
  output : String
  error : Option CommandError := none
  /-- The lines of the log, if it is written as JSON. -/
  log : List Logging.LogLine := []
  deriving Repr, DecidableEq

/-- What is printed, a line for each piece. -/
def outputOf (os : List Occurrence) : String :=
  String.join ((emissionsTo .standardOutput os).map fun e => e.display ++ "\n")

def perform (files : FileTree) (env : Environment) (i : Invocation) : Account CommandError Unit :=
  match i.request with
  | .run module options json => run files env i.buildDir module options json
  | .inspect module json => inspect files i.buildDir module json
  | .validate module => validate files i.buildDir module
  | .version => versionLines.forM printLine

/-- The settings of the log: the environment's, with the detail that the arguments ask for. -/
def logSettings (env : Environment) (i : Invocation) : Logging.Settings :=
  ((Logging.Draft.ofEnvironment env).verbosity i.verbosity).build

/-- Runs the program on its arguments. -/
def program (args : List String) (env : Environment) (files : FileTree) : Exit :=
  match parseArguments args with
  | .error .usage => { code := 2, output := "" }
  | .error .help => { code := 0, output := "" }
  | .error .version => { code := 0, output := s!"wasmhost {versionNumber}\n" }
  | .ok invocation =>
    let done := perform files env invocation
    let settings := logSettings env invocation
    let log := if settings.format = .json then settings.lines (eventsOf done.noticed) else []
    let output := outputOf done.noticed
    match done.outcome with
    | .ok () => { code := 0, output, log }
    | .error e => { code := 1, output, error := some e, log }

end GuestHarness.CommandLine
