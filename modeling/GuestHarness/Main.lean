import GuestHarness.CommandLine.Program

/-! The executable: reads what the program depends on, and carries out what it decides. -/
namespace GuestHarness

open CommandLine

/-- What the program reads from its environment. -/
def variableNames : List String :=
  ["WASMHOST_MAX_MEMORY_PAGES", "WASMHOST_FUEL", "WASMHOST_CACHE", "WASMHOST_LOG_FORMAT",
    "WASMHOST_LOG_LEVEL", "RUST_LOG", "WASMHOST_LOG_LOCATION", "WASMHOST_LOG_TARGET",
    "WASMHOST_LOG_THREAD_NAMES", "WASMHOST_LOG_THREAD_IDS"]

def readVariables : IO (List (String × String)) :=
  variableNames.filterMapM fun name => do return (← IO.getEnv name).map (name, ·)

/-- The files that the arguments may mean, as far as there are any. -/
def readFiles (args : List String) : IO (List (String × List UInt8)) :=
  match parseArguments args with
  | .error _ => return []
  | .ok i => i.paths.filterMapM fun (path : String) => do
    try return some (path, (← IO.FS.readBinFile path).toList)
    catch _ => return none

def writeError (e : CommandError) : IO Unit := do
  IO.eprintln s!"Error: {e.message}"
  match e.cause with
  | some cause => IO.eprintln s!"\nCaused by:\n    {cause}"
  | none => return ()

end GuestHarness

open GuestHarness in
def main (args : List String) : IO UInt32 := do
  let settings ← readVariables
  let files ← readFiles args
  let done := CommandLine.program args (.ofList settings) (.ofList files)
  IO.print done.output
  for line in done.log do
    IO.eprintln s!"{line.level.name} {line.message}"
  if done.code == 2 then IO.eprintln "error: these arguments cannot be used"
  match done.error with
  | some e => writeError e
  | none => pure ()
  return done.code.toUInt32
