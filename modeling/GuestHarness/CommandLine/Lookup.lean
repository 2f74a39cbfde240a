import GuestHarness.CommandLine.Arguments
import GuestHarness.FileTree
import GuestHarness.Sink

/-! Finding the file of a module: the argument itself if it is a file, else the module of this name in
the build directory. -/
namespace GuestHarness.CommandLine

/-- Why a command fails: what it was about, and what came in the way. -/
structure CommandError where
  message : String
  cause : Option String := none
  deriving Repr, DecidableEq

/-- The name of a module's file; the extension is added if it is not there. -/
def moduleFileName (module : String) : String :=
  if Path.extension? module = some "wasm" then module else module ++ ".wasm"

/-- The place of a module in the build directory. -/
def candidate (buildDir module : String) : String := Path.join buildDir (moduleFileName module)

/-- The paths that may be looked at. -/
def Invocation.paths (i : Invocation) : List String :=
  match i.request with
  | .run module .. | .inspect module _ | .validate module =>
    [module, candidate i.buildDir module]
  | .version => []

/-- The path of a module's file, where `isFile` tells which paths are files. -/
def resolveAmong (isFile : String → Bool) (module buildDir : String) : Account CommandError String :=
  let other := candidate buildDir module
  if isFile module then pure module
  else if isFile other then do
    Account.log ⟨.debug, Target.lookup, "Resolved module in build directory",
      [("module", module), ("path", other)]⟩
    return other
  else .fail { message := s!"Module not found: {module} (also tried {other})" }

/-- The path of a module's file in a tree of files. -/
def resolveModule (files : FileTree) (module buildDir : String) : Account CommandError String :=
  resolveAmong files.isFile module buildDir

theorem resolveAmong_outcome (isFile : String → Bool) (module buildDir : String) :
    (resolveAmong isFile module buildDir).outcome =
      if isFile module then .ok module
      else if isFile (candidate buildDir module) then .ok (candidate buildDir module)
      else .error { message :=
        s!"Module not found: {module} (also tried {candidate buildDir module})" } := by
  simp only [resolveAmong]
  split
  · rfl
  · split <;> rfl

theorem resolveModule_outcome (files : FileTree) (module buildDir : String) :
    (resolveModule files module buildDir).outcome =
      if files.isFile module then .ok module
      else if files.isFile (candidate buildDir module) then .ok (candidate buildDir module)
      else .error { message :=
        s!"Module not found: {module} (also tried {candidate buildDir module})" } :=
  resolveAmong_outcome files.isFile module buildDir

end GuestHarness.CommandLine
