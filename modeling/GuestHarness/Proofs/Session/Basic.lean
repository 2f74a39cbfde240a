import GuestHarness.Loader.Basic
import GuestHarness.Proofs.Session.Request

/-! Sessions of a host with a loader: any order of compiling, loading, clearing what is kept, and
requests to what was obtained. Compiled modules and instances are named by their places in the order
in which they were obtained. -/
namespace GuestHarness

inductive Operation where
  | compile (name : String) (bytes : List UInt8)
  | compileFile (path : String)
  | validate (bytes : List UInt8)
  | load (name : String) (bytes : List UInt8) (table : ImportTable)
  | instantiate (place : Nat) (table : ImportTable)
  | clearCache
  | request (place : Nat) (r : Request)

/-- What an operation gives; `η` stands for what is said of a compiled module. -/
inductive Result (η : Type) where
  | compiled (c : η)
  | valid
  | loaded (i : Instance)
  | cleared
  | reply (r : Reply)
  /-- Nothing was obtained at the place. -/
  | absent

def Result.map (f : η → θ) : Result η → Result θ
  | compiled c => compiled (f c)
  | valid => valid
  | loaded i => loaded i
  | cleared => cleared
  | reply r => reply r
  | absent => absent

/-- The bytes that an operation compiles, and the name it compiles them under. -/
def Operation.source? (files : FileTree) : Operation → Option (String × List UInt8)
  | compile name bytes => some (name, bytes)
  | compileFile path =>
    match files.read path with
    | .ok bytes => some ((Path.fileName? path).getD Loader.anonymous, bytes)
    | .error _ => none
  | load name bytes _ => some (name, bytes)
  | _ => none

structure Session where
  loader : Loader
  compiled : List Handle := []
  instances : List Instance := []

namespace Session

variable (s : Session)

/-- The session after an attempt to compile. -/
def keepCompiled (attempt : Account Fault Handle × Loader) :
    Account LoadError (Result Handle) × Session :=
  (Result.compiled <$> attempt.1.mapError .fault,
    { s with loader := attempt.2, compiled := s.compiled ++ attempt.1.outcome.toOption.toList })

/-- The session after an attempt to make an instance. -/
def keepInstance (attempt : Account LoadError Instance × Loader) :
    Account LoadError (Result Handle) × Session :=
  (Result.loaded <$> attempt.1,
    { s with loader := attempt.2, instances := s.instances ++ attempt.1.outcome.toOption.toList })

def step (files : FileTree) : Operation → Account LoadError (Result Handle) × Session
  | .compile name bytes => s.keepCompiled (s.loader.compile name bytes)
  | .compileFile path => s.keepCompiled (s.loader.compileFile files path)
  | .validate bytes =>
    ((fun _ => .valid) <$> .ofExcept ((Loader.validate bytes).mapError .fault), s)
  | .load name bytes table => s.keepInstance (s.loader.load name bytes table)
  | .instantiate place table =>
    match s.compiled[place]? with
    | none => (pure .absent, s)
    | some h => s.keepInstance (s.loader.instantiate h.compiled table, s.loader)
  | .clearCache => (pure .cleared, { s with loader := s.loader.clearCache })
  | .request place r =>
    match s.instances[place]? with
    | none => (pure .absent, s)
    | some i =>
      let (a, i) := i.answer r
      (Result.reply <$> a.mapError .fault, { s with instances := s.instances.set place i })

/-- The accounts of operations carried out one after the other. -/
def run (files : FileTree) (s : Session) : List Operation → List (Account LoadError (Result Handle))
  | [] => []
  | op :: ops =>
    let (a, s) := s.step files op
    a :: run files s ops

end Session
end GuestHarness
