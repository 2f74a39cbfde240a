import GuestHarness.Decimal.Literal

/-! The arguments of the command line. Options may stand among the operands; the first command word
ends the general options, and what follows it belongs to the command. -/
namespace GuestHarness.CommandLine

/-- The tables of imports that can be asked for. -/
inductive ImportChoice where
  | none
  | int
  | int64
  | string
  | stringExported
  deriving Repr, DecidableEq, Inhabited

def ImportChoice.ofName? (s : String) : Option ImportChoice :=
  if s = "none" then some none
  else if s = "int" then some int
  else if s = "int64" then some int64
  else if s = "string" then some string
  else if s = "string-exported" then some stringExported
  else Option.none

inductive Command where
  | run
  | inspect
  | validate
  | version
  deriving Repr, DecidableEq

namespace Command

def ofName? (s : String) : Option Command :=
  if s = "run" then some run
  else if s = "inspect" then some inspect
  else if s = "validate" then some validate
  else if s = "version" then some version
  else none

/-- There may be one more operand after `n` others. -/
def admitsOperand (n : Nat) : Command → Bool
  | run => true
  | inspect | validate => n = 0
  | version => false

/-- The number of operands that cannot be left out. -/
def required : Command → Nat
  | run | inspect | validate => 1
  | version => 0

end Command

inductive Switch where
  | verbose
  | buildDir
  | imports
  | invoke
  | json
  | fuel
  | help
  | showVersion
  deriving Repr, DecidableEq

namespace Switch

def takesValue : Switch → Bool
  | buildDir | imports | invoke | fuel => true
  | verbose | json | help | showVersion => false

/-- The option belongs to the command, or to what comes before any command. -/
def belongsTo (command : Option Command) : Switch → Bool
  | verbose | buildDir | help => true
  | showVersion => command.isNone
  | imports | invoke | fuel => command = some .run
  | json => command = some .run || command = some .inspect

def ofLong? (s : String) : Option Switch :=
  if s = "verbose" then some verbose
  else if s = "build-dir" then some buildDir
  else if s = "imports" then some imports
  else if s = "invoke" then some invoke
  else if s = "json" then some json
  else if s = "fuel" then some fuel
  else if s = "help" then some help
  else if s = "version" then some showVersion
  else none

def ofShort? : Char → Option Switch
  | 'v' => some verbose
  | 'i' => some imports
  | 'h' => some help
  | 'V' => some showVersion
  | _ => none

end Switch

/-- Why the arguments lead to no command. -/
inductive Stop where
  | usage
  | help
  | version
  deriving Repr, DecidableEq

/-- What was given on one side of the command word. -/
structure Given where
  /-- How often more detail was asked for. -/
  verbose : Nat := 0
  buildDir : Option String := none
  imports : Option ImportChoice := none
  invoke : Option String := none
  json : Bool := false
  fuel : Option UInt64 := none
  /-- The operands, the last one first. -/
  operands : List String := []
  deriving Repr, DecidableEq, Inhabited

namespace Given

variable (g : Given)

/-- Takes an option without a value. -/
def mark : Switch → Except Stop Given
  | .verbose => .ok { g with verbose := g.verbose + 1 }
  | .json => if g.json then .error .usage else .ok { g with json := true }
  | .help => .error .help
  | .showVersion => .error .version
  | _ => .error .usage

/-- Takes an option with its value. No such option may be repeated. -/
def set (value : String) : Switch → Except Stop Given
  | .buildDir =>
    if g.buildDir.isSome || value = "" then .error .usage
    else .ok { g with buildDir := some value }
  | .imports =>
    match g.imports, ImportChoice.ofName? value with
    | none, some choice => .ok { g with imports := some choice }
    | _, _ => .error .usage
  | .invoke => if g.invoke.isSome then .error .usage else .ok { g with invoke := some value }
  | .fuel =>
    match g.fuel, Decimal.naturalBelow? UInt64.size value.toList with
    | none, some n => .ok { g with fuel := some (.ofNat n) }
    | _, _ => .error .usage
  | _ => .error .usage

/-- Takes an operand, if the command has a place for one more. -/
def operand (command : Option Command) (value : String) : Except Stop Given :=
  if (command.map (·.admitsOperand g.operands.length)).getD false then
    .ok { g with operands := value :: g.operands }
  else .error .usage

end Given

/-- Digits, with at most one point after the first of them and an exponent after the point. -/
def isNumber (cs : List Char) : Bool :=
  let whole := cs.takeWhile Decimal.isDigit
  let isExponent : List Char → Bool
    | [] => true
    | c :: ds => (c == 'e' || c == 'E') && !ds.isEmpty && ds.all Decimal.isDigit
  !whole.isEmpty &&
    match cs.dropWhile Decimal.isDigit with
    | '.' :: rest => isExponent (rest.dropWhile Decimal.isDigit)
    | rest => isExponent rest

/-- How an argument looks. -/
inductive Shape where
  /-- Two dashes: only operands follow. -/
  | separator
  | long (name : String) (value : Option String)
  /-- Letters after one dash. -/
  | short (letters : List Char)
  | plain
  deriving Repr, DecidableEq

def Shape.of (arg : String) : Shape :=
  match arg.toList with
  | ['-', '-'] => separator
  | '-' :: '-' :: cs =>
    let name := String.ofList (cs.takeWhile (· ≠ '='))
    match cs.dropWhile (· ≠ '=') with
    | _ :: value => long name (some (String.ofList value))
    | [] => long name none
  | '-' :: c :: cs => short (c :: cs)
  | _ => plain

/-- The argument may be a value or an operand. A number with a dash in front may be one where the
command `run` has its operands after the first. -/
def Shape.isValue (command : Option Command) (g : Given) : Shape → Bool
  | plain => true
  | short letters => command = some .run && !g.operands.isEmpty && isNumber letters
  | separator | long .. => false

/-- What an argument does besides what it gives: an option may want its value from the next one. -/
inductive Effect where
  | taken (g : Given)
  | awaiting (s : Switch) (g : Given)

/-- An option that belongs to the command. -/
def admitted (command : Option Command) (s : Option Switch) : Except Stop Switch :=
  match s with
  | none => .error .usage
  | some s => if s.belongsTo command then .ok s else .error .usage

def takeLong (command : Option Command) (g : Given) (name : String) (value : Option String) :
    Except Stop Effect := do
  let s ← admitted command (Switch.ofLong? name)
  match value with
  | some v => if s.takesValue then return .taken (← g.set v s) else .error .usage
  | none => if s.takesValue then return .awaiting s g else return .taken (← g.mark s)

/-- Letters are options one after the other; one with a value takes what follows it, without an
equals sign. -/
def takeShort (command : Option Command) (g : Given) : List Char → Except Stop Effect
  | [] => .ok (.taken g)
  | c :: cs => do
    let s ← admitted command (Switch.ofShort? c)
    if s.takesValue then
      match cs with
      | [] => return .awaiting s g
      | '=' :: value => return .taken (← g.set (String.ofList value) s)
      | value => return .taken (← g.set (String.ofList value) s)
    else takeShort command (← g.mark s) cs

/-- Reads the arguments of a command. `awaiting` is an option that wants its value. -/
def readCommand (command : Command) (g : Given) (awaiting : Option Switch) :
    List String → Except Stop Given
  | [] => if awaiting.isSome then .error .usage else .ok g
  | arg :: args =>
    let shape := Shape.of arg
    if shape.isValue (some command) g then
      match awaiting with
      | some s => do readCommand command (← g.set arg s) none args
      | none => do readCommand command (← g.operand (some command) arg) none args
    else if awaiting.isSome then .error .usage
    else
      let effect : Except Stop Effect := match shape with
        | .long name value => takeLong (some command) g name value
        | .short letters => takeShort (some command) g letters
        | .separator | .plain => .ok (.taken g)
      match shape with
      | .separator => args.foldlM (fun g arg => g.operand (some command) arg) g
      | _ =>
        match effect with
        | .error e => .error e
        | .ok (.taken g) => readCommand command g none args
        | .ok (.awaiting s g) => readCommand command g (some s) args

/-- Reads the arguments up to the command word, and those of the command after it. -/
def readAll (g : Given) (awaiting : Option Switch) :
    List String → Except Stop (Command × Given × Given)
  | [] => .error .usage
  | arg :: args =>
    match Shape.of arg, awaiting with
    | .plain, some s => do readAll (← g.set arg s) none args
    | .plain, none =>
      match Command.ofName? arg with
      | some command => do return (command, g, ← readCommand command {} none args)
      | none => .error (if arg = "help" then .help else .usage)
    | .long name value, none =>
      match takeLong none g name value with
      | .error e => .error e
      | .ok (.taken g) => readAll g none args
      | .ok (.awaiting s g) => readAll g (some s) args
    | .short letters, none =>
      match takeShort none g letters with
      | .error e => .error e
      | .ok (.taken g) => readAll g none args
      | .ok (.awaiting s g) => readAll g (some s) args
    | _, _ => .error .usage

/-- What to run. -/
structure RunOptions where
  imports : ImportChoice
  exported : String
  args : List String
  fuel : Option UInt64
  deriving Repr, DecidableEq

inductive Request where
  | run (module : String) (options : RunOptions) (json : Bool)
  | inspect (module : String) (json : Bool)
  | validate (module : String)
  | version
  deriving Repr, DecidableEq

structure Invocation where
  verbosity : Nat
  buildDir : String
  request : Request
  deriving Repr, DecidableEq

/-- The directory that is searched for modules. -/
def defaultBuildDir : String := "gwe_build"

def requestOf (command : Command) (g : Given) : Except Stop Request :=
  match command, g.operands.reverse with
  | .run, module :: args =>
    .ok (.run module ⟨g.imports.getD .none, g.invoke.getD "main", args, g.fuel⟩ g.json)
  | .inspect, [module] => .ok (.inspect module g.json)
  | .validate, [module] => .ok (.validate module)
  | .version, [] => .ok .version
  | _, _ => .error .usage

/-- Reads the command line. What is given after the command word outweighs what is given before. -/
def parseArguments (args : List String) : Except Stop Invocation := do
  let (command, before, after) ← readAll {} none args
  let request ← requestOf command after
  return {
    verbosity := if after.verbose = 0 then before.verbose else after.verbose
    buildDir := (after.buildDir.or before.buildDir).getD defaultBuildDir
    request }

end GuestHarness.CommandLine
