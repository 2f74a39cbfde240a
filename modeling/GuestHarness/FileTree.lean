import GuestHarness.Path

/-! Trees of files as a program sees them from its own directory. -/
namespace GuestHarness

/-- Why a file cannot be read. -/
inductive FileError where
  | notFound
  | notADirectory
  | isADirectory
  deriving Repr, DecidableEq

def FileError.message : FileError → String
  | notFound => "No such file or directory (os error 2)"
  | notADirectory => "Not a directory (os error 20)"
  | isADirectory => "Is a directory (os error 21)"

inductive FileNode where
  | file (bytes : List UInt8)
  | directory

/-- Files and directories by the names that lead to them from the root, the last name first. -/
structure FileTree where
  nodes : List (List String × FileNode) := []
  deriving Inhabited

namespace FileTree

/-- The program's own directory. It stands under a name that no path can spell, so that only what is
written relative to it, or above it, can be found. -/
def home : List String := [""]

/-- Where a path begins. -/
def start (path : String) : List String := if Path.isAbsolute path then [] else home

variable (t : FileTree)

/-- The root and the program's own directory are always there. -/
def node? (place : List String) : Option FileNode :=
  if place = [] || place = home then some .directory else t.nodes.lookup place

/-- Goes on from a place along the parts of a path. Every part but the last has to lead to a
directory, and an idle part too asks for one. -/
def follow (place : List String) : List String → Except FileError FileNode
  | [] =>
    match t.node? place with
    | none => .error .notFound
    | some n => .ok n
  | part :: parts =>
    match t.node? place with
    | none => .error .notFound
    | some (.file _) => .error .notADirectory
    | some .directory =>
      if Path.isIdle part then follow place parts
      else if part = ".." then follow place.tail parts
      else follow (part :: place) parts

/-- What a path leads to; the empty path leads nowhere. -/
def lookup (path : String) : Except FileError FileNode :=
  if path = "" then .error .notFound else t.follow (start path) (Path.parts path)

def isFile (path : String) : Bool :=
  match t.lookup path with
  | .ok (.file _) => true
  | _ => false

def read (path : String) : Except FileError (List UInt8) :=
  match t.lookup path with
  | .ok (.file bytes) => .ok bytes
  | .ok .directory => .error .isADirectory
  | .error e => .error e

/-- Makes a directory, and those that lead to it. -/
def make (t : FileTree) : List String → FileTree
  | [] => t
  | name :: above =>
    let t := make t above
    let place := name :: above
    if (t.node? place).isSome then t else ⟨(place, .directory) :: t.nodes⟩

/-- Puts a file, and makes the directories on the way to it. -/
def put (t : FileTree) (bytes : List UInt8) (place : List String) : List String → FileTree
  | [] => ⟨(place, .file bytes) :: t.nodes.filter fun n => n.1 ≠ place⟩
  | part :: parts =>
    let t := t.make place
    if Path.isIdle part then put t bytes place parts
    else if part = ".." then put t bytes place.tail parts
    else put t bytes (part :: place) parts

/-- Writes a file at a path. -/
def write (path : String) (bytes : List UInt8) : FileTree := t.put bytes (start path) (Path.parts path)

def ofList (files : List (String × List UInt8)) : FileTree :=
  files.foldl (fun t f => t.write f.1 f.2) {}

theorem isFile_iff (path : String) :
    t.isFile path = true ↔ ∃ bytes, t.read path = .ok bytes := by
  unfold isFile read
  split <;> simp_all
  split <;> simp_all

end FileTree
end GuestHarness
