import GuestHarness.Wasm.Module

/-! What a module's imports and exports are, as far as a host can use them. -/
namespace GuestHarness

inductive ItemKind where
  | function (signature : Signature)
  /-- A function that exchanges more than numbers, with the text of its type. -/
  | unsupportedFunction (type : String)
  /-- Sizes are in pages. -/
  | memory (minimum : Nat) (maximum : Option Nat)
  | table
  | global
  deriving Repr, DecidableEq

/-- Stands for the types of functions beyond numbers, which have no text of their own. -/
def functionTypeText : String := "<functype>"

namespace ItemKind

def describe : ItemKind → String
  | function s => s!"func {s.text}"
  | unsupportedFunction type => s!"func {type} (unsupported)"
  | memory minimum (some maximum) => s!"memory {minimum}..{maximum} pages"
  | memory minimum none => s!"memory {minimum}.. pages"
  | table => "table"
  | global => "global"

/-- Whether a memory is shared does not show. -/
def ofType : Wasm.ExternType → ItemKind
  | .func type =>
    match type.signature? with
    | some s => function s
    | none => unsupportedFunction functionTypeText
  | .memory type => memory type.limits.minimum type.limits.maximum
  | .table _ => table
  | .global _ => global

end ItemKind

namespace Wasm.Module

variable (m : Module)

/-- Imports with their kinds, in order. -/
def importKinds : List (String × String × ItemKind) :=
  m.imports.filterMap fun i => (m.importType? i).map fun t => (i.module, i.name, .ofType t)

/-- Exports with their kinds, in order. -/
def exportKinds : List (String × ItemKind) :=
  m.exports.filterMap fun e => (m.exportType? e).map fun t => (e.name, .ofType t)

end Wasm.Module
end GuestHarness
