import GuestHarness.Import.Table
import GuestHarness.Registry

/-! Whether a table of offers satisfies a module, before anything is made of either. The first import
in the module's order that meets an objection decides. -/
namespace GuestHarness

/-- The offer can stand where a module declares an import of this type. A memory may be larger than
asked for, but must not be able to grow further. -/
def Offer.satisfies (o : Offer) (declared : Wasm.ExternType) : Bool :=
  match o, declared with
  | .memory p, .memory type =>
    !type.shared && type.limits.minimum ≤ p.limits.minimum &&
      match type.limits.maximum, p.limits.maximum with
      | none, _ => true
      | some _, none => false
      | some bound, some top => top ≤ bound
  | .logger l _, .func type => type.signature? = some l.signature
  | _, _ => false

/-- Why an import cannot be satisfied. -/
inductive Objection where
  /-- Nothing is offered at the key. -/
  | unknown
  | incompatible (declared provided : ItemKind)
  /-- The logger reads a memory of the host that the guest does not see. -/
  | memoryNotImported (memory : String)
  deriving Repr, DecidableEq

/-- The objection to an import, by the name of the import. -/
def Objection.message (key : String) : Objection → String
  | unknown => s!"unknown import `{key}`"
  | incompatible declared provided =>
    s!"incompatible import type for `{key}`: module declares {declared.describe}, " ++
      s!"host provides {provided.describe}"
  | memoryNotImported memory =>
    s!"`{key}` reads host memory `{memory}`, which the module does not import"

/-- The module has an import at this key. -/
def Wasm.Module.hasImport (m : Wasm.Module) (module name : String) : Bool :=
  m.imports.any fun i => i.module = module && i.name = name

namespace ImportTable

variable (t : ImportTable) (m : Wasm.Module)

/-- What speaks against an import of the module. -/
def objection? (i : Wasm.Import) : Option Objection :=
  match t.find? i.module i.name with
  | none => some .unknown
  | some entry =>
    match m.importType? i with
    | none => some .unknown
    | some declared =>
      if entry.offer.satisfies declared then
        match entry.offer with
        | .logger (.string (.imported module name)) _ =>
          if m.hasImport module name then none
          else some (.memoryNotImported (qualifiedName module name))
        | _ => none
      else some (.incompatible (.ofType declared) entry.offer.kind)

/-- The message of the first objection, in the order of the module's imports. -/
def firstObjection? : Option String :=
  m.imports.findSome? fun i =>
    (t.objection? m i).map (Objection.message (qualifiedName i.module i.name))

/-- Refuses the module because of the first import that meets an objection. -/
def check (moduleName : String) : Except Fault Unit :=
  match t.firstObjection? m with
  | none => .ok ()
  | some cause => .error (.link moduleName cause)

theorem check_eq_ok_iff {moduleName : String} :
    t.check m moduleName = .ok () ↔ ∀ i ∈ m.imports, t.objection? m i = none := by
  have h : t.firstObjection? m = none ↔ ∀ i ∈ m.imports, t.objection? m i = none := by
    simp [firstObjection?]
  rw [← h, check]
  cases t.firstObjection? m <;> simp

end ImportTable
end GuestHarness
