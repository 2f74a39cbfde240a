import GuestHarness.Proofs.Import.Linking
import GuestHarness.Instance

/-! The check of a module against a table and the engine's own rule for imports agree. The check looks
at what the table offers before anything is made; the engine looks at the objects that linking made. -/
namespace GuestHarness

namespace Wasm

theorem mapM_number?_eq_some_iff {ts : List ValType} {vs : List ValueType} :
    ts.mapM ValType.number? = some vs ↔ ts = vs.map .num := by
  induction ts generalizing vs with
  | nil => cases vs <;> simp
  | cons t ts ih =>
    rw [List.mapM_cons]
    cases t with
    | num t =>
      cases vs with
      | nil => cases ts.mapM ValType.number? <;> simp [ValType.number?]
      | cons v vs =>
        rw [List.map_cons, List.cons.injEq, ← ih, ValType.num.injEq]
        cases ts.mapM ValType.number? <;> simp [ValType.number?]
    | vector => cases vs <;> simp [ValType.number?]
    | ref r => cases vs <;> simp [ValType.number?]

/-- A function type has a signature only if it is the type of that signature. -/
theorem FuncType.signature?_eq_some_iff {type : FuncType} {s : Signature} :
    type.signature? = some s ↔ type = .ofSignature s := by
  obtain ⟨params, results⟩ := type
  obtain ⟨ps, rs⟩ := s
  rw [ofSignature, FuncType.mk.injEq, ← mapM_number?_eq_some_iff, ← mapM_number?_eq_some_iff]
  unfold signature?
  cases params.mapM ValType.number? <;> cases results.mapM ValType.number? <;> simp

theorem FuncType.signature?_ofSignature (s : Signature) : (ofSignature s).signature? = some s :=
  signature?_eq_some_iff.2 rfl

theorem FuncType.ofSignature_injective : Function.Injective ofSignature := fun s s' h => by
  rw [← Option.some_inj, ← signature?_ofSignature, h, signature?_ofSignature]

end Wasm

theorem ImportTable.mem_of_find? {t : ImportTable} {module name : String} {e : ImportEntry}
    (h : t.find? module name = some e) : e ∈ t.entries ∧ e.module = module ∧ e.name = name := by
  have hat := List.find?_some h
  simp only [ImportEntry.isAt, Bool.and_eq_true, decide_eq_true_eq] at hat
  exact ⟨List.mem_of_find?_eq_some h, hat⟩

namespace Linkage

variable {l : Linkage} {e : ImportEntry} {t : ImportTable}

/-- An offer satisfies a declared type exactly if the object that was made of it fits the type. -/
theorem Holds.fits_eq_satisfies (h : l.Holds e) (declared : Wasm.ExternType) :
    ∃ d, l.definition? e.module e.name = some d ∧ l.fits d declared = e.offer.satisfies declared := by
  unfold Holds at h
  cases ho : e.offer with
  | logger logger sink =>
    rw [ho] at h
    refine ⟨_, h, ?_⟩
    cases declared with
    | func type =>
      simp only [fits, Offer.satisfies, decide_eq_decide]
      exact Wasm.FuncType.signature?_eq_some_iff.symm
    | table type => rfl
    | memory type => rfl
    | global type => rfl
  | memory pages =>
    rw [ho] at h
    obtain ⟨a, hd, hm⟩ := h
    refine ⟨_, hd, ?_⟩
    cases declared with
    | func type => rfl
    | table type => rfl
    | memory type =>
      simp only [fits, hm, Wasm.Memory.fits, Wasm.Memory.new, Offer.satisfies, MemoryPages.type]
      cases type.shared <;> cases type.limits.maximum <;> cases pages.limits.maximum <;> simp
    | global type => rfl

theorem Links.find?_of_defined (hl : l.Links t.entries) {module name : String}
    (hd : (l.definition? module name).isSome) : ∃ e, t.find? module name = some e := by
  obtain ⟨e, he, hat⟩ := hl.defined module name hd
  exact Option.isSome_iff_exists.1 (List.find?_isSome.2 ⟨e, he, hat⟩)

/-- An import is provided for exactly if the table has an offer that satisfies it. -/
theorem Links.provides_iff (hl : l.Links t.entries) (m : Wasm.Module) (i : Wasm.Import) :
    l.provides m i = true ↔ ∃ e declared, t.find? i.module i.name = some e ∧
      m.importType? i = some declared ∧ e.offer.satisfies declared = true := by
  unfold provides
  constructor
  · intro h
    cases hdeclared : m.importType? i with
    | none => simp [hdeclared] at h
    | some declared =>
      cases hd : l.definition? i.module i.name with
      | none => simp [hdeclared, hd] at h
      | some d =>
        obtain ⟨e, he⟩ := hl.find?_of_defined (by rw [hd]; rfl)
        obtain ⟨hmem, hmodule, hname⟩ := ImportTable.mem_of_find? he
        obtain ⟨d', hd', hfits⟩ := (hl.holds e hmem).fits_eq_satisfies declared
        rw [hmodule, hname, hd] at hd'
        cases hd'
        refine ⟨e, declared, he, rfl, ?_⟩
        simpa [hdeclared, hd, hfits] using h
  · rintro ⟨e, declared, he, hdeclared, hsat⟩
    obtain ⟨hmem, hmodule, hname⟩ := ImportTable.mem_of_find? he
    obtain ⟨d, hd, hfits⟩ := (hl.holds e hmem).fits_eq_satisfies declared
    rw [hmodule, hname] at hd
    simp [hdeclared, hd, hfits, hsat]

end Linkage

namespace ImportTable

variable {t : ImportTable} {m : Wasm.Module} {i : Wasm.Import}

/-- An import that is provided for meets an objection in one way only: it is a string logger whose
memory the module does not import. -/
theorem objection?_of_provided {e : ImportEntry} {declared : Wasm.ExternType} {o : Objection}
    (he : t.find? i.module i.name = some e) (hdeclared : m.importType? i = some declared)
    (hsat : e.offer.satisfies declared = true) (ho : t.objection? m i = some o) :
    ∃ module name sink, e.offer = .logger (.string (.imported module name)) sink ∧
      m.hasImport module name = false ∧ o = .memoryNotImported (qualifiedName module name) := by
  simp only [objection?, he, hdeclared, hsat, if_true] at ho
  split at ho
  · next module name sink hoffer =>
    split at ho
    · cases ho
    · next himport =>
      cases ho
      exact ⟨module, name, sink, hoffer, by simpa using himport, rfl⟩
  · cases ho

/-- An import without objection is provided for. -/
theorem provided_of_objection?_eq_none (h : t.objection? m i = none) :
    ∃ e declared, t.find? i.module i.name = some e ∧ m.importType? i = some declared ∧
      e.offer.satisfies declared = true := by
  unfold objection? at h
  cases he : t.find? i.module i.name with
  | none => simp [he] at h
  | some e =>
    cases hdeclared : m.importType? i with
    | none => simp [he, hdeclared] at h
    | some declared =>
      cases hsat : e.offer.satisfies declared with
      | false => simp [he, hdeclared, hsat] at h
      | true => exact ⟨e, declared, rfl, rfl, hsat⟩

/-- Where the check refuses a module, one of the imports meets the objection that it names. -/
theorem exists_objection_of_check_eq_error {moduleName : String} {err : Fault}
    (h : t.check m moduleName = .error err) :
    ∃ i ∈ m.imports, ∃ o, t.objection? m i = some o ∧
      err = .link moduleName (o.message (qualifiedName i.module i.name)) := by
  unfold check at h
  split at h
  · cases h
  · next cause hcause =>
    cases h
    obtain ⟨i, hi, hmessage⟩ := List.exists_of_findSome?_eq_some hcause
    obtain ⟨o, ho, rfl⟩ := Option.map_eq_some_iff.1 hmessage
    exact ⟨i, hi, o, ho, rfl⟩

end ImportTable

/-- For a table that could be linked: a module that passes the check has all of its imports provided
for by the engine's rule, so that none of them stops its instantiation; and if all are provided for,
the check refuses the module only for a string logger whose memory it does not import. -/
theorem check_agrees_with_linking (t : ImportTable) (m : Wasm.Module) (moduleName : String)
    (cap : Option Nat) (l : Linkage) (linked : (t.link cap).outcome = .ok l) :
    (t.check m moduleName = .ok () → (∀ i ∈ m.imports, l.provides m i = true) ∧
      ∀ fuel, l.instantiate m moduleName fuel cap = l.start m moduleName fuel cap) ∧
    ((∀ i ∈ m.imports, l.provides m i = true) → ∀ err, t.check m moduleName = .error err →
      ∃ i ∈ m.imports, ∃ e module name sink, t.find? i.module i.name = some e ∧
        e.offer = .logger (.string (.imported module name)) sink ∧
        m.hasImport module name = false ∧
        err = .link moduleName ((Objection.memoryNotImported (qualifiedName module name)).message
          (qualifiedName i.module i.name))) := by
  have hl : l.Links t.entries := ImportTable.links_of_link linked
  constructor
  · intro hcheck
    have hall : ∀ i ∈ m.imports, l.provides m i = true := fun i hi =>
      (hl.provides_iff m i).2
        (ImportTable.provided_of_objection?_eq_none ((t.check_eq_ok_iff m).1 hcheck i hi))
    refine ⟨hall, fun fuel => ?_⟩
    rw [Linkage.instantiate, if_pos (List.all_eq_true.2 hall)]
  · intro hall err hcheck
    obtain ⟨i, hi, o, ho, rfl⟩ := ImportTable.exists_objection_of_check_eq_error hcheck
    obtain ⟨e, declared, he, hdeclared, hsat⟩ := (hl.provides_iff m i).1 (hall i hi)
    obtain ⟨module, name, sink, hoffer, himport, rfl⟩ :=
      ImportTable.objection?_of_provided he hdeclared hsat ho
    exact ⟨i, hi, e, module, name, sink, he, hoffer, himport, rfl⟩

/-- A guest that imports the memory of the host and a logger that reads it. -/
def stringGuest : Wasm.Module where
  types := #[⟨[.i32, .i32], []⟩]
  imports := [⟨memoryModule, memoryName, .memory ⟨⟨1, none⟩, false⟩⟩,
    ⟨consoleModule, logFunction, .func 0⟩]

theorem check_agrees_with_linking_stringGuest :
    ∃ l, ((ImportTable.stringLogger (.recorder 0)).link (some 1)).outcome = .ok l ∧
      (ImportTable.stringLogger (.recorder 0)).check stringGuest "guest" = .ok () ∧
      ∀ i ∈ stringGuest.imports, l.provides stringGuest i = true := by
  have linked : ∃ l, ((ImportTable.stringLogger (.recorder 0)).link (some 1)).outcome = .ok l :=
    ⟨_, rfl⟩
  obtain ⟨l, hl⟩ := linked
  have hcheck : (ImportTable.stringLogger (.recorder 0)).check stringGuest "guest" = .ok () := rfl
  exact ⟨l, hl, hcheck,
    ((check_agrees_with_linking _ stringGuest "guest" (some 1) l hl).1 hcheck).1⟩

end GuestHarness
