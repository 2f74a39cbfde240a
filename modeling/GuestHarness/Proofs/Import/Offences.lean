import GuestHarness.Proofs.Import.Agreement
import GuestHarness.Proofs.Import.Registrations
import GuestHarness.Proofs.Wasm.Validity

/-! Why a module is refused. Imports are looked at in their order, and each of them in three ways; the
first that offends in one of them is named, with the first of these ways. Of a table only the entries at
the keys that the module imports count. -/
namespace GuestHarness

/-- The order in which objections to one import count. -/
def Objection.rank : Objection → Nat
  | unknown => 0
  | incompatible .. => 1
  | memoryNotImported _ => 2

/-- Each import of a valid module has a type. -/
theorem Wasm.Typing.exists_importType {m : Wasm.Module} (h : Typing.module m = true) {i : Wasm.Import}
    (hi : i ∈ m.imports) : ∃ declared, m.importType? i = some declared := by
  unfold Typing.module at h
  split at h
  · cases h
  · simp only [Bool.and_eq_true, List.all_eq_true] at h
    obtain ⟨⟨⟨⟨⟨⟨⟨⟨⟨⟨⟨⟨⟨⟨-, himports⟩, -⟩, -⟩, -⟩, -⟩, -⟩, -⟩, -⟩, -⟩, -⟩, -⟩, -⟩, -⟩, -⟩ := h
    have hentry := himports i hi
    unfold Wasm.Module.importType?
    cases htype : i.type with
    | func k =>
      have hk : k < m.types.size := by simpa [importEntry, htype] using hentry
      exact ⟨.func m.types[k], by simp [hk]⟩
    | table type => exact ⟨_, rfl⟩
    | memory type => exact ⟨_, rfl⟩
    | global type => exact ⟨_, rfl⟩

namespace ImportTable

/-- The ways in which an import may offend. -/
inductive Offends (t : ImportTable) (m : Wasm.Module) (i : Wasm.Import) : Objection → Prop
  /-- No entry stands at the key. -/
  | unknown (free : (i.module, i.name) ∉ t.keys) : Offends t m i .unknown
  /-- The entry does not satisfy the type that the module declares. -/
  | incompatible {e : ImportEntry} {declared : Wasm.ExternType}
    (entry : t.find? i.module i.name = some e) (type : m.importType? i = some declared)
    (unsatisfied : e.offer.satisfies declared = false) :
    Offends t m i (.incompatible (.ofType declared) e.offer.kind)
  /-- The entry is a string logger that reads a host's memory, whose key the module does not import. -/
  | memoryNotImported {e : ImportEntry} {module name : String} {sink : Sink}
    (entry : t.find? i.module i.name = some e)
    (reads : e.offer = .logger (.string (.imported module name)) sink)
    (missing : ∀ j ∈ m.imports, (j.module, j.name) ≠ (module, name)) :
    Offends t m i (.memoryNotImported (qualifiedName module name))

/-- Of the imports that offend `i` comes first, and it offends in no way that counts before `o`. -/
structure OffendsFirst (t : ImportTable) (m : Wasm.Module) (i : Wasm.Import) (o : Objection) : Prop where
  offends : t.Offends m i o
  least (o' : Objection) (offends : t.Offends m i o') : o.rank ≤ o'.rank
  first : ∃ before after, m.imports = before ++ i :: after ∧ ∀ j ∈ before, ∀ o', ¬ t.Offends m j o'

variable {t t' : ImportTable} {m : Wasm.Module} {i : Wasm.Import} {o o' : Objection}
  {module name : String}

theorem hasImport_eq_false_iff :
    m.hasImport module name = false ↔ ∀ j ∈ m.imports, (j.module, j.name) ≠ (module, name) := by
  simp [Wasm.Module.hasImport]

/-- In one way an import offends with one objection only. -/
theorem Offends.eq_of_rank (h : t.Offends m i o) (h' : t.Offends m i o') (hrank : o.rank = o'.rank) :
    o = o' := by
  cases h with
  | unknown => cases h' <;> first | rfl | cases hrank
  | incompatible entry type =>
    cases h' with
    | incompatible entry' type' =>
      cases entry.symm.trans entry'
      cases type.symm.trans type'
      rfl
    | unknown | memoryNotImported => cases hrank
  | memoryNotImported entry reads =>
    cases h' with
    | memoryNotImported entry' reads' =>
      cases entry.symm.trans entry'
      cases reads.symm.trans reads'
      rfl
    | unknown | incompatible => cases hrank

/-- An import to which nothing is objected offends in no way. -/
theorem not_offends_of_objection? (h : t.objection? m i = none) : ¬ t.Offends m i o := by
  obtain ⟨e, declared, he, hdeclared, hsatisfied⟩ := provided_of_objection?_eq_none h
  intro hoffends
  cases hoffends with
  | unknown free =>
    rw [t.find?_eq_none_iff.2 free] at he
    cases he
  | incompatible entry type unsatisfied =>
    cases he.symm.trans entry
    cases hdeclared.symm.trans type
    rw [hsatisfied] at unsatisfied
    cases unsatisfied
  | memoryNotImported entry reads missing =>
    cases he.symm.trans entry
    rw [reads] at hsatisfied
    simp [objection?, he, hdeclared, reads, hsatisfied, hasImport_eq_false_iff.2 missing] at h

/-- What is objected to an import is its first offence. -/
theorem offends_of_objection? (htype : ∃ declared, m.importType? i = some declared)
    (h : t.objection? m i = some o) :
    t.Offends m i o ∧ ∀ o', t.Offends m i o' → o.rank ≤ o'.rank := by
  obtain ⟨declared, hdeclared⟩ := htype
  cases he : t.find? i.module i.name with
  | none =>
    simp only [objection?, he, Option.some.injEq] at h
    subst h
    exact ⟨.unknown (t.find?_eq_none_iff.1 he), fun o' _ => Nat.zero_le _⟩
  | some e =>
    have hkey : (i.module, i.name) ∈ t.keys := by
      by_contra hfree
      rw [t.find?_eq_none_iff.2 hfree] at he
      cases he
    cases hsatisfied : e.offer.satisfies declared with
    | false =>
      simp only [objection?, he, hdeclared, hsatisfied, Bool.false_eq_true, if_false,
        Option.some.injEq] at h
      subst h
      refine ⟨.incompatible he hdeclared hsatisfied, fun o' ho' => ?_⟩
      cases ho' with
      | unknown free => exact absurd hkey free
      | incompatible => exact Nat.le_refl 1
      | memoryNotImported => exact Nat.le_succ 1
    | true =>
      obtain ⟨module, name, sink, hoffer, himport, rfl⟩ := objection?_of_provided he hdeclared hsatisfied h
      refine ⟨.memoryNotImported he hoffer (hasImport_eq_false_iff.1 himport), fun o' ho' => ?_⟩
      cases ho' with
      | unknown free => exact absurd hkey free
      | incompatible entry type unsatisfied =>
        cases he.symm.trans entry
        cases hdeclared.symm.trans type
        rw [hsatisfied] at unsatisfied
        cases unsatisfied
      | memoryNotImported => exact Nat.le_refl 2

section

variable (htype : ∃ declared, m.importType? i = some declared)
include htype

theorem objection?_eq_none_iff : t.objection? m i = none ↔ ∀ o, ¬ t.Offends m i o := by
  refine ⟨fun h o => not_offends_of_objection? h, fun h => ?_⟩
  cases ho : t.objection? m i with
  | none => rfl
  | some o => exact absurd (offends_of_objection? htype ho).1 (h o)

theorem objection?_eq_some_iff : t.objection? m i = some o ↔
    t.Offends m i o ∧ ∀ o', t.Offends m i o' → o.rank ≤ o'.rank := by
  refine ⟨offends_of_objection? htype, fun ⟨hoffends, hleast⟩ => ?_⟩
  cases ho : t.objection? m i with
  | none => exact absurd hoffends (not_offends_of_objection? ho)
  | some o' =>
    obtain ⟨hoffends', hleast'⟩ := offends_of_objection? htype ho
    have hrank := Nat.le_antisymm (hleast' o hoffends) (hleast o' hoffends')
    rw [hoffends'.eq_of_rank hoffends hrank]

end

theorem check_eq_error_iff {e : Fault} :
    t.check m name = .error e ↔ ∃ i o, (∃ before after, m.imports = before ++ i :: after ∧
        ∀ j ∈ before, t.objection? m j = none) ∧ t.objection? m i = some o ∧
      e = .link name (o.message (qualifiedName i.module i.name)) := by
  have hcheck : t.check m name = .error e ↔
      ∃ cause, t.firstObjection? m = some cause ∧ e = .link name cause := by
    unfold check
    cases t.firstObjection? m <;> simp [eq_comm]
  simp only [hcheck, firstObjection?, List.findSome?_eq_some_iff, Option.map_eq_some_iff,
    Option.map_eq_none_iff]
  constructor
  · rintro ⟨_, ⟨before, i, after, himports, ⟨o, ho, rfl⟩, hbefore⟩, rfl⟩
    exact ⟨i, o, ⟨before, after, himports, hbefore⟩, ho, rfl⟩
  · rintro ⟨i, o, ⟨before, after, himports, hbefore⟩, ho, rfl⟩
    exact ⟨_, ⟨before, i, after, himports, ⟨o, ho, rfl⟩, hbefore⟩, rfl⟩

/-- Two tables with the same entries at the keys of the imports are checked alike. -/
theorem check_of_find?_eq (h : ∀ i ∈ m.imports, t'.find? i.module i.name = t.find? i.module i.name) :
    t'.check m name = t.check m name := by
  have hobjection : ∀ i ∈ m.imports, t'.objection? m i = t.objection? m i := fun i hi => by
    simp only [objection?, h i hi]
  have hfirst : t'.firstObjection? m = t.firstObjection? m := by
    unfold firstObjection?
    generalize m.imports = is at hobjection
    induction is with
    | nil => rfl
    | cons i is ih =>
      rw [List.findSome?_cons, List.findSome?_cons, hobjection i List.mem_cons_self,
        ih fun j hj => hobjection j (List.mem_cons_of_mem i hj)]
  unfold check
  rw [hfirst]

theorem find?_eq_some_iff (hkeys : t.KeysDiffer) {e : ImportEntry} :
    t.find? module name = some e ↔ e ∈ t.entries ∧ e.key = (module, name) := by
  constructor
  · intro h
    obtain ⟨hmem, rfl, rfl⟩ := mem_of_find? h
    exact ⟨hmem, rfl⟩
  · rintro ⟨hmem, hkey⟩
    have hfound : (t.find? module name).isSome :=
      List.find?_isSome.2 ⟨e, hmem, ImportEntry.isAt_iff.2 hkey⟩
    obtain ⟨e', he'⟩ := Option.isSome_iff_exists.1 hfound
    obtain ⟨hmem', hmodule, hname⟩ := mem_of_find? he'
    have hkey' : e'.key = e.key := by rw [hkey, ← hmodule, ← hname]; rfl
    rw [he', List.inj_on_of_nodup_map (nodup_keys hkeys) hmem' hmem hkey']

/-- Where keys differ, the order of the entries is nothing to a look-up. -/
theorem find?_of_perm (hkeys : t.KeysDiffer) (hperm : t'.entries.Perm t.entries)
    (module name : String) : t'.find? module name = t.find? module name := by
  have hkeys' : t'.KeysDiffer := (hperm.pairwise_iff fun h => Ne.symm h).2 hkeys
  refine Option.ext fun e => ?_
  rw [find?_eq_some_iff hkeys, find?_eq_some_iff hkeys', hperm.mem_iff]

end ImportTable

/-- The check refuses a module exactly if one of its imports offends, and then for the first import that
does and its first offence. Tables with the same entries at the keys of the imports fare alike: other
entries do not count, nor does the order of registration. -/
theorem check_names_first_offence (t : ImportTable) (m : Wasm.Module)
    (valid : Wasm.Typing.module m = true) (name : String) :
    (t.check m name = .ok () ↔ ∀ i ∈ m.imports, ∀ o, ¬ t.Offends m i o) ∧
    (∀ e, t.check m name = .error e ↔ ∃ i o, t.OffendsFirst m i o ∧
      e = .link name (o.message (qualifiedName i.module i.name))) ∧
    (∀ t' : ImportTable,
      (∀ i ∈ m.imports, t'.find? i.module i.name = t.find? i.module i.name) →
        t'.check m name = t.check m name) ∧
    (∀ module key offer, (∀ i ∈ m.imports, (i.module, i.name) ≠ (module, key)) →
      (t.insert module key offer).check m name = t.check m name) ∧
    ∀ t' : ImportTable, t.KeysDiffer → t'.entries.Perm t.entries →
      t'.check m name = t.check m name := by
  have hnone : ∀ i ∈ m.imports, (t.objection? m i = none ↔ ∀ o, ¬ t.Offends m i o) := fun i hi =>
    ImportTable.objection?_eq_none_iff (Wasm.Typing.exists_importType valid hi)
  refine ⟨?_, fun e => ?_, fun t' => ImportTable.check_of_find?_eq, fun module key offer hfree => ?_,
    fun t' hkeys hperm => ?_⟩
  · rw [ImportTable.check_eq_ok_iff]
    exact forall₂_congr hnone
  · rw [ImportTable.check_eq_error_iff]
    constructor
    · rintro ⟨i, o, ⟨before, after, himports, hbefore⟩, ho, rfl⟩
      have hi : i ∈ m.imports := by simp [himports]
      obtain ⟨hoffends, hleast⟩ := ImportTable.offends_of_objection?
        (Wasm.Typing.exists_importType valid hi) ho
      exact ⟨i, o, ⟨hoffends, hleast, before, after, himports, fun j hj o' =>
        ImportTable.not_offends_of_objection? (hbefore j hj)⟩, rfl⟩
    · rintro ⟨i, o, ⟨hoffends, hleast, before, after, himports, hbefore⟩, rfl⟩
      have hi : i ∈ m.imports := by simp [himports]
      refine ⟨i, o, ⟨before, after, himports, fun j hj => ?_⟩, ?_, rfl⟩
      · exact (hnone j (by simp [himports, hj])).2 (hbefore j hj)
      · exact (ImportTable.objection?_eq_some_iff (Wasm.Typing.exists_importType valid hi)).2
          ⟨hoffends, hleast⟩
  · exact ImportTable.check_of_find?_eq fun i hi =>
      t.find?_insert_of_ne (hfree i hi).symm offer
  · exact ImportTable.check_of_find?_eq fun i _ => ImportTable.find?_of_perm hkeys hperm _ _

/-- A guest that imports a logger without the memory it reads, and then what nobody offers. -/
def memorylessGuest : Wasm.Module where
  types := #[⟨[.i32, .i32], []⟩]
  imports := [⟨consoleModule, logFunction, .func 0⟩, ⟨"env", "exit", .func 0⟩]

/-- It is refused for the logger, and an offer under a third key changes nothing. -/
theorem check_names_first_offence_memorylessGuest :
    let t := ImportTable.stringLogger (.recorder 0)
    let cause := "`console.log` reads host memory `js.mem`, which the module does not import"
    Wasm.Typing.module memorylessGuest = true ∧
      (∃ i o, t.OffendsFirst memorylessGuest i o ∧
        Fault.link "guest" cause = .link "guest" (o.message (qualifiedName i.module i.name))) ∧
      (t.insert "env" "memory" (.memory {})).check memorylessGuest "guest" =
        .error (.link "guest" cause) := by
  intro t cause
  have valid : Wasm.Typing.module memorylessGuest = true := by decide +kernel
  have hcheck : t.check memorylessGuest "guest" = .error (.link "guest" cause) := by decide +kernel
  obtain ⟨-, hfirst, -, hinsert, -⟩ := check_names_first_offence t memorylessGuest valid "guest"
  refine ⟨valid, (hfirst _).1 hcheck, ?_⟩
  rw [hinsert "env" "memory" (.memory {}) (by decide), hcheck]

end GuestHarness
