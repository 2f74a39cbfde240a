import GuestHarness.Proofs.Fuel.Accounting
import GuestHarness.Proofs.Loading.Stages

/-! The classes of failures to load. A failure is one of loading, or the guest's, where its start function
handed a logger a bad descriptor; only a memory of the table that is larger than the settings allow fails
in neither class. -/
namespace GuestHarness
open Wasm (ImportCall)

theorem Fault.isGuestFault_of_isDescriptorFault {e : Fault} (h : e.isDescriptorFault = true) :
    e.isGuestFault = true ∧ e.isLoadError = false := by
  cases e <;> simp_all [isDescriptorFault, isGuestFault, isLoadError]

namespace Loader

/-- How a loader comes to fail with `e` when it loads against a table; `c?` is what the bytes compiled to. -/
inductive FailsFor (l : Loader) (t : ImportTable) (c? : Option Compiled) (e : Fault) : Prop where
  | loading (isLoad : e.isLoadError = true) (notGuest : e.isGuestFault = false)
  /-- A logger refused what the start function gave it. -/
  | guest (isGuest : e.isGuestFault = true) (notLoad : e.isLoadError = false)
    (descriptor : e.isDescriptorFault = true)
    (raised : ∃ c ∈ c?, ∃ call ∈ l.callsOfInstantiate c t, call.answer = .error e)
  /-- The first memory that is too large belongs to no class. -/
  | memory (entry : ImportEntry) (pages : MemoryPages) (large : t.tooLarge? l.cap = some entry)
    (offers : entry.offer = .memory pages)
    (isHost : e = .hostFunction entry.module entry.name pages.tooLargeText)

/-- The failures among the outcomes of loading are of these kinds, and belong to no class exactly if a
module that the table satisfies is stopped by a memory. -/
structure Classed (l : Loader) (t : ImportTable) (c? : Option Compiled)
    (outcome : Except LoadError Instance) : Prop where
  failed : ∀ err, outcome = .error err → ∃ e, err = .fault e ∧ l.FailsFor t c? e
  unclassed : (∃ e, outcome = .error (.fault e) ∧ e.isLoadError = false ∧ e.isGuestFault = false) ↔
    ∃ c ∈ c?, t.check c.module c.name = .ok () ∧ ∃ entry, t.tooLarge? l.cap = some entry

variable {l : Loader} {t : ImportTable} {c : Compiled}

section

variable (ht : t.KeysDiffer)
  (possible : ∀ e ∈ t.entries, ∀ pages, e.offer = .memory pages → pages.isPossible = true)
include ht possible

/-- Making an instance of a valid module fails in these ways. -/
theorem classed_instantiate (valid : Wasm.Typing.module c.module = true) :
    l.Classed t (some c) (l.instantiate c t).outcome := by
  obtain ⟨functions, hvalid⟩ := Wasm.Typing.exists_valid_of_module valid
  have hfailures := l.startFailures (c := c) t hvalid
  obtain ⟨cause, hcheck, houtcome, -⟩ | ⟨hcheck, ⟨entry, pages, hlarge, hoffer, -, houtcome⟩ |
    ⟨hfits, hstarts⟩⟩ := stage_cases (l := l) ht possible c
  · refine ⟨fun err herr => ?_, iff_of_false ?_ (by simp [hcheck])⟩
    · cases houtcome.symm.trans herr
      exact ⟨_, rfl, .loading rfl rfl⟩
    · rintro ⟨e, he, hnot, -⟩
      cases houtcome.symm.trans he
      cases hnot
  · refine ⟨fun err herr => ?_, iff_of_true ⟨_, houtcome, rfl, rfl⟩ ⟨c, rfl, hcheck, entry, hlarge⟩⟩
    cases houtcome.symm.trans herr
    exact ⟨_, rfl, .memory entry pages hlarge hoffer rfl⟩
  · have hkinds := (hfailures.instantiation hstarts).2
    have hclass (e : Fault) (he : (l.instantiate c t).outcome = .error (.fault e)) :
        e = .instantiation c.name engineText ∨ e.isDescriptorFault = true := by
      obtain herr | ⟨f, herr, hf⟩ := hkinds _ he <;> cases herr
      · exact .inl rfl
      · exact .inr hf
    refine ⟨fun err herr => ?_, iff_of_false ?_ (by simp [hfits])⟩
    · obtain ⟨e, rfl⟩ := exists_fault_of_starts hstarts herr
      refine ⟨e, rfl, ?_⟩
      obtain rfl | he := hclass e herr
      · exact .loading rfl rfl
      · obtain ⟨hguest, hload⟩ := Fault.isGuestFault_of_isDescriptorFault he
        exact .guest hguest hload he ⟨c, rfl, (hfailures.descriptor e he).1 herr⟩
    · rintro ⟨e, he, hload, hguest⟩
      obtain rfl | he := hclass e he
      · cases hload
      · rw [(Fault.isGuestFault_of_isDescriptorFault he).1] at hguest
        cases hguest

/-- Loading fails to compile, or as making an instance fails. -/
theorem classed_load (hkept : l.KeepsCompiled fun _ => True) (name : String) (bytes : List UInt8) :
    l.Classed t ((l.compile name bytes).1.outcome.toOption.map Handle.compiled)
      (l.load name bytes t).1.outcome := by
  rw [outcome_load]
  obtain ⟨h, hk, hn, ho, -⟩ | ⟨h, hk, -, ho, -⟩ | ⟨-, hm, ho, -⟩ | ⟨module, -, hm, ho, -⟩ :=
    compile_cases l name bytes
  case inr.inr.inl =>
    rw [ho]
    refine ⟨fun err herr => ?_, iff_of_false ?_ (by simp [Except.toOption])⟩
    · cases herr
      exact ⟨_, rfl, .loading rfl rfl⟩
    · rintro ⟨e, he, hnot, -⟩
      cases he
      cases hnot
  all_goals
    rw [ho]
    exact classed_instantiate ht possible (Session.module_of_compile (s := { loader := l }) hkept ho)

end
end Loader

/-- Whatever a loader did before, its failures to load against a table whose memories can be are classed:
as failures of loading, or as the guest's where a logger refused a call of the start function. The one
exception is a memory of the table that is larger than the settings allow; it stops every module that the
table satisfies, with a failure that belongs to no class. -/
theorem load_failures_are_classed (settings : Loader.Settings) (hash : List UInt8 → UInt64)
    (past : Timeline) (steps : List BuildStep)
    (possible : ∀ e ∈ (ImportTable.build steps).entries, ∀ pages, e.offer = .memory pages →
      pages.isPossible = true) :
    let s := ({ loader := { settings, hash } } : Session).afterAll past
    let once : Loader := { settings := { cacheModules := false } }
    let t := ImportTable.build steps
    let compiled (l : Loader) (name : String) (bytes : List UInt8) : Option Compiled :=
      (l.compile name bytes).1.outcome.toOption.map Handle.compiled
    (∀ h ∈ s.compiled,
        s.loader.Classed t (some h.compiled) (s.loader.instantiate h.compiled t).outcome) ∧
      (∀ name bytes,
        s.loader.Classed t (compiled s.loader name bytes) (s.loader.load name bytes t).1.outcome) ∧
      ∀ bytes, once.Classed t (compiled once Loader.anonymous bytes) (Loader.loadOnce bytes t).outcome := by
  intro s once t compiled
  have ht : t.KeysDiffer := ImportTable.keysDiffer_build steps
  have hs : s.Supplied := (Session.Supplied.fresh settings hash).afterAll past
  have honce : once.KeepsCompiled fun _ => True := by
    intro k h hk
    simp [Loader.kept?, once] at hk
  exact ⟨fun h hh => Loader.classed_instantiate ht possible (hs.compiled h hh),
    fun name bytes => Loader.classed_load ht possible hs.kept name bytes,
    fun bytes => Loader.classed_load ht possible honce Loader.anonymous bytes⟩

/-- A memory that can be, and that is larger than the settings allow by default. -/
def largeMemory : List BuildStep := [.insert memoryModule memoryName (.memory { initial := 2000 })]

theorem isPossible_largeMemory : ∀ e ∈ (ImportTable.build largeMemory).entries, ∀ pages,
    e.offer = .memory pages → pages.isPossible = true := by
  intro e he pages hoffer
  obtain rfl : e = ⟨memoryModule, memoryName, .memory { initial := 2000 }⟩ := by
    simpa [ImportTable.build, ImportTable.step, ImportTable.insert, ImportTable.empty, largeMemory]
      using he
  cases hoffer
  decide

/-- The settings allow the large memory, and there is nothing to fail. -/
theorem load_failures_are_classed_largeMemory :
    let past : Timeline := [({}, .compile "a" Wasm.Binary.preamble)]
    let s := ({ loader := { settings := { maxMemoryPages := 2000 } } } : Session).afterAll past
    (∀ e ∈ (ImportTable.build largeMemory).entries, ∀ pages, e.offer = .memory pages →
        pages.isPossible = true) ∧
      ¬ ∃ e, (s.loader.load "b" Wasm.Binary.preamble (.build largeMemory)).1.outcome = .error (.fault e) ∧
        e.isLoadError = false ∧ e.isGuestFault = false := by
  intro past s
  have hfits : (ImportTable.build largeMemory).tooLarge? s.loader.cap = none := by
    decide +kernel
  obtain ⟨-, hload, -⟩ := load_failures_are_classed { maxMemoryPages := 2000 } contentHash past
    largeMemory isPossible_largeMemory
  refine ⟨isPossible_largeMemory, fun hunclassed => ?_⟩
  obtain ⟨-, -, -, entry, hlarge⟩ := (hload "b" Wasm.Binary.preamble).unclassed.1 hunclassed
  cases hfits.symm.trans hlarge

/-- A memory of the table that the module does not import. -/
theorem large_memory_fails_unclassed :
    let outcome := (({} : Loader).load "guest" Wasm.Binary.preamble (.build largeMemory)).1.outcome
    ¬ ∀ e, outcome = .error (.fault e) → e.isLoadError = true ∨ e.isGuestFault = true := by
  intro outcome hclassed
  have hkept : ({} : Loader).KeepsCompiled fun _ => True := by
    intro k h hk
    simp [Loader.kept?] at hk
  have hchecked : (((({} : Loader).compile "guest" Wasm.Binary.preamble).1.outcome.toOption.map
      Handle.compiled).any fun c =>
        decide ((ImportTable.build largeMemory).check c.module c.name = .ok ())) = true := by
    decide +kernel
  have hlarge : ((ImportTable.build largeMemory).tooLarge? ({} : Loader).cap).isSome = true := by
    decide +kernel
  obtain ⟨c, hc, hcheck⟩ := (Option.any_eq_true _ _).1 hchecked
  have hload := Loader.classed_load (ImportTable.keysDiffer_build largeMemory) isPossible_largeMemory
    hkept "guest" Wasm.Binary.preamble
  obtain ⟨e, he, hnotLoad, hnotGuest⟩ := hload.unclassed.2
    ⟨c, hc, of_decide_eq_true hcheck, Option.isSome_iff_exists.1 hlarge⟩
  obtain h | h := hclassed e he
  · cases h.symm.trans hnotLoad
  · cases h.symm.trans hnotGuest

end GuestHarness
