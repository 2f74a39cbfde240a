import GuestHarness.Proofs.Emission.Order
import GuestHarness.Proofs.Import.Building
import GuestHarness.Proofs.Session.Cache

/-! What becomes of loading: the bytes are refused, or the check refuses the module, or linking stops at
an entry of the table, or the module starts. Each stage comes before any of the next. -/
namespace GuestHarness

/-- What linking can fail with: a memory that cannot be, which ends the program, or the failure of an
entry. -/
def LoadError.IsLinking (err : LoadError) : Prop :=
  (∃ pages, err = .impossibleMemory pages) ∨
    ∃ module name cause, err = .fault (.hostFunction module name cause)

theorem Linkage.isLinking_of_define {l : Linkage} {module name : String} {d : Definition}
    {err : LoadError} (h : l.define module name d = .error err) : err.IsLinking := by
  unfold define at h
  split at h <;> cases h
  exact .inr ⟨_, _, _, rfl⟩

theorem ImportEntry.isLinking_of_addTo {e : ImportEntry} {cap : Option Nat} {l : Linkage}
    {err : LoadError} (h : e.addTo cap l = .error err) : err.IsLinking := by
  unfold addTo at h
  split at h
  · exact Linkage.isLinking_of_define h
  · split at h
    · cases h
      exact .inl ⟨_, rfl⟩
    · split at h
      · unfold Linkage.addMemory at h
        cases hd : l.define e.module e.name (.memory l.memories.size) with
        | error err' =>
          rw [hd] at h
          cases h
          exact Linkage.isLinking_of_define hd
        | ok _ =>
          rw [hd] at h
          cases h
      · cases h
        exact .inr ⟨_, _, _, rfl⟩

theorem ImportTable.isLinking_of_link {t : ImportTable} {cap : Option Nat} {err : LoadError}
    (h : (t.link cap).outcome = .error err) : err.IsLinking := by
  rw [outcome_link] at h
  generalize t.entries = es, ({} : Linkage) = l at h
  induction es generalizing l with
  | nil => cases h
  | cons e es ih =>
    rw [List.foldlM_cons] at h
    cases he : e.addTo cap l with
    | ok l' =>
      rw [he] at h
      exact ih l' h
    | error err' =>
      rw [he] at h
      cases h
      exact e.isLinking_of_addTo he

namespace Loader

variable {l : Loader} {c : Compiled} {t : ImportTable}

/-- A module that passes the check starts once the table is linked. -/
theorem starts_of_link {linkage : Linkage} (hcheck : t.check c.module c.name = .ok ())
    (hlink : (t.link l.cap).outcome = .ok linkage) : l.starts c t = true := by
  have hlinkage : l.linkage t = linkage := by
    rw [Loader.linkage, hlink]
    rfl
  have hlinks := ImportTable.links_of_link hlink
  refine starts_iff.2 ⟨hcheck, hlinkage ▸ hlink, fun i hi => ?_⟩
  rw [hlinkage]
  exact (hlinks.provides_iff c.module i).2
    (ImportTable.provided_of_objection?_eq_none ((t.check_eq_ok_iff c.module).1 hcheck i hi))

/-- Making an instance fails at the check, or else at linking, or else the module starts. -/
theorem instantiate_cases (l : Loader) (c : Compiled) (t : ImportTable) :
    (∃ cause, t.check c.module c.name = .error (.link c.name cause) ∧
        (l.instantiate c t).outcome = .error (.fault (.link c.name cause)) ∧ l.starts c t = false) ∨
      (∃ err, t.check c.module c.name = .ok () ∧ (t.link l.cap).outcome = .error err ∧
        (l.instantiate c t).outcome = .error err ∧ l.starts c t = false) ∨
      (t.check c.module c.name = .ok () ∧ (∃ linkage, (t.link l.cap).outcome = .ok linkage) ∧
        l.starts c t = true) := by
  cases hcheck : t.check c.module c.name with
  | error e =>
    obtain ⟨i, -, o, -, rfl⟩ := ImportTable.exists_objection_of_check_eq_error hcheck
    refine .inl ⟨_, rfl, by rw [instantiate_eq, hcheck]; rfl, ?_⟩
    simp [starts, hcheck, Except.isOk, Except.toBool]
  | ok _ =>
    cases hlink : (t.link l.cap).outcome with
    | error err =>
      refine .inr (.inl ⟨err, rfl, rfl, ?_, ?_⟩)
      · rw [instantiate_eq, hcheck, Account.andThen_of_ok rfl, Account.andThen_of_error hlink]
      · simp [starts, hlink, Except.isOk, Except.toBool]
    | ok linkage => exact .inr (.inr ⟨rfl, ⟨linkage, rfl⟩, starts_of_link hcheck hlink⟩)

/-- Making an instance of a module that starts comes to what the engine comes to. -/
theorem outcome_of_starts (h : l.starts c t = true) :
    (l.instantiate c t).outcome =
      ((l.linkage t).start c.module c.name l.fuel l.cap).outcome.mapError .fault := by
  obtain ⟨hcheck, hlink, hprovided⟩ := starts_iff.1 h
  have hstart : (l.linkage t).instantiate c.module c.name l.fuel l.cap =
      (l.linkage t).start c.module c.name l.fuel l.cap :=
    if_pos (List.all_eq_true.2 hprovided)
  rw [instantiate_eq, hcheck, Account.andThen_of_ok rfl, Account.andThen_of_ok hlink]
  unfold instantiateLinked
  rw [hstart]
  generalize (l.linkage t).start c.module c.name l.fuel l.cap = made
  obtain ⟨noticed, e | i⟩ := made <;> rfl

/-- Making an instance ends the program exactly if the module passes the check and a memory that cannot
be is the first entry to be refused. -/
theorem instantiate_eq_impossibleMemory_iff (ht : t.KeysDiffer) (pages : MemoryPages) :
    (l.instantiate c t).outcome = .error (.impossibleMemory pages) ↔
      t.check c.module c.name = .ok () ∧ t.refusal? l.cap = some (.impossibleMemory pages) := by
  obtain ⟨hrefused, hmade⟩ := ImportTable.link_of_keysDiffer ht l.cap
  obtain ⟨cause, hcheck, houtcome, -⟩ | ⟨err, hcheck, hlink, houtcome, -⟩ |
    ⟨hcheck, ⟨linkage, hlink⟩, hstarts⟩ := instantiate_cases l c t
  · simp [hcheck, houtcome]
  · have hrefusal : t.refusal? l.cap = some err := by
      cases hr : t.refusal? l.cap with
      | none =>
        obtain ⟨linkage, hok⟩ := hmade hr
        cases hlink.symm.trans hok
      | some err' =>
        cases hlink.symm.trans (hrefused err' hr)
        rfl
    simp [hcheck, houtcome, hrefusal]
  · have hnone : t.refusal? l.cap ≠ some (.impossibleMemory pages) := fun hr => by
      cases hlink.symm.trans (hrefused _ hr)
    refine iff_of_false ?_ fun h => hnone h.2
    rw [outcome_of_starts hstarts]
    cases ((l.linkage t).start c.module c.name l.fuel l.cap).outcome <;> simp [Except.mapError]

/-- What loading comes to: the bytes do not compile, or what making an instance of them comes to. -/
theorem outcome_load (l : Loader) (name : String) (bytes : List UInt8) (t : ImportTable) :
    (l.load name bytes t).1.outcome =
      match (l.compile name bytes).1.outcome with
      | .error e => .error (.fault e)
      | .ok h => (l.instantiate h.compiled t).outcome := by
  have hi (c : Compiled) : (l.compile name bytes).2.instantiate c t = l.instantiate c t :=
    instantiate_congr (by simp) c t
  have hload : (l.load name bytes t).1 =
      ((l.compile name bytes).1.mapError .fault).andThen fun h => l.instantiate h.compiled t := by
    simp only [load, Account.bind_eq_andThen, hi]
  rw [hload, Account.outcome_andThen]
  cases ho : (l.compile name bytes).1.outcome with
  | error e => simp [ho, Except.mapError, Except.bind]
  | ok h => simp [ho, Except.mapError, Except.bind]

theorem eq_ok_of_toOption {ε α : Type} {x : Except ε α} {v : α} (h : x.toOption = some v) :
    x = .ok v := by
  cases x <;> cases h
  rfl

/-- An instance with a property that can be worked out. -/
theorem exists_instantiated {l : Loader} {c : Compiled} {t : ImportTable} {P : Instance → Prop}
    [DecidablePred P] (h : ((l.instantiate c t).outcome.toOption.any fun i => decide (P i)) = true) :
    ∃ i, (l.instantiate c t).outcome = .ok i ∧ P i := by
  cases hi : (l.instantiate c t).outcome with
  | error e => simp [hi, Except.toOption] at h
  | ok i => exact ⟨i, rfl, by simpa [hi, Except.toOption] using h⟩

end Loader

/-- Loading ends the program, in place of an answer, exactly if the module passes the check and a memory
that cannot be is the first entry of the table to be refused. The module need not import it. -/
theorem loading_ends_program_iff (l : Loader) (c : Compiled) (steps : List BuildStep) (name : String)
    (bytes : List UInt8) (pages : MemoryPages) :
    let t := ImportTable.build steps
    let refuses (cap : Option Nat) := t.refusal? cap = some (.impossibleMemory pages)
    ((l.instantiate c t).outcome = .error (.impossibleMemory pages) ↔
        t.check c.module c.name = .ok () ∧ refuses l.cap) ∧
      ((l.load name bytes t).1.outcome = .error (.impossibleMemory pages) ↔
        ∃ h, (l.compile name bytes).1.outcome = .ok h ∧
          t.check h.compiled.module h.compiled.name = .ok () ∧ refuses l.cap) ∧
      ((Loader.loadOnce bytes t).outcome = .error (.impossibleMemory pages) ↔
        ∃ m, Wasm.Module.compile? bytes = some m ∧ t.check m Loader.anonymous = .ok () ∧
          refuses (some 1024)) := by
  intro t refuses
  have ht : t.KeysDiffer := ImportTable.keysDiffer_build steps
  have hload (l : Loader) (name : String) :
      (l.load name bytes t).1.outcome = .error (.impossibleMemory pages) ↔
        ∃ h, (l.compile name bytes).1.outcome = .ok h ∧
          t.check h.compiled.module h.compiled.name = .ok () ∧ refuses l.cap := by
    rw [Loader.outcome_load]
    cases (l.compile name bytes).1.outcome with
    | error e => simp
    | ok h => simp [Loader.instantiate_eq_impossibleMemory_iff ht, refuses]
  refine ⟨Loader.instantiate_eq_impossibleMemory_iff ht pages, hload l name, ?_⟩
  let l₀ : Loader := { settings := { cacheModules := false } }
  have honce : (Loader.loadOnce bytes t).outcome = (l₀.load Loader.anonymous bytes t).1.outcome := rfl
  rw [honce, hload]
  cases hm : Wasm.Module.compile? bytes with
  | none => simp [Loader.compile, Loader.kept?, l₀, hm]
  | some m => simp [Loader.compile, Loader.kept?, l₀, hm, Loader.issue, Loader.cap]

/-- A memory that no module asks for. -/
theorem loading_ends_program_unused_memory :
    let t := ImportTable.build [.insert memoryModule memoryName (.memory ⟨2, some 1⟩)]
    let outcome := (({} : Loader).load "guest" Wasm.Binary.preamble t).1.outcome
    ¬ ((∃ i, outcome = .ok i) ∨ ∃ e, outcome = .error (.fault e)) := by
  intro t outcome
  have hends : (match outcome with | .error (.impossibleMemory _) => true | _ => false) = true := by
    decide +kernel
  rintro (⟨i, hi⟩ | ⟨e, he⟩)
  · simp [hi] at hends
  · simp [he] at hends

end GuestHarness
