import GuestHarness.Proofs.Import.Linking

/-! Tables as hosts build them, step by step. Every step keeps the keys of a table distinct. Linking such
a table can stop only at a memory, and stops at the first one that cannot be made or is too large. -/
namespace GuestHarness

/-- What a host may do to a table. The first four begin a new one. -/
inductive BuildStep where
  | empty
  | integerLogger (width : Wasm.Width) (sink : Sink)
  | stringLogger (sink : Sink)
  | stringLoggerExported (sink : Sink) (exported : String)
  | insert (module name : String) (offer : Offer)
  | withIntegerLogger (width : Wasm.Width) (sink : Sink)
  | withMemoryPages (pages : MemoryPages)

namespace ImportTable

def step (t : ImportTable) : BuildStep → ImportTable
  | .empty => empty
  | .integerLogger width sink => integerLogger width sink
  | .stringLogger sink => stringLogger sink
  | .stringLoggerExported sink exported => stringLoggerExported sink exported
  | .insert module name offer => t.insert module name offer
  | .withIntegerLogger width sink => t.withIntegerLogger width sink
  | .withMemoryPages pages => t.withMemoryPages pages

/-- The table that some steps build. -/
def build (steps : List BuildStep) : ImportTable := steps.foldl step empty

/-- No two entries stand at the same key. -/
def KeysDiffer (t : ImportTable) : Prop :=
  t.entries.Pairwise fun e e' => (e.module, e.name) ≠ (e'.module, e'.name)

variable {t : ImportTable}

theorem keysDiffer_empty : empty.KeysDiffer := .nil

theorem KeysDiffer.insert (h : t.KeysDiffer) (module name : String) (offer : Offer) :
    (t.insert module name offer).KeysDiffer := by
  refine List.pairwise_append.2 ⟨h.filter _, List.pairwise_singleton _ _, ?_⟩
  intro e he e' he' hkey
  cases List.mem_singleton.1 he'
  have hat : e.isAt module name = false := by simpa using (List.mem_filter.1 he).2
  simp [ImportEntry.isAt, Prod.mk.inj hkey] at hat

/-- Memories that get another size stay at their keys. -/
theorem KeysDiffer.withMemoryPages (h : t.KeysDiffer) (pages : MemoryPages) :
    (t.withMemoryPages pages).KeysDiffer := by
  refine List.pairwise_map.2 (h.imp fun {e e'} hne => ?_)
  cases ho : e.offer <;> cases ho' : e'.offer <;> exact hne

theorem KeysDiffer.step (h : t.KeysDiffer) (step : BuildStep) : (t.step step).KeysDiffer := by
  cases step with
  | empty => exact keysDiffer_empty
  | integerLogger width sink => exact keysDiffer_empty.insert _ _ _
  | stringLogger sink => exact (keysDiffer_empty.insert _ _ _).insert _ _ _
  | stringLoggerExported sink exported => exact keysDiffer_empty.insert _ _ _
  | insert module name offer => exact h.insert module name offer
  | withIntegerLogger width sink => exact h.insert _ _ _
  | withMemoryPages pages => exact h.withMemoryPages pages

theorem keysDiffer_build (steps : List BuildStep) : (build steps).KeysDiffer := by
  unfold build
  generalize ht : empty = t
  have h : t.KeysDiffer := ht ▸ keysDiffer_empty
  clear ht
  induction steps generalizing t with
  | nil => exact h
  | cons step steps ih => exact ih _ (h.step step)

end ImportTable

/-- The memory is larger from the start than memories may grow. -/
def MemoryPages.tooLarge (p : MemoryPages) (cap : Option Nat) : Bool :=
  !Wasm.atMost cap p.limits.minimum

def MemoryPages.tooLargeText (p : MemoryPages) : String :=
  s!"memory minimum size of {p.limits.minimum} pages exceeds memory limits"

def ImportEntry.tooLarge (e : ImportEntry) (cap : Option Nat) : Bool :=
  match e.offer with
  | .memory pages => pages.tooLarge cap
  | .logger .. => false

/-- Why an entry cannot be made real, whatever stands at other keys. -/
def ImportEntry.refusal? (cap : Option Nat) (e : ImportEntry) : Option LoadError :=
  match e.offer with
  | .logger .. => none
  | .memory pages =>
    if !pages.isPossible then some (.impossibleMemory pages)
    else if pages.tooLarge cap then
      some (.fault (.hostFunction e.module e.name pages.tooLargeText))
    else none

namespace Linkage

variable {l : Linkage} {cap : Option Nat} {e : ImportEntry}

/-- At a free key, an entry is made real unless it is refused. -/
theorem addTo_of_free (hfree : l.definition? e.module e.name = none) :
    (∀ err, e.refusal? cap = some err → e.addTo cap l = .error err) ∧
      (e.refusal? cap = none → ∃ l', e.addTo cap l = .ok l') := by
  unfold ImportEntry.refusal? ImportEntry.addTo
  cases e.offer with
  | logger logger sink =>
    exact ⟨by simp, fun _ => ⟨_, define_eq_ok_iff.2 ⟨hfree, rfl⟩⟩⟩
  | memory pages =>
    have hdefined : l.define e.module e.name (.memory l.memories.size) = .ok _ :=
      define_eq_ok_iff.2 ⟨hfree, rfl⟩
    cases hpossible : pages.isPossible with
    | false => simp [hpossible]
    | true =>
      cases hcap : Wasm.atMost cap pages.limits.minimum with
      | false =>
        have hlarge : pages.tooLarge cap = true := by simp [MemoryPages.tooLarge, hcap]
        simp only [hpossible, hcap, hlarge, Bool.not_true, Bool.false_eq_true, if_false, if_true]
        exact ⟨fun err herr => by cases herr; rfl, fun hnone => by cases hnone⟩
      | true =>
        have hsmall : pages.tooLarge cap = false := by simp [MemoryPages.tooLarge, hcap]
        simp [hpossible, hcap, hsmall, addMemory, hdefined, Except.map]

theorem Links.definition?_eq_none {es : List ImportEntry} (hl : l.Links es)
    (hnew : ∀ e' ∈ es, (e'.module, e'.name) ≠ (e.module, e.name)) :
    l.definition? e.module e.name = none := by
  by_contra hsome
  obtain ⟨e', he', hat⟩ := hl.defined e.module e.name (Option.isSome_iff_ne_none.2 hsome)
  simp only [ImportEntry.isAt, Bool.and_eq_true, decide_eq_true_eq] at hat
  exact hnew e' he' (by rw [hat.1, hat.2])

end Linkage

namespace ImportTable

/-- Why linking stops: the refusal of the first entry that is refused. -/
def refusal? (t : ImportTable) (cap : Option Nat) : Option LoadError :=
  t.entries.findSome? (ImportEntry.refusal? cap)

/-- Linking succeeds unless an entry is refused, and then fails as the first of these does. -/
theorem link_of_keysDiffer {t : ImportTable} (h : t.KeysDiffer) (cap : Option Nat) :
    (∀ err, t.refusal? cap = some err → (t.link cap).outcome = .error err) ∧
      (t.refusal? cap = none → ∃ l, (t.link cap).outcome = .ok l) := by
  obtain ⟨es⟩ := t
  unfold refusal?
  rw [outcome_link]
  dsimp only [KeysDiffer] at h ⊢
  induction es using List.reverseRecOn with
  | nil => exact ⟨by simp, fun _ => ⟨{}, rfl⟩⟩
  | append_singleton es e ih =>
    obtain ⟨hes, -, hnew⟩ := List.pairwise_append.1 h
    obtain ⟨hrefused, hmade⟩ := ih hes
    rw [List.foldlM_append, List.findSome?_append]
    cases hfirst : es.findSome? (ImportEntry.refusal? cap) with
    | some err =>
      rw [hrefused err hfirst]
      exact ⟨fun err' herr => by cases herr; rfl, by simp⟩
    | none =>
      obtain ⟨l, hl⟩ := hmade hfirst
      have hlinks : l.Links es := links_of_link (t := ⟨es⟩) (by rw [outcome_link, hl])
      have hfree : l.definition? e.module e.name = none :=
        hlinks.definition?_eq_none fun e' he' => hnew e' he' e (by simp)
      have hlast : (Except.ok l >>= fun l => [e].foldlM (fun l e => e.addTo cap l) l) =
          e.addTo cap l := by
        change [e].foldlM (fun l e => e.addTo cap l) l = _
        rw [List.foldlM_cons, bind_congr fun _ => List.foldlM_nil, bind_pure]
      have hrefusal : [e].findSome? (ImportEntry.refusal? cap) = e.refusal? cap := by
        cases hr : e.refusal? cap <;> simp [hr]
      rw [hl, hlast, Option.none_or, hrefusal]
      exact Linkage.addTo_of_free hfree

/-- The first memory of the table that is larger from the start than memories may grow. -/
def tooLarge? (t : ImportTable) (cap : Option Nat) : Option ImportEntry :=
  t.entries.find? fun e => e.tooLarge cap

/-- Where all memories can be made, only one that is too large is refused. -/
theorem refusal?_eq_some_iff_of_possible {t : ImportTable} {cap : Option Nat}
    (possible : ∀ e ∈ t.entries, ∀ pages, e.offer = .memory pages → pages.isPossible = true)
    {err : LoadError} :
    t.refusal? cap = some err ↔ ∃ e pages, t.tooLarge? cap = some e ∧ e.offer = .memory pages ∧
      err = .fault (.hostFunction e.module e.name pages.tooLargeText) := by
  obtain ⟨es⟩ := t
  unfold refusal? tooLarge?
  dsimp only at possible ⊢
  induction es with
  | nil => simp
  | cons e es ih =>
    have hes := ih fun e' he' => possible e' (List.mem_cons_of_mem e he')
    have he := possible e List.mem_cons_self
    rw [List.findSome?_cons, List.find?_cons]
    cases ho : e.offer with
    | logger logger sink => simpa [ImportEntry.refusal?, ImportEntry.tooLarge, ho] using hes
    | memory pages =>
      cases hlarge : pages.tooLarge cap with
      | false => simpa [ImportEntry.refusal?, ImportEntry.tooLarge, ho, he pages ho, hlarge] using hes
      | true =>
        simp [ImportEntry.refusal?, ImportEntry.tooLarge, ho, he pages ho, hlarge, eq_comm]

theorem refusal?_eq_none_iff_of_possible {t : ImportTable} {cap : Option Nat}
    (possible : ∀ e ∈ t.entries, ∀ pages, e.offer = .memory pages → pages.isPossible = true) :
    t.refusal? cap = none ↔ t.tooLarge? cap = none := by
  constructor
  · intro hnone
    by_contra hlarge
    obtain ⟨e, he⟩ := Option.ne_none_iff_exists'.1 hlarge
    have hfind : t.entries.find? (fun e => e.tooLarge cap) = some e := he
    have hsome := List.find?_some hfind
    dsimp only [ImportEntry.tooLarge] at hsome
    split at hsome
    · next pages hoffer =>
      cases hnone.symm.trans ((refusal?_eq_some_iff_of_possible possible).2 ⟨e, pages, he, hoffer, rfl⟩)
    · cases hsome
  · intro hnone
    by_contra hrefused
    obtain ⟨err, herr⟩ := Option.ne_none_iff_exists'.1 hrefused
    obtain ⟨e, pages, he, -⟩ := (refusal?_eq_some_iff_of_possible possible).1 herr
    cases hnone.symm.trans he

end ImportTable
end GuestHarness
