import Mathlib.Data.List.Induction
import GuestHarness.Import.Link

/-! What linking makes of a table. Linking goes through the entries in order, so that whatever holds of
an empty linkage and outlasts each entry holds of the linkage of all of them. -/
namespace GuestHarness

/-- Linking in full is adding the entries in order, with the events left out. -/
theorem ImportTable.outcome_link (t : ImportTable) (cap : Option Nat) :
    (t.link cap).outcome = t.entries.foldlM (fun l e => e.addTo cap l) {} := by
  have h (es : List ImportEntry) (l : Linkage) :
      (es.foldlM (fun l e => e.link cap l) l : Account LoadError Linkage).outcome =
        es.foldlM (fun l e => e.addTo cap l) l := by
    induction es generalizing l with
    | nil => rfl
    | cons e es ih =>
      rw [List.foldlM_cons, List.foldlM_cons, Account.bind_eq_andThen, Account.outcome_andThen]
      cases he : e.addTo cap l with
      | error err => simp [ImportEntry.link, he]; rfl
      | ok l' => simp only [ImportEntry.link, he]; exact ih l'
  exact h t.entries {}

/-- An invariant of linking, stated over the entries so far. -/
theorem ImportTable.link_induction {cap : Option Nat} {P : List ImportEntry → Linkage → Prop}
    (nil : P [] {})
    (snoc : ∀ es e l l', P es l → e.addTo cap l = .ok l' → P (es ++ [e]) l')
    {t : ImportTable} {l : Linkage} (linked : (t.link cap).outcome = .ok l) : P t.entries l := by
  rw [outcome_link] at linked
  generalize t.entries = es at linked
  induction es using List.reverseRecOn generalizing l with
  | nil =>
    cases linked
    exact nil
  | append_singleton es e ih =>
    rw [List.foldlM_append] at linked
    cases hes : es.foldlM (fun l e => e.addTo cap l) {} with
    | error err =>
      rw [hes] at linked
      cases linked
    | ok before =>
      rw [hes] at linked
      refine snoc es e before l (ih hes) ?_
      have hlast : [e].foldlM (fun l e => e.addTo cap l) before = .ok l := linked
      rwa [List.foldlM_cons, bind_congr fun _ => List.foldlM_nil, bind_pure] at hlast

namespace Linkage

variable {l l' : Linkage} {cap : Option Nat} {e : ImportEntry}

theorem define_eq_ok_iff {module name : String} {d : Definition} :
    l.define module name d = .ok l' ↔ l.definition? module name = none ∧
      l' = { l with definitions := ((module, name), d) :: l.definitions } := by
  cases h : l.definition? module name <;> simp [define, h, eq_comm]

/-- What an entry adds to a linkage. -/
theorem addTo_cases (h : e.addTo cap l = .ok l') :
    l.definition? e.module e.name = none ∧
    ((∃ logger sink, e.offer = .logger logger sink ∧ l' =
        { l with definitions := ((e.module, e.name), .logger logger sink) :: l.definitions }) ∨
      (∃ pages, e.offer = .memory pages ∧ pages.isPossible = true ∧
        Wasm.atMost cap pages.limits.minimum = true ∧ l' =
          { memories := l.memories.push (.new pages.type)
            definitions := ((e.module, e.name), .memory l.memories.size) :: l.definitions
            registry := l.registry.insert (qualifiedName e.module e.name) l.memories.size })) := by
  unfold ImportEntry.addTo at h
  cases ho : e.offer with
  | logger logger sink =>
    rw [ho] at h
    obtain ⟨hfree, hl⟩ := define_eq_ok_iff.1 h
    exact ⟨hfree, .inl ⟨logger, sink, rfl, hl⟩⟩
  | memory pages =>
    rw [ho] at h
    dsimp only at h
    split at h
    · cases h
    · next hp =>
      split at h
      · next hcap =>
        unfold addMemory at h
        cases hd : l.define e.module e.name (.memory l.memories.size) with
        | error err =>
          rw [hd] at h
          cases h
        | ok defined =>
          rw [hd] at h
          obtain ⟨hfree, rfl⟩ := define_eq_ok_iff.1 hd
          cases h
          exact ⟨hfree, .inr ⟨pages, rfl, by simpa using hp, hcap, rfl⟩⟩
      · cases h

/-- The entry's key leads to what the entry offers. -/
def Holds (l : Linkage) (e : ImportEntry) : Prop :=
  match e.offer with
  | .logger logger sink => l.definition? e.module e.name = some (.logger logger sink)
  | .memory pages => ∃ a, l.definition? e.module e.name = some (.memory a) ∧
      l.memories[a]? = some (.new pages.type)

/-- The linkage is what linking these entries makes: each key has one entry, which holds. -/
structure Links (es : List ImportEntry) (l : Linkage) : Prop where
  holds : ∀ e ∈ es, l.Holds e
  defined : ∀ module name, (l.definition? module name).isSome → ∃ e ∈ es, e.isAt module name
  unique : es.Pairwise fun e e' => (e.module, e.name) ≠ (e'.module, e'.name)

theorem definition?_of_cons {module name : String} {d : Definition}
    (h : l'.definitions = ((module, name), d) :: l.definitions) (module' name' : String) :
    l'.definition? module' name' =
      if (module', name') = (module, name) then some d else l.definition? module' name' := by
  unfold definition?
  rw [h, List.lookup_cons]
  by_cases hkey : (module', name') = (module, name)
  · simp [hkey]
  · have hb : ((module', name') == (module, name)) = false := beq_eq_false_iff_ne.2 hkey
    simp only [hb, hkey, if_false]

/-- Where a new key is defined, and all others lead where they led before. -/
theorem definition?_addTo (h : e.addTo cap l = .ok l') :
    (∃ d, l'.definition? e.module e.name = some d) ∧
      ∀ module name, (module, name) ≠ (e.module, e.name) →
        l'.definition? module name = l.definition? module name := by
  obtain ⟨-, ⟨logger, sink, -, rfl⟩ | ⟨pages, -, -, -, rfl⟩⟩ := addTo_cases h
  · refine ⟨⟨.logger logger sink, ?_⟩, fun module name hne => ?_⟩
    · rw [definition?_of_cons rfl, if_pos rfl]
    · rw [definition?_of_cons rfl, if_neg hne]
  · refine ⟨⟨.memory l.memories.size, ?_⟩, fun module name hne => ?_⟩
    · rw [definition?_of_cons rfl, if_pos rfl]
    · rw [definition?_of_cons rfl, if_neg hne]

/-- No memory moves when an entry is added. -/
theorem memories_addTo (h : e.addTo cap l = .ok l') {a : Nat} {m : Wasm.Memory}
    (hm : l.memories[a]? = some m) : l'.memories[a]? = some m := by
  obtain ⟨-, ⟨logger, sink, -, rfl⟩ | ⟨pages, -, -, -, rfl⟩⟩ := addTo_cases h
  · exact hm
  · have ha : a < l.memories.size := (Array.getElem?_eq_some_iff.1 hm).1
    rw [Array.getElem?_push_lt ha, ← hm, Array.getElem?_eq_getElem ha]

theorem Holds.addTo {e' : ImportEntry} (he : l.Holds e') (h : e.addTo cap l = .ok l')
    (hne : (e'.module, e'.name) ≠ (e.module, e.name)) : l'.Holds e' := by
  unfold Holds at he ⊢
  rw [(definition?_addTo h).2 _ _ hne]
  cases ho : e'.offer with
  | logger logger sink => simpa [ho] using he
  | memory pages =>
    rw [ho] at he
    obtain ⟨a, hd, hm⟩ := he
    exact ⟨a, hd, memories_addTo h hm⟩

/-- The entry just added holds. -/
theorem holds_addTo (h : e.addTo cap l = .ok l') : l'.Holds e := by
  obtain ⟨-, ⟨logger, sink, ho, rfl⟩ | ⟨pages, ho, -, -, rfl⟩⟩ := addTo_cases h
  · simp [Holds, ho, definition?]
  · simp [Holds, ho, definition?]

theorem Links.addTo {es : List ImportEntry} (hl : l.Links es) (h : e.addTo cap l = .ok l') :
    l'.Links (es ++ [e]) := by
  obtain ⟨hfree, -⟩ := addTo_cases h
  have hnew : ∀ e' ∈ es, (e'.module, e'.name) ≠ (e.module, e.name) := by
    intro e' he' heq
    obtain ⟨hmodule, hname⟩ := Prod.mk.injEq .. ▸ heq
    have hholds := hl.holds e' he'
    unfold Holds at hholds
    rw [hmodule, hname, hfree] at hholds
    cases ho : e'.offer <;> simp [ho] at hholds
  refine ⟨?_, ?_, ?_⟩
  · intro e' he'
    obtain he' | he' := List.mem_append.1 he'
    · exact (hl.holds e' he').addTo h (hnew e' he')
    · cases List.mem_singleton.1 he'
      exact holds_addTo h
  · intro module name hd
    by_cases hkey : (module, name) = (e.module, e.name)
    · cases hkey
      exact ⟨e, by simp, by simp [ImportEntry.isAt]⟩
    · rw [(definition?_addTo h).2 _ _ hkey] at hd
      obtain ⟨e', he', hat⟩ := hl.defined module name hd
      exact ⟨e', List.mem_append_left _ he', hat⟩
  · refine List.pairwise_append.2 ⟨hl.unique, List.pairwise_singleton _ _, ?_⟩
    intro e' he' e'' he''
    cases List.mem_singleton.1 he''
    exact hnew e' he'

theorem Links.empty : ({} : Linkage).Links [] :=
  ⟨by simp, by simp [Linkage.definition?], .nil⟩

end Linkage

/-- A table that can be linked is linked entry by entry. -/
theorem ImportTable.links_of_link {t : ImportTable} {cap : Option Nat} {l : Linkage}
    (linked : (t.link cap).outcome = .ok l) : l.Links t.entries :=
  link_induction (P := fun es l => l.Links es) .empty (fun _ _ _ _ hl h => hl.addTo h) linked

end GuestHarness
