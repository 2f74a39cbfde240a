import Mathlib.Data.Finset.Card
import GuestHarness.Proofs.Import.Aliasing
import GuestHarness.Proofs.Import.Building

/-! Tables as ordered maps. What a table holds is told by what was done since it was last begun: a key leads
to what it was last registered with, at the size that memories were given last since then, and keys stand
in the order of their last registrations. -/
namespace GuestHarness

/-- What the steps of building do to a table that was begun. -/
inductive TableEvent where
  | register (module name : String) (offer : Offer)
  /-- All memories get this size. -/
  | resize (pages : MemoryPages)

def TableEvent.key? : TableEvent → Option (String × String)
  | register module name _ => some (module, name)
  | resize _ => none

def TableEvent.size? : TableEvent → Option MemoryPages
  | register .. => none
  | resize pages => some pages

namespace BuildStep

/-- Whatever was in the table is gone after the step. -/
def begins : BuildStep → Bool
  | empty | integerLogger .. | stringLogger _ | stringLoggerExported .. => true
  | insert .. | withIntegerLogger .. | withMemoryPages _ => false

def events : BuildStep → List TableEvent
  | empty => []
  | integerLogger width sink | withIntegerLogger width sink =>
    [.register consoleModule logFunction (.logger (.integer width) sink)]
  | stringLogger sink =>
    [.register memoryModule memoryName (.memory {}),
      .register consoleModule logFunction
        (.logger (.string (.imported memoryModule memoryName)) sink)]
  | stringLoggerExported sink exported =>
    [.register consoleModule logFunction (.logger (.string (.exported exported)) sink)]
  | insert module name offer => [.register module name offer]
  | withMemoryPages pages => [.resize pages]

/-- What was done since the table was last begun. -/
def eventsOf (steps : List BuildStep) : List TableEvent :=
  steps.foldl (fun es step => if step.begins then step.events else es ++ step.events) []

end BuildStep

/-- The keys that were registered, in order of time, with repetitions. -/
def registeredKeys (es : List TableEvent) : List (String × String) := es.filterMap TableEvent.key?

@[simp] theorem registeredKeys_append (es es' : List TableEvent) :
    registeredKeys (es ++ es') = registeredKeys es ++ registeredKeys es' :=
  List.filterMap_append

@[simp] theorem registeredKeys_register (module name : String) (offer : Offer) :
    registeredKeys [.register module name offer] = [(module, name)] := rfl

@[simp] theorem registeredKeys_resize (pages : MemoryPages) : registeredKeys [.resize pages] = [] := rfl

/-- The size that memories were given last. -/
def lastSize? (es : List TableEvent) : Option MemoryPages := (es.filterMap TableEvent.size?).getLast?

namespace Offer

/-- A memory of another size; loggers have none. -/
def withPages (pages : MemoryPages) : Offer → Offer
  | memory _ => memory pages
  | logger l sink => logger l sink

/-- What has become of an offer after some events at other keys. -/
def after (o : Offer) (es : List TableEvent) : Offer :=
  match lastSize? es with
  | some pages => o.withPages pages
  | none => o

@[simp] theorem after_nil (o : Offer) : o.after [] = o := rfl

theorem withPages_withPages (o : Offer) (pages pages' : MemoryPages) :
    (o.withPages pages).withPages pages' = o.withPages pages' := by
  cases o <;> rfl

theorem after_snoc_register (o : Offer) (es : List TableEvent) (module name : String) (o' : Offer) :
    o.after (es ++ [.register module name o']) = o.after es := by
  simp [after, lastSize?, TableEvent.size?]

theorem after_snoc_resize (o : Offer) (es : List TableEvent) (pages : MemoryPages) :
    o.after (es ++ [.resize pages]) = (o.after es).withPages pages := by
  have hlast : lastSize? (es ++ [.resize pages]) = some pages := by
    simp [lastSize?, TableEvent.size?]
  cases h : lastSize? es <;> simp [after, h, hlast, withPages_withPages]

end Offer

/-- The last registration of the key was with an offer that has become this one since. -/
def LastRegistered (es : List TableEvent) (module name : String) (offer : Offer) : Prop :=
  ∃ before registered later, es = before ++ .register module name registered :: later ∧
    (module, name) ∉ registeredKeys later ∧ offer = registered.after later

namespace LastRegistered

variable {es : List TableEvent} {module name module' name' : String} {offer offer' : Offer}
  {pages : MemoryPages}

theorem not_nil : ¬ LastRegistered [] module name offer := by
  rintro ⟨before, registered, later, h, -⟩
  simp at h

/-- The last event is the registration, or comes after it. -/
theorem snoc_cases {e : TableEvent} (h : LastRegistered (es ++ [e]) module name offer) :
    e = .register module name offer ∨ e.key? ≠ some (module, name) ∧
      ∃ before registered later, es = before ++ .register module name registered :: later ∧
        (module, name) ∉ registeredKeys later ∧ offer = registered.after (later ++ [e]) := by
  obtain ⟨before, registered, later, hes, hlater, rfl⟩ := h
  obtain rfl | ⟨later, last, rfl⟩ := later.eq_nil_or_concat'
  · obtain ⟨-, hlast⟩ := List.append_inj' hes rfl
    cases hlast
    exact .inl rfl
  · rw [← List.cons_append, ← List.append_assoc] at hes
    obtain ⟨hfront, hlast⟩ := List.append_inj' hes rfl
    cases hlast
    rw [registeredKeys_append, List.mem_append, not_or] at hlater
    exact .inr ⟨fun hkey => hlater.2 (by simp [registeredKeys, hkey]), before, registered, later,
      hfront, hlater.1, rfl⟩

theorem snoc_register_self :
    LastRegistered (es ++ [.register module name offer']) module name offer ↔ offer = offer' := by
  constructor
  · intro h
    obtain heq | ⟨hne, -⟩ := h.snoc_cases
    · cases heq
      rfl
    · exact absurd rfl hne
  · rintro rfl
    exact ⟨es, offer, [], rfl, by simp [registeredKeys], rfl⟩

theorem snoc_register_of_ne (hne : (module', name') ≠ (module, name)) :
    LastRegistered (es ++ [.register module' name' offer']) module name offer ↔
      LastRegistered es module name offer := by
  constructor
  · intro h
    obtain heq | ⟨-, before, registered, later, hes, hlater, rfl⟩ := h.snoc_cases
    · cases heq
      exact absurd rfl hne
    · exact ⟨before, registered, later, hes, hlater, Offer.after_snoc_register ..⟩
  · rintro ⟨before, registered, later, rfl, hlater, rfl⟩
    refine ⟨before, registered, later ++ [.register module' name' offer'], by simp, ?_,
      (Offer.after_snoc_register ..).symm⟩
    rw [registeredKeys_append, registeredKeys_register, List.mem_append, List.mem_singleton, not_or]
    exact ⟨hlater, Ne.symm hne⟩

theorem snoc_resize :
    LastRegistered (es ++ [.resize pages]) module name offer ↔
      ∃ o, LastRegistered es module name o ∧ offer = o.withPages pages := by
  constructor
  · intro h
    obtain heq | ⟨-, before, registered, later, hes, hlater, rfl⟩ := h.snoc_cases
    · cases heq
    · exact ⟨_, ⟨before, registered, later, hes, hlater, rfl⟩, Offer.after_snoc_resize ..⟩
  · rintro ⟨o, ⟨before, registered, later, rfl, hlater, rfl⟩, rfl⟩
    refine ⟨before, registered, later ++ [.resize pages], by simp, ?_,
      (Offer.after_snoc_resize ..).symm⟩
    simpa using hlater

end LastRegistered

def ImportEntry.key (e : ImportEntry) : String × String := (e.module, e.name)

theorem ImportEntry.isAt_iff {e : ImportEntry} {module name : String} :
    e.isAt module name = true ↔ e.key = (module, name) := by
  simp [isAt, key]

/-- Of a list with a last item, without repetitions but the last ones, that item is the last. -/
theorem dedup_snoc {α : Type} [DecidableEq α] (as : List α) (a : α) :
    (as ++ [a]).dedup = as.dedup.filter (· ≠ a) ++ [a] := by
  induction as with
  | nil => rfl
  | cons b as ih =>
    rw [List.cons_append]
    by_cases hmem : b ∈ as
    · rw [List.dedup_cons_of_mem (List.mem_append_left _ hmem), List.dedup_cons_of_mem hmem, ih]
    · by_cases hlast : b = a
      · subst hlast
        rw [List.dedup_cons_of_mem (by simp), List.dedup_cons_of_notMem hmem, ih]
        simp
      · rw [List.dedup_cons_of_notMem (by simp [hmem, hlast]), List.dedup_cons_of_notMem hmem, ih]
        simp [hlast]

namespace ImportTable

variable (t : ImportTable) {module name module' name' : String}

/-- The keys of the entries, in order. -/
def keys : List (String × String) := t.entries.map ImportEntry.key

theorem keys_insert (module name : String) (offer : Offer) :
    (t.insert module name offer).keys = t.keys.filter (· ≠ (module, name)) ++ [(module, name)] := by
  have hat (e : ImportEntry) : (!e.isAt module name) = decide (e.key ≠ (module, name)) := by
    by_cases h : e.key = (module, name)
    · simp [ImportEntry.isAt_iff.2 h, h]
    · simpa [h] using mt ImportEntry.isAt_iff.1 h
  simp only [keys, insert, List.map_append, List.filter_map, hat]
  rfl

theorem keys_withMemoryPages (pages : MemoryPages) : (t.withMemoryPages pages).keys = t.keys := by
  simp only [keys, withMemoryPages, List.map_map]
  refine List.map_congr_left fun e _ => ?_
  cases h : e.offer <;> simp [h, ImportEntry.key]

theorem find?_insert_of_ne (hne : (module', name') ≠ (module, name)) (offer : Offer) :
    (t.insert module' name' offer).find? module name = t.find? module name := by
  have hlast : (⟨module', name', offer⟩ : ImportEntry).isAt module name = false := by
    simpa [ImportEntry.isAt] using hne
  have hkept : ((fun e : ImportEntry => !e.isAt module' name' && e.isAt module name) =
      fun e => e.isAt module name) := by
    funext e
    cases hat : e.isAt module name with
    | false => simp
    | true =>
      have hother : e.isAt module' name' = false := by
        simpa using fun h => hne ((ImportEntry.isAt_iff.1 h).symm.trans (ImportEntry.isAt_iff.1 hat))
      simp [hother]
  simp [insert, find?, List.find?_append, List.find?_filter, hkept, hlast]

/-- Where a memory has another size, everything else is as it was. -/
theorem find?_withMemoryPages (pages : MemoryPages) (module name : String) :
    (t.withMemoryPages pages).find? module name =
      (t.find? module name).map fun e => { e with offer := e.offer.withPages pages } := by
  have hentries : (t.withMemoryPages pages).entries =
      t.entries.map fun e => { e with offer := e.offer.withPages pages } := by
    refine List.map_congr_left fun e _ => ?_
    obtain ⟨_, _, offer⟩ := e
    cases offer <;> rfl
  rw [find?, hentries, List.find?_map]
  rfl

/-- The table is what the events make of an empty one. Of equal keys the last one counts for the order. -/
structure Tells (es : List TableEvent) (t : ImportTable) : Prop where
  keys : t.keys = (registeredKeys es).dedup
  find (module name : String) (e : ImportEntry) : t.find? module name = some e ↔
    ∃ offer, LastRegistered es module name offer ∧ e = ⟨module, name, offer⟩

namespace Tells

variable {t} {es : List TableEvent}

theorem empty : ImportTable.empty.Tells [] :=
  ⟨rfl, fun module name e => by simp [ImportTable.empty, find?, LastRegistered.not_nil]⟩

theorem insert (h : t.Tells es) (module name : String) (offer : Offer) :
    (t.insert module name offer).Tells (es ++ [.register module name offer]) := by
  refine ⟨?_, fun module' name' e => ?_⟩
  · rw [keys_insert, h.keys]
    simp [dedup_snoc]
  · by_cases hkey : (module, name) = (module', name')
    · cases hkey
      simp [find?_insert_self, LastRegistered.snoc_register_self, eq_comm]
    · simp [find?_insert_of_ne t hkey, LastRegistered.snoc_register_of_ne hkey, h.find]

theorem withMemoryPages (h : t.Tells es) (pages : MemoryPages) :
    (t.withMemoryPages pages).Tells (es ++ [.resize pages]) := by
  refine ⟨?_, fun module name e => ?_⟩
  · rw [keys_withMemoryPages, h.keys]
    simp
  · simp only [find?_withMemoryPages, Option.map_eq_some_iff, h.find, LastRegistered.snoc_resize]
    constructor
    · rintro ⟨_, ⟨offer, hoffer, rfl⟩, rfl⟩
      exact ⟨_, ⟨offer, hoffer, rfl⟩, rfl⟩
    · rintro ⟨_, ⟨offer, hoffer, rfl⟩, rfl⟩
      exact ⟨_, ⟨offer, hoffer, rfl⟩, rfl⟩

theorem step (h : t.Tells es) (step : BuildStep) :
    (t.step step).Tells (if step.begins then step.events else es ++ step.events) := by
  cases step with
  | empty => exact .empty
  | integerLogger width sink => exact Tells.empty.insert _ _ _
  | stringLogger sink => exact (Tells.empty.insert _ _ _).insert _ _ _
  | stringLoggerExported sink exported => exact Tells.empty.insert _ _ _
  | insert module name offer => exact h.insert module name offer
  | withIntegerLogger width sink => exact h.insert _ _ _
  | withMemoryPages pages => exact h.withMemoryPages pages

end Tells

/-- Whatever steps build it, a table is what was done since it was last begun. -/
theorem tells_build (steps : List BuildStep) : (build steps).Tells (BuildStep.eventsOf steps) := by
  unfold build BuildStep.eventsOf
  generalize ht : empty = t, hes : [] = es
  have h : t.Tells es := ht ▸ hes ▸ .empty
  clear ht hes
  induction steps generalizing t es with
  | nil => exact h
  | cons step steps ih => exact ih _ _ (h.step step)

theorem find?_eq_none_iff : t.find? module name = none ↔ (module, name) ∉ t.keys := by
  simp [find?, keys, ImportEntry.key, ImportEntry.isAt]

theorem nodup_keys {t : ImportTable} (h : t.KeysDiffer) : t.keys.Nodup :=
  List.pairwise_map.2 h

/-- Giving memories another size moves no entry and leaves all others alone. -/
theorem forall₂_withMemoryPages (pages : MemoryPages) :
    List.Forall₂ (fun e e' : ImportEntry => e'.key = e.key ∧
        (e.offer.isMemory = true → e'.offer = .memory pages) ∧
        (e.offer.isMemory = false → e' = e))
      t.entries (t.withMemoryPages pages).entries := by
  refine List.forall₂_map_right_iff.2 (List.forall₂_same.2 fun e _ => ?_)
  cases h : e.offer <;> simp [h, ImportEntry.key, Offer.isMemory]

/-- Whenever linking comes to an entry, nothing is defined at its key. -/
theorem define_of_link {t : ImportTable} (h : t.KeysDiffer) {cap : Option Nat}
    {before later : List ImportEntry} {e : ImportEntry} (hentries : t.entries = before ++ e :: later)
    {l : Linkage} (linked : ((⟨before⟩ : ImportTable).link cap).outcome = .ok l) (d : Definition) :
    ∃ l', l.define e.module e.name d = .ok l' := by
  have hdiffer : (before ++ e :: later).Pairwise fun e e' : ImportEntry =>
      (e.module, e.name) ≠ (e'.module, e'.name) := hentries ▸ (h :)
  have hnew : ∀ e' ∈ before, (e'.module, e'.name) ≠ (e.module, e.name) := fun e' he' =>
    (List.pairwise_append.1 hdiffer).2.2 e' he' e (by simp)
  have hlinks : l.Links before := links_of_link (t := ⟨before⟩) linked
  exact ⟨_, Linkage.define_eq_ok_iff.2 ⟨hlinks.definition?_eq_none hnew, rfl⟩⟩

/-- However a table is built, its keys differ and stand in the order of their last registrations since it
was last begun; a key leads to what it was last registered with, a memory having the size that memories
were given last since then; and giving memories a size changes nothing else. So no entry is ever linked
at a key that has a definition already. -/
theorem table_is_ordered_map (steps : List BuildStep) :
    let t := build steps
    let es := BuildStep.eventsOf steps
    t.keys.Nodup ∧ t.keys = (registeredKeys es).dedup ∧
      t.size = (registeredKeys es).toFinset.card ∧
      (∀ module name, t.find? module name = none ↔ (module, name) ∉ registeredKeys es) ∧
      (∀ module name e, t.find? module name = some e ↔
        ∃ offer, LastRegistered es module name offer ∧ e = ⟨module, name, offer⟩) ∧
      (∀ pages, List.Forall₂ (fun e e' : ImportEntry => e'.key = e.key ∧
          (e.offer.isMemory = true → e'.offer = .memory pages) ∧
          (e.offer.isMemory = false → e' = e))
        t.entries (build (steps ++ [.withMemoryPages pages])).entries) ∧
      ∀ cap before e later, t.entries = before ++ e :: later →
        ∀ l, ((⟨before⟩ : ImportTable).link cap).outcome = .ok l →
          ∀ d, ∃ l', l.define e.module e.name d = .ok l' := by
  intro t es
  have htells : t.Tells es := tells_build steps
  have hdiffer : t.KeysDiffer := keysDiffer_build steps
  refine ⟨nodup_keys hdiffer, htells.keys, ?_, fun module name => ?_, htells.find, fun pages => ?_,
    fun cap before e later hentries l hl d => define_of_link hdiffer hentries hl d⟩
  · rw [List.card_toFinset, ← htells.keys]
    simp [size, keys]
  · rw [find?_eq_none_iff, htells.keys, List.mem_dedup]
  · have hbuild : build (steps ++ [.withMemoryPages pages]) = t.withMemoryPages pages := by
      simp [build, step, t]
    rw [hbuild]
    exact t.forall₂_withMemoryPages pages

/-- A memory that is registered, resized, registered again at its key and resized once more, with another
entry between its registrations. -/
theorem table_is_ordered_map_resized :
    let steps : List BuildStep := [.stringLogger (.recorder 0), .withMemoryPages ⟨2, none⟩,
      .insert memoryModule memoryName (.memory ⟨3, none⟩), .withMemoryPages ⟨4, some 5⟩]
    let t := build steps
    t.keys = [(consoleModule, logFunction), (memoryModule, memoryName)] ∧
      t.find? memoryModule memoryName = some ⟨memoryModule, memoryName, .memory ⟨4, some 5⟩⟩ ∧
      ∀ l, ((⟨t.entries.take 1⟩ : ImportTable).link none).outcome = .ok l →
        ∃ l', l.define memoryModule memoryName (.memory 0) = .ok l' := by
  intro steps t
  obtain ⟨-, hkeys, -, -, hfind, -, hlink⟩ := table_is_ordered_map steps
  have hlast : LastRegistered (BuildStep.eventsOf steps) memoryModule memoryName (.memory ⟨4, some 5⟩) :=
    ⟨_ :: _ :: _ :: [], .memory ⟨3, none⟩, [.resize ⟨4, some 5⟩], rfl, by decide, rfl⟩
  refine ⟨hkeys.trans (by decide), (hfind _ _ _).2 ⟨_, hlast, rfl⟩, fun l hl => ?_⟩
  exact hlink none _ ⟨memoryModule, memoryName, .memory ⟨4, some 5⟩⟩ [] (by decide) l hl _

end ImportTable
end GuestHarness
