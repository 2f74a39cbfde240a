import Mathlib.Data.List.Dedup
import GuestHarness.Proofs.Import.Linking
import GuestHarness.Instance

/-! Host memories and their joined names. A memory's address is its place among the memory entries, so
no two entries have a memory in common; but the registry finds memories by joined names, and of the
entries that join to one name it knows the last. It knows all of them exactly if these names differ. -/
namespace GuestHarness

def Offer.isMemory : Offer → Bool
  | memory _ => true
  | logger .. => false

/-- The name under which the registry knows the entry. -/
def ImportEntry.joined (e : ImportEntry) : String := qualifiedName e.module e.name

def memoriesIn (es : List ImportEntry) : List ImportEntry := es.filter fun e => e.offer.isMemory

/-- The entries that offer memories, in order. -/
def ImportTable.memoryEntries (t : ImportTable) : List ImportEntry := memoriesIn t.entries

/-- The last of some entries that join to a name. -/
def lastJoined? (es : List ImportEntry) (name : String) : Option ImportEntry :=
  es.reverse.find? fun e => e.joined = name

theorem lastJoined?_snoc (es : List ImportEntry) (e : ImportEntry) (name : String) :
    lastJoined? (es ++ [e]) name = if e.joined = name then some e else lastJoined? es name := by
  by_cases h : e.joined = name <;> simp [lastJoined?, h]

theorem mem_of_lastJoined? {es : List ImportEntry} {name : String} {e : ImportEntry}
    (h : lastJoined? es name = some e) : e ∈ es ∧ e.joined = name := by
  have hname := List.find?_some h
  exact ⟨List.mem_reverse.1 (List.mem_of_find?_eq_some h), by simpa using hname⟩

theorem lastJoined?_isSome {es : List ImportEntry} {e : ImportEntry} (he : e ∈ es) :
    ∃ e', lastJoined? es e.joined = some e' :=
  Option.isSome_iff_exists.1
    (List.find?_isSome.2 ⟨e, List.mem_reverse.2 he, by simp⟩)

namespace Linkage

/-- Addresses are places among the memory entries, and the registry knows for each joined name the
last entry that has it. -/
structure Registers (es : List ImportEntry) (l : Linkage) : Prop where
  links : l.Links es
  size : l.memories.size = (memoriesIn es).length
  address : ∀ (k : Nat) e, (memoriesIn es)[k]? = some e → l.address? e.module e.name = some k
  find : ∀ name, l.registry.find? name =
    (lastJoined? (memoriesIn es) name).bind fun e => l.address? e.module e.name
  distinct : l.registry.names.Nodup
  names : ∀ name, name ∈ l.registry.names ↔ name ∈ (memoriesIn es).map ImportEntry.joined

variable {l l' : Linkage} {cap : Option Nat} {e : ImportEntry} {es : List ImportEntry}

/-- An entry that is there already keeps its address. -/
theorem Links.address?_addTo (hl : l.Links es) (h : e.addTo cap l = .ok l') {e' : ImportEntry}
    (he' : e' ∈ es) : l'.address? e'.module e'.name = l.address? e'.module e'.name := by
  have hne : (e'.module, e'.name) ≠ (e.module, e.name) :=
    (List.pairwise_append.1 (hl.addTo h).unique).2.2 e' he' e (by simp)
  simp only [address?, (definition?_addTo h).2 _ _ hne]

theorem mem_of_mem_memoriesIn (h : e ∈ memoriesIn es) : e ∈ es := (List.mem_filter.1 h).1

/-- Whatever entry is added, the registry's last entries lead where they led. -/
theorem Registers.find_addTo (hl : l.Registers es) (h : e.addTo cap l = .ok l') (name : String) :
    (lastJoined? (memoriesIn es) name).bind (fun e => l'.address? e.module e.name) =
      l.registry.find? name := by
  rw [hl.find]
  cases hlast : lastJoined? (memoriesIn es) name with
  | none => rfl
  | some e' =>
    exact hl.links.address?_addTo h (mem_of_mem_memoriesIn (mem_of_lastJoined? hlast).1)

theorem Registers.address_addTo (hl : l.Registers es) (h : e.addTo cap l = .ok l') {k : Nat}
    {e' : ImportEntry} (hk : (memoriesIn es)[k]? = some e') :
    l'.address? e'.module e'.name = some k := by
  rw [hl.links.address?_addTo h (mem_of_mem_memoriesIn (List.mem_of_getElem? hk))]
  exact hl.address k e' hk

/-- An entry without a memory leaves the registry as it was. -/
theorem Registers.addTo_of_other (hl : l.Registers es) (h : e.addTo cap l = .ok l')
    (hother : e.offer.isMemory = false) (hmemories : l'.memories = l.memories)
    (hregistry : l'.registry = l.registry) : l'.Registers (es ++ [e]) := by
  have hes : memoriesIn (es ++ [e]) = memoriesIn es := by simp [memoriesIn, hother]
  refine ⟨hl.links.addTo h, ?_, ?_, ?_, ?_, ?_⟩
  · rw [hes, hmemories, hl.size]
  · intro k e' hk
    exact hl.address_addTo h (hes ▸ hk)
  · intro name
    rw [hes, hl.find_addTo h, hregistry]
  · rw [hregistry]
    exact hl.distinct
  · rw [hes, hregistry]
    exact hl.names

/-- A new memory has the next address, and its joined name leads to it from now on. -/
theorem Registers.addTo_of_memory (hl : l.Registers es) (h : e.addTo cap l = .ok l')
    (hmemory : e.offer.isMemory = true) (hsize : l'.memories.size = l.memories.size + 1)
    (hregistry : l'.registry = l.registry.insert e.joined l.memories.size)
    (hnew : l'.address? e.module e.name = some l.memories.size) : l'.Registers (es ++ [e]) := by
  have hes : memoriesIn (es ++ [e]) = memoriesIn es ++ [e] := by simp [memoriesIn, hmemory]
  refine ⟨hl.links.addTo h, ?_, ?_, ?_, ?_, ?_⟩
  · rw [hes, List.length_append, ← hl.size, hsize, List.length_singleton]
  · intro k e' hk
    rw [hes] at hk
    obtain hlt | hge := Nat.lt_or_ge k (memoriesIn es).length
    · rw [List.getElem?_append_left hlt] at hk
      exact hl.address_addTo h hk
    · rw [List.getElem?_append_right hge, List.getElem?_singleton] at hk
      split at hk
      · cases hk
        rw [hnew, hl.size]
        congr 1
        omega
      · cases hk
  · intro name
    rw [hes, lastJoined?_snoc, hregistry]
    by_cases hname : e.joined = name
    · rw [if_pos hname, ← hname, Registry.find?_insert_self]
      exact hnew.symm
    · rw [if_neg hname, hl.find_addTo h, Registry.find?_insert_of_ne _ _ (Ne.symm hname)]
  · rw [hregistry, Registry.names_insert, List.nodup_cons]
    exact ⟨by simp, hl.distinct.filter _⟩
  · intro name
    rw [hes, hregistry, Registry.names_insert, List.map_append, List.mem_append, List.mem_cons,
      List.mem_filter, hl.names]
    by_cases hname : name = e.joined <;> simp [hname]

theorem Registers.addTo (hl : l.Registers es) (h : e.addTo cap l = .ok l') :
    l'.Registers (es ++ [e]) := by
  obtain ⟨-, ⟨logger, sink, ho, heq⟩ | ⟨pages, ho, -, -, heq⟩⟩ := addTo_cases h
  · exact hl.addTo_of_other h (by simp [ho, Offer.isMemory]) (by rw [heq]) (by rw [heq])
  · refine hl.addTo_of_memory h (by simp [ho, Offer.isMemory]) (by simp [heq]) ?_ ?_
    · rw [heq]
      rfl
    · rw [heq]
      simp [address?, definition?]

end Linkage

theorem ImportTable.registers_of_link {t : ImportTable} {cap : Option Nat} {l : Linkage}
    (linked : (t.link cap).outcome = .ok l) : l.Registers t.entries :=
  link_induction (P := fun es l => l.Registers es)
    ⟨.empty, rfl, by simp [memoriesIn], fun _ => rfl, .nil,
      by simp [Registry.names, memoriesIn]⟩
    (fun _ _ _ _ hl h => hl.addTo h) linked

theorem lastJoined?_of_nodup {es : List ImportEntry} (h : (es.map ImportEntry.joined).Nodup)
    {e : ImportEntry} (he : e ∈ es) : lastJoined? es e.joined = some e := by
  obtain ⟨e', hlast⟩ := lastJoined?_isSome he
  obtain ⟨he', hname⟩ := mem_of_lastJoined? hlast
  rw [hlast, List.inj_on_of_nodup_map h he' he hname]

namespace Linkage.Registers

variable {l : Linkage} {es : List ImportEntry} {e e' : ImportEntry}

theorem exists_address (hl : l.Registers es) (he : e ∈ memoriesIn es) :
    ∃ a, l.address? e.module e.name = some a ∧ (memoriesIn es)[a]? = some e := by
  obtain ⟨k, hk⟩ := List.getElem?_of_mem he
  exact ⟨k, hl.address k e hk, hk⟩

/-- No two memory entries have an address in common. -/
theorem eq_of_address?_eq (hl : l.Registers es) (he : e ∈ memoriesIn es) (he' : e' ∈ memoriesIn es)
    (h : l.address? e.module e.name = l.address? e'.module e'.name) : e = e' := by
  obtain ⟨a, ha, hk⟩ := hl.exists_address he
  obtain ⟨a', ha', hk'⟩ := hl.exists_address he'
  rw [ha, ha', Option.some.injEq] at h
  rw [h, hk', Option.some.injEq] at hk
  exact hk.symm

/-- The registry leads to an entry's own memory exactly if the entry is the last of its joined name. -/
theorem find_eq_address?_iff (hl : l.Registers es) (he : e ∈ memoriesIn es) :
    l.registry.find? e.joined = l.address? e.module e.name ↔
      lastJoined? (memoriesIn es) e.joined = some e := by
  rw [hl.find]
  obtain ⟨e', hlast⟩ := lastJoined?_isSome he
  rw [hlast, Option.bind_some, Option.some.injEq]
  constructor
  · intro h
    exact hl.eq_of_address?_eq (mem_of_lastJoined? hlast).1 he h
  · intro h
    rw [h]

theorem nodup (hl : l.Registers es) : (memoriesIn es).Nodup :=
  (hl.links.unique.filter _).imp fun hne heq => hne (by rw [heq])

/-- The registry leads every entry to its own memory exactly if the joined names differ. -/
theorem forall_find_eq_address?_iff (hl : l.Registers es) :
    (∀ e ∈ memoriesIn es, l.registry.find? e.joined = l.address? e.module e.name) ↔
      ((memoriesIn es).map ImportEntry.joined).Nodup := by
  constructor
  · intro h
    refine hl.nodup.map_on fun e he e' he' hname => ?_
    have hlast := (hl.find_eq_address?_iff he).1 (h e he)
    rw [hname, (hl.find_eq_address?_iff he').1 (h e' he'), Option.some.injEq] at hlast
    exact hlast.symm
  · intro h e he
    exact (hl.find_eq_address?_iff he).2 (lastJoined?_of_nodup h he)

/-- The registry counts each joined name once. -/
theorem size_registry (hl : l.Registers es) :
    l.registry.size = ((memoriesIn es).map ImportEntry.joined).dedup.length := by
  have hperm : l.registry.names.Perm ((memoriesIn es).map ImportEntry.joined).dedup :=
    (List.perm_ext_iff_of_nodup hl.distinct (List.nodup_dedup _)).2 fun name => by
      rw [hl.names, List.mem_dedup]
  rw [← hperm.length_eq]
  simp [Registry.size, Registry.names]

theorem size_registry_eq_iff (hl : l.Registers es) :
    l.registry.size = (memoriesIn es).length ↔ ((memoriesIn es).map ImportEntry.joined).Nodup := by
  rw [hl.size_registry, ← List.dedup_eq_self]
  constructor
  · intro h
    exact (List.dedup_sublist _).eq_of_length (by simpa using h)
  · intro h
    rw [h, List.length_map]

end Linkage.Registers

/-- Each memory entry of a linked table has a memory of its own, made for it. The registry, and so the
loggers that read it and the look-up of an instance by joined name, lead to that memory exactly for
the entries that are the last of their joined name, hence for all exactly if joined names differ; and
just then the registry has as many memories as the table. -/
theorem registry_leads_to_own_memory_iff (t : ImportTable) (cap : Option Nat) (l : Linkage)
    (linked : (t.link cap).outcome = .ok l) :
    (∀ e ∈ t.memoryEntries, ∃ a pages, e.offer = .memory pages ∧
      l.definition? e.module e.name = some (.memory a) ∧
      l.memories[a]? = some (.new pages.type) ∧
      (∀ e' ∈ t.memoryEntries, l.definition? e'.module e'.name = some (.memory a) → e' = e) ∧
      (l.registry.find? e.joined = some a ↔ lastJoined? t.memoryEntries e.joined = some e) ∧
      (∀ exported? caller, Logger.source l.registry exported? caller (.imported e.module e.name) =
        .ok a ↔ lastJoined? t.memoryEntries e.joined = some e) ∧
      (lastJoined? t.memoryEntries e.joined = some e → ∀ i : Instance, i.registry = l.registry →
        Instance.exportedMemory? i.module i.program.memories e.joined = none →
        i.memory? e.joined = i.store.memories[a]?)) ∧
    ((∀ e ∈ t.memoryEntries, l.registry.find? e.joined = l.address? e.module e.name) ↔
      (t.memoryEntries.map ImportEntry.joined).Nodup) ∧
    (l.registry.size = t.memoryEntries.length ↔
      (t.memoryEntries.map ImportEntry.joined).Nodup) := by
  have hl : l.Registers t.entries := ImportTable.registers_of_link linked
  refine ⟨fun e he => ?_, hl.forall_find_eq_address?_iff, hl.size_registry_eq_iff⟩
  obtain ⟨pages, ho⟩ : ∃ pages, e.offer = .memory pages := by
    cases ho : e.offer with
    | memory pages => exact ⟨pages, rfl⟩
    | logger logger sink =>
      have hmem := (List.mem_filter.1 he).2
      simp [ho, Offer.isMemory] at hmem
  have hholds := hl.links.holds e (Linkage.mem_of_mem_memoriesIn he)
  simp only [Linkage.Holds, ho] at hholds
  obtain ⟨a, hd, hm⟩ := hholds
  have ha : l.address? e.module e.name = some a := by simp [Linkage.address?, hd]
  have hfind : l.registry.find? e.joined = some a ↔
      lastJoined? t.memoryEntries e.joined = some e := by
    rw [← ha]
    exact hl.find_eq_address?_iff he
  refine ⟨a, pages, ho, hd, hm, fun e' he' hd' => ?_, hfind, fun exported? caller => ?_,
    fun hlast i hregistry hnone => ?_⟩
  · have ha' : l.address? e'.module e'.name = some a := by simp [Linkage.address?, hd']
    exact hl.eq_of_address?_eq he' he (ha'.trans ha.symm)
  · rw [← hfind]
    exact Logger.source_imported_eq_ok_iff
  · simp [Instance.memory?, hnone, hregistry, hfind.2 hlast]

/-- Two memories whose keys join to one name, and a logger that is to read the first. -/
def clashing : ImportTable :=
  ((ImportTable.empty.insert "a.b" "c" (.memory {})).insert "a" "b.c" (.memory {})).insert
    consoleModule logFunction (.logger (.string (.imported "a.b" "c")) (.recorder 0))

/-- The guest sees the first memory under its key, and the logger reads the second one. -/
theorem registry_misses_own_memory : ∃ l, (clashing.link (some 2)).outcome = .ok l ∧
    l.address? "a.b" "c" = some 0 ∧ clashing.memoryEntries.length = 2 ∧ l.registry.size = 1 ∧
    Logger.source l.registry (fun _ => none) .guest (.imported "a.b" "c") = .ok 1 :=
  ⟨_, rfl, rfl, rfl, rfl, rfl⟩

theorem registry_leads_to_own_memory_iff_stringLogger :
    ∃ l, ((ImportTable.stringLogger (.recorder 0)).link (some 1)).outcome = .ok l ∧
      l.registry.size = (ImportTable.stringLogger (.recorder 0)).memoryEntries.length := by
  have linked : ∃ l, ((ImportTable.stringLogger (.recorder 0)).link (some 1)).outcome = .ok l :=
    ⟨_, rfl⟩
  obtain ⟨l, hl⟩ := linked
  exact ⟨l, hl, (registry_leads_to_own_memory_iff _ (some 1) l hl).2.2.2 (by decide)⟩

end GuestHarness
