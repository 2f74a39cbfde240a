import GuestHarness.Proofs.Fault.Provenance
import GuestHarness.Proofs.Wasm.Bounds
import GuestHarness.Proofs.Wasm.Histories

/-! The memories of a store in the course of time: while a table is linked, while a module is made an
instance, and while the instance answers requests. Each state extends all before it. -/
namespace GuestHarness
open Wasm (Memory MemoryType Store Thread MemoriesKept MemoriesExtend)

/-- The type of the memory that an entry offers. -/
def ImportEntry.memoryType? (e : ImportEntry) : Option MemoryType :=
  match e.offer with
  | .memory pages => some pages.type
  | .logger .. => none

namespace ImportTable

variable (t : ImportTable) {cap : Option Nat}

/-- The types of the memories that the host makes, in the order of their addresses. -/
def memoryTypes : List MemoryType := t.entries.filterMap ImportEntry.memoryType?

/-- The memories that linking passes through, from none on. -/
def memoriesOfLinking (cap : Option Nat) : List (Array Memory) :=
  (passages (fun l e => e.addTo cap l) {} t.entries).map Linkage.memories

variable {t}

theorem memoriesNew_of_link {l : Linkage} (h : (t.link cap).outcome = .ok l) :
    Wasm.MemoriesNew cap t.memoryTypes l.memories := by
  refine link_induction (P := fun es l =>
    Wasm.MemoriesNew cap (es.filterMap ImportEntry.memoryType?) l.memories) ⟨rfl, by simp⟩ ?_ h
  intro es e l l' hl hadd
  rw [List.filterMap_append]
  obtain ⟨-, ⟨logger, sink, ho, rfl⟩ | ⟨pages, ho, hpossible, hcap, rfl⟩⟩ := Linkage.addTo_cases hadd
  · simpa [ImportEntry.memoryType?, ho] using hl
  · have hmade : ∀ type ∈ [pages.type], type.possible cap = true :=
      List.forall_mem_singleton.2 (Bool.and_eq_true_iff.2 ⟨hpossible, hcap⟩)
    have htype : [e].filterMap ImportEntry.memoryType? = [pages.type] := by
      simp [ImportEntry.memoryType?, ho]
    rw [htype, Array.push_eq_append]
    exact hl.append hmade

theorem within_of_mem_memoriesOfLinking {ms : Array Memory} (h : ms ∈ t.memoriesOfLinking cap) :
    Wasm.MemoriesWithin cap t.memoryTypes ms := by
  obtain ⟨l, hl, rfl⟩ := List.mem_map.1 h
  obtain ⟨pre, hpre, hlink⟩ := exists_of_mem_passages hl
  rw [← outcome_link ⟨pre⟩] at hlink
  obtain ⟨more, hmore⟩ := hpre.filterMap ImportEntry.memoryType?
  rw [memoryTypes, ← hmore]
  exact (memoriesNew_of_link hlink).within.append

/-- No memory goes while a table is linked. -/
theorem history_memoriesOfLinking (t : ImportTable) (cap : Option Nat) :
    ∃ ms, History (MemoriesKept cap) #[] (t.memoriesOfLinking cap) ms ∧
      ∀ l, (t.link cap).outcome = .ok l → l.memories = ms := by
  rw [outcome_link]
  refine History.of_passages .refl Linkage.memories (fun hadd a m hm => ?_) {} t.entries
  exact ⟨m, Linkage.memories_addTo hadd hm, .refl m⟩

end ImportTable

namespace Instance

/-- The stores that answering a request passes through: at the guest's steps, and in the end. -/
def storesBy (i : Instance) (r : Request) : List (Store (Array Occurrence)) :=
  (i.statesBy r).map Prod.fst ++ [(i.answer r).2.store]

/-- The stores that answering requests one after the other passes through. -/
def storesDuring (i : Instance) : List Request → List (Store (Array Occurrence))
  | [] => []
  | r :: rs => i.storesBy r ++ storesDuring (i.answer r).2 rs

/-- The states in which the guest's steps begin while requests are answered. -/
def statesDuring (i : Instance) : List Request → List (Store (Array Occurrence) × Thread)
  | [] => []
  | r :: rs => i.statesBy r ++ statesDuring (i.answer r).2 rs

variable (i : Instance)

/-- Answering a request changes the store only. -/
theorem answer_eq (r : Request) : (i.answer r).2 = { i with store := (i.answer r).2.store } := by
  cases hentry : i.entry? r with
  | none => rw [(answer_of_entry?_eq_none hentry).1]
  | some entry =>
    obtain ⟨index, args⟩ := entry
    have henters := enters_of_entry? hentry
    obtain ⟨exported, hanswer, -⟩ := henters.run
    rw [hanswer, (i.run_eq exported index args).2]

theorem history_answer (r : Request) :
    History (MemoriesExtend i.program.cap) i.store.memories ((i.storesBy r).map Store.memories)
      (i.answer r).2.store.memories := by
  rw [storesBy, List.map_append]
  refine .concat ?_ (.refl _)
  unfold statesBy
  cases hentry : i.entry? r with
  | none =>
    rw [(answer_of_entry?_eq_none hentry).1]
    exact .single (.refl _)
  | some entry =>
    obtain ⟨index, args⟩ := entry
    have henters := enters_of_entry? hentry
    obtain ⟨exported, hanswer, -⟩ := henters.run
    rw [hanswer, (i.run_eq exported index args).2, List.map_map]
    exact Wasm.Machine.history_invoke i.program i.store index (args.map .ofValue)

theorem history_answers (rs : List Request) :
    History (MemoriesExtend i.program.cap) i.store.memories ((i.storesDuring rs).map Store.memories)
      (i.answers rs).2.store.memories := by
  induction rs generalizing i with
  | nil => exact .single (.refl _)
  | cons r rs ih =>
    rw [storesDuring, List.map_append]
    have hrest := ih (i.answer r).2
    rw [show (i.answer r).2.program = i.program by rw [i.answer_eq r]] at hrest
    exact (i.history_answer r).append hrest

variable {i} in
theorem mem_storesDuring {rs : List Request} {state : Store (Array Occurrence) × Thread}
    (h : state ∈ i.statesDuring rs) : state.1 ∈ i.storesDuring rs := by
  induction rs generalizing i with
  | nil => cases h
  | cons r rs ih =>
    rw [statesDuring] at h
    rw [storesDuring, storesBy]
    obtain h | h := List.mem_append.1 h
    · exact List.mem_append_left _ (List.mem_append_left _ (List.mem_map_of_mem h))
    · exact List.mem_append_right _ (ih h)

end Instance
namespace Loader

variable (l : Loader) (c : Compiled) (t : ImportTable)

/-- The states that the memories go through while a module that starts is made an instance, and while
requests are answered if there is one. -/
def memoriesOfRunning (rs : List Request) : List (Array Memory) :=
  if l.starts c t then
    (Wasm.Machine.storesOfSetup (l.program c t) c.module (l.initialStore c t)).map Store.memories ++
      match (l.instantiate c t).outcome with
      | .ok i => i.store.memories :: (i.storesDuring rs).map Store.memories
      | .error _ => []
  else []

/-- The states that the memories go through from linking on. -/
def memoriesDuring (rs : List Request) : List (Array Memory) :=
  (if (t.check c.module c.name).isOk then t.memoriesOfLinking l.cap else []) ++
    l.memoriesOfRunning c t rs

/-- The states in which the guest's steps begin. -/
def statesDuring (rs : List Request) : List (Store (Array Occurrence) × Thread) :=
  (if l.starts c t then
      Wasm.Machine.statesOfSetup (l.program c t) c.module (l.initialStore c t)
    else []) ++
  match (l.instantiate c t).outcome with
  | .ok i => i.statesDuring rs
  | .error _ => []

variable {l c t}

/-- An instance is what a module was made that started and was made ready. -/
theorem exists_setup_of_instantiate {i : Instance} (h : (l.instantiate c t).outcome = .ok i) :
    l.starts c t = true ∧ i.program = l.program c t ∧
      ∃ s, Wasm.Machine.setup (l.program c t) c.module (l.initialStore c t) = (s, .ok ()) ∧
        i.store = { s with host := #[] } := by
  cases hstarts : l.starts c t with
  | false => exact absurd h ((instantiate_of_not_starts hstarts).2 i)
  | true =>
    have hi := (instantiate_of_starts hstarts).2 i h
    unfold program initialStore
    unfold Linkage.start at hi
    dsimp only at hi
    generalize Wasm.Machine.setup ((l.linkage t).program c.module l.fuel l.cap) c.module
      (c.module.initialStore (l.linkage t).memories #[]) = made at hi ⊢
    obtain ⟨s, e | ⟨⟩⟩ := made
    · cases e <;> cases hi
    · cases hi
      exact ⟨rfl, rfl, s, rfl, rfl⟩

theorem history_memoriesOfRunning (l : Loader) (c : Compiled) (t : ImportTable)
    (rs : List Request) :
    ∃ ms, History (MemoriesExtend l.cap) (l.initialStore c t).memories
      (l.memoriesOfRunning c t rs) ms := by
  obtain ⟨ms, hsetup, hms⟩ :=
    Wasm.Machine.history_setup (l.program c t) (l.initialStore c t) c.module
  unfold memoriesOfRunning
  split
  · cases ho : (l.instantiate c t).outcome with
    | error e =>
      refine ⟨ms, ?_⟩
      dsimp only
      rw [List.append_nil]
      exact hsetup
    | ok i =>
      obtain ⟨-, hprogram, s, hs, hstore⟩ := exists_setup_of_instantiate ho
      have hanswers := i.history_answers rs
      have hready : ms = i.store.memories := by rw [hstore, ← hms s hs]
      rw [hprogram] at hanswers
      rw [hready] at hsetup
      exact ⟨_, hsetup.append (.cons (.refl _) hanswers)⟩
  · exact ⟨_, .single (.refl _)⟩

/-- No memory goes or shrinks from linking on. -/
theorem pairwise_memoriesDuring (l : Loader) (c : Compiled) (t : ImportTable) (rs : List Request) :
    (l.memoriesDuring c t rs).Pairwise (MemoriesKept l.cap) := by
  obtain ⟨ms, hlinking, hlinked⟩ := t.history_memoriesOfLinking l.cap
  obtain ⟨_, hrunning⟩ := l.history_memoriesOfRunning c t rs
  unfold memoriesDuring
  cases hstarts : l.starts c t with
  | false =>
    have hnone : l.memoriesOfRunning c t rs = [] := by simp [memoriesOfRunning, hstarts]
    rw [hnone, List.append_nil]
    split
    · exact hlinking.pairwise
    · exact .nil
  | true =>
    obtain ⟨hcheck, hlink, -⟩ := starts_iff.1 hstarts
    have hmade : MemoriesKept l.cap ms (l.initialStore c t).memories := by
      rw [← hlinked _ hlink]
      exact .append _ _
    have hok : (t.check c.module c.name).isOk = true := by
      rw [hcheck]
      rfl
    rw [if_pos hok]
    exact (hlinking.append ((History.single hmade).append
      (hrunning.mono fun _ _ h => h.kept))).pairwise

/-- The guest's steps find the memories in one of these states. -/
theorem mem_memoriesDuring {rs : List Request} {state : Store (Array Occurrence) × Thread}
    (h : state ∈ l.statesDuring c t rs) : state.1.memories ∈ l.memoriesDuring c t rs := by
  refine List.mem_append_right _ ?_
  unfold memoriesOfRunning
  obtain h | h := List.mem_append.1 h
  · split at h
    · next hstarts =>
      rw [if_pos hstarts]
      exact List.mem_append_left _ (List.mem_map_of_mem (Wasm.Machine.mem_storesOfSetup _ _ h))
    · cases h
  · cases ho : (l.instantiate c t).outcome with
    | error e =>
      rw [ho] at h
      cases h
    | ok i =>
      rw [ho] at h
      rw [if_pos (exists_setup_of_instantiate ho).1]
      exact List.mem_append_right _ (List.mem_cons_of_mem _
        (List.mem_map_of_mem (Instance.mem_storesDuring h)))

theorem within_of_mem_memoriesOfRunning (valid : Wasm.Typing.module c.module = true)
    {rs : List Request} {ms : Array Memory} (h : ms ∈ l.memoriesOfRunning c t rs) :
    Wasm.MemoriesWithin l.cap (t.memoryTypes ++ c.module.memories) ms := by
  have hextend : MemoriesExtend l.cap (l.initialStore c t).memories ms := by
    obtain ⟨_, hrunning⟩ := l.history_memoriesOfRunning c t rs
    exact hrunning.first ms h
  unfold memoriesOfRunning at h
  split at h
  · next hstarts =>
    obtain ⟨-, hlink, -⟩ := starts_iff.1 hstarts
    have hcap : ∀ type ∈ c.module.memories, Wasm.atMost l.cap type.limits.minimum = true := by
      obtain h | h := List.mem_append.1 h
      · obtain ⟨s, hs, -⟩ := List.mem_map.1 h
        exact Wasm.Machine.atMost_of_mem_storesOfSetup hs
      · cases ho : (l.instantiate c t).outcome with
        | error e =>
          rw [ho] at h
          cases h
        | ok i =>
          obtain ⟨-, -, s, hs, -⟩ := exists_setup_of_instantiate ho
          exact Wasm.Machine.atMost_of_setup hs
    have hnew := (ImportTable.memoriesNew_of_link hlink).append fun type htype =>
      Bool.and_eq_true_iff.2 ⟨Wasm.Typing.memoryType_of_mem valid htype, hcap type htype⟩
    exact hnew.within.extend hextend
  · cases h

end Loader
end GuestHarness
