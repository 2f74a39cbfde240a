import GuestHarness.Proofs.Wasm.Growth

/-! The memories in the course of a run. Whatever runs, from the first segment that is copied to the last
step of a call, each state of the memories extends all before it. -/
namespace GuestHarness

/-- What is later among `xs`, on the way from `a` to `b`, is related to what is earlier. -/
structure History {α : Type} (R : α → α → Prop) (a : α) (xs : List α) (b : α) : Prop where
  pairwise : xs.Pairwise R
  first : ∀ x ∈ xs, R a x
  last : ∀ x ∈ xs, R x b
  whole : R a b

namespace History

variable {α : Type} {R : α → α → Prop} {a b c : α} {xs ys : List α}

theorem single (h : R a b) : History R a [] b := ⟨.nil, by simp, by simp, h⟩

theorem cons (ha : R a a) (h : History R a xs b) : History R a (a :: xs) b where
  pairwise := List.pairwise_cons.2 ⟨h.first, h.pairwise⟩
  first := List.forall_mem_cons.2 ⟨ha, h.first⟩
  last := List.forall_mem_cons.2 ⟨h.whole, h.last⟩
  whole := h.whole

theorem concat (h : History R a xs b) (hb : R b b) : History R a (xs ++ [b]) b where
  pairwise := List.pairwise_append.2
    ⟨h.pairwise, List.pairwise_singleton R b, fun x hx _ hy => List.mem_singleton.1 hy ▸ h.last x hx⟩
  first := List.forall_mem_append.2 ⟨h.first, List.forall_mem_singleton.2 h.whole⟩
  last := List.forall_mem_append.2 ⟨h.last, List.forall_mem_singleton.2 hb⟩
  whole := h.whole

theorem append [Trans R R R] (h : History R a xs b) (h' : History R b ys c) :
    History R a (xs ++ ys) c where
  pairwise := List.pairwise_append.2
    ⟨h.pairwise, h'.pairwise, fun x hx y hy => Trans.trans (h.last x hx) (h'.first y hy)⟩
  first := List.forall_mem_append.2 ⟨h.first, fun y hy => Trans.trans h.whole (h'.first y hy)⟩
  last := List.forall_mem_append.2 ⟨fun x hx => Trans.trans (h.last x hx) h'.whole, h'.last⟩
  whole := Trans.trans h.whole h'.whole

theorem mono {R' : α → α → Prop} (h : History R a xs b) (hR : ∀ x y, R x y → R' x y) :
    History R' a xs b where
  pairwise := h.pairwise.imp (hR _ _)
  first x hx := hR _ _ (h.first x hx)
  last x hx := hR _ _ (h.last x hx)
  whole := hR _ _ h.whole

end History

/-- The values that a fold passes through, from the first on; a step that fails ends it. -/
def passages {α β ε : Type} (f : β → α → Except ε β) (b : β) : List α → List β
  | [] => [b]
  | a :: as =>
    b ::
      match f b a with
      | .ok b => passages f b as
      | .error _ => []

/-- Each of them is what the fold makes of some of the elements, from the first on. -/
theorem exists_of_mem_passages {α β ε : Type} {f : β → α → Except ε β} {b x : β} {as : List α}
    (h : x ∈ passages f b as) : ∃ pre, pre <+: as ∧ pre.foldlM f b = .ok x := by
  induction as generalizing b with
  | nil =>
    cases List.mem_singleton.1 h
    exact ⟨[], List.nil_prefix, rfl⟩
  | cons a as ih =>
    rw [passages] at h
    obtain rfl | h := List.mem_cons.1 h
    · exact ⟨[], List.nil_prefix, rfl⟩
    · cases ha : f b a with
      | error e =>
        rw [ha] at h
        cases h
      | ok b' =>
        rw [ha] at h
        obtain ⟨pre, hpre, hx⟩ := ih h
        refine ⟨a :: pre, List.cons_prefix_cons.2 ⟨rfl, hpre⟩, ?_⟩
        rw [List.foldlM_cons, ha]
        exact hx

/-- What each step of a fold relates, the fold relates throughout, whether or not a step fails. -/
theorem History.of_passages {α β γ ε : Type} {R : γ → γ → Prop} [Trans R R R] (refl : ∀ c, R c c)
    {f : β → α → Except ε β} (g : β → γ)
    (hf : ∀ {b b' : β} {a : α}, f b a = .ok b' → R (g b) (g b')) (b : β) (as : List α) :
    ∃ c, History R (g b) ((passages f b as).map g) c ∧ ∀ b', as.foldlM f b = .ok b' → g b' = c := by
  induction as generalizing b with
  | nil =>
    refine ⟨g b, .cons (refl _) (.single (refl _)), fun b' h => ?_⟩
    cases h
    rfl
  | cons a as ih =>
    rw [passages]
    simp only [List.foldlM_cons]
    cases ha : f b a with
    | error e => exact ⟨g b, .cons (refl _) (.single (refl _)), fun b' h => by cases h⟩
    | ok b₁ =>
      obtain ⟨c, hhistory, hc⟩ := ih b₁
      exact ⟨c, .cons (refl _) ((History.single (hf ha)).append hhistory), hc⟩

namespace Wasm.Machine

variable {σ ε : Type} (p : Program σ ε) (s : Store σ) (t : Thread)

/-- The stores that making a module ready passes through: while segments are copied, at the steps of the
start function, and in the end. -/
def storesOfSetup (m : Module) (s : Store σ) : List (Store σ) :=
  if !m.memories.all fun t => atMost p.cap t.limits.minimum then []
  else
    passages placeElements s m.elements ++
      match m.elements.foldlM placeElements s with
      | .error _ => []
      | .ok s =>
        passages (placeData p) s m.datas ++
          match m.datas.foldlM (placeData p) s with
          | .error _ => []
          | .ok s => (statesOfStart p m s).map Prod.fst ++ [(start p m s).1]

/-- In a run each state of the memories extends all before it. -/
theorem history_run (n : Nat) :
    History (MemoriesExtend p.cap) s.memories ((statesOfRun p n s t).map (·.1.memories))
      (run p n s t).2.memories := by
  induction n generalizing s t with
  | zero => exact .single (.refl _)
  | succ n ih =>
    rw [statesOfRun, run]
    have hstep := extend_step p s t
    cases hnext : step p s t with
    | next s' t' =>
      rw [hnext] at hstep
      exact .cons (.refl _) ((History.single hstep).append (ih s' t'))
    | ended ending s' =>
      rw [hnext] at hstep
      exact .cons (.refl _) (.single hstep)

theorem history_invoke (f : Nat) (args : List Operand) :
    History (MemoriesExtend p.cap) s.memories ((statesOfInvoke p s f args).map (·.1.memories))
      (invoke p s f args).2.memories := by
  unfold statesOfInvoke
  fun_cases invoke p s f args <;> simp only [*]
  case case1 => exact .single (.refl _)
  case case2 hcall | case3 hcall =>
    rw [memories_of_callImport hcall]
    exact .single (.refl _)
  case case4 s' t h _ _ hrun =>
    rw [← (spends_of_enter h).memories]
    simpa only [hrun, Step.store] using history_run p s' t maxSteps
  case case5 h _ =>
    rw [← (spends_of_enter h).memories]
    exact history_run p _ _ maxSteps
  case case6 h =>
    rw [← (spends_of_enter h).memories]
    exact .single (.refl _)

theorem history_start (m : Module) :
    History (MemoriesExtend p.cap) s.memories ((statesOfStart p m s).map (·.1.memories))
      (start p m s).1.memories := by
  unfold statesOfStart
  cases h : m.start with
  | none =>
    rw [start, h]
    exact .single (.refl _)
  | some f =>
    rw [store_start p s h]
    exact history_invoke p s f []

variable {p} in
theorem extend_placeElements {s s' : Store σ} {segment : ElementSegment}
    (h : placeElements s segment = .ok s') : MemoriesExtend p.cap s.memories s'.memories := by
  revert h
  fun_cases placeElements s segment <;> intro h <;> cases h <;> exact .refl _

variable {p} in
/-- Copying a data segment changes bytes only. -/
theorem extend_placeData {s s' : Store σ} {segment : DataSegment}
    (h : placeData p s segment = .ok s') : MemoriesExtend p.cap s.memories s'.memories := by
  revert h
  fun_cases placeData p s segment <;> intro h <;> cases h
  · exact .modify fun m _ => .write m ..
  · exact .refl _

theorem history_setup (m : Module) :
    ∃ b, History (MemoriesExtend p.cap) s.memories ((storesOfSetup p m s).map Store.memories) b ∧
      ∀ s', setup p m s = (s', .ok ()) → s'.memories = b := by
  unfold storesOfSetup setup
  cases m.memories.all fun t => atMost p.cap t.limits.minimum with
  | false => exact ⟨s.memories, .single (.refl _), fun s' h => by cases h⟩
  | true =>
    obtain ⟨b, helements, hb⟩ := History.of_passages (R := MemoriesExtend p.cap) .refl
      Store.memories extend_placeElements s m.elements
    simp only [Bool.not_true, Bool.false_eq_true, if_false, List.map_append]
    cases hs : m.elements.foldlM placeElements s with
    | error kind => exact ⟨b, by simpa using helements, fun s' h => by cases h⟩
    | ok s₁ =>
      obtain ⟨b', hdatas, hb'⟩ := History.of_passages (R := MemoriesExtend p.cap) .refl
        Store.memories extend_placeData s₁ m.datas
      rw [← hb s₁ hs] at helements
      dsimp only
      rw [List.map_append]
      cases hs' : m.datas.foldlM (placeData p) s₁ with
      | error kind =>
        exact ⟨b', helements.append (by simpa using hdatas), fun s' h => by cases h⟩
      | ok s₂ =>
        rw [← hb' s₂ hs'] at hdatas
        have hstart := (history_start p s₂ m).concat (.refl _)
        refine ⟨(start p m s₂).1.memories, helements.append (hdatas.append ?_), fun s' h => ?_⟩
        · simpa [Function.comp_def] using hstart
        · dsimp only at h
          rw [h]

variable {p s} in
/-- No memory is made that the cap refuses. -/
theorem atMost_of_mem_storesOfSetup {m : Module} {s' : Store σ} (h : s' ∈ storesOfSetup p m s) :
    ∀ type ∈ m.memories, atMost p.cap type.limits.minimum = true := by
  unfold storesOfSetup at h
  split at h
  · cases h
  · next hall => exact List.all_eq_true.1 (by simpa using hall)

variable {p s} in
theorem atMost_of_setup {m : Module} {s' : Store σ} (h : setup p m s = (s', .ok ())) :
    ∀ type ∈ m.memories, atMost p.cap type.limits.minimum = true := by
  unfold setup at h
  split at h
  · cases h
  · next hall => exact List.all_eq_true.1 (by simpa using hall)

/-- The steps of the start function are among what making a module ready passes through. -/
theorem mem_storesOfSetup {m : Module} {state : Store σ × Thread} (h : state ∈ statesOfSetup p m s) :
    state.1 ∈ storesOfSetup p m s := by
  unfold statesOfSetup at h
  unfold storesOfSetup
  split at h
  · cases h
  · next hall =>
    rw [if_neg hall]
    cases hcopied : copied p m s with
    | error kind =>
      rw [hcopied] at h
      cases h
    | ok s₂ =>
      rw [hcopied] at h
      obtain ⟨s₁, hs, hs'⟩ := foldlM_of_copied hcopied
      rw [hs]
      dsimp only
      rw [hs']
      exact List.mem_append_right _ (List.mem_append_right _
        (List.mem_append_left _ (List.mem_map_of_mem h)))

end Wasm.Machine
end GuestHarness
