import GuestHarness.Proofs.Wasm.States

/-! How guest code fails: an imported function refuses a call, which is then the last thing that happens,
or the last step stops the guest. -/
namespace GuestHarness.Wasm

variable {σ ε : Type}

namespace Machine

/-- The store that the last of the steps finds; `s` if there is no step. -/
def storeFound (s : Store σ) (states : List (Store σ × Thread)) : Store σ :=
  (states.getLast?.map Prod.fst).getD s

/-- A call was refused and nothing came after it: all others were answered before, the step that made it
was the last one, and the store is left as the call found it but for what is the host's. -/
structure RefusedLast (p : Program σ ε) (s : Store σ) (states : List (Store σ × Thread))
    (calls : List (ImportCall ε)) (call : ImportCall ε) (after : Store σ) : Prop where
  calls : ∃ before, calls = before ++ [call] ∧ ∀ c ∈ before, ∀ e, c.answer ≠ .error e
  step : ∀ state ∈ states.getLast?, callFrom? p state = some call
  store : ∃ host spent, after = { storeFound s states with host, spent }

end Machine

/-- The trap that an ending amounts to; no more is known of some. -/
def Ending.trapKind? : Ending ε → Option TrapKind
  | .trapped kind => some kind
  | .stuck | .unfinished => some .other
  | .returned _ | .raised _ => none

/-- The ending of a call from outside, which gives back the results in order. -/
def Ending.inOrder : Ending ε → Ending ε
  | .returned results => .returned results.reverse
  | ending => ending

@[simp] theorem Ending.trapKind?_inOrder (ending : Ending ε) :
    ending.inOrder.trapKind? = ending.trapKind? := by
  cases ending <;> rfl

theorem Ending.inOrder_eq_raised_iff {ending : Ending ε} {e : ε} :
    ending.inOrder = .raised e ↔ ending = .raised e := by
  cases ending <;> simp [inOrder]

/-- What is the host's may be taken away. -/
theorem Machine.RefusedLast.withHost {p : Program σ ε} {s after : Store σ}
    {states : List (Store σ × Thread)} {calls : List (ImportCall ε)} {call : ImportCall ε}
    (h : RefusedLast p s states calls call after) (host : σ) :
    RefusedLast p s states calls call { after with host } := by
  obtain ⟨hcalls, hstep, _, spent, rfl⟩ := h
  exact ⟨hcalls, hstep, host, spent, rfl⟩

/-- Why the guest was stopped in function `f`: by its last step, for want of fuel for a first one, or
by the bound on the steps. -/
inductive Machine.StoppedBy (p : Program σ ε) (s : Store σ) (f : Nat)
    (states : List (Store σ × Thread)) : TrapKind → Prop
  | step {s₀ s' : Store σ} {t₀ : Thread} {ending : Ending ε} {kind : TrapKind}
    (last : states.getLast? = some (s₀, t₀)) (ended : step p s₀ t₀ = .ended ending s')
    (trap : ending.trapKind? = some kind) : StoppedBy p s f states kind
  | unfueled {type : FuncType} {locals : List Operand} {body : List Instr}
    (defined : p.functions[f]? = some (.defined type locals body))
    (exhausted : p.exhausted (s.spent + 1) = true) : StoppedBy p s f states .outOfFuel
  | unfinished {s₀ s' : Store σ} {t₀ t' : Thread} (last : states.getLast? = some (s₀, t₀))
    (next : step p s₀ t₀ = .next s' t') : StoppedBy p s f states .other

/-- Why a module cannot be made ready, other than by the failure of an imported function. -/
inductive Machine.Unready (p : Program σ ε) (m : Module) (s : Store σ) : Prop
  | memory {type : MemoryType} (mem : type ∈ m.memories)
    (large : atMost p.cap type.limits.minimum = false) : Unready p m s
  | segment {kind : TrapKind} (failed : copied p m s = .error kind) : Unready p m s
  | start {s' : Store σ} {f : Nat} {kind : TrapKind} (ready : copied p m s = .ok s')
    (start : m.start = some f) (stopped : StoppedBy p s' f (statesOfInvoke p s' f []) kind) :
    Unready p m s

namespace Machine

variable {p : Program σ ε} {s s' : Store σ} {t : Thread} {states : List (Store σ × Thread)}
  {result : Ending ε × Store σ} {call : ImportCall ε} {e : ε}

/-- A step that leads on made no call that was refused. -/
theorem answered_of_next {t' : Thread} (h : step p s t = .next s' t')
    (hcall : callFrom? p (s, t) = some call) (e : ε) : call.answer ≠ .error e := by
  intro hanswer
  obtain ⟨spent, hstep⟩ := (hcall ▸ heeds_step p s t).eq_of_refused hanswer
  cases h.symm.trans hstep

namespace Passes

/-- The last step and the result of the run. -/
theorem last (h : Passes p states result) : ∃ s₀ t₀, states.getLast? = some (s₀, t₀) ∧
    (step p s₀ t₀ = .ended result.1 result.2 ∨
      result.1 = .unfinished ∧ ∃ t', step p s₀ t₀ = .next result.2 t') := by
  induction h with
  | ended last => exact ⟨_, _, rfl, .inl last⟩
  | unfinished last => exact ⟨_, _, rfl, .inr ⟨rfl, _, last⟩⟩
  | next next rest ih =>
    obtain ⟨s₀, t₀, hlast, hresult⟩ := ih
    exact ⟨s₀, t₀, by rw [List.getLast?_cons, hlast]; rfl, hresult⟩

/-- A run in which a call is refused ends with what it was refused with, and there. -/
theorem refusedLast (h : Passes p states result) (s : Store σ)
    (hcall : call ∈ states.filterMap (callFrom? p)) (hanswer : call.answer = .error e) :
    result.1 = .raised e ∧
      RefusedLast p s states (states.filterMap (callFrom? p)) call result.2 := by
  induction h generalizing s with
  | @ended s₀ s' t₀ ending last =>
    obtain ⟨state, hstate, hfrom⟩ := List.mem_filterMap.1 hcall
    cases List.mem_singleton.1 hstate
    obtain ⟨spent, hstep⟩ := (hfrom ▸ heeds_step p s₀ t₀).eq_of_refused hanswer
    cases last.symm.trans hstep
    exact ⟨rfl, ⟨[], by simp [hfrom], by simp⟩, by simpa using hfrom, _, _, rfl⟩
  | @unfinished s₀ s' t₀ t' last =>
    obtain ⟨state, hstate, hfrom⟩ := List.mem_filterMap.1 hcall
    cases List.mem_singleton.1 hstate
    exact absurd hanswer (answered_of_next last hfrom e)
  | @next s₀ s' t₀ t' states result next rest ih =>
    obtain ⟨s₁, t₁, hlast, -⟩ := rest.last
    have hlater : call ∈ states.filterMap (callFrom? p) := by
      obtain ⟨state, hstate, hfrom⟩ := List.mem_filterMap.1 hcall
      obtain rfl | hstate := List.mem_cons.1 hstate
      · exact absurd hanswer (answered_of_next next hfrom e)
      · exact List.mem_filterMap.2 ⟨state, hstate, hfrom⟩
    obtain ⟨hraised, ⟨before, hcalls, hbefore⟩, hstep, hstore⟩ := ih s hlater
    have hsame : ((s₀, t₀) :: states).getLast? = states.getLast? := by
      rw [List.getLast?_cons, hlast, Option.getD_some]
    refine ⟨hraised, ⟨(callFrom? p (s₀, t₀)).toList ++ before, ?_, ?_⟩, ?_, ?_⟩
    · rw [List.filterMap_cons, hcalls]
      cases callFrom? p (s₀, t₀) <;> rfl
    · intro c hc e'
      obtain hc | hc := List.mem_append.1 hc
      · exact answered_of_next next (Option.mem_toList.1 hc) e'
      · exact hbefore c hc e'
    · rwa [hsame]
    · simpa only [storeFound, hsame] using hstore

/-- A run that ends with the failure of an imported function made a call that was refused. -/
theorem exists_refused (h : Passes p states result) (hraised : result.1 = .raised e) :
    ∃ call ∈ states.filterMap (callFrom? p), call.answer = .error e := by
  obtain ⟨s₀, t₀, hlast, hstep | ⟨hunfinished, -⟩⟩ := h.last
  · have hheeds := heeds_step p s₀ t₀
    rw [hstep, hraised] at hheeds
    obtain ⟨call, hfrom, hanswer⟩ := hheeds.exists_of_raised
    exact ⟨call, List.mem_filterMap.2 ⟨_, List.mem_of_getLast? hlast, hfrom⟩, hanswer⟩
  · rw [hraised] at hunfinished
    cases hunfinished

/-- A run is stopped by what its last step does. -/
theorem trapKind?_eq_some_iff (h : Passes p states result) (f : Nat)
    (hfuel : p.exhausted (s.spent + 1) = false) (kind : TrapKind) :
    result.1.trapKind? = some kind ↔ StoppedBy p s f states kind := by
  obtain ⟨s₀, t₀, hlast, hresult⟩ := h.last
  constructor
  · intro hkind
    obtain hstep | ⟨hunfinished, t', hstep⟩ := hresult
    · exact .step hlast hstep hkind
    · rw [hunfinished] at hkind
      cases hkind
      exact .unfinished hlast hstep
  · intro hstopped
    cases hstopped with
    | step last ended trap =>
      cases hlast.symm.trans last
      obtain hstep | ⟨-, t', hstep⟩ := hresult
      · obtain ⟨rfl, -⟩ := Step.ended.inj (hstep.symm.trans ended)
        exact trap
      · cases hstep.symm.trans ended
    | unfueled defined exhausted => simp [hfuel] at exhausted
    | unfinished last next =>
      cases hlast.symm.trans last
      obtain hstep | ⟨hunfinished, -⟩ := hresult
      · cases hstep.symm.trans next
      · rw [hunfinished]
        rfl

end Passes

/-- Without fuel a function is not even entered. -/
theorem invoke_of_exhausted {f : Nat} {type : FuncType} {locals : List Operand} {body : List Instr}
    (hf : p.functions[f]? = some (.defined type locals body))
    (hfuel : p.exhausted (s.spent + 1) = true) (args : List Operand) :
    (invoke p s f args).1 = .trapped .outOfFuel ∧ callsOfInvoke p s f args = [] ∧
      statesOfInvoke p s f args = [] := by
  have hdepth : ¬ maxDepth ≤ 0 := by decide
  simp [invoke, callsOfInvoke, statesOfInvoke, hf, enter, hdepth, proceed, hfuel, Step.trap]

/-- With fuel, calling a function from outside is a run. -/
theorem passes_invoke {f : Nat} {type : FuncType} {locals : List Operand} {body : List Instr}
    (hf : p.functions[f]? = some (.defined type locals body))
    (hfuel : p.exhausted (s.spent + 1) = false) (args : List Operand) :
    ∃ result, Passes p (statesOfInvoke p s f args) result ∧
      callsOfInvoke p s f args = (statesOfInvoke p s f args).filterMap (callFrom? p) ∧
      invoke p s f args = (result.1.inOrder, result.2) := by
  have hdepth : ¬ maxDepth ≤ 0 := by decide
  simp only [invoke, callsOfInvoke, statesOfInvoke, hf, enter, hdepth, proceed, hfuel, if_false,
    Bool.false_eq_true]
  refine ⟨_, passes_run p (by decide) s _, callsOfRun_eq_filterMap .., ?_⟩
  generalize run p maxSteps s _ = result
  obtain ⟨ending, s'⟩ := result
  cases ending <;> rfl

/-- An imported function that is called from outside is the whole of the call. -/
theorem invoke_of_imported {f index : Nat} {type : FuncType}
    (hf : p.functions[f]? = some (.imported type index)) (args : List Operand) :
    callsOfInvoke p s f args = [importCall p .host index args s] ∧ statesOfInvoke p s f args = [] ∧
      invoke p s f args =
        (match (importCall p .host index args s).answer with
          | .ok results => .returned results
          | .error e => .raised e,
        { s with host := p.afterCall s.host (importCall p .host index args s) }) := by
  refine ⟨by simp [callsOfInvoke, hf], by simp [statesOfInvoke, hf], ?_⟩
  unfold invoke
  rw [hf]
  dsimp only
  cases hcall : callImport p .host index args.reverse s with
  | mk s' answer =>
    obtain ⟨rfl, rfl⟩ := callImport_eq hcall
    rw [List.reverse_reverse]
    cases (importCall p .host index args s).answer with
    | ok results => simp [Except.map]
    | error e => rfl

/-- A call from outside fails as an imported function does exactly if one refuses a call, and then
nothing comes after that call. -/
theorem refusedLast_invoke (p : Program σ ε) (s : Store σ) (f : Nat) (args : List Operand) :
    (∀ e, (invoke p s f args).1 = .raised e ↔
        ∃ call ∈ callsOfInvoke p s f args, call.answer = .error e) ∧
      ∀ call ∈ callsOfInvoke p s f args, ∀ e, call.answer = .error e →
        RefusedLast p s (statesOfInvoke p s f args) (callsOfInvoke p s f args) call
          (invoke p s f args).2 := by
  cases hf : p.functions[f]? with
  | none => simp [invoke, callsOfInvoke, hf]
  | some function =>
    cases function with
    | imported type index =>
      obtain ⟨hcalls, hstates, hinvoke⟩ := invoke_of_imported (s := s) hf args
      rw [hcalls, hstates, hinvoke]
      refine ⟨fun e => ?_, fun call hcall e hanswer => ?_⟩
      · cases hanswer : (importCall p .host index args s).answer <;> simp [hanswer]
      · cases List.mem_singleton.1 hcall
        exact ⟨⟨[], rfl, by simp⟩, by simp, _, s.spent, rfl⟩
    | defined type locals body =>
      cases hfuel : p.exhausted (s.spent + 1) with
      | true =>
        obtain ⟨hending, hcalls, -⟩ := invoke_of_exhausted hf hfuel args
        simp [hending, hcalls]
      | false =>
        obtain ⟨result, hpasses, hcalls, hinvoke⟩ := passes_invoke hf hfuel args
        rw [hinvoke, hcalls]
        refine ⟨fun e => ?_, fun call hcall e hanswer => (hpasses.refusedLast s hcall hanswer).2⟩
        rw [Ending.inOrder_eq_raised_iff]
        exact ⟨hpasses.exists_refused,
          fun ⟨call, hcall, hanswer⟩ => (hpasses.refusedLast s hcall hanswer).1⟩

/-- A call from outside amounts to a trap exactly if the guest was stopped. -/
theorem trapKind?_invoke_eq_some_iff {f : Nat} (hf : (p.functions[f]?).isSome) (args : List Operand)
    (kind : TrapKind) :
    (invoke p s f args).1.trapKind? = some kind ↔
      StoppedBy p s f (statesOfInvoke p s f args) kind := by
  obtain ⟨function, hf⟩ := Option.isSome_iff_exists.1 hf
  cases function with
  | imported type index =>
    obtain ⟨-, hstates, hinvoke⟩ := invoke_of_imported (s := s) hf args
    rw [hinvoke, hstates]
    have hnone : ¬ StoppedBy p s f [] kind := by
      intro h
      cases h with
      | step last => cases last
      | unfueled defined => cases hf.symm.trans defined
      | unfinished last => cases last
    cases (importCall p .host index args s).answer <;> simp [Ending.trapKind?, hnone]
  | defined type locals body =>
    cases hfuel : p.exhausted (s.spent + 1) with
    | true =>
      obtain ⟨hending, -, hstates⟩ := invoke_of_exhausted hf hfuel args
      rw [hending, hstates]
      constructor
      · intro h
        cases h
        exact .unfueled hf hfuel
      · intro h
        cases h with
        | step last => cases last
        | unfueled => rfl
        | unfinished last => cases last
    | false =>
      obtain ⟨result, hpasses, -, hinvoke⟩ := passes_invoke hf hfuel args
      rw [hinvoke, Ending.trapKind?_inOrder]
      exact hpasses.trapKind?_eq_some_iff f hfuel kind

theorem start_of_start {m : Module} {f : Nat} (h : m.start = some f) :
    (start p m s).2 = match (invoke p s f []).1 with
      | .returned _ => .ok ()
      | .raised e => .error (.raised e)
      | ending => .error (.trapped (ending.trapKind?.getD .other)) := by
  unfold start
  rw [h]
  dsimp only
  obtain ⟨ending, s'⟩ := invoke p s f []
  cases ending <;> rfl

/-- A module is made ready by copying its segments and then calling its start function. -/
theorem setup_of_copied {m : Module}
    (hmemories : ∀ type ∈ m.memories, atMost p.cap type.limits.minimum = true)
    (hcopied : copied p m s = .ok s') :
    Prepares s s' ∧ setup p m s = start p m s' ∧ callsOfSetup p m s = callsOfStart p m s' ∧
      statesOfSetup p m s = statesOfStart p m s' := by
  have hall : (m.memories.all fun t => atMost p.cap t.limits.minimum) = true :=
    List.all_eq_true.2 hmemories
  obtain ⟨s₁, helements, hdatas⟩ := foldlM_of_copied hcopied
  refine ⟨(prepares_foldlM prepares_placeElements helements).trans
    (prepares_foldlM prepares_placeData hdatas), ?_, ?_, ?_⟩
  · simp [setup, hall, helements, hdatas]
  · simp [callsOfSetup, hall, helements, hdatas]
  · simp [statesOfSetup, hall, hcopied]

/-- Before the start function is called, a module fails for no other reason than its own. -/
theorem setup_of_not_copied {m : Module} (h : (∃ type ∈ m.memories,
      atMost p.cap type.limits.minimum = false) ∨ ∃ kind, copied p m s = .error kind) :
    (∃ e, (setup p m s).2 = .error e ∧ ∀ e', e ≠ .raised e') ∧ callsOfSetup p m s = [] := by
  cases hall : m.memories.all fun t => atMost p.cap t.limits.minimum with
  | false => simp [setup, callsOfSetup, hall]
  | true =>
    obtain ⟨type, hmem, hlarge⟩ | ⟨kind, hcopied⟩ := h
    · simp [List.all_eq_true.1 hall type hmem] at hlarge
    · unfold copied at hcopied
      cases helements : m.elements.foldlM placeElements s with
      | error kind => simp [setup, callsOfSetup, hall, helements]
      | ok s₁ =>
        rw [helements] at hcopied
        have hdatas : m.datas.foldlM (placeData p) s₁ = .error kind := hcopied
        simp [setup, callsOfSetup, hall, helements, hdatas]

theorem copied_cases (p : Program σ ε) (m : Module) (s : Store σ) :
    ((∃ type ∈ m.memories, atMost p.cap type.limits.minimum = false) ∨
        ∃ kind, copied p m s = .error kind) ∨
      (∀ type ∈ m.memories, atMost p.cap type.limits.minimum = true) ∧
        ∃ s', copied p m s = .ok s' := by
  by_cases hmemories : ∀ type ∈ m.memories, atMost p.cap type.limits.minimum = true
  · cases hcopied : copied p m s with
    | error kind => exact .inl (.inr ⟨kind, rfl⟩)
    | ok s' => exact .inr ⟨hmemories, s', rfl⟩
  · exact .inl (.inl (by simpa using hmemories))

/-- Making a module ready fails as an imported function does exactly if one refuses a call, and then
nothing comes after that call. -/
theorem refusedLast_setup (p : Program σ ε) (m : Module) (s : Store σ) :
    (∀ e, (setup p m s).2 = .error (.raised e) ↔
        ∃ call ∈ callsOfSetup p m s, call.answer = .error e) ∧
      ∀ call ∈ callsOfSetup p m s, ∀ e, call.answer = .error e → ∃ s', copied p m s = .ok s' ∧
        RefusedLast p s' (statesOfSetup p m s) (callsOfSetup p m s) call (setup p m s).1 := by
  obtain hnot | ⟨hmemories, s', hcopied⟩ := copied_cases p m s
  · obtain ⟨⟨e, hsetup, hraised⟩, hcalls⟩ := setup_of_not_copied hnot
    rw [hsetup, hcalls]
    refine ⟨fun e' => ⟨fun h => ?_, by simp⟩, by simp⟩
    cases h
    exact (hraised e' rfl).elim
  · obtain ⟨-, hsetup, hcalls, hstates⟩ := setup_of_copied hmemories hcopied
    rw [hsetup, hcalls, hstates]
    cases hm : m.start with
    | none => simp [start, callsOfStart, hm]
    | some f =>
      obtain ⟨hraised, hlast⟩ := refusedLast_invoke p s' f []
      have hcalls : callsOfStart p m s' = callsOfInvoke p s' f [] := by simp [callsOfStart, hm]
      have hstates : statesOfStart p m s' = statesOfInvoke p s' f [] := by simp [statesOfStart, hm]
      rw [hcalls, hstates, start_of_start hm, store_start p s' hm]
      refine ⟨fun e => ?_, fun call hcall e hanswer => ⟨s', hcopied, hlast call hcall e hanswer⟩⟩
      rw [← hraised]
      cases (invoke p s' f []).1 <;> simp

/-- It fails otherwise exactly if the module itself is to blame. -/
theorem setup_fails_iff {m : Module} (hm : ∀ f, m.start = some f → (p.functions[f]?).isSome) :
    (∃ e, (setup p m s).2 = .error e ∧ ∀ e', e ≠ .raised e') ↔ Unready p m s := by
  obtain hnot | ⟨hmemories, s', hcopied⟩ := copied_cases p m s
  · refine iff_of_true (setup_of_not_copied hnot).1 ?_
    obtain ⟨type, hmem, hlarge⟩ | ⟨kind, hkind⟩ := hnot
    · exact .memory hmem hlarge
    · exact .segment hkind
  · obtain ⟨-, hsetup, -, -⟩ := setup_of_copied hmemories hcopied
    have hunready : Unready p m s ↔
        ∃ f kind, m.start = some f ∧ StoppedBy p s' f (statesOfInvoke p s' f []) kind := by
      constructor
      · intro h
        cases h with
        | memory mem large => simp [hmemories _ mem] at large
        | segment failed => cases hcopied.symm.trans failed
        | start ready start stopped =>
          cases hcopied.symm.trans ready
          exact ⟨_, _, start, stopped⟩
      · rintro ⟨f, kind, hf, hstopped⟩
        exact .start hcopied hf hstopped
    rw [hsetup, hunready]
    cases hstart : m.start with
    | none => simp [start, hstart]
    | some f =>
      have hstopped : (∃ f' kind, some f = some f' ∧ StoppedBy p s' f' (statesOfInvoke p s' f' []) kind) ↔
          ∃ kind, (invoke p s' f []).1.trapKind? = some kind := by
        simp only [trapKind?_invoke_eq_some_iff (hm f hstart)]
        constructor
        · rintro ⟨f', kind, hf, h⟩
          cases hf
          exact ⟨kind, h⟩
        · rintro ⟨kind, h⟩
          exact ⟨f, kind, rfl, h⟩
      rw [hstopped, start_of_start hstart]
      cases (invoke p s' f []).1 <;> simp [Ending.trapKind?]

end Machine
end GuestHarness.Wasm
