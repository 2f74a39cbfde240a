import GuestHarness.Proofs.Wasm.ImportCalls

/-! The states that guest code goes through, as a trace beside its run. A run ends as its last step does,
and a call that an imported function refuses makes its step the last one. -/
namespace GuestHarness.Wasm

variable {σ ε : Type}

namespace Machine

variable (p : Program σ ε)

/-- The states in which the steps of a run begin, in order. -/
def statesOfRun : Nat → Store σ → Thread → List (Store σ × Thread)
  | 0, _, _ => []
  | n + 1, s, t =>
    (s, t) ::
      match step p s t with
      | .next s t => statesOfRun n s t
      | .ended .. => []

def statesOfInvoke (s : Store σ) (f : Nat) (args : List Operand) : List (Store σ × Thread) :=
  match p.functions[f]? with
  | some (.defined type locals body) =>
    match enter p s args.reverse type locals body [] 0 s.spent with
    | .next s t => statesOfRun p maxSteps s t
    | .ended .. => []
  | _ => []

def statesOfStart (m : Module) (s : Store σ) : List (Store σ × Thread) :=
  match m.start with
  | none => []
  | some f => statesOfInvoke p s f []

/-- The store once the active segments are copied. -/
def copied (m : Module) (s : Store σ) : Except TrapKind (Store σ) :=
  m.elements.foldlM placeElements s >>= fun s => m.datas.foldlM (placeData p) s

variable {p} in
/-- Copying the segments is copying those for tables and then those for memories. -/
theorem foldlM_of_copied {m : Module} {s s' : Store σ} (h : copied p m s = .ok s') :
    ∃ s₁, m.elements.foldlM placeElements s = .ok s₁ ∧ m.datas.foldlM (placeData p) s₁ = .ok s' := by
  unfold copied at h
  cases hs : m.elements.foldlM placeElements s with
  | error kind =>
    rw [hs] at h
    cases h
  | ok s₁ =>
    rw [hs] at h
    exact ⟨s₁, rfl, h⟩

def statesOfSetup (m : Module) (s : Store σ) : List (Store σ × Thread) :=
  if !m.memories.all fun t => atMost p.cap t.limits.minimum then []
  else
    match copied p m s with
    | .error _ => []
    | .ok s => statesOfStart p m s

/-- The call of an import that the step from a state makes. -/
def callFrom? (state : Store σ × Thread) : Option (ImportCall ε) := nextCall? p state.1 state.2

/-- A run makes the calls that its steps make. -/
theorem callsOfRun_eq_filterMap (n : Nat) (s : Store σ) (t : Thread) :
    callsOfRun p n s t = (statesOfRun p n s t).filterMap (callFrom? p) := by
  induction n generalizing s t with
  | zero => rfl
  | succ n ih =>
    have hcall : nextCall? p s t = callFrom? p (s, t) := rfl
    rw [callsOfRun, statesOfRun, List.filterMap_cons, hcall]
    cases step p s t with
    | next s' t' =>
      dsimp only
      rw [ih s' t']
      cases callFrom? p (s, t) <;> rfl
    | ended => cases callFrom? p (s, t) <;> rfl

/-- A run goes from state to state, and ends as the step from the last one does, unless the bound on the
steps ends it. -/
inductive Passes (p : Program σ ε) : List (Store σ × Thread) → Ending ε × Store σ → Prop
  | ended {s s' : Store σ} {t : Thread} {ending : Ending ε} (last : step p s t = .ended ending s') :
    Passes p [(s, t)] (ending, s')
  | unfinished {s s' : Store σ} {t t' : Thread} (last : step p s t = .next s' t') :
    Passes p [(s, t)] (.unfinished, s')
  | next {s s' : Store σ} {t t' : Thread} {states : List (Store σ × Thread)}
    {result : Ending ε × Store σ} (next : step p s t = .next s' t') (rest : Passes p states result) :
    Passes p ((s, t) :: states) result

theorem passes_run {n : Nat} (hn : n ≠ 0) (s : Store σ) (t : Thread) :
    Passes p (statesOfRun p n s t) (run p n s t) := by
  obtain ⟨n, rfl⟩ := Nat.exists_eq_succ_of_ne_zero hn
  clear hn
  induction n generalizing s t with
  | zero =>
    rw [statesOfRun, run]
    cases hstep : step p s t with
    | next s' t' => exact .unfinished hstep
    | ended ending s' => exact .ended hstep
  | succ n ih =>
    rw [statesOfRun, run]
    cases hstep : step p s t with
    | next s' t' => exact .next hstep (ih s' t')
    | ended ending s' => exact .ended hstep

end Machine

/-- The step does not end in a failure of an imported function. -/
def Step.Quiet : Step σ ε → Prop
  | .ended (.raised _) _ => False
  | _ => True

/-- A call that is refused ends the thread with what it was refused with, and with the store as the call
found it but for what is the host's. No other step ends so. -/
inductive Step.Heeds (p : Program σ ε) (s : Store σ) : Option (ImportCall ε) → Step σ ε → Prop
  | refused {call : ImportCall ε} {e : ε} {spent : Nat} (answer : call.answer = .error e) :
    Heeds p s (some call) (.ended (.raised e) { s with host := p.afterCall s.host call, spent })
  | quiet {call? : Option (ImportCall ε)} {r : Step σ ε} (answered : ∀ call ∈ call?, call.answer.isOk)
    (quiet : r.Quiet) : Heeds p s call? r

namespace Step.Heeds

variable {p : Program σ ε} {s s' : Store σ} {r : Step σ ε} {call : ImportCall ε} {e : ε}

theorem none (h : r.Quiet) : r.Heeds p s none := .quiet (by simp) h

theorem eq_of_refused (h : r.Heeds p s (some call)) (hanswer : call.answer = .error e) :
    ∃ spent, r = .ended (.raised e) { s with host := p.afterCall s.host call, spent } := by
  cases h with
  | refused answer =>
    cases hanswer.symm.trans answer
    exact ⟨_, rfl⟩
  | quiet answered =>
    have hok := answered call rfl
    rw [hanswer] at hok
    cases hok

theorem exists_of_raised {call? : Option (ImportCall ε)}
    (h : Step.Heeds p s call? (.ended (.raised e) s')) :
    ∃ call, call? = some call ∧ call.answer = .error e := by
  cases h with
  | refused answer => exact ⟨_, rfl, answer⟩
  | quiet _ quiet => exact quiet.elim

end Step.Heeds

theorem Step.Exchanges.quiet {s : Store σ} {t : Thread} {ps rs : List ValType} {r : Step σ ε}
    (h : r.Exchanges s t ps rs) : r.Quiet := by
  cases h <;> trivial

namespace Machine

variable (p : Program σ ε) (s : Store σ) (t : Thread)

theorem quiet_leave : (leave s t : Step σ ε).Quiet := by
  fun_cases leave (ε := ε) s t <;> trivial

theorem quiet_close : (close s t : Step σ ε).Quiet := by
  fun_cases close (ε := ε) s t
  · exact quiet_leave s t
  · trivial

theorem quiet_branch (k : Nat) : (branch s t k : Step σ ε).Quiet := by
  fun_cases branch (ε := ε) s t k
  · exact quiet_leave s t
  · trivial

theorem quiet_proceed : (proceed p s t).Quiet := by
  fun_cases proceed p s t <;> trivial

theorem quiet_enter (args : List Operand) (type : FuncType) (locals : List Operand)
    (body : List Instr) (callers : List Frame) (depth spent : Nat) :
    (enter p s args type locals body callers depth spent).Quiet := by
  fun_cases enter p s args type locals body callers depth spent
  · trivial
  · exact quiet_proceed p s _

variable {p s} in
/-- A call of an import gives back just what it was answered, and changes the host's state only. -/
theorem callImport_eq {caller : Caller} {index : Nat} {args : List Operand} {s' : Store σ}
    {answer : Except ε (List Operand)} (h : callImport p caller index args s = (s', answer)) :
    s' = { s with host := p.afterCall s.host (importCall p caller index args.reverse s) } ∧
      answer = (importCall p caller index args.reverse s).answer.map List.reverse := by
  cases h
  exact ⟨rfl, rfl⟩

variable {p s} in
theorem answer_of_callImport_ok {caller : Caller} {index : Nat} {args results : List Operand}
    {s' : Store σ} (h : callImport p caller index args s = (s', .ok results)) :
    (importCall p caller index args.reverse s).answer.isOk := by
  have hanswer := (callImport_eq h).2
  cases ha : (importCall p caller index args.reverse s).answer with
  | ok _ => rfl
  | error e => simp [ha, Except.map] at hanswer

variable {p s} in
theorem answer_of_callImport_error {caller : Caller} {index : Nat} {args : List Operand}
    {s' : Store σ} {e : ε} (h : callImport p caller index args s = (s', .error e)) :
    (importCall p caller index args.reverse s).answer = .error e := by
  have hanswer := (callImport_eq h).2
  cases ha : (importCall p caller index args.reverse s).answer with
  | ok _ => simp [ha, Except.map] at hanswer
  | error e' => simpa [ha, Except.map, eq_comm] using hanswer

theorem heeds_call (f : Nat) : (call p s t f).Heeds p s (called? p s t.stack f) := by
  fun_cases call p s t f <;> simp only [called?, *]
  · exact .none trivial
  · exact .none (quiet_enter p s ..)
  case case3 hcall => exact .quiet (by simpa using answer_of_callImport_ok hcall) trivial
  case case4 hcall =>
    rw [(callImport_eq hcall).1]
    exact .refused (answer_of_callImport_error hcall)

theorem heeds_tailCall (f : Nat) : (tailCall p s t f).Heeds p s (called? p s t.stack f) := by
  fun_cases tailCall p s t f <;> simp only [called?, *]
  · exact .none trivial
  · exact .none (quiet_enter p s ..)
  case case3 hcall => exact .quiet (by simpa using answer_of_callImport_ok hcall) (quiet_leave ..)
  case case4 hcall =>
    rw [(callImport_eq hcall).1]
    exact .refused (answer_of_callImport_error hcall)

theorem heeds_execute (i : Instr) : (execute p s t i).Heeds p s (callBy? p s t.stack i) := by
  fun_cases execute p s t i
  all_goals simp only [callBy?]
  all_goals first
    | exact .none trivial
    | exact .none (quiet_proceed p s _)
    | exact .none (quiet_branch s _ _)
    | exact .none (quiet_leave s _)
    | exact .none (exchanges_memoryStep p s t _ .func .i32).quiet
    | exact .none (exchanges_tableStep s t _ .func .i32).quiet
    | exact .none (exchanges_atomic p s t _ _).quiet
    | exact heeds_call p s _ _
    | exact heeds_tailCall p s _ _
    | skip
  -- What is left are the calls through a table.
  all_goals
    simp only [calledIndirectly?, *]
    first
      | exact .none trivial
      | exact heeds_call p s { t with stack := _ } _
      | exact heeds_tailCall p s { t with stack := _ } _

/-- A step heeds the answer to the call it makes. -/
theorem heeds_step : (step p s t).Heeds p s (callFrom? p (s, t)) := by
  unfold step callFrom? nextCall?
  cases t.code with
  | nil => exact .none (quiet_close s t)
  | cons i code =>
    dsimp only
    split
    · -- The call finds the count of the fuel written back, which is nothing to it.
      have h := heeds_execute p { s with spent := t.spent + i.cost }
        { t with code, spent := t.spent + i.cost } i
      have hcall : callBy? p { s with spent := t.spent + i.cost } t.stack i =
          callBy? p s t.stack i := rfl
      dsimp only at h
      rw [hcall] at h
      change Step.Heeds p s (callBy? p s t.stack i) _
      generalize callBy? p s t.stack i = call?, execute p _ _ i = r at h ⊢
      cases h with
      | refused answer => exact .refused answer
      | quiet answered quiet => exact .quiet answered quiet
    · exact heeds_execute p s { t with code, spent := t.spent + i.cost } i

end Machine
end GuestHarness.Wasm
