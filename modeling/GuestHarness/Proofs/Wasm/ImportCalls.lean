import GuestHarness.Wasm.Instantiation
import GuestHarness.Proofs.Wasm.Exchange

/-! The calls of imported functions that a guest makes, as a trace beside its run. What becomes of the
host's state in a run is what these calls do to it, one after the other, and nothing else. -/
namespace GuestHarness.Wasm

/-- A call of an imported function: its arguments in order, the memories as the call finds them, and
what it was answered. -/
structure ImportCall (ε : Type) where
  caller : Caller
  index : Nat
  args : List Operand
  memories : Array Memory
  answer : Except ε (List Operand)

variable {σ ε : Type}

/-- What a call makes of the host's state. -/
def Program.afterCall (p : Program σ ε) (host : σ) (c : ImportCall ε) : σ :=
  (p.call c.caller c.index c.args c.memories host).1

/-- The step changes nothing of the store but the count of the fuel. -/
def Step.Spends (s : Store σ) (r : Step σ ε) : Prop := ∃ spent, r.store = { s with spent }

theorem Step.Spends.host {s : Store σ} {r : Step σ ε} (h : r.Spends s) : r.store.host = s.host := by
  obtain ⟨_, h⟩ := h
  rw [h]

theorem Step.Spends.memories {s : Store σ} {r : Step σ ε} (h : r.Spends s) :
    r.store.memories = s.memories := by
  obtain ⟨_, h⟩ := h
  rw [h]

namespace Machine

variable (p : Program σ ε)

/-- The call of an import as the store finds it. -/
def importCall (caller : Caller) (index : Nat) (args : List Operand) (s : Store σ) : ImportCall ε :=
  ⟨caller, index, args, s.memories, (p.call caller index args s.memories s.host).2⟩

/-- Calling a function is a call of an import if the function is imported. -/
def called? (s : Store σ) (stack : List Operand) (f : Nat) : Option (ImportCall ε) :=
  match p.functions[f]? with
  | some (.imported type index) =>
    some (importCall p .guest index (stack.take type.params.length).reverse s)
  | _ => none

def calledIndirectly? (s : Store σ) (stack : List Operand) (table type : Nat) :
    Option (ImportCall ε) :=
  match stack with
  | .i32 index :: stack =>
    match indirect p s table type index.toNat with
    | .ok f => called? p s stack f
    | .error _ => none
  | _ => none

/-- The call of an import that an instruction makes. -/
def callBy? (s : Store σ) (stack : List Operand) : Instr → Option (ImportCall ε)
  | .call f | .returnCall f => called? p s stack f
  | .callIndirect table type | .returnCallIndirect table type =>
    calledIndirectly? p s stack table type
  | _ => none

/-- The call of an import that the next step makes. -/
def nextCall? (s : Store σ) (t : Thread) : Option (ImportCall ε) :=
  t.code.head?.bind (callBy? p s t.stack)

/-- The calls of imports in the steps of a thread, in order. -/
def callsOfRun : Nat → Store σ → Thread → List (ImportCall ε)
  | 0, _, _ => []
  | n + 1, s, t =>
    (nextCall? p s t).toList ++
      match step p s t with
      | .next s t => callsOfRun n s t
      | .ended .. => []

def callsOfInvoke (s : Store σ) (f : Nat) (args : List Operand) : List (ImportCall ε) :=
  match p.functions[f]? with
  | none => []
  | some (.imported _ index) => [importCall p .host index args s]
  | some (.defined type locals body) =>
    match enter p s args.reverse type locals body [] 0 s.spent with
    | .next s t => callsOfRun p maxSteps s t
    | .ended .. => []

def callsOfStart (m : Module) (s : Store σ) : List (ImportCall ε) :=
  match m.start with
  | none => []
  | some f => callsOfInvoke p s f []

/-- Only the start function calls anything while a module is made ready. -/
def callsOfSetup (m : Module) (s : Store σ) : List (ImportCall ε) :=
  if !m.memories.all fun t => atMost p.cap t.limits.minimum then []
  else
    match m.elements.foldlM placeElements s with
    | .error _ => []
    | .ok s =>
      match m.datas.foldlM (placeData p) s with
      | .error _ => []
      | .ok s => callsOfStart p m s

variable (s : Store σ) (t : Thread)

theorem spends_leave : (leave s t : Step σ ε).Spends s := by
  fun_cases leave (ε := ε) s t <;> exact ⟨_, rfl⟩

theorem spends_close : (close s t : Step σ ε).Spends s := by
  fun_cases close (ε := ε) s t
  · exact spends_leave s t
  · exact ⟨_, rfl⟩

theorem spends_branch (k : Nat) : (branch s t k : Step σ ε).Spends s := by
  fun_cases branch (ε := ε) s t k
  · exact spends_leave s t
  · exact ⟨_, rfl⟩

theorem spends_proceed : (proceed p s t).Spends s := by
  fun_cases proceed p s t <;> exact ⟨_, rfl⟩

theorem spends_enter (args : List Operand) (type : FuncType) (locals : List Operand)
    (body : List Instr) (callers : List Frame) (depth spent : Nat) :
    (enter p s args type locals body callers depth spent).Spends s := by
  fun_cases enter p s args type locals body callers depth spent
  · exact ⟨_, rfl⟩
  · exact spends_proceed p s _

variable {p s} in
theorem spends_of_enter {args : List Operand} {type : FuncType} {locals : List Operand}
    {body : List Instr} {callers : List Frame} {depth spent : Nat} {r : Step σ ε}
    (h : enter p s args type locals body callers depth spent = r) : r.Spends s :=
  h ▸ spends_enter p s args type locals body callers depth spent

variable {p s} in
theorem host_of_callImport {caller : Caller} {index : Nat} {args : List Operand} {s' : Store σ}
    {answer : Except ε (List Operand)} (h : callImport p caller index args s = (s', answer)) :
    s'.host = p.afterCall s.host (importCall p caller index args.reverse s) := by
  cases h
  rfl

theorem host_call (f : Nat) :
    (call p s t f).store.host = (called? p s t.stack f).toList.foldl p.afterCall s.host := by
  fun_cases call p s t f <;> simp only [called?, *]
  · rfl
  · exact (spends_enter p s ..).host
  · exact host_of_callImport ‹_›
  · exact host_of_callImport ‹_›

theorem host_tailCall (f : Nat) :
    (tailCall p s t f).store.host = (called? p s t.stack f).toList.foldl p.afterCall s.host := by
  fun_cases tailCall p s t f <;> simp only [called?, *]
  · rfl
  · exact (spends_enter p s ..).host
  · rw [(spends_leave ..).host]
    exact host_of_callImport ‹_›
  · exact host_of_callImport ‹_›

/-- Carrying out an instruction does to the host's state what the call does that the instruction
makes, if it makes one. -/
theorem host_execute (i : Instr) :
    (execute p s t i).store.host = (callBy? p s t.stack i).toList.foldl p.afterCall s.host := by
  fun_cases execute p s t i
  all_goals first
    | rfl
    | exact (spends_proceed p s _).host
    | exact (spends_branch s _ _).host
    | exact (spends_leave s _).host
    | exact host_call p s _ _
    | exact host_tailCall p s _ _
    | exact (exchanges_memoryStep p s t _ .func .i32).host_store
    | exact (exchanges_tableStep s t _ .func .i32).host_store
    | exact (exchanges_atomic p s t _ _).host_store
    | skip
  -- What is left are the calls through a table.
  all_goals
    simp only [callBy?, calledIndirectly?, *]
    first
      | rfl
      | exact host_call p s _ _
      | exact host_tailCall p s _ _

/-- One step makes at most one call, and does to the host's state what this call does. -/
theorem host_step :
    (step p s t).store.host = (nextCall? p s t).toList.foldl p.afterCall s.host := by
  unfold step nextCall?
  cases t.code with
  | nil => exact (spends_close s t).host
  | cons i code =>
    dsimp only
    rw [host_execute]
    -- The count of the fuel is nothing to an imported function.
    split <;> rfl

/-- A run does to the host's state what its calls do in their order. -/
theorem host_run (n : Nat) :
    (run p n s t).2.host = (callsOfRun p n s t).foldl p.afterCall s.host := by
  induction n generalizing s t with
  | zero => rfl
  | succ n ih =>
    rw [run, callsOfRun, List.foldl_append, ← host_step]
    cases step p s t with
    | next s t => exact ih s t
    | ended ending s => rfl

variable {p s t} in
theorem host_run_of_enter {args : List Operand} {type : FuncType} {locals : List Operand}
    {body : List Instr} {s' : Store σ}
    (h : enter p s args type locals body [] 0 s.spent = .next s' t) (n : Nat) :
    (run p n s' t).2.host = (callsOfRun p n s' t).foldl p.afterCall s.host := by
  have hs : s'.host = s.host := (spends_of_enter h).host
  rw [host_run, hs]

theorem host_invoke (f : Nat) (args : List Operand) :
    (invoke p s f args).2.host = (callsOfInvoke p s f args).foldl p.afterCall s.host := by
  unfold callsOfInvoke
  fun_cases invoke p s f args <;> simp only [*]
  case case1 => rfl
  case case2 | case3 =>
    rw [host_of_callImport ‹_›, List.reverse_reverse]
    rfl
  case case4 h _ _ hrun => simpa [hrun] using host_run_of_enter h maxSteps
  case case5 h _ => exact host_run_of_enter h maxSteps
  case case6 h => exact (spends_of_enter h).host

theorem store_start {m : Module} {f : Nat} (h : m.start = some f) :
    (start p m s).1 = (invoke p s f []).2 := by
  unfold start
  rw [h]
  dsimp only
  split <;> simp only [*]

theorem host_start (m : Module) :
    (start p m s).1.host = (callsOfStart p m s).foldl p.afterCall s.host := by
  unfold callsOfStart
  cases h : m.start with
  | none =>
    rw [start, h]
    rfl
  | some f => rw [store_start p s h, host_invoke]

/-- Copying segments changes nothing but memories and tables. -/
def Prepares (s s' : Store σ) : Prop :=
  ∃ (memories : Array Memory) (tables : Array Table), s' = { s with memories, tables }

theorem Prepares.refl (s : Store σ) : Prepares s s := ⟨s.memories, s.tables, rfl⟩

theorem Prepares.trans {s s' s'' : Store σ} (h : Prepares s s') (h' : Prepares s' s'') :
    Prepares s s'' := by
  obtain ⟨_, _, rfl⟩ := h
  obtain ⟨_, _, rfl⟩ := h'
  exact ⟨_, _, rfl⟩

theorem prepares_placeElements {s s' : Store σ} {segment : ElementSegment}
    (h : placeElements s segment = .ok s') : Prepares s s' := by
  revert h
  fun_cases placeElements s segment <;> intro h <;> cases h
  · exact ⟨_, _, rfl⟩
  · exact .refl s

theorem prepares_placeData {p : Program σ ε} {s s' : Store σ} {segment : DataSegment}
    (h : placeData p s segment = .ok s') : Prepares s s' := by
  revert h
  fun_cases placeData p s segment <;> intro h <;> cases h
  · exact ⟨_, _, rfl⟩
  · exact .refl s

theorem prepares_foldlM {α : Type} {place : Store σ → α → Except TrapKind (Store σ)}
    (hplace : ∀ {s s' : Store σ} {a : α}, place s a = .ok s' → Prepares s s') {as : List α}
    {s s' : Store σ} (h : as.foldlM place s = .ok s') : Prepares s s' := by
  induction as generalizing s with
  | nil =>
    cases h
    exact .refl s'
  | cons a as ih =>
    rw [List.foldlM_cons] at h
    cases ha : place s a with
    | error kind =>
      rw [ha] at h
      cases h
    | ok s'' =>
      rw [ha] at h
      exact (hplace ha).trans (ih h)

/-- Making a module ready fails before anything is called, or comes to calling the start function. -/
theorem setup_cases (m : Module) :
    ∃ s', Prepares s s' ∧
      ((∃ e, setup p m s = (s', .error e) ∧ (∀ e', e ≠ .raised e') ∧ callsOfSetup p m s = []) ∨
        (setup p m s = start p m s' ∧ callsOfSetup p m s = callsOfStart p m s')) := by
  unfold callsOfSetup
  fun_cases setup p m s <;> simp only [*]
  case case1 => exact ⟨s, .refl s, .inl ⟨_, rfl, by simp, rfl⟩⟩
  case case2 => exact ⟨s, .refl s, .inl ⟨_, rfl, by simp, rfl⟩⟩
  case case3 s' helements kind _ =>
    exact ⟨s', prepares_foldlM prepares_placeElements helements, .inl ⟨_, rfl, by simp, rfl⟩⟩
  case case4 s' helements s'' hdatas =>
    exact ⟨s'', (prepares_foldlM prepares_placeElements helements).trans
      (prepares_foldlM prepares_placeData hdatas), .inr ⟨rfl, rfl⟩⟩

theorem host_setup (m : Module) :
    (setup p m s).1.host = (callsOfSetup p m s).foldl p.afterCall s.host := by
  obtain ⟨s', hs', ⟨e, hsetup, -, hcalls⟩ | ⟨hsetup, hcalls⟩⟩ := setup_cases p s m
  all_goals
    rw [hsetup, hcalls]
    obtain ⟨_, _, rfl⟩ := hs'
  · rfl
  · exact host_start p _ m

end Machine
end GuestHarness.Wasm
