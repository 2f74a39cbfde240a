import GuestHarness.Proofs.Wasm.ImportCalls

/-! Runs beside another state of the host's. A guest learns of the host only what its imported functions
answer: where these give the same answers, a run is the same run, and what it makes of the one state it
makes of the other. -/
namespace GuestHarness.Wasm

variable {σ ε : Type}

/-- The store with another state of the host's. -/
def Store.mapHost (f : σ → σ) (s : Store σ) : Store σ := { s with host := f s.host }

section

variable (f : σ → σ) (s : Store σ)

@[simp] theorem Store.memories_mapHost : (s.mapHost f).memories = s.memories := rfl

@[simp] theorem Store.tables_mapHost : (s.mapHost f).tables = s.tables := rfl

@[simp] theorem Store.globals_mapHost : (s.mapHost f).globals = s.globals := rfl

@[simp] theorem Store.elements_mapHost : (s.mapHost f).elements = s.elements := rfl

@[simp] theorem Store.datas_mapHost : (s.mapHost f).datas = s.datas := rfl

@[simp] theorem Store.spent_mapHost : (s.mapHost f).spent = s.spent := rfl

@[simp] theorem Store.host_mapHost : (s.mapHost f).host = f s.host := rfl

end

namespace Step

def mapHost (f : σ → σ) : Step σ ε → Step σ ε
  | next s t => next (s.mapHost f) t
  | ended ending s => ended ending (s.mapHost f)

end Step

/-- The second program is the first one but for what imported functions do to the host's state: on
states that `f` relates they give the same answers, and leave states that `f` relates. -/
structure Program.Follows (p p' : Program σ ε) (f : σ → σ) : Prop where
  eq : p' = { p with call := p'.call }
  call (caller : Caller) (index : Nat) (args : List Operand) (memories : Array Memory) (host : σ) :
    p'.call caller index args memories (f host) =
      Prod.map f id (p.call caller index args memories host)

namespace Machine

variable {p p' : Program σ ε} {f : σ → σ} (s : Store σ) (t : Thread)

theorem leave_mapHost : leave (s.mapHost f) t = (leave s t : Step σ ε).mapHost f := by
  unfold leave
  cases t.callers <;> rfl

theorem close_mapHost : close (s.mapHost f) t = (close s t : Step σ ε).mapHost f := by
  unfold close
  cases t.labels with
  | nil => exact leave_mapHost s t
  | cons => rfl

theorem branch_mapHost (k : Nat) : branch (s.mapHost f) t k = (branch s t k : Step σ ε).mapHost f := by
  unfold branch
  cases t.labels.drop k with
  | nil => exact leave_mapHost s t
  | cons => rfl

theorem memoryStep_mapHost (i : Instr) :
    memoryStep p (s.mapHost f) t i = (memoryStep p s t i).mapHost f := by
  fun_cases memoryStep p s t i <;> simp [memoryStep, *] <;> rfl

theorem tableStep_mapHost (i : Instr) :
    (tableStep (s.mapHost f) t i : Step σ ε) = (tableStep s t i).mapHost f := by
  fun_cases tableStep (ε := ε) s t i <;> simp [tableStep, *] <;> rfl

/-- An atomic access within its memory, by its kind and the operands it finds. -/
theorem atomic_mapHost (op : AtomicOp) (arg : MemArg) :
    atomic p (s.mapHost f) t op arg = (atomic p s t op arg).mapHost f := by
  unfold atomic
  simp only [Store.memories_mapHost]
  generalize t.stack.take _ = args, t.stack.drop _ = rest
  cases address? p arg.memory with
  | none => rfl
  | some a =>
    cases rest with
    | nil => rfl
    | cons v stack =>
      cases v with
      | i32 base =>
        dsimp only
        cases s.memories[a]? with
        | none => rfl
        | some m =>
          dsimp only
          cases effective? m base arg.offset op.bytes with
          | none => rfl
          | some at_ =>
            dsimp only
            split
            · rfl
            · cases op with
              | notify | load => rfl
              | wait w =>
                match args with
                | [_, expected] =>
                  dsimp only
                  split <;> rfl
                | [] | [_] | _ :: _ :: _ :: _ => rfl
              | store w n | rmw op w n =>
                match args with
                | [v] =>
                  dsimp only
                  cases v.word? <;> rfl
                | [] | _ :: _ :: _ => rfl
              | cmpxchg w n =>
                match args with
                | [new, expected] =>
                  dsimp only
                  cases new.word? <;> cases expected.word? <;> try rfl
                  dsimp only
                  split <;> rfl
                | [] | [_] | _ :: _ :: _ :: _ => rfl
      | i64 | f32 | f64 | vector | ref => rfl

section

variable (h : p.Follows p' f)
include h

theorem proceed_mapHost : proceed p' (s.mapHost f) t = (proceed p s t).mapHost f := by
  have hexhausted : p'.exhausted t.spent = p.exhausted t.spent := by
    rw [h.eq]
    rfl
  unfold proceed
  rw [hexhausted]
  split <;> rfl

theorem enter_mapHost (args : List Operand) (type : FuncType) (locals : List Operand)
    (body : List Instr) (callers : List Frame) (depth spent : Nat) :
    enter p' (s.mapHost f) args type locals body callers depth spent =
      (enter p s args type locals body callers depth spent).mapHost f := by
  unfold enter
  split
  · rfl
  · exact proceed_mapHost s _ h

theorem callImport_mapHost (caller : Caller) (index : Nat) (args : List Operand) :
    callImport p' caller index args (s.mapHost f) =
      Prod.map (Store.mapHost f) id (callImport p caller index args s) := by
  unfold callImport
  rw [Store.memories_mapHost, Store.host_mapHost, h.call]
  rfl

theorem functions_eq : p'.functions = p.functions := by
  rw [h.eq]

theorem call_mapHost (g : Nat) : call p' (s.mapHost f) t g = (call p s t g).mapHost f := by
  unfold call
  rw [functions_eq h]
  cases p.functions[g]? with
  | none => rfl
  | some function =>
    cases function with
    | defined type locals body => exact enter_mapHost s h ..
    | imported type index =>
      dsimp only
      rw [callImport_mapHost s h]
      cases callImport p .guest index (t.stack.take type.params.length) s with
      | mk s' answer => cases answer <;> rfl

theorem tailCall_mapHost (g : Nat) :
    tailCall p' (s.mapHost f) t g = (tailCall p s t g).mapHost f := by
  unfold tailCall
  rw [functions_eq h]
  cases p.functions[g]? with
  | none => rfl
  | some function =>
    cases function with
    | defined type locals body => exact enter_mapHost s h ..
    | imported type index =>
      dsimp only
      rw [callImport_mapHost s h]
      cases callImport p .guest index (t.stack.take type.params.length) s with
      | mk s' answer =>
        cases answer with
        | error e => rfl
        | ok results => exact leave_mapHost s' _

theorem indirect_mapHost (table type index : Nat) :
    indirect p' (s.mapHost f) table type index = indirect p s table type index := by
  rw [h.eq]
  rfl

/-- An instruction looks at the host's state only where it calls an imported function. -/
theorem execute_mapHost (i : Instr) :
    execute p' (s.mapHost f) t i = (execute p s t i).mapHost f := by
  have hatomic (op : AtomicOp) (arg : MemArg) :
      atomic p' (s.mapHost f) t op arg = (atomic p s t op arg).mapHost f := by
    rw [h.eq]
    exact atomic_mapHost s t op arg
  have hmemory (i : Instr) : memoryStep p' (s.mapHost f) t i = (memoryStep p s t i).mapHost f := by
    rw [h.eq]
    exact memoryStep_mapHost s t i
  fun_cases execute p s t i
  all_goals
    simp only [execute, indirect_mapHost s h, Store.globals_mapHost, *]
    first
      | done
      | rfl
      | exact proceed_mapHost s _ h
      | exact branch_mapHost s _ _
      | exact leave_mapHost s _
      | exact call_mapHost s _ h _
      | exact tailCall_mapHost s _ h _
      | exact tableStep_mapHost s t _

theorem step_mapHost : step p' (s.mapHost f) t = (step p s t).mapHost f := by
  unfold step
  cases t.code with
  | nil => exact close_mapHost s t
  | cons i code =>
    dsimp only
    split
    · exact execute_mapHost { s with spent := t.spent + i.cost } _ h i
    · exact execute_mapHost s _ h i

/-- A run comes to the same, and its store is the other one but for the host's state. -/
theorem run_mapHost (n : Nat) :
    run p' n (s.mapHost f) t = Prod.map id (Store.mapHost f) (run p n s t) := by
  induction n generalizing s t with
  | zero => rfl
  | succ n ih =>
    rw [run, run, step_mapHost s t h]
    cases step p s t with
    | next s' t' => exact ih s' t'
    | ended ending s' => rfl

theorem invoke_mapHost (g : Nat) (args : List Operand) :
    invoke p' (s.mapHost f) g args = Prod.map id (Store.mapHost f) (invoke p s g args) := by
  unfold invoke
  rw [functions_eq h]
  cases p.functions[g]? with
  | none => rfl
  | some function =>
    cases function with
    | imported type index =>
      dsimp only
      rw [callImport_mapHost s h]
      cases callImport p .host index args.reverse s with
      | mk s' answer => cases answer <;> rfl
    | defined type locals body =>
      dsimp only
      rw [Store.spent_mapHost, enter_mapHost s h]
      cases enter p s args.reverse type locals body [] 0 s.spent with
      | ended ending s' => rfl
      | next s' t =>
        dsimp only [Step.mapHost]
        rw [run_mapHost s' t h]
        generalize run p maxSteps s' t = result
        obtain ⟨ending, s''⟩ := result
        cases ending <;> rfl

omit h in
theorem offset_mapHost (code : List Instr) : offset (s.mapHost f) code = offset s code := rfl

omit h in
theorem placeElements_mapHost (segment : ElementSegment) :
    placeElements (s.mapHost f) segment = (placeElements s segment).map (Store.mapHost f) := by
  unfold placeElements
  cases segment.mode with
  | passive | declared => rfl
  | active x code =>
    dsimp only
    rw [Store.tables_mapHost, Store.globals_mapHost, offset_mapHost]
    cases s.tables[x]?.map fun tab => tab.elements.size with
    | none => rfl
    | some size =>
      dsimp only
      split <;> rfl

theorem placeData_mapHost (segment : DataSegment) :
    placeData p' (s.mapHost f) segment = (placeData p s segment).map (Store.mapHost f) := by
  have haddress (x : Nat) : address? p' x = address? p x := by
    rw [h.eq]
    rfl
  unfold placeData
  cases segment.mode with
  | passive | declared => rfl
  | active x code =>
    dsimp only
    rw [haddress, Store.memories_mapHost, offset_mapHost]
    cases address? p x with
    | none => rfl
    | some a =>
      dsimp only
      split <;> rfl

omit h in
/-- What each step of a fold makes of related stores, the fold makes of them. -/
theorem foldlM_mapHost {α : Type} {place place' : Store σ → α → Except TrapKind (Store σ)}
    (hplace : ∀ s a, place' (s.mapHost f) a = (place s a).map (Store.mapHost f)) (as : List α) :
    as.foldlM place' (s.mapHost f) = (as.foldlM place s).map (Store.mapHost f) := by
  induction as generalizing s with
  | nil => rfl
  | cons a as ih =>
    rw [List.foldlM_cons, List.foldlM_cons, hplace]
    cases place s a with
    | error kind => rfl
    | ok s' => exact ih s'

theorem start_mapHost (m : Module) :
    start p' m (s.mapHost f) = Prod.map (Store.mapHost f) id (start p m s) := by
  unfold start
  cases m.start with
  | none => rfl
  | some g =>
    dsimp only
    rw [invoke_mapHost s h]
    generalize invoke p s g [] = result
    obtain ⟨ending, s'⟩ := result
    cases ending <;> rfl

/-- So it is with making a module ready. -/
theorem setup_mapHost (m : Module) :
    setup p' m (s.mapHost f) = Prod.map (Store.mapHost f) id (setup p m s) := by
  have hcap : p'.cap = p.cap := by
    rw [h.eq]
  unfold setup
  rw [hcap, foldlM_mapHost s placeElements_mapHost]
  split
  · rfl
  · cases m.elements.foldlM placeElements s with
    | error kind => rfl
    | ok s₁ =>
      dsimp only [Except.map]
      rw [foldlM_mapHost s₁ fun s => placeData_mapHost s h]
      cases m.datas.foldlM (placeData p) s₁ with
      | error kind => rfl
      | ok s₂ => exact start_mapHost s₂ h m

end
end Machine
end GuestHarness.Wasm
