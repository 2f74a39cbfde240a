import GuestHarness.Proofs.Calls.Introspection

/-! The ways to call a function: for one result at most, for all results, or at a type that the caller has
in mind. Each checks the call in its own way; what passes comes to the same run, on the very bits of the
arguments, and gives back the very bits of the results. -/
namespace GuestHarness
open Wasm (FuncType Function Operand Store)

namespace Wasm.Operand

/-- The operand has the type and the bits of the value. -/
inductive Carries : Operand → Value → Prop where
  | i32 (bits : UInt32) : Carries (.i32 bits) (.ofUInt32 bits)
  | i64 (bits : UInt64) : Carries (.i64 bits) (.i64 bits.toInt64)
  | f32 (bits : UInt32) : Carries (.f32 bits) (.f32 bits)
  | f64 (bits : UInt64) : Carries (.f64 bits) (.f64 bits)

theorem carries_iff {o : Operand} {v : Value} : o.Carries v ↔ o.toValue? = some v := by
  constructor
  · intro h
    cases h <;> rfl
  · intro h
    cases o <;> cases h <;> constructor

theorem carries_ofValues (vs : List Value) : List.Forall₂ Carries (vs.map ofValue) vs := by
  induction vs with
  | nil => exact .nil
  | cons v vs ih => exact .cons (carries_iff.2 (toValue?_ofValue v)) ih

theorem mapM_toValue?_eq_some_iff {os : List Operand} {vs : List Value} :
    os.mapM toValue? = some vs ↔ List.Forall₂ Carries os vs := by
  induction os generalizing vs with
  | nil => cases vs <;> simp
  | cons o os ih =>
    simp only [List.mapM_cons, Option.bind_eq_bind, Option.bind_eq_some_iff, Option.pure_def,
      Option.some.injEq, List.forall₂_cons_left_iff, carries_iff, ih]
    constructor
    · rintro ⟨v, hv, rest, hrest, rfl⟩
      exact ⟨v, rest, hv, hrest, rfl⟩
    · rintro ⟨v, rest, hv, hrest, rfl⟩
      exact ⟨v, hv, rest, hrest, rfl⟩

end Wasm.Operand

/-- A guest's function begins with the arguments as its first variables. -/
theorem Wasm.Machine.statesOfInvoke_of_defined {σ ε : Type} {p : Program σ ε} {s : Store σ} {f : Nat}
    {type : FuncType} {locals : List Operand} {body : List Instr}
    (hf : p.functions[f]? = some (.defined type locals body))
    (hfuel : p.exhausted (s.spent + 1) = false) (args : List Operand) :
    ∃ thread rest, statesOfInvoke p s f args = (s, thread) :: rest ∧
      thread.locals.toList = args ++ locals := by
  have hdepth : ¬ maxDepth ≤ 0 := by decide
  have hsteps : maxSteps = maxSteps - 1 + 1 := by decide
  simp only [statesOfInvoke, hf, enter, hdepth, proceed, hfuel, if_false, Bool.false_eq_true]
  rw [hsteps, statesOfRun]
  exact ⟨_, _, rfl, by simp⟩

/-- The request calls the function of the signature with the arguments, in one of the ways. -/
inductive Request.Calls (exported : String) (s : Signature) (args : List Value) : Request → Prop where
  | single (one : s.results.length ≤ 1) : Calls exported s args (.invoke exported args)
  | multi : Calls exported s args (.invokeMulti exported args)
  | typed (h : args.map Value.type = s.params) : Calls exported s args (.invokeTyped exported s args h)

namespace Instance

/-- Two calls come to the same, but for the form in which the second gives its result. -/
structure SameCall {α β : Type} (form : α → β) (a : Account Fault α × Instance)
    (b : Account Fault β × Instance) : Prop where
  outcome : b.1.outcome = a.1.outcome.map form
  emissions (sink : Sink) : emissionsTo sink b.1.noticed = emissionsTo sink a.1.noticed
  after : b.2 = a.2

/-- The bits of the arguments reach what the request calls. -/
inductive Receives (i : Instance) (r : Request) (args : List Value) : Prop where
  /-- A guest's function begins with them as its first variables. -/
  | guest {store : Store (Array Occurrence)} {thread : Wasm.Thread}
      {rest : List (Store (Array Occurrence) × Wasm.Thread)}
      (states : i.statesBy r = (store, thread) :: rest)
      (carried : List.Forall₂ Operand.Carries (thread.locals.toList.take args.length) args)
  /-- A function of the host is called with them, and that is all. -/
  | host {call : Wasm.ImportCall Fault} (calls : i.callsBy r = [call]) (caller : call.caller = .host)
      (carried : List.Forall₂ Operand.Carries call.args args)
  /-- There is no fuel for a single step. -/
  | unfueled (exhausted : i.program.exhausted (i.store.spent + 1) = true)
      (states : i.statesBy r = []) (calls : i.callsBy r = [])

/-- The run that the request comes to gives these operands. -/
def Returns (i : Instance) (r : Request) (results : List Operand) : Prop :=
  ∃ index args, i.entry? r = some (index, args) ∧
    (Wasm.Machine.invoke i.program i.store index (args.map .ofValue)).1 = .returned results

/-- All ways to call the function of the signature come to the same. -/
structure CallsAlike (i : Instance) (exported : String) (s : Signature) : Prop where
  types (args vs : List Value) (returned : (i.invokeMulti exported args).1.outcome = .ok vs) :
    vs.map Value.type = s.results
  single (one : s.results.length ≤ 1) (args : List Value) :
    SameCall List.head? (i.invokeMulti exported args) (i.invoke exported args)
  typed (args : List Value) (typed : args.map Value.type = s.params) :
    SameCall id (i.invokeMulti exported args) (i.invokeTyped exported s args)
  /-- At another type there is no handle on the function. -/
  otherHandle (wanted : FuncType) (other : wanted ≠ .ofSignature s) :
    ∃ actual, i.typedAs exported wanted = .error (.arityOrType exported functionTypeText actual)
  otherType (wanted : Signature) (other : wanted ≠ s) (args : List Value) :
    ∃ actual, i.invokeTyped exported wanted args =
      (.fail (.arityOrType exported functionTypeText actual), i)
  arguments (args : List Value) (typed : args.map Value.type = s.params) (r : Request)
    (calls : r.Calls exported s args) : i.Receives r args
  results (args : List Value) (typed : args.map Value.type = s.params) (r : Request)
    (calls : r.Calls exported s args) (vs : List Value) :
    (i.invokeMulti exported args).1.outcome = .ok vs ↔
      ∃ operands, i.Returns r operands ∧ List.Forall₂ Operand.Carries operands vs

variable {i : Instance} {exported : String} {index : Nat} {s : Signature} {args : List Value}

theorem typedAs_of_function? {type : FuncType} (h : i.function? exported = some (index, type)) :
    i.typedAs exported type = .ok index := by
  rw [typedAs, h]
  simp

theorem typedAs_of_ne {type wanted : FuncType} (h : i.function? exported = some (index, type))
    (hne : wanted ≠ type) :
    ∃ actual, i.typedAs exported wanted = .error (.arityOrType exported functionTypeText actual) := by
  rw [typedAs, h]
  dsimp only
  by_cases hparams : type.params = wanted.params
  · have hresults : type.results ≠ wanted.results := fun hresults =>
      hne (by cases wanted; cases type; simp_all)
    exact ⟨_, by rw [if_neg (not_not.2 hparams), if_pos hresults]⟩
  · exact ⟨_, if_pos hparams⟩

/-- Each way enters the function with the arguments as they are. -/
theorem enters_of_calls (h : i.function? exported = some (index, .ofSignature s))
    (htypes : args.map Value.type = s.params) {r : Request} (hr : r.Calls exported s args) :
    i.entry? r = some (index, args) := by
  have hresolve := resolve_of_function? h
  cases hr with
  | single one => exact enters_invoke hresolve one htypes
  | multi => exact enters_invokeMulti hresolve htypes
  | typed => exact enters_invokeTyped (typedAs_of_function? h) htypes

/-- The bits that a request hands over are those that the function finds. -/
theorem receives_of_entry? {r : Request} (hentry : i.entry? r = some (index, args))
    {function : Function} (hfunction : i.program.functions[index]? = some function) :
    i.Receives r args := by
  have hstates : i.statesBy r =
      Wasm.Machine.statesOfInvoke i.program i.store index (args.map .ofValue) := by
    simp [statesBy, hentry]
  have hcalls : i.callsBy r =
      Wasm.Machine.callsOfInvoke i.program i.store index (args.map .ofValue) := by
    simp [callsBy, hentry]
  cases function with
  | imported type k =>
    obtain ⟨hcall, -⟩ := Wasm.Machine.invoke_of_imported (s := i.store) hfunction (args.map .ofValue)
    exact .host (hcalls.trans hcall) rfl (Operand.carries_ofValues args)
  | defined type locals body =>
    cases hfuel : i.program.exhausted (i.store.spent + 1) with
    | true =>
      obtain ⟨-, hnone, hstopped⟩ :=
        Wasm.Machine.invoke_of_exhausted hfunction hfuel (args.map .ofValue)
      exact .unfueled hfuel (hstates.trans hstopped) (hcalls.trans hnone)
    | false =>
      obtain ⟨thread, rest, hbegun, hlocals⟩ :=
        Wasm.Machine.statesOfInvoke_of_defined hfunction hfuel (args.map .ofValue)
      refine .guest (hstates.trans hbegun) ?_
      rw [hlocals, List.take_left' (List.length_map _)]
      exact Operand.carries_ofValues args

/-- A call that gives results was made with arguments of its types, and the run gave these results. -/
theorem exists_run_of_invokeMulti (h : i.resolve exported = .ok (index, s)) {vs : List Value}
    (hvs : (i.invokeMulti exported args).1.outcome = .ok vs) :
    args.map Value.type = s.params ∧ ∃ results, (i.run exported index args).1.outcome = .ok results ∧
      values exported s results = .ok vs := by
  rw [invokeMulti_of_resolve h] at hvs
  by_cases htypes : args.map Value.type = s.params
  · rw [outcome_call htypes] at hvs
    cases hrun : (i.run exported index args).1.outcome with
    | error e =>
      rw [hrun] at hvs
      cases hvs
    | ok results =>
      rw [hrun] at hvs
      exact ⟨htypes, results, rfl, hvs⟩
  · rw [call_of_types_ne i exported index htypes] at hvs
    cases hvs

/-- A call gives the values that the operands of its run carry. -/
theorem outcome_call_eq_ok_iff (htypes : args.map Value.type = s.params) {vs : List Value} :
    (i.call exported index s args).1.outcome = .ok vs ↔ ∃ results,
      (Wasm.Machine.invoke i.program i.store index (args.map .ofValue)).1 = .returned results ∧
        List.Forall₂ Operand.Carries results vs := by
  have hvalues (results : List Operand) : values exported s results = .ok vs ↔
      List.Forall₂ Operand.Carries results vs := by
    rw [← Operand.mapM_toValue?_eq_some_iff]
    unfold values
    cases results.mapM Operand.toValue? <;> simp
  rw [outcome_call htypes, outcome_run]
  cases (Wasm.Machine.invoke i.program i.store index (args.map .ofValue)).1 with
  | returned results => simp [Except.bind, hvalues]
  | raised e => simp [Except.bind]
  | trapped kind => simp [Except.bind]
  | stuck => simp [Except.bind]
  | unfinished => simp [Except.bind]

/-- A call for one result gives the only one of all. -/
theorem sameCall_invoke (h : i.resolve exported = .ok (index, s)) (one : s.results.length ≤ 1)
    (htypes : ∀ vs, (i.invokeMulti exported args).1.outcome = .ok vs →
      vs.map Value.type = s.results) :
    SameCall List.head? (i.invokeMulti exported args) (i.invoke exported args) := by
  rw [invokeMulti_of_resolve h] at htypes ⊢
  rw [invoke_of_resolve h one]
  refine ⟨?_, fun sink => by rw [Account.noticed_map], rfl⟩
  rw [Account.outcome_map]
  cases hcall : (i.call exported index s args).1.outcome with
  | error e => rfl
  | ok vs =>
    have hlength : vs.length ≤ 1 := by
      rw [← List.length_map Value.type, htypes vs hcall]
      exact one
    match vs, hlength with
    | [], _ => rfl
    | [v], _ => rfl

/-- A call at the function's own type differs in nothing from one that is checked value by value. -/
theorem sameCall_invokeTyped (h : i.function? exported = some (index, .ofSignature s))
    (htypes : args.map Value.type = s.params) :
    SameCall id (i.invokeMulti exported args) (i.invokeTyped exported s args) := by
  have htyped : i.typed exported s = .ok index := typedAs_of_function? h
  rw [invokeMulti_of_resolve (resolve_of_function? h), invokeTyped, htyped]
  refine ⟨?_, fun sink => ?_, (snd_call htypes).symm⟩
  · rw [outcome_call htypes]
    simp only [Account.bind_eq_andThen, Account.outcome_andThen, Account.outcome_log,
      Account.outcome_ofExcept]
    cases (i.run exported index args).1.outcome.bind (values exported s) <;> rfl
  · rw [emissionsTo_call htypes]
    simp only [Account.bind_eq_andThen, Account.emissionsTo_log_andThen]
    rw [Account.emissionsTo_andThen_of_silent (fun _ => rfl)]

theorem callsAlike {m : Wasm.Module} (hchecks : i.ChecksCalls m)
    (h : i.function? exported = some (index, .ofSignature s)) : i.CallsAlike exported s := by
  have hresolve := resolve_of_function? h
  have hfunction : i.program.functions[index]?.map Function.type = some (.ofSignature s) :=
    exists_of_function? h
  have htypes (args vs : List Value) (hvs : (i.invokeMulti exported args).1.outcome = .ok vs) :
      vs.map Value.type = s.results := by
    obtain ⟨hargs, results, hrun, hresults⟩ := exists_run_of_invokeMulti hresolve hvs
    obtain ⟨vs', hvs', htypes⟩ := hchecks.values exported index s args hfunction hargs results hrun
    cases hresults.symm.trans hvs'
    exact htypes
  refine ⟨htypes, fun one args => sameCall_invoke hresolve one (htypes args),
    fun args htyped => sameCall_invokeTyped h htyped, fun wanted hne => typedAs_of_ne h hne,
    fun wanted hne args => ?_, fun args htyped r hr => ?_, fun args htyped r hr vs => ?_⟩
  · obtain ⟨actual, hactual⟩ := typedAs_of_ne h (Wasm.FuncType.ofSignature_injective.ne hne)
    refine ⟨actual, ?_⟩
    rw [invokeTyped, typed, hactual]
  · obtain ⟨function, hfound, -⟩ := Option.map_eq_some_iff.1 hfunction
    exact receives_of_entry? (enters_of_calls h htyped hr) hfound
  · have hentry := enters_of_calls h htyped hr
    rw [invokeMulti_of_resolve hresolve, outcome_call_eq_ok_iff htyped]
    constructor
    · rintro ⟨results, hreturned, hcarried⟩
      exact ⟨results, ⟨index, args, hentry, hreturned⟩, hcarried⟩
    · rintro ⟨results, ⟨index', args', hentry', hreturned⟩, hcarried⟩
      cases hentry.symm.trans hentry'
      exact ⟨results, hreturned, hcarried⟩

end Instance

/-- In every state that an instance reaches, it makes no difference in which way a function on numbers is
called. -/
theorem ways_to_call_agree (l : Loader) (c : Compiled) (t : ImportTable)
    (valid : Wasm.Typing.module c.module = true) (i : Instance)
    (made : (l.instantiate c t).outcome = .ok i) (rs : List Request) (exported : String)
    (s : Signature) (exports : c.module.ExportsFunction exported (.ofSignature s)) :
    (i.answers rs).2.CallsAlike exported s := by
  obtain ⟨functions, hlinked, hready, hmodule⟩ := Loader.ready_answers valid made rs
  obtain ⟨index, hfunction⟩ := (hlinked.exists_function?_iff hready valid hmodule).2 exports
  exact Instance.callsAlike (hlinked.checksCalls hready valid hmodule) hfunction

/-- A guest that gives back what it is given. -/
def echoGuest : Wasm.Module where
  types := #[⟨[.num .f32], [.num .f32]⟩]
  functions := [0]
  exports := [⟨"echo", .func, 0⟩]
  codes := [⟨[], [.localGet 0]⟩]

/-- A NaN with its sign and payload comes back in each of the ways, and at the type of integers there is
nothing to call. -/
theorem ways_to_call_agree_echoGuest :
    Wasm.Typing.module echoGuest = true ∧
      echoGuest.ExportsFunction "echo" (.ofSignature ⟨[.f32], [.f32]⟩) ∧
      ∃ i, (({} : Loader).instantiate ⟨"guest", echoGuest, 0⟩ .empty).outcome = .ok i ∧
        let i := (i.answers [.invoke "echo" [.f32 0x80000000]]).2
        (i.invokeMulti "echo" [.f32 0xffa00001]).1.outcome = .ok [.f32 0xffa00001] ∧
        (i.invoke "echo" [.f32 0xffa00001]).1.outcome = .ok (some (.f32 0xffa00001)) ∧
        (i.invokeTyped "echo" ⟨[.f32], [.f32]⟩ [.f32 0xffa00001]).1.outcome =
          .ok [.f32 0xffa00001] ∧
        ∃ actual, i.invokeTyped "echo" ⟨[.i32], [.f32]⟩ [.i32 0] =
          (.fail (.arityOrType "echo" functionTypeText actual), i) := by
  have valid : Wasm.Typing.module echoGuest = true := by decide +kernel
  have hexports : echoGuest.ExportsFunction "echo" (.ofSignature ⟨[.f32], [.f32]⟩) :=
    ⟨_, List.mem_cons_self, rfl, rfl⟩
  obtain ⟨i, hi, hreturned⟩ := Loader.exists_instantiated (l := {})
    (c := ⟨"guest", echoGuest, 0⟩) (t := .empty)
    (P := fun i => ((i.answers [.invoke "echo" [.f32 0x80000000]]).2.invokeMulti "echo"
      [.f32 0xffa00001]).1.outcome = .ok [.f32 0xffa00001])
    (by decide +kernel)
  have halike := ways_to_call_agree {} ⟨"guest", echoGuest, 0⟩ .empty valid i hi
    [.invoke "echo" [.f32 0x80000000]] "echo" ⟨[.f32], [.f32]⟩ hexports
  have hsingle := (halike.single (by decide) [.f32 0xffa00001]).outcome
  have htyped := (halike.typed [.f32 0xffa00001] rfl).outcome
  rw [hreturned] at hsingle htyped
  exact ⟨valid, hexports, i, hi, hreturned, hsingle, htyped, halike.otherType _ (by decide) _⟩

end GuestHarness
