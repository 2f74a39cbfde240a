import GuestHarness.Proofs.Loading.Outcomes
import GuestHarness.Proofs.Wasm.Failures

/-! Where the failures of guest runs come from. A descriptor fault is what a logger refused a call with,
and the call is the last thing that happens; whatever else stops a guest is a trap of the function that
was called, or a failure to make an instance. -/
namespace GuestHarness
open Wasm (Operand Memory Store Thread Ending ImportCall HaveTypes)
open Wasm.Machine (RefusedLast StoppedBy)

theorem Wasm.Memory.isDescriptorFault_of_readText {m : Memory} {d : Descriptor} {e : Fault}
    (h : m.readText d = .error e) : e.isDescriptorFault = true := by
  rw [Memory.readText, Memory.readBytes_eq] at h
  split at h
  · next hread =>
    cases h
    split at hread <;> cases hread
    rfl
  · split at h <;> cases h
    rfl

/-- Loggers fail with nothing but descriptor faults. -/
theorem Logger.isDescriptorFault_of_call {registry : Registry} {exported? : String → Option Nat}
    {logger : Logger} {sink : Sink} {caller : Wasm.Caller} {args : List Operand}
    {memories : Array Memory} {e : Fault}
    (h : (logger.call registry exported? sink caller args memories).2 = .error e) :
    e.isDescriptorFault = true := by
  revert h
  fun_cases Logger.call registry exported? logger sink caller args memories <;> intro h <;> cases h
  next source offset length _ hread =>
    unfold Logger.read at hread
    cases hsource : Logger.source registry exported? caller source with
    | error e' =>
      rw [hsource] at hread
      cases hread
      unfold Logger.source at hsource
      dsimp only at hsource
      split at hsource <;> split at hsource <;> cases hsource <;> rfl
    | ok a =>
      rw [hsource] at hread
      exact Memory.isDescriptorFault_of_readText hread

namespace Linkage

theorem isDescriptorFault_of_makes {l : Linkage} {m : Wasm.Module} {fuel cap : Option Nat}
    {call : ImportCall Fault} {e : Fault} (made : (l.program m fuel cap).Makes call)
    (h : call.answer = .error e) : e.isDescriptorFault = true := by
  obtain ⟨_, _, host, -, -, hanswer⟩ := made
  rw [h] at hanswer
  change _ = (l.callLogger m call.caller call.index call.args call.memories host).2 at hanswer
  unfold callLogger at hanswer
  split at hanswer
  · cases hanswer
  · next logger sink _ =>
    dsimp only at hanswer
    generalize hcalled : Logger.call _ _ logger sink call.caller call.args call.memories = called
      at hanswer
    obtain ⟨more, e' | ⟨⟩⟩ := called <;> cases hanswer
    exact Logger.isDescriptorFault_of_call (congrArg Prod.snd hcalled)

end Linkage

@[simp] theorem Account.outcome_logFailure {ε α : Type} (a : Account ε α) (event : ε → Event) :
    (a.logFailure event).outcome = a.outcome := by
  unfold logFailure
  split <;> simp_all

theorem Wasm.HaveTypes.exists_mapM_toValue? {vs : List Operand} {ts : List ValueType}
    (h : HaveTypes vs (ts.map Wasm.ValType.num)) : ∃ values, vs.mapM Operand.toValue? = some values := by
  induction ts generalizing vs with
  | nil =>
    cases h
    exact ⟨[], rfl⟩
  | cons t ts ih =>
    obtain ⟨v, ws, hv, hws, rfl⟩ := List.forall₂_cons_right_iff.1 h
    obtain ⟨values, hvalues⟩ := ih hws
    obtain ⟨value, hvalue⟩ : ∃ value, v.toValue? = some value := by
      cases hv <;> exact ⟨_, rfl⟩
    exact ⟨value :: values, by simp [hvalue, hvalues]⟩

namespace Instance

variable {i : Instance}

/-- The states in which the guest's steps begin while a request is answered. -/
def statesBy (i : Instance) (r : Request) : List (Store (Array Occurrence) × Thread) :=
  match i.entry? r with
  | some (index, args) => Wasm.Machine.statesOfInvoke i.program i.store index (args.map .ofValue)
  | none => []

/-- Numbers are given back as values. -/
theorem exists_values {s : Signature} {results : List Operand}
    (h : HaveTypes results (Wasm.FuncType.ofSignature s).results) (exported : String) :
    ∃ vs, values exported s results = .ok vs := by
  obtain ⟨vs, hvs⟩ := h.exists_mapM_toValue?
  exact ⟨vs, by rw [values, hvs]⟩

/-- What a run comes to is what the machine's ending says, and traps bear the function's name. -/
theorem outcome_run (i : Instance) (exported : String) (index : Nat) (args : List Value) :
    (i.run exported index args).1.outcome =
      match (Wasm.Machine.invoke i.program i.store index (args.map .ofValue)).1 with
      | .returned results => .ok results
      | .raised e => .error e
      | ending => .error (.trap exported (ending.trapKind?.getD .other) engineText) := by
  obtain ⟨name, module, registry, program, store⟩ := i
  dsimp only [run]
  obtain ⟨ending, s⟩ := Wasm.Machine.invoke program store index (args.map .ofValue)
  cases ending <;> rfl

theorem outcome_run_eq_error_iff {exported : String} {index : Nat} {args : List Value} {e : Fault} :
    (i.run exported index args).1.outcome = .error e ↔
      (Wasm.Machine.invoke i.program i.store index (args.map .ofValue)).1 = .raised e ∨
        ∃ kind, (Wasm.Machine.invoke i.program i.store index (args.map .ofValue)).1.trapKind? =
          some kind ∧ e = .trap exported kind engineText := by
  rw [outcome_run]
  cases (Wasm.Machine.invoke i.program i.store index (args.map .ofValue)).1 <;>
    simp [Ending.trapKind?, eq_comm]

theorem outcome_call {exported : String} {index : Nat} {s : Signature} {args : List Value}
    (h : args.map Value.type = s.params) :
    (i.call exported index s args).1.outcome =
      (i.run exported index args).1.outcome.bind (values exported s) := by
  unfold call
  rw [Signature.checkArgs_eq_ok_iff.2 h]
  simp [Account.outcome_andThen, Except.bind]

/-- What answering a request comes to, if it calls a function: what running the function comes to, with
the results as values. -/
theorem outcome_answer_of_entry? {r : Request} {index : Nat} {args : List Value}
    (h : i.entry? r = some (index, args)) : ∃ exported s, r.exported? = some exported ∧
      args.map Value.type = s.params ∧
      i.program.functions[index]?.map Wasm.Function.type = some (.ofSignature s) ∧
      (i.answer r).2 = (i.run exported index args).2 ∧
      ∃ reply : List Value → Reply, (i.answer r).1.outcome =
        ((i.run exported index args).1.outcome.bind (values exported s)).map reply := by
  revert h
  fun_cases i.entry? r <;> intro h <;> cases h
  case case1 exported s hresolve hs =>
    obtain ⟨hresults, htypes⟩ := hs
    refine ⟨exported, s, rfl, htypes, type_of_resolve hresolve, ?_, fun vs => .value vs.getLast?, ?_⟩
    · rw [answer, invoke_of_resolve hresolve hresults]
      exact snd_call htypes
    · rw [answer, invoke_of_resolve hresolve hresults]
      rw [Account.outcome_map, Account.outcome_map, outcome_call htypes]
      cases (i.run exported index args).1.outcome.bind (values exported s) <;> rfl
  case case4 exported s hresolve htypes =>
    refine ⟨exported, s, rfl, htypes, type_of_resolve hresolve, ?_, .values, ?_⟩
    · rw [answer, invokeMulti_of_resolve hresolve]
      exact snd_call htypes
    · rw [answer, invokeMulti_of_resolve hresolve]
      rw [Account.outcome_map, outcome_call htypes]
  case case7 exported type htyped htypes =>
    refine ⟨exported, type, rfl, htypes, type_of_typed htyped, ?_, .values, ?_⟩
    · rw [answer, invokeTyped, htyped]
    · rw [answer, invokeTyped, htyped]
      simp [Account.outcome_andThen, Except.bind]

/-- A call that is refused before anything runs fails with no descriptor fault. -/
theorem outcome_answer_of_entry?_eq_none {r : Request} {exported : String}
    (hr : r.exported? = some exported) (h : i.entry? r = none) :
    ∃ e, (i.answer r).1.outcome = .error e ∧ e.isDescriptorFault = false := by
  obtain ⟨e, hanswer, hrefused⟩ := refused_of_entry?_eq_none hr h
  refine ⟨e, by rw [hanswer]; rfl, ?_⟩
  cases e <;> first
    | rfl
    | cases hrefused

end Instance
variable {t : ImportTable} {l : Linkage} {m : Wasm.Module} {functions : Array Wasm.FuncType}
  {fuel cap : Option Nat} {i : Instance}

/-- A refused call emits nothing. -/
theorem ImportTable.filterMap_emissionTo?_of_refused {before : List (ImportCall Fault)}
    {call : ImportCall Fault} {e : Fault} (h : call.answer = .error e) (sink : Sink) :
    (before ++ [call]).filterMap (t.emissionTo? l m sink) =
      before.filterMap (t.emissionTo? l m sink) := by
  have hrefused : call.succeeded = false := by rw [Wasm.ImportCall.succeeded, h]; rfl
  have hnone : t.emissionTo? l m sink call = none := by
    unfold emissionTo?
    cases t.logger? m call.index <;> simp [hrefused]
  simp [hnone]

/-- Whatever was emitted was emitted before the refused call. -/
theorem Accounts.emitted_before {calls : List (ImportCall Fault)} {noticed : List Occurrence}
    (h : Accounts t l m calls noticed) {p : Wasm.Program (Array Occurrence) Fault}
    {s after : Store (Array Occurrence)} {states : List (Store (Array Occurrence) × Thread)}
    {call : ImportCall Fault} (hlast : RefusedLast p s states calls call after) {e : Fault}
    (hanswer : call.answer = .error e) (sink : Sink) :
    emissionsTo sink noticed = calls.dropLast.filterMap (t.emissionTo? l m sink) := by
  obtain ⟨before, rfl, -⟩ := hlast.calls
  rw [h.emitted, ImportTable.filterMap_emissionTo?_of_refused hanswer, List.dropLast_concat]

/-- Where the failures of a request come from that names a function to be called. -/
structure Instance.CallFailures (t : ImportTable) (l : Linkage) (m : Wasm.Module) (i : Instance)
    (r : Request) (exported : String) : Prop where
  /-- The descriptor faults are what calls of loggers were refused with. -/
  descriptor (e : Fault) (he : e.isDescriptorFault = true) :
    (i.answer r).1.outcome = .error e ↔ ∃ call ∈ i.callsBy r, call.answer = .error e
  /-- A refused call is the last thing that happens. -/
  last (call : ImportCall Fault) (hcall : call ∈ i.callsBy r) (e : Fault)
    (hanswer : call.answer = .error e) :
    RefusedLast i.program i.store (i.statesBy r) (i.callsBy r) call (i.answer r).2.store ∧
      ∀ sink, emissionsTo sink (i.answer r).1.noticed =
        (i.callsBy r).dropLast.filterMap (t.emissionTo? l m sink)
  /-- The other failures of a call that is made are traps. -/
  trap (index : Nat) (args : List Value) (entry : i.entry? r = some (index, args)) :
    (∀ kind, (i.answer r).1.outcome = .error (.trap exported kind engineText) ↔
        StoppedBy i.program i.store index (i.statesBy r) kind) ∧
      ∀ e, (i.answer r).1.outcome = .error e →
        e.isDescriptorFault = true ∨ ∃ kind, e = .trap exported kind engineText

namespace Linked

/-- A function is called at the type of its signature. -/
theorem typed (h : Linked t l m functions) (hi : Ready l m functions fuel cap i) {s : Signature}
    {index : Nat} {args : List Value} (hargs : args.map Value.type = s.params)
    (hindex : i.program.functions[index]?.map Wasm.Function.type = some (.ofSignature s)) :
    (Wasm.Typing.moduleContext m functions).functions[index]? = some (.ofSignature s) ∧
      HaveTypes (args.map .ofValue) (Wasm.FuncType.ofSignature s).params := by
  have htypes : Wasm.Typing.Types (Wasm.Typing.moduleContext m functions) (l.program m fuel cap) :=
    h.types
  rw [hi.program, htypes.functions] at hindex
  refine ⟨hindex, ?_⟩
  rw [Wasm.FuncType.ofSignature, ← hargs, List.map_map]
  exact HaveTypes.ofValues args

theorem makes_of_mem_callsBy (h : Linked t l m functions) (hi : Ready l m functions fuel cap i)
    {r : Request} {call : ImportCall Fault} (hcall : call ∈ i.callsBy r) :
    (l.program m fuel cap).Makes call := by
  unfold Instance.callsBy at hcall
  cases hentry : i.entry? r with
  | none => simp [hentry] at hcall
  | some entry =>
    obtain ⟨index, args⟩ := entry
    obtain ⟨exported, s, -, hargs, hindex, -⟩ := Instance.outcome_answer_of_entry? hentry
    obtain ⟨hfunction, htyped⟩ := h.typed hi hargs hindex
    rw [hentry, hi.program] at hcall
    exact Wasm.Typing.makes_of_mem_callsOfInvoke h.types hi.suits hfunction htyped hcall

theorem makes_of_mem_callsOfSetup (h : Linked t l m functions) {call : ImportCall Fault}
    (hcall : call ∈ Wasm.Machine.callsOfSetup (l.program m fuel cap) m (m.initialStore l.memories #[])) :
    (l.program m fuel cap).Makes call := by
  have hinitial : (Wasm.Typing.moduleContext m functions).Suits
      (m.initialStore l.memories (#[] : Array Occurrence)) :=
    h.valid.suits (Linkage.importedGlobals_of_provided h.provided) l.memories #[]
  exact (Wasm.Typing.sound_setup h.types hinitial h.valid.start).2 call hcall

/-- The start function of a module is one of its functions. -/
theorem isSome_of_start (h : Linked t l m functions) {f : Nat} (hf : m.start = some f) :
    ((l.program m fuel cap).functions[f]?).isSome := by
  have htypes : Wasm.Typing.Types (Wasm.Typing.moduleContext m functions) (l.program m fuel cap) :=
    h.types
  have htype : (Wasm.Typing.moduleContext m functions).functions[f]? = some ⟨[], []⟩ :=
    h.valid.start f hf
  rw [← htypes.functions] at htype
  cases hfunction : (l.program m fuel cap).functions[f]? with
  | none => simp [hfunction] at htype
  | some function => rfl

/-- Answering requests keeps an instance ready. -/
theorem ready_answers (h : Linked t l m functions) (hi : Ready l m functions fuel cap i)
    (rs : List Request) : Ready l m functions fuel cap (i.answers rs).2 := by
  induction rs generalizing i with
  | nil => exact hi
  | cons r rs ih => exact ih (h.answer hi r).1

theorem makes_of_mem_callsDuring (h : Linked t l m functions) (hi : Ready l m functions fuel cap i)
    {rs : List Request} {call : ImportCall Fault} (hcall : call ∈ i.callsDuring rs) :
    (l.program m fuel cap).Makes call := by
  induction rs generalizing i with
  | nil => cases hcall
  | cons r rs ih =>
    obtain hcall | hcall := List.mem_append.1 hcall
    · exact h.makes_of_mem_callsBy hi hcall
    · exact ih (h.answer hi r).1 hcall

/-- The answer to a request fails as the run behind it does. -/
theorem outcome_answer (h : Linked t l m functions) (hi : Ready l m functions fuel cap i)
    {r : Request} {index : Nat} {args : List Value} (hentry : i.entry? r = some (index, args)) :
    ∃ exported, r.exported? = some exported ∧ (i.program.functions[index]?).isSome ∧
      (i.answer r).2 = (i.run exported index args).2 ∧ ∀ e, (i.answer r).1.outcome = .error e ↔
        (i.run exported index args).1.outcome = .error e := by
  obtain ⟨exported, s, hexported, hargs, hindex, hafter, reply, houtcome⟩ :=
    Instance.outcome_answer_of_entry? hentry
  refine ⟨exported, hexported, ?_, hafter, fun e => ?_⟩
  · cases hfunction : i.program.functions[index]? with
    | none => simp [hfunction] at hindex
    | some function => rfl
  obtain ⟨hfunction, htyped⟩ := h.typed hi hargs hindex
  obtain ⟨-, hresults⟩ := Wasm.Typing.sound_invoke h.types hi.suits hfunction htyped
  rw [houtcome, Instance.outcome_run, hi.program]
  generalize (Wasm.Machine.invoke (l.program m fuel cap) i.store index (args.map .ofValue)).1 = ending
    at hresults
  cases ending with
  | returned results =>
    obtain ⟨vs, hvs⟩ := Instance.exists_values (hresults results rfl) exported
    simp [Except.bind, Except.map, hvs]
  | trapped | raised | stuck | unfinished => simp [Except.bind, Except.map]

theorem callFailures (h : Linked t l m functions) (hi : Ready l m functions fuel cap i)
    {r : Request} {exported : String} (hr : r.exported? = some exported) :
    i.CallFailures t l m r exported := by
  obtain ⟨-, haccounts⟩ := h.answer hi r
  have hbound : ∀ call ∈ i.callsBy r, ∀ e, call.answer = .error e → e.isDescriptorFault = true :=
    fun call hcall e => Linkage.isDescriptorFault_of_makes (h.makes_of_mem_callsBy hi hcall)
  cases hentry : i.entry? r with
  | none =>
    obtain ⟨e, houtcome, he⟩ := Instance.outcome_answer_of_entry?_eq_none hr hentry
    have hcalls : i.callsBy r = [] := by simp [Instance.callsBy, hentry]
    refine ⟨fun e' he' => ?_, by simp [hcalls], fun index args h => by simp [hentry] at h⟩
    rw [houtcome, hcalls]
    refine iff_of_false (fun hsame => ?_) (by simp)
    cases hsame
    rw [he] at he'
    cases he'
  | some entry =>
    obtain ⟨index, args⟩ := entry
    obtain ⟨exported', hexported, hfunction, hafter, houtcome⟩ := h.outcome_answer hi hentry
    cases hr.symm.trans hexported
    obtain ⟨hraised, hlast⟩ := Wasm.Machine.refusedLast_invoke i.program i.store index (args.map .ofValue)
    have hcalls : i.callsBy r =
        Wasm.Machine.callsOfInvoke i.program i.store index (args.map .ofValue) := by
      simp [Instance.callsBy, hentry]
    have hstates : i.statesBy r =
        Wasm.Machine.statesOfInvoke i.program i.store index (args.map .ofValue) := by
      simp [Instance.statesBy, hentry]
    refine ⟨fun e he => ?_, fun call hcall e hanswer => ?_, fun index' args' hsame => ?_⟩
    · rw [houtcome, Instance.outcome_run_eq_error_iff, hraised, hcalls]
      refine or_iff_left ?_
      rintro ⟨kind, -, rfl⟩
      cases he
    · have hrefused : RefusedLast i.program i.store (i.statesBy r) (i.callsBy r) call
          (i.answer r).2.store := by
        rw [hafter, (i.run_eq exported index args).2, hcalls, hstates]
        exact (hlast call (hcalls ▸ hcall) e hanswer).withHost #[]
      exact ⟨hrefused, haccounts.emitted_before hrefused hanswer⟩
    · cases hentry.symm.trans hsame
      have hstopped := Wasm.Machine.trapKind?_invoke_eq_some_iff (p := i.program) (s := i.store)
        (f := index) hfunction (args.map .ofValue)
      refine ⟨fun kind => ?_, fun e he => ?_⟩
      · rw [houtcome, Instance.outcome_run_eq_error_iff, hraised, hstates, ← hstopped, ← hcalls]
        constructor
        · rintro (⟨call, hcall, hanswer⟩ | ⟨kind', hkind, heq⟩)
          · cases hbound call hcall _ hanswer
          · cases heq
            exact hkind
        · exact fun hkind => .inr ⟨kind, hkind, rfl⟩
      · rw [houtcome, Instance.outcome_run_eq_error_iff, hraised, ← hcalls] at he
        obtain ⟨call, hcall, hanswer⟩ | ⟨kind, -, rfl⟩ := he
        · exact .inl (hbound call hcall e hanswer)
        · exact .inr ⟨kind, rfl⟩

end Linked
namespace Loader

/-- The program that a module makes with what a table is linked to. -/
def program (l : Loader) (c : Compiled) (t : ImportTable) : Wasm.Program (Array Occurrence) Fault :=
  (l.linkage t).program c.module l.fuel l.cap

/-- The store before the module's segments are copied. -/
def initialStore (l : Loader) (c : Compiled) (t : ImportTable) : Store (Array Occurrence) :=
  c.module.initialStore (l.linkage t).memories #[]

/-- Where the failures of making an instance come from. -/
structure StartFailures (l : Loader) (c : Compiled) (t : ImportTable) : Prop where
  /-- The descriptor faults are what calls of loggers were refused with. -/
  descriptor (e : Fault) (he : e.isDescriptorFault = true) :
    (l.instantiate c t).outcome = .error (.fault e) ↔
      ∃ call ∈ l.callsOfInstantiate c t, call.answer = .error e
  /-- A refused call is the last thing that happens. -/
  last (call : ImportCall Fault) (hcall : call ∈ l.callsOfInstantiate c t) (e : Fault)
    (hanswer : call.answer = .error e) :
    (∃ s, Wasm.Machine.copied (l.program c t) c.module (l.initialStore c t) = .ok s ∧
        RefusedLast (l.program c t) s
          (Wasm.Machine.statesOfSetup (l.program c t) c.module (l.initialStore c t))
          (l.callsOfInstantiate c t) call
          (Wasm.Machine.setup (l.program c t) c.module (l.initialStore c t)).1) ∧
      ∀ sink, emissionsTo sink (l.instantiate c t).noticed =
        (l.callsOfInstantiate c t).dropLast.filterMap (t.emissionTo? (l.linkage t) c.module sink)
  /-- All else that keeps a module from starting is a failure of instantiation. -/
  instantiation (starts : l.starts c t = true) :
    ((l.instantiate c t).outcome = .error (.fault (.instantiation c.name engineText)) ↔
        Wasm.Machine.Unready (l.program c t) c.module (l.initialStore c t)) ∧
      ∀ e, (l.instantiate c t).outcome = .error e → e = .fault (.instantiation c.name engineText) ∨
        ∃ f, e = .fault f ∧ f.isDescriptorFault = true

variable {l : Loader} {c : Compiled} {t : ImportTable} {functions : Array Wasm.FuncType}

theorem start_eq_error_iff (e : Fault) :
    ((l.linkage t).start c.module c.name l.fuel l.cap).outcome = .error e ↔
      (Wasm.Machine.setup (l.program c t) c.module (l.initialStore c t)).2 = .error (.raised e) ∨
        e = .instantiation c.name engineText ∧
          ∃ e', (Wasm.Machine.setup (l.program c t) c.module (l.initialStore c t)).2 = .error e' ∧
            ∀ f, e' ≠ .raised f := by
  unfold Linkage.start program initialStore
  dsimp only
  obtain ⟨s, e' | ⟨⟩⟩ := Wasm.Machine.setup ((l.linkage t).program c.module l.fuel l.cap) c.module
    (c.module.initialStore (l.linkage t).memories #[])
  · cases e' <;> simp [eq_comm]
  · simp

/-- A module that does not start fails with no descriptor fault. -/
theorem isDescriptorFault_of_not_starts (h : l.starts c t = false) {e : Fault}
    (he : (l.instantiate c t).outcome = .error (.fault e)) : e.isDescriptorFault = false := by
  obtain ⟨cause, -, houtcome, -⟩ | ⟨err, -, hlink, houtcome, -⟩ | ⟨-, -, hstarts⟩ :=
    instantiate_cases l c t
  · cases houtcome.symm.trans he
    rfl
  · cases houtcome.symm.trans he
    obtain ⟨pages, hpages⟩ | ⟨module, name, cause, hfault⟩ := ImportTable.isLinking_of_link hlink
    · cases hpages
    · cases hfault
      rfl
  · rw [h] at hstarts
    cases hstarts

/-- The calls of a module that starts are those of making it ready. -/
theorem callsOfInstantiate_of_starts (h : l.starts c t = true) :
    l.callsOfInstantiate c t =
      Wasm.Machine.callsOfSetup (l.program c t) c.module (l.initialStore c t) := by
  simp [callsOfInstantiate, h, program, initialStore]

/-- What the start function's calls are refused with are descriptor faults. -/
theorem isDescriptorFault_of_mem_callsOfInstantiate (hstarts : l.starts c t = true)
    (valid : Wasm.Typing.Valid c.module functions) {call : ImportCall Fault}
    (hcall : call ∈ l.callsOfInstantiate c t) {e : Fault} (h : call.answer = .error e) :
    e.isDescriptorFault = true := by
  rw [callsOfInstantiate_of_starts hstarts] at hcall
  have hmade := (linked_of_starts hstarts valid).makes_of_mem_callsOfSetup hcall
  exact Linkage.isDescriptorFault_of_makes hmade h

/-- A module that starts fails with what the engine fails with. -/
theorem instantiate_eq_fault_iff (h : l.starts c t = true) (e : Fault) :
    (l.instantiate c t).outcome = .error (.fault e) ↔
      ((l.linkage t).start c.module c.name l.fuel l.cap).outcome = .error e := by
  rw [outcome_of_starts h]
  cases ((l.linkage t).start c.module c.name l.fuel l.cap).outcome <;> simp [Except.mapError]

theorem exists_fault_of_starts (h : l.starts c t = true) {err : LoadError}
    (herr : (l.instantiate c t).outcome = .error err) : ∃ e, err = .fault e := by
  rw [outcome_of_starts h] at herr
  cases hstart : ((l.linkage t).start c.module c.name l.fuel l.cap).outcome with
  | error e =>
    rw [hstart] at herr
    cases herr
    exact ⟨e, rfl⟩
  | ok i =>
    rw [hstart] at herr
    cases herr

theorem startFailures (l : Loader) (t : ImportTable)
    (valid : Wasm.Typing.Valid c.module functions) : l.StartFailures c t := by
  obtain ⟨-, haccounts⟩ := Session.accounts_callsOfInstantiate (h := ⟨0, c⟩) t l valid
  cases hstarts : l.starts c t with
  | false =>
    have hcalls : l.callsOfInstantiate c t = [] := by simp [callsOfInstantiate, hstarts]
    refine ⟨fun e he => ?_, by simp [hcalls], fun hs => by rw [hstarts] at hs; cases hs⟩
    rw [hcalls]
    refine iff_of_false (fun houtcome => ?_) (by simp)
    rw [isDescriptorFault_of_not_starts hstarts houtcome] at he
    cases he
  | true =>
    have hcalls := callsOfInstantiate_of_starts hstarts
    have hbound (call : ImportCall Fault) (hcall : call ∈ l.callsOfInstantiate c t) (e : Fault)
        (hanswer : call.answer = .error e) : e.isDescriptorFault = true :=
      isDescriptorFault_of_mem_callsOfInstantiate hstarts valid hcall hanswer
    have houtcome := instantiate_eq_fault_iff hstarts
    obtain ⟨hraised, hlast⟩ := Wasm.Machine.refusedLast_setup (l.program c t)
      c.module (l.initialStore c t)
    have hfails := Wasm.Machine.setup_fails_iff (p := l.program c t) (s := l.initialStore c t)
      fun f hf => (linked_of_starts hstarts valid).isSome_of_start hf
    refine ⟨fun e he => ?_, fun call hcall e hanswer => ?_, fun _ => ⟨?_, fun e he => ?_⟩⟩
    · rw [houtcome, start_eq_error_iff, hraised, hcalls]
      refine or_iff_left ?_
      rintro ⟨rfl, -⟩
      cases he
    · obtain ⟨s, hcopied, hrefused⟩ := hlast call (hcalls ▸ hcall) e hanswer
      rw [← hcalls] at hrefused
      exact ⟨⟨s, hcopied, hrefused⟩, haccounts.emitted_before hrefused hanswer⟩
    · rw [houtcome, start_eq_error_iff, hraised, ← hcalls, hfails]
      refine ⟨fun h => ?_, fun hunready => .inr ⟨rfl, hunready⟩⟩
      obtain ⟨call, hcall, hanswer⟩ | ⟨-, hunready⟩ := h
      · cases hbound call hcall _ hanswer
      · exact hunready
    · obtain ⟨e, rfl⟩ := exists_fault_of_starts hstarts he
      rw [houtcome, start_eq_error_iff, hraised, ← hcalls] at he
      obtain ⟨call, hcall, hanswer⟩ | ⟨rfl, -⟩ := he
      · exact .inr ⟨e, rfl, hbound call hcall e hanswer⟩
      · exact .inl rfl

end Loader

/-- A guest that has a byte logged just beyond its memory, and would trap if it went on. -/
def boundsGuest : Wasm.Module where
  types := #[⟨[.num .i32, .num .i32], []⟩, ⟨[], []⟩]
  imports := [⟨memoryModule, memoryName, .memory ⟨⟨1, none⟩, false⟩⟩,
    ⟨consoleModule, logFunction, .func 0⟩]
  functions := [1]
  exports := [⟨"main", .func, 1⟩]
  codes := [⟨[], [.literal (.i32 65536), .literal (.i32 1), .call 0, .unreachable]⟩]

end GuestHarness
