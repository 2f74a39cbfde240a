import GuestHarness.Proofs.Session.Request
import GuestHarness.Proofs.Import.Agreement
import GuestHarness.Proofs.Wasm.TypedCalls

/-! The calls of imported functions while an instance answers requests, and that the accounts of its
answers hold what these calls left there. -/
namespace GuestHarness
open Wasm (Operand Program Store FuncType Function ImportCall HaveTypes)

/-- The function that a request names to be called. -/
def Request.exported? : Request → Option String
  | .invoke exported _ | .invokeMulti exported _ | .invokeTyped exported _ _ _ => some exported
  | _ => none

/-- The export that the failure says cannot be called so. -/
def Fault.refused? : Fault → Option String
  | notFound exported | arityOrType exported _ _ => some exported
  | _ => none

namespace Instance

variable (i : Instance)

/-- The function that a request calls, with the arguments, unless the request is refused before. -/
def entry? : Request → Option (Nat × List Value)
  | .invoke exported args =>
    match i.resolve exported with
    | .ok (index, s) =>
      if s.results.length ≤ 1 ∧ args.map Value.type = s.params then some (index, args) else none
    | .error _ => none
  | .invokeMulti exported args =>
    match i.resolve exported with
    | .ok (index, s) => if args.map Value.type = s.params then some (index, args) else none
    | .error _ => none
  | .invokeTyped exported type args _ =>
    match i.typed exported type with
    | .ok index => some (index, args)
    | .error _ => none
  | _ => none

/-- The calls of imported functions that answering a request comes to. -/
def callsBy (r : Request) : List (ImportCall Fault) :=
  match i.entry? r with
  | some (index, args) => Wasm.Machine.callsOfInvoke i.program i.store index (args.map .ofValue)
  | none => []

/-- The calls of imported functions while requests are answered one after the other. -/
def callsDuring (i : Instance) : List Request → List (ImportCall Fault)
  | [] => []
  | r :: rs => i.callsBy r ++ callsDuring (i.answer r).2 rs

variable {i}

theorem exists_of_function? {exported : String} {index : Nat} {type : FuncType}
    (h : i.function? exported = some (index, type)) :
    i.program.functions[index]?.map Function.type = some type := by
  simp only [function?, Option.bind_eq_bind, Option.bind_eq_some_iff, Option.pure_def,
    Option.some.injEq, Prod.mk.injEq] at h
  obtain ⟨_, -, f, hf, rfl, rfl⟩ := h
  rw [hf, Option.map_some]

/-- A function that is resolved has the type of its signature. -/
theorem type_of_resolve {exported : String} {index : Nat} {s : Signature}
    (h : i.resolve exported = .ok (index, s)) :
    i.program.functions[index]?.map Function.type = some (.ofSignature s) := by
  unfold resolve at h
  split at h
  · cases h
  · next index' type hfunction =>
    split at h
    · next s' hs =>
      cases h
      rw [exists_of_function? hfunction, Wasm.FuncType.signature?_eq_some_iff.1 hs]
    · cases h

theorem type_of_typed {exported : String} {index : Nat} {s : Signature}
    (h : i.typed exported s = .ok index) :
    i.program.functions[index]?.map Function.type = some (.ofSignature s) := by
  unfold typed typedAs at h
  split at h
  · cases h
  · next index' type hfunction =>
    split at h
    · cases h
    · next hparams =>
      split at h
      · cases h
      · next hresults =>
        cases h
        obtain ⟨params, results⟩ := type
        obtain rfl : params = (FuncType.ofSignature s).params := not_not.1 hparams
        obtain rfl : results = (FuncType.ofSignature s).results := not_not.1 hresults
        exact exists_of_function? hfunction

/-- The answer comes from running a function with arguments of its types, and what goes to sinks is
what the run sends there. -/
structure Enters (i : Instance) (answered : Account Fault Reply × Instance) (index : Nat)
    (args : List Value) : Prop where
  type : ∃ s : Signature, args.map Value.type = s.params ∧
    i.program.functions[index]?.map Function.type = some (.ofSignature s)
  run : ∃ exported, answered.2 = (i.run exported index args).2 ∧ ∀ sink,
    emissionsTo sink answered.1.noticed = emissionsTo sink (i.run exported index args).1.noticed

theorem snd_call {exported : String} {index : Nat} {s : Signature} {args : List Value}
    (h : args.map Value.type = s.params) :
    (i.call exported index s args).2 = (i.run exported index args).2 := by
  unfold call
  rw [Signature.checkArgs_eq_ok_iff.2 h]

theorem emissionsTo_call {exported : String} {index : Nat} {s : Signature} {args : List Value}
    (h : args.map Value.type = s.params) (sink : Sink) :
    emissionsTo sink (i.call exported index s args).1.noticed =
      emissionsTo sink (i.run exported index args).1.noticed := by
  unfold call
  rw [Signature.checkArgs_eq_ok_iff.2 h]
  simp only [Account.bind_eq_andThen, Account.emissionsTo_log_andThen]
  rw [Account.emissionsTo_andThen_of_silent (fun _ => rfl), Account.emissionsTo_logFailure]

theorem call_of_types_ne (i : Instance) (exported : String) (index : Nat) {s : Signature}
    {args : List Value} (h : args.map Value.type ≠ s.params) :
    i.call exported index s args = (.fail (.arityOrType exported (Signature.typesText s.params)
      (Signature.typesText (args.map Value.type))), i) := by
  unfold call Signature.checkArgs
  rw [if_neg h]

theorem invoke_of_resolve {exported : String} {index : Nat} {s : Signature} {args : List Value}
    (h : i.resolve exported = .ok (index, s)) (hs : s.results.length ≤ 1) :
    i.invoke exported args =
      (List.getLast? <$> (i.call exported index s args).1, (i.call exported index s args).2) := by
  rw [invoke, h]
  exact if_neg (by omega)

theorem invoke_of_results {exported : String} {index : Nat} {s : Signature} (args : List Value)
    (h : i.resolve exported = .ok (index, s)) (hs : 1 < s.results.length) :
    i.invoke exported args = (.fail (.arityOrType exported "at most one result" s.text), i) := by
  rw [invoke, h]
  exact if_pos hs

theorem invokeMulti_of_resolve {exported : String} {index : Nat} {s : Signature} {args : List Value}
    (h : i.resolve exported = .ok (index, s)) :
    i.invokeMulti exported args = i.call exported index s args := by
  rw [invokeMulti, h]

theorem enters_invoke {exported : String} {index : Nat} {s : Signature} {args : List Value}
    (h : i.resolve exported = .ok (index, s)) (hs : s.results.length ≤ 1)
    (htypes : args.map Value.type = s.params) :
    i.entry? (.invoke exported args) = some (index, args) := by
  simp only [ entry?, h]
  exact if_pos ⟨hs, htypes⟩

theorem enters_invokeMulti {exported : String} {index : Nat} {s : Signature} {args : List Value}
    (h : i.resolve exported = .ok (index, s)) (htypes : args.map Value.type = s.params) :
    i.entry? (.invokeMulti exported args) = some (index, args) := by
  simp only [ entry?, h]
  exact if_pos htypes

theorem enters_invokeTyped {exported : String} {index : Nat} {s : Signature} {args : List Value}
    (h : i.typed exported s = .ok index) (htypes : args.map Value.type = s.params) :
    i.entry? (.invokeTyped exported s args htypes) = some (index, args) := by
  simp only [ entry?, h]

/-- A request that is not refused is answered by running a function. -/
theorem enters_of_entry? {r : Request} {index : Nat} {args : List Value}
    (h : i.entry? r = some (index, args)) : i.Enters (i.answer r) index args := by
  revert h
  fun_cases i.entry? r <;> intro h <;> cases h
  case case1 exported s hresolve hs =>
    obtain ⟨hresults, htypes⟩ := hs
    refine ⟨⟨s, htypes, type_of_resolve hresolve⟩, exported, ?_, fun sink => ?_⟩
    · rw [answer, invoke_of_resolve hresolve hresults]
      exact snd_call htypes
    · rw [answer, invoke_of_resolve hresolve hresults, Account.noticed_map, Account.noticed_map]
      exact emissionsTo_call htypes sink
  case case4 exported s hresolve htypes =>
    refine ⟨⟨s, htypes, type_of_resolve hresolve⟩, exported, ?_, fun sink => ?_⟩
    · rw [answer, invokeMulti_of_resolve hresolve]
      exact snd_call htypes
    · rw [answer, invokeMulti_of_resolve hresolve, Account.noticed_map]
      exact emissionsTo_call htypes sink
  case case7 exported type htyped htypes =>
    refine ⟨⟨type, htypes, type_of_typed htyped⟩, exported, ?_, fun sink => ?_⟩
    · rw [answer, invokeTyped, htyped]
    · rw [answer, invokeTyped, htyped, Account.noticed_map]
      simp only [Account.bind_eq_andThen, Account.emissionsTo_log_andThen]
      rw [Account.emissionsTo_andThen_of_silent (fun _ => rfl)]

theorem refused?_of_resolve {exported : String} {e : Fault} (h : i.resolve exported = .error e) :
    e.refused? = some exported := by
  unfold resolve at h
  split at h
  · cases h
    rfl
  · split at h <;> cases h
    rfl

theorem refused?_of_typed {exported : String} {type : Signature} {e : Fault}
    (h : i.typed exported type = .error e) : e.refused? = some exported := by
  unfold typed typedAs at h
  split at h
  · cases h
    rfl
  · split at h
    · cases h
      rfl
    · split at h <;> cases h
      rfl

/-- A call that runs nothing is refused, and its refusal is all that it comes to. -/
theorem refused_of_entry?_eq_none {r : Request} {exported : String}
    (hr : r.exported? = some exported) (h : i.entry? r = none) :
    ∃ e, i.answer r = (.fail e, i) ∧ e.refused? = some exported := by
  revert h
  fun_cases i.entry? r <;> intro h <;> cases h
  case case2 called args index s hresolve hs =>
    cases hr
    by_cases hresults : s.results.length ≤ 1
    · rw [answer, invoke_of_resolve hresolve hresults,
        call_of_types_ne i exported index fun htypes => hs ⟨hresults, htypes⟩]
      exact ⟨_, rfl, rfl⟩
    · rw [answer, invoke_of_results args hresolve (Nat.lt_of_not_le hresults)]
      exact ⟨_, rfl, rfl⟩
  case case3 hresolve =>
    cases hr
    rw [answer, invoke, hresolve]
    exact ⟨_, rfl, refused?_of_resolve hresolve⟩
  case case5 called args index s hresolve hs =>
    cases hr
    rw [answer, invokeMulti_of_resolve hresolve, call_of_types_ne i exported index hs]
    exact ⟨_, rfl, rfl⟩
  case case6 hresolve =>
    cases hr
    rw [answer, invokeMulti, hresolve]
    exact ⟨_, rfl, refused?_of_resolve hresolve⟩
  case case8 htyped =>
    cases hr
    rw [answer, invokeTyped, htyped]
    exact ⟨_, rfl, refused?_of_typed htyped⟩
  case case9 hinvoke hmulti htyped =>
    cases r with
    | invoke exported args => exact absurd rfl (hinvoke exported args)
    | invokeMulti exported args => exact absurd rfl (hmulti exported args)
    | invokeTyped exported type args typed => exact absurd rfl (htyped exported type args typed)
    | readMemory | signature | exports | fuel => cases hr

/-- A request that calls nothing leaves the instance as it was and goes unnoticed. -/
theorem unnoticed_of_entry?_eq_none {r : Request} (h : i.entry? r = none) :
    (i.answer r).2 = i ∧ (i.answer r).1.noticed = [] := by
  cases hr : r.exported? with
  | some exported =>
    obtain ⟨e, hanswer, -⟩ := refused_of_entry?_eq_none hr h
    rw [hanswer]
    exact ⟨rfl, rfl⟩
  | none =>
    cases r with
    | invoke | invokeMulti | invokeTyped => cases hr
    | readMemory | signature | exports | fuel => exact ⟨rfl, by simp [answer]⟩

/-- Hence it emits nothing. -/
theorem answer_of_entry?_eq_none {r : Request} (h : i.entry? r = none) :
    (i.answer r).2 = i ∧ ∀ sink, emissionsTo sink (i.answer r).1.noticed = [] := by
  obtain ⟨hsame, hnoticed⟩ := unnoticed_of_entry?_eq_none h
  exact ⟨hsame, fun sink => by rw [hnoticed, emissionsTo_nil]⟩

end Instance
end GuestHarness
