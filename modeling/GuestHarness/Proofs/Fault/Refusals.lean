import GuestHarness.Proofs.Fault.Provenance
import GuestHarness.Proofs.Loading.Memories
import GuestHarness.Proofs.Wasm.Exports

/-! Calls that are refused. A call is refused for what its function and its arguments are, before the guest
takes a step, and then nothing is changed; a call that the guest has begun never fails in this way. -/
namespace GuestHarness
open Wasm (FuncType Function HaveTypes Operand)

theorem Fault.refused?_of_isDescriptorFault {e : Fault} (h : e.isDescriptorFault = true) :
    e.refused? = none := by
  cases e <;> first
    | rfl
    | cases h

/-- A call that asks for one result at most, or for all results. -/
def Request.calling (single : Bool) (exported : String) (args : List Value) : Request :=
  if single then .invoke exported args else .invokeMulti exported args

namespace Wasm.FuncType

/-- All parameters and results are numbers. -/
def IsNumeric (type : FuncType) : Prop := ∀ t ∈ type.params ++ type.results, ∃ n, t = .num n

/-- Why a function of the type is not called with the arguments. -/
inductive Misfits (type : FuncType) (single : Bool) (args : List Value) : Prop where
  | exchange (h : ¬ type.IsNumeric)
  | results (asked : single = true) (h : 1 < type.results.length)
  | params (h : args.map (fun v => ValType.num v.type) ≠ type.params)

theorem exists_map_num {ts : List ValType} (h : ∀ t ∈ ts, ∃ n, t = .num n) :
    ∃ ns : List ValueType, ts = ns.map .num := by
  induction ts with
  | nil => exact ⟨[], rfl⟩
  | cons t ts ih =>
    obtain ⟨n, rfl⟩ := h t List.mem_cons_self
    obtain ⟨ns, rfl⟩ := ih fun t' ht' => h t' (List.mem_cons_of_mem _ ht')
    exact ⟨n :: ns, rfl⟩

theorem isNumeric_iff {type : FuncType} : type.IsNumeric ↔ ∃ s, type = .ofSignature s := by
  constructor
  · intro h
    obtain ⟨params, hparams⟩ := exists_map_num fun t ht => h t (List.mem_append_left _ ht)
    obtain ⟨results, hresults⟩ := exists_map_num fun t ht => h t (List.mem_append_right _ ht)
    obtain ⟨_, _⟩ := type
    cases hparams
    cases hresults
    exact ⟨⟨params, results⟩, rfl⟩
  · rintro ⟨s, rfl⟩ t ht
    rw [ofSignature, ← List.map_append] at ht
    obtain ⟨n, -, rfl⟩ := List.mem_map.1 ht
    exact ⟨n, rfl⟩

theorem signature?_eq_none_iff {type : FuncType} : type.signature? = none ↔ ¬ type.IsNumeric := by
  rw [isNumeric_iff, Option.eq_none_iff_forall_ne_some, not_exists]
  exact forall_congr' fun s => not_congr signature?_eq_some_iff

theorem map_num_eq_iff {s : Signature} {args : List Value} :
    args.map (fun v => ValType.num v.type) = (ofSignature s).params ↔
      args.map Value.type = s.params := by
  have hinj : Function.Injective ValType.num := fun _ _ h => ValType.num.inj h
  have hmap : args.map (fun v => ValType.num v.type) = (args.map Value.type).map .num := by
    rw [List.map_map]
    rfl
  rw [hmap, ofSignature]
  exact (List.map_injective_iff.2 hinj).eq_iff

/-- What a numeric function that suits the call is known for. -/
theorem exists_of_not_misfits {type : FuncType} {single : Bool} {args : List Value}
    (h : ¬ type.Misfits single args) :
    ∃ s, type = .ofSignature s ∧ (single = true → s.results.length ≤ 1) ∧
      args.map Value.type = s.params := by
  have hnumeric : type.IsNumeric := not_not.1 fun hn => h (.exchange hn)
  obtain ⟨s, rfl⟩ := isNumeric_iff.1 hnumeric
  refine ⟨s, rfl, fun hsingle => ?_, ?_⟩
  · have hresults := Nat.le_of_not_lt fun hlt => h (.results hsingle hlt)
    rwa [ofSignature, List.length_map] at hresults
  · exact map_num_eq_iff.1 (not_not.1 fun hn => h (.params hn))

end Wasm.FuncType

namespace Instance

variable {i : Instance} {single : Bool} {exported : String} {args : List Value}

/-- Calls of the instance are refused for the right reasons only, and before anything happens. -/
structure ChecksCalls (m : Wasm.Module) (i : Instance) : Prop where
  notFound (single : Bool) (exported : String) (args : List Value) :
    (i.answer (.calling single exported args)).1.outcome = .error (.notFound exported) ↔
      ∀ type, ¬ m.ExportsFunction exported type
  arityOrType (single : Bool) (exported : String) (args : List Value) :
    (∃ expected actual, (i.answer (.calling single exported args)).1.outcome =
        .error (.arityOrType exported expected actual)) ↔
      ∃ type, m.ExportsFunction exported type ∧ type.Misfits single args
  /-- A refusal names the export that was to be called. -/
  names (single : Bool) (exported : String) (args : List Value) (e : Fault)
    (failed : (i.answer (.calling single exported args)).1.outcome = .error e) :
    ∀ name ∈ e.refused?, name = exported
  /-- Whatever the request, a refusal is all that it comes to. -/
  refused (r : Request) (e : Fault) (failed : (i.answer r).1.outcome = .error e)
    (refusal : e.refused?.isSome) :
    i.answer r = (.fail e, i) ∧ i.entry? r = none ∧ i.statesBy r = [] ∧ i.callsBy r = []
  /-- What a function gives that was called as its type says can be given back. -/
  values (exported : String) (index : Nat) (s : Signature) (args : List Value)
    (function : i.program.functions[index]?.map Function.type = some (.ofSignature s))
    (typed : args.map Value.type = s.params) (results : List Operand)
    (returned : (i.run exported index args).1.outcome = .ok results) :
    ∃ vs, Instance.values exported s results = .ok vs ∧ vs.map Value.type = s.results

/-- A request that calls nothing and fails comes to its failure and nothing else. -/
theorem answer_eq_fail {r : Request} {e : Fault} (h : i.entry? r = none)
    (he : (i.answer r).1.outcome = .error e) : i.answer r = (.fail e, i) := by
  obtain ⟨hsame, hsilent⟩ := unnoticed_of_entry?_eq_none h
  generalize i.answer r = answered at *
  obtain ⟨⟨noticed, outcome⟩, after⟩ := answered
  cases hsame
  cases hsilent
  cases he
  rfl

theorem resolve_of_function? {index : Nat} {s : Signature}
    (h : i.function? exported = some (index, .ofSignature s)) :
    i.resolve exported = .ok (index, s) := by
  rw [resolve, h]
  simp only [Wasm.FuncType.signature?_ofSignature]

theorem answer_calling_of_error {e : Fault} (h : i.resolve exported = .error e) :
    i.answer (.calling single exported args) = (.fail e, i) := by
  cases single with
  | true =>
    rw [Request.calling, if_pos rfl, answer, invoke, h]
    rfl
  | false =>
    rw [Request.calling, if_neg Bool.false_ne_true, answer, invokeMulti, h]
    rfl

theorem resolve_of_none (h : i.function? exported = none) :
    i.resolve exported = .error (.notFound exported) := by
  rw [resolve, h]

/-- A call at a name under which there is no function. -/
theorem answer_calling_of_none (h : i.function? exported = none) :
    i.answer (.calling single exported args) = (.fail (.notFound exported), i) :=
  answer_calling_of_error (resolve_of_none h)

theorem resolve_of_not_numeric {index : Nat} {type : FuncType}
    (h : i.function? exported = some (index, type)) (hnumeric : ¬ type.IsNumeric) :
    i.resolve exported =
      .error (.arityOrType exported "numeric parameters and results" functionTypeText) := by
  rw [resolve, h]
  simp only [Wasm.FuncType.signature?_eq_none_iff.2 hnumeric]

/-- A call of a function that does not exchange numbers only. -/
theorem answer_calling_of_not_numeric {index : Nat} {type : FuncType}
    (h : i.function? exported = some (index, type)) (hnumeric : ¬ type.IsNumeric) :
    i.answer (.calling single exported args) =
      (.fail (.arityOrType exported "numeric parameters and results" functionTypeText), i) :=
  answer_calling_of_error (resolve_of_not_numeric h hnumeric)

/-- A call for one result of a function that has more. -/
theorem answer_invoke_of_results {index : Nat} {s : Signature}
    (h : i.resolve exported = .ok (index, s)) (hresults : 1 < s.results.length) :
    i.answer (.invoke exported args) =
      (.fail (.arityOrType exported "at most one result" s.text), i) := by
  rw [answer, invoke_of_results args h hresults]
  rfl

/-- A call with arguments of other types. -/
theorem answer_calling_of_types_ne {index : Nat} {s : Signature}
    (h : i.resolve exported = .ok (index, s)) (hresults : single = true → s.results.length ≤ 1)
    (htypes : args.map Value.type ≠ s.params) :
    i.answer (.calling single exported args) =
      (.fail (.arityOrType exported (Signature.typesText s.params)
        (Signature.typesText (args.map Value.type))), i) := by
  have hcall := call_of_types_ne i exported index htypes
  cases single with
  | true =>
    rw [Request.calling, if_pos rfl, answer, invoke_of_resolve h (hresults rfl), hcall]
    rfl
  | false =>
    rw [Request.calling, if_neg Bool.false_ne_true, answer, invokeMulti_of_resolve h, hcall]
    rfl

/-- A call that its function does not suit. -/
theorem answer_calling_of_misfits {index : Nat} {type : FuncType}
    (h : i.function? exported = some (index, type)) (hmisfits : type.Misfits single args) :
    ∃ expected actual, i.answer (.calling single exported args) =
      (.fail (.arityOrType exported expected actual), i) := by
  by_cases hnumeric : type.IsNumeric
  · obtain ⟨s, rfl⟩ := Wasm.FuncType.isNumeric_iff.1 hnumeric
    have hresolve := resolve_of_function? h
    by_cases hresults : single = true → s.results.length ≤ 1
    · have htypes : args.map Value.type ≠ s.params := by
        cases hmisfits with
        | exchange hnot => exact absurd hnumeric hnot
        | results asked hlt =>
          rw [Wasm.FuncType.ofSignature, List.length_map] at hlt
          exact absurd hlt (Nat.not_lt_of_le (hresults asked))
        | params hne => exact fun heq => hne (Wasm.FuncType.map_num_eq_iff.2 heq)
      exact ⟨_, _, answer_calling_of_types_ne hresolve hresults htypes⟩
    · obtain ⟨rfl, hlt⟩ := Classical.not_imp.1 hresults
      exact ⟨_, _, answer_invoke_of_results hresolve (Nat.lt_of_not_le hlt)⟩
  · exact ⟨_, _, answer_calling_of_not_numeric h hnumeric⟩

/-- All other calls are made. -/
theorem entry?_calling {index : Nat} {type : FuncType}
    (h : i.function? exported = some (index, type)) (hmisfits : ¬ type.Misfits single args) :
    i.entry? (.calling single exported args) = some (index, args) := by
  obtain ⟨s, rfl, hresults, htypes⟩ := Wasm.FuncType.exists_of_not_misfits hmisfits
  have hresolve := resolve_of_function? h
  cases single with
  | true =>
    rw [Request.calling, if_pos rfl]
    exact enters_invoke hresolve (hresults rfl) htypes
  | false =>
    rw [Request.calling, if_neg Bool.false_ne_true]
    exact enters_invokeMulti hresolve htypes

theorem function?_eq_some_iff {index : Nat} {type : FuncType} :
    i.function? exported = some (index, type) ↔ i.module.export? .func exported = some index ∧
      i.program.functions[index]?.map Function.type = some type := by
  simp only [function?, Option.bind_eq_bind, Option.bind_eq_some_iff, Option.pure_def,
    Option.some.injEq, Prod.mk.injEq, Option.map_eq_some_iff]
  constructor
  · rintro ⟨_, hindex, f, hf, rfl, rfl⟩
    exact ⟨hindex, f, hf, rfl⟩
  · rintro ⟨hindex, f, hf, rfl⟩
    exact ⟨index, hindex, f, hf, rfl, rfl⟩

theorem module_answers (i : Instance) (rs : List Request) : (i.answers rs).2.module = i.module := by
  induction rs generalizing i with
  | nil => rfl
  | cons r rs ih =>
    have hrest := ih (i.answer r).2
    rw [i.answer_eq r] at hrest
    exact (congrArg (fun i : Instance => (i.answers rs).2.module) (i.answer_eq r)).trans hrest

end Instance

/-- The values of numbers have the numbers' types. -/
theorem Wasm.HaveTypes.map_type_of_mapM {vs : List Operand} {ts : List ValueType} {values : List Value}
    (h : HaveTypes vs (ts.map .num)) (hvalues : vs.mapM Operand.toValue? = some values) :
    values.map Value.type = ts := by
  induction ts generalizing vs values with
  | nil =>
    cases h
    cases hvalues
    rfl
  | cons t ts ih =>
    obtain ⟨v, ws, hv, hws, rfl⟩ := List.forall₂_cons_right_iff.1 h
    simp only [List.mapM_cons, Option.bind_eq_bind, Option.bind_eq_some_iff, Option.pure_def,
      Option.some.injEq] at hvalues
    obtain ⟨value, hvalue, rest, hrest, rfl⟩ := hvalues
    have htype : value.type = t := by
      cases hv <;> cases hvalue <;> rfl
    rw [List.map_cons, htype, ih hws hrest]

namespace Linked

variable {t : ImportTable} {l : Linkage} {m : Wasm.Module} {functions : Array FuncType}
  {fuel cap : Option Nat} {i : Instance}

/-- The functions of an instance are those that its module exports. -/
theorem exists_function?_iff (h : Linked t l m functions) (hi : Ready l m functions fuel cap i)
    (hm : Wasm.Typing.module m = true) (hmodule : i.module = m) {exported : String}
    {type : FuncType} :
    (∃ index, i.function? exported = some (index, type)) ↔ m.ExportsFunction exported type := by
  have htypes (index : Nat) : i.program.functions[index]?.map Function.type = functions[index]? := by
    rw [hi.program]
    exact h.valid.type_functionSpace index
  rw [Wasm.Typing.exportsFunction_iff hm h.valid]
  simp only [Instance.function?_eq_some_iff, hmodule, htypes]

/-- A call that is made does not fail as a refused one does. -/
theorem refused?_of_entry? (h : Linked t l m functions) (hi : Ready l m functions fuel cap i)
    {r : Request} {index : Nat} {args : List Value} (hentry : i.entry? r = some (index, args))
    {e : Fault} (he : (i.answer r).1.outcome = .error e) : e.refused? = none := by
  obtain ⟨exported, s, hexported, -⟩ := Instance.outcome_answer_of_entry? hentry
  have hfailures := h.callFailures hi hexported
  obtain hdescriptor | ⟨kind, rfl⟩ := (hfailures.trap index args hentry).2 e he
  · exact Fault.refused?_of_isDescriptorFault hdescriptor
  · rfl

/-- A call is refused for want of the function, or as one that the function does not suit, or is made. -/
theorem calling_cases (h : Linked t l m functions) (hi : Ready l m functions fuel cap i)
    (hm : Wasm.Typing.module m = true) (hmodule : i.module = m) (single : Bool) (exported : String)
    (args : List Value) :
    ((∀ type, ¬ m.ExportsFunction exported type) ∧
        i.answer (.calling single exported args) = (.fail (.notFound exported), i)) ∨
      ((∃ type, m.ExportsFunction exported type ∧ type.Misfits single args) ∧
        ∃ expected actual, i.answer (.calling single exported args) =
          (.fail (.arityOrType exported expected actual), i)) ∨
      (∃ type, m.ExportsFunction exported type) ∧
        (∀ type, m.ExportsFunction exported type → ¬ type.Misfits single args) ∧
        ∃ index, i.entry? (.calling single exported args) = some (index, args) := by
  have hexports (type : FuncType) :
      (∃ index, i.function? exported = some (index, type)) ↔ m.ExportsFunction exported type :=
    h.exists_function?_iff hi hm hmodule
  cases hfunction : i.function? exported with
  | none =>
    refine .inl ⟨fun type htype => ?_, Instance.answer_calling_of_none hfunction⟩
    obtain ⟨index, hsome⟩ := (hexports type).2 htype
    cases hfunction.symm.trans hsome
  | some found =>
    obtain ⟨index, type⟩ := found
    have htype : m.ExportsFunction exported type := (hexports type).1 ⟨index, hfunction⟩
    by_cases hmisfits : type.Misfits single args
    · exact .inr (.inl ⟨⟨type, htype, hmisfits⟩, Instance.answer_calling_of_misfits hfunction hmisfits⟩)
    · -- The look-up finds one type, so the name is exported at no other.
      refine .inr (.inr ⟨⟨type, htype⟩, fun type' htype' => ?_, index,
        Instance.entry?_calling hfunction hmisfits⟩)
      obtain ⟨index', hsome⟩ := (hexports type').2 htype'
      cases hfunction.symm.trans hsome
      exact hmisfits

theorem checksCalls (h : Linked t l m functions) (hi : Ready l m functions fuel cap i)
    (hm : Wasm.Typing.module m = true) (hmodule : i.module = m) : i.ChecksCalls m where
  notFound single exported args := by
    obtain ⟨hnone, hanswer⟩ | ⟨⟨type, htype, -⟩, expected, actual, hanswer⟩ |
        ⟨⟨type, htype⟩, -, index, hentry⟩ := h.calling_cases hi hm hmodule single exported args
    · rw [hanswer]
      exact iff_of_true rfl hnone
    · rw [hanswer]
      exact iff_of_false (fun hname => by cases hname) fun hnone => hnone type htype
    · refine iff_of_false (fun hname => ?_) fun hnone => hnone type htype
      cases h.refused?_of_entry? hi hentry hname
  arityOrType single exported args := by
    obtain ⟨hnone, hanswer⟩ | ⟨hmisfits, expected, actual, hanswer⟩ | ⟨-, hfits, index, hentry⟩ :=
      h.calling_cases hi hm hmodule single exported args
    · rw [hanswer]
      refine iff_of_false (fun ⟨_, _, hname⟩ => ?_) fun ⟨type, htype, _⟩ => hnone type htype
      cases hname
    · rw [hanswer]
      exact iff_of_true ⟨expected, actual, rfl⟩ hmisfits
    · refine iff_of_false (fun ⟨_, _, hname⟩ => ?_)
        fun ⟨type, htype, hmisfits⟩ => hfits type htype hmisfits
      cases h.refused?_of_entry? hi hentry hname
  names single exported args e failed name hname := by
    obtain ⟨-, hanswer⟩ | ⟨-, expected, actual, hanswer⟩ | ⟨-, -, index, hentry⟩ :=
      h.calling_cases hi hm hmodule single exported args
    · rw [hanswer] at failed
      cases failed
      exact (Option.some.inj hname).symm
    · rw [hanswer] at failed
      cases failed
      exact (Option.some.inj hname).symm
    · rw [h.refused?_of_entry? hi hentry failed] at hname
      cases hname
  refused r e failed refusal := by
    cases hentry : i.entry? r with
    | none =>
      have hstates : i.statesBy r = [] := by simp [Instance.statesBy, hentry]
      have hcalls : i.callsBy r = [] := by simp [Instance.callsBy, hentry]
      exact ⟨Instance.answer_eq_fail hentry failed, rfl, hstates, hcalls⟩
    | some entry =>
      obtain ⟨index, args⟩ := entry
      rw [h.refused?_of_entry? hi hentry failed] at refusal
      cases refusal
  values exported index s args function typed results returned := by
    obtain ⟨hfunction, hargs⟩ := h.typed hi typed function
    obtain ⟨-, hresults⟩ := Wasm.Typing.sound_invoke h.types hi.suits hfunction hargs
    rw [Instance.outcome_run, hi.program] at returned
    generalize (Wasm.Machine.invoke (l.program m fuel cap) i.store index (args.map .ofValue)).1 =
      ending at hresults returned
    cases ending with
    | returned operands =>
      cases returned
      have htyped := hresults results rfl
      obtain ⟨vs, hvs⟩ := htyped.exists_mapM_toValue?
      exact ⟨vs, by rw [Instance.values, hvs], htyped.map_type_of_mapM hvs⟩
    | trapped | raised | stuck | unfinished => cases returned

end Linked

/-- What a module was made is an instance of that module. -/
theorem Loader.module_of_instantiate {l : Loader} {c : Compiled} {t : ImportTable} {i : Instance}
    (h : (l.instantiate c t).outcome = .ok i) : i.module = c.module := by
  obtain ⟨hstarts, -⟩ := exists_setup_of_instantiate h
  have hi := (instantiate_of_starts hstarts).2 i h
  unfold Linkage.start at hi
  dsimp only at hi
  split at hi <;> cases hi
  rfl

/-- In every state that an instance reaches, a call is refused just if the function is missing or does
not suit the call; then no step is taken and nothing changes. A call that has begun is never refused, and
what its function gives can always be given back. -/
theorem calls_are_refused_before_they_begin (l : Loader) (c : Compiled) (t : ImportTable)
    (valid : Wasm.Typing.module c.module = true) (i : Instance)
    (made : (l.instantiate c t).outcome = .ok i) (rs : List Request) :
    (i.answers rs).2.ChecksCalls c.module := by
  obtain ⟨functions, hvalid⟩ := Wasm.Typing.exists_valid_of_module valid
  obtain ⟨hready, -⟩ := Session.accounts_callsOfInstantiate (h := ⟨0, c⟩) t l hvalid
  obtain ⟨hlinked, hi⟩ := hready i made
  have hmodule : (i.answers rs).2.module = c.module := by
    rw [Instance.module_answers, Loader.module_of_instantiate made]
  exact hlinked.checksCalls (hlinked.ready_answers hi rs) valid hmodule

/-- A guest that gives two results at once. -/
def pairGuest : Wasm.Module where
  types := #[⟨[], [.num .i32, .num .i64]⟩]
  functions := [0]
  exports := [⟨"pair", .func, 0⟩]
  codes := [⟨[], [.literal (.i32 1), .literal (.i64 2)]⟩]

/-- After a call that was made, the same function is refused where one result is asked for, and another
name is not found. -/
theorem calls_are_refused_before_they_begin_pairGuest :
    Wasm.Typing.module pairGuest = true ∧
      ∃ i, (({} : Loader).instantiate ⟨"guest", pairGuest, 0⟩ .empty).outcome = .ok i ∧
        let i := (i.answers [.invokeMulti "pair" []]).2
        (∃ expected actual, (i.answer (.invoke "pair" [])).1.outcome =
            .error (.arityOrType "pair" expected actual)) ∧
          i.answer (.invokeMulti "pairs" []) = (.fail (.notFound "pairs"), i) := by
  have valid : Wasm.Typing.module pairGuest = true := by decide +kernel
  have hmade : (({} : Loader).instantiate ⟨"guest", pairGuest, 0⟩ .empty).outcome.isOk = true := by
    decide +kernel
  refine ⟨valid, ?_⟩
  cases hi : (({} : Loader).instantiate ⟨"guest", pairGuest, 0⟩ .empty).outcome with
  | error e =>
    rw [hi] at hmade
    cases hmade
  | ok i =>
    have hchecks := calls_are_refused_before_they_begin {} ⟨"guest", pairGuest, 0⟩ .empty valid i hi
      [.invokeMulti "pair" []]
    have hpair : pairGuest.ExportsFunction "pair" ⟨[], [.num .i32, .num .i64]⟩ :=
      ⟨_, List.mem_cons_self, rfl, rfl⟩
    have hmissing := (hchecks.notFound false "pairs" []).2 fun type ⟨e, he, hname, _⟩ => by
      cases List.mem_singleton.1 he
      revert hname
      decide
    refine ⟨i, rfl, (hchecks.arityOrType true "pair" []).2 ⟨_, hpair, .results rfl (by decide)⟩, ?_⟩
    exact (hchecks.refused _ _ hmissing rfl).1

end GuestHarness
