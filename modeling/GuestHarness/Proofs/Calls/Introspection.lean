import GuestHarness.Proofs.Fault.Refusals

/-! What an instance says of its exports, against what calls of them find. The list of exports comes from
the module alone, signatures and calls from the functions of the instance, among them those that the host
made and the module exports again. -/
namespace GuestHarness
open Wasm (FuncType)

namespace Wasm.Module

variable {m : Module} {name : String}

/-- The item tells the export's name and what kind of thing it is. -/
def Describes (m : Module) (e : Export) (item : String × ItemKind) : Prop :=
  item.1 = e.name ∧ ∃ type, m.exportType? e = some type ∧ item.2 = .ofType type

/-- The exports are listed one by one, in their order. -/
theorem describes_exportKinds (h : ∀ e ∈ m.exports, (m.exportType? e).isSome) :
    List.Forall₂ m.Describes m.exports m.exportKinds := by
  unfold exportKinds
  generalize m.exports = es at h
  induction es with
  | nil => exact .nil
  | cons e es ih =>
    obtain ⟨type, htype⟩ := Option.isSome_iff_exists.1 (h e List.mem_cons_self)
    rw [List.filterMap_cons_some (by rw [htype]; rfl)]
    exact .cons ⟨rfl, type, htype, rfl⟩ (ih fun e' he' => h e' (List.mem_cons_of_mem _ he'))

theorem mem_exportKinds_iff {kind : ItemKind} :
    (name, kind) ∈ m.exportKinds ↔
      ∃ e ∈ m.exports, e.name = name ∧ ∃ type, m.exportType? e = some type ∧ .ofType type = kind := by
  simp only [exportKinds, List.mem_filterMap, Option.map_eq_some_iff, Prod.mk.injEq]
  constructor
  · rintro ⟨e, he, type, htype, hname, hkind⟩
    exact ⟨e, he, hname, type, htype, hkind⟩
  · rintro ⟨e, he, hname, type, htype, hkind⟩
    exact ⟨e, he, type, htype, hname, hkind⟩

end Wasm.Module

theorem ItemKind.ofType_eq_function_iff {type : Wasm.ExternType} {s : Signature} :
    ItemKind.ofType type = .function s ↔ type = .func (.ofSignature s) := by
  unfold ofType
  split
  · next f =>
    rw [Wasm.ExternType.func.injEq, ← Wasm.FuncType.signature?_eq_some_iff]
    cases f.signature? <;> simp
  · simp
  · simp
  · simp

theorem ItemKind.exists_ofType_eq_unsupported_iff {type : Wasm.ExternType} :
    (∃ text, ItemKind.ofType type = .unsupportedFunction text) ↔
      ∃ f : FuncType, type = .func f ∧ ¬ f.IsNumeric := by
  unfold ofType
  split
  · next f =>
    have hf : (∃ f', Wasm.ExternType.func f = .func f' ∧ ¬ f'.IsNumeric) ↔ ¬ f.IsNumeric := by
      simp
    rw [hf, ← Wasm.FuncType.signature?_eq_none_iff]
    cases f.signature? <;> simp
  · simp
  · simp
  · simp

namespace Wasm.Module

variable {m : Module} {name : String}

/-- Functions on numbers are listed with their signatures. -/
theorem function_mem_exportKinds_iff {s : Signature} :
    (name, .function s) ∈ m.exportKinds ↔ m.ExportsFunction name (.ofSignature s) := by
  simp only [mem_exportKinds_iff, ItemKind.ofType_eq_function_iff, exists_eq_right]
  rfl

/-- All other functions are listed as such that cannot be called. -/
theorem unsupported_mem_exportKinds_iff :
    (∃ text, (name, .unsupportedFunction text) ∈ m.exportKinds) ↔
      ∃ type, m.ExportsFunction name type ∧ ¬ type.IsNumeric := by
  simp only [mem_exportKinds_iff]
  constructor
  · rintro ⟨text, e, he, hname, type, htype, hkind⟩
    obtain ⟨f, rfl, hnumeric⟩ := ItemKind.exists_ofType_eq_unsupported_iff.1 ⟨text, hkind⟩
    exact ⟨f, ⟨e, he, hname, htype⟩, hnumeric⟩
  · rintro ⟨f, ⟨e, he, hname, htype⟩, hnumeric⟩
    obtain ⟨text, hkind⟩ := ItemKind.exists_ofType_eq_unsupported_iff.2 ⟨f, rfl, hnumeric⟩
    exact ⟨text, e, he, hname, .func f, htype, hkind⟩

end Wasm.Module

namespace Instance

variable {i : Instance} {exported : String}

/-- Whatever is asked of a function under the name, the answer is that there is none, and nothing
changes. -/
structure Lacks (i : Instance) (exported : String) : Prop where
  hasFunction : i.hasFunction exported = false
  signature : i.signature exported = .error (.notFound exported)
  invoke (args : List Value) : i.invoke exported args = (.fail (.notFound exported), i)
  invokeMulti (args : List Value) : i.invokeMulti exported args = (.fail (.notFound exported), i)
  typedAs (wanted : FuncType) : i.typedAs exported wanted = .error (.notFound exported)
  invokeTyped (expected : Signature) (args : List Value) :
    i.invokeTyped exported expected args = (.fail (.notFound exported), i)

/-- The list of exports tells what one finds who asks for a function under the name, or calls it. -/
structure TellsOf (i : Instance) (exported : String) : Prop where
  function (s : Signature) :
    (exported, .function s) ∈ i.exports ↔ i.signature exported = .ok s
  unsupported : (∃ text, (exported, .unsupportedFunction text) ∈ i.exports) ↔
    i.hasFunction exported = true ∧ ∃ expected actual,
      i.signature exported = .error (.arityOrType exported expected actual)
  lacks (noFunction : ∀ s, (exported, .function s) ∉ i.exports)
    (noUnsupported : ∀ text, (exported, .unsupportedFunction text) ∉ i.exports) : i.Lacks exported
  accepts (s : Signature) (listed : (exported, .function s) ∈ i.exports) (args : List Value)
    (typed : args.map Value.type = s.params) (e : Fault)
    (failed : (i.invokeMulti exported args).1.outcome = .error e) : e.refused? = none
  refuses (s : Signature) (listed : (exported, .function s) ∈ i.exports) (args : List Value)
    (mistyped : args.map Value.type ≠ s.params) :
    ∃ expected actual, i.invokeMulti exported args =
      (.fail (.arityOrType exported expected actual), i)

theorem signature_of_resolve {index : Nat} {s : Signature} (h : i.resolve exported = .ok (index, s)) :
    i.signature exported = .ok s := by
  rw [signature, h]
  rfl

/-- A signature is that of the function the name leads to. -/
theorem signature_eq_ok_iff {s : Signature} :
    i.signature exported = .ok s ↔ ∃ index, i.function? exported = some (index, .ofSignature s) := by
  constructor
  · intro h
    cases hfunction : i.function? exported with
    | none =>
      rw [signature, resolve_of_none hfunction] at h
      cases h
    | some found =>
      obtain ⟨index, type⟩ := found
      by_cases hnumeric : type.IsNumeric
      · obtain ⟨s', rfl⟩ := Wasm.FuncType.isNumeric_iff.1 hnumeric
        cases h.symm.trans (signature_of_resolve (resolve_of_function? hfunction))
        exact ⟨index, rfl⟩
      · rw [signature, resolve_of_not_numeric hfunction hnumeric] at h
        cases h
  · rintro ⟨index, hfunction⟩
    exact signature_of_resolve (resolve_of_function? hfunction)

/-- A function that is there without a signature exchanges more than numbers. -/
theorem lacks_signature_iff :
    (i.hasFunction exported = true ∧ ∃ expected actual,
        i.signature exported = .error (.arityOrType exported expected actual)) ↔
      ∃ index type, i.function? exported = some (index, type) ∧ ¬ type.IsNumeric := by
  constructor
  · rintro ⟨hfound, expected, actual, hsignature⟩
    obtain ⟨⟨index, type⟩, hfunction⟩ := Option.isSome_iff_exists.1 hfound
    refine ⟨index, type, hfunction, fun hnumeric => ?_⟩
    obtain ⟨s, rfl⟩ := Wasm.FuncType.isNumeric_iff.1 hnumeric
    cases hsignature.symm.trans (signature_eq_ok_iff.2 ⟨index, hfunction⟩)
  · rintro ⟨index, type, hfunction, hnumeric⟩
    refine ⟨Option.isSome_iff_exists.2 ⟨_, hfunction⟩, "numeric parameters and results",
      functionTypeText, ?_⟩
    rw [signature, resolve_of_not_numeric hfunction hnumeric]
    rfl

theorem lacks_of_none (h : i.function? exported = none) : i.Lacks exported where
  hasFunction := by rw [hasFunction, h]; rfl
  signature := by rw [signature, resolve_of_none h]; rfl
  invoke args := by rw [invoke, resolve_of_none h]
  invokeMulti args := by rw [invokeMulti, resolve_of_none h]
  typedAs wanted := by rw [typedAs, h]
  invokeTyped expected args := by
    rw [invokeTyped, typed, typedAs, h]

/-- The list of exports is that of the compiled module, and it tells the truth about every name. -/
structure TellsOfExports (t : ImportTable) (c : Compiled) (i : Instance) : Prop where
  same : i.exports = c.exports
  inOrder : List.Forall₂ c.module.Describes c.module.exports i.exports
  tells (exported : String) : i.TellsOf exported
  /-- A function of the host that is exported again is called at the signature that the host gave it. -/
  relayed (e : Wasm.Export) (he : e ∈ c.module.exports) (func : e.kind = .func)
    (imported : e.index < c.module.importedFunctions.length) :
    ∃ logger sink, t.logger? c.module e.index = some (logger, sink) ∧
      (e.name, .function logger.signature) ∈ i.exports ∧
      i.signature e.name = .ok logger.signature

end Instance

namespace Linked

variable {t : ImportTable} {l : Linkage} {m : Wasm.Module} {functions : Array FuncType}
  {fuel cap : Option Nat} {i : Instance}

theorem tellsOf (h : Linked t l m functions) (hi : Ready l m functions fuel cap i)
    (hm : Wasm.Typing.module m = true) (hmodule : i.module = m) (exported : String) :
    i.TellsOf exported := by
  have hfinds (type : FuncType) :
      (∃ index, i.function? exported = some (index, type)) ↔ m.ExportsFunction exported type :=
    h.exists_function?_iff hi hm hmodule
  have hfunction (s : Signature) :
      (exported, .function s) ∈ i.exports ↔ m.ExportsFunction exported (.ofSignature s) := by
    rw [Instance.exports, hmodule]
    exact Wasm.Module.function_mem_exportKinds_iff
  have hunsupported : (∃ text, (exported, .unsupportedFunction text) ∈ i.exports) ↔
      ∃ type, m.ExportsFunction exported type ∧ ¬ type.IsNumeric := by
    rw [Instance.exports, hmodule]
    exact Wasm.Module.unsupported_mem_exportKinds_iff
  have hresolves (s : Signature) (hlisted : (exported, .function s) ∈ i.exports) :
      ∃ index, i.resolve exported = .ok (index, s) := by
    obtain ⟨index, hfound⟩ := (hfinds _).2 ((hfunction s).1 hlisted)
    exact ⟨index, Instance.resolve_of_function? hfound⟩
  refine ⟨fun s => ?_, ?_, fun hnot hnotUnsupported => ?_, fun s hlisted args htypes e he => ?_,
    fun s hlisted args htypes => ?_⟩
  · rw [hfunction, Instance.signature_eq_ok_iff, hfinds]
  · rw [hunsupported, Instance.lacks_signature_iff]
    simp only [← hfinds]
    constructor
    · rintro ⟨type, ⟨index, hfound⟩, hnumeric⟩
      exact ⟨index, type, hfound, hnumeric⟩
    · rintro ⟨index, type, hfound, hnumeric⟩
      exact ⟨type, ⟨index, hfound⟩, hnumeric⟩
  · -- A function would be listed as one of the two.
    refine Instance.lacks_of_none (Option.eq_none_iff_forall_ne_some.2 fun ⟨index, type⟩ hfound => ?_)
    have htype := (hfinds type).1 ⟨index, hfound⟩
    by_cases hnumeric : type.IsNumeric
    · obtain ⟨s, rfl⟩ := Wasm.FuncType.isNumeric_iff.1 hnumeric
      exact hnot s ((hfunction s).2 htype)
    · obtain ⟨text, htext⟩ := hunsupported.2 ⟨type, htype, hnumeric⟩
      exact hnotUnsupported text htext
  · obtain ⟨index, hresolve⟩ := hresolves s hlisted
    have hentry := Instance.enters_invokeMulti hresolve htypes
    exact h.refused?_of_entry? hi hentry (Account.outcome_map_eq_error_iff.2 he)
  · obtain ⟨index, hresolve⟩ := hresolves s hlisted
    rw [Instance.invokeMulti_of_resolve hresolve]
    exact ⟨_, _, Instance.call_of_types_ne i exported index htypes⟩

/-- What the host gave is exported again as what it is. -/
theorem exportsFunction_of_imported (h : Linked t l m functions)
    (hm : Wasm.Typing.module m = true) {e : Wasm.Export} (he : e ∈ m.exports) (hfunc : e.kind = .func)
    (himported : e.index < m.importedFunctions.length) :
    ∃ logger sink, t.logger? m e.index = some (logger, sink) ∧
      m.ExportsFunction e.name (.ofSignature logger.signature) := by
  have hk : m.importedFunctions[e.index]? = some m.importedFunctions[e.index] :=
    List.getElem?_eq_getElem himported
  obtain ⟨logger, sink, hlogger, hsignature⟩ := h.links.logger?_of_provided h.provided hk
  obtain ⟨other, hother⟩ := Option.isSome_iff_exists.1 ((Wasm.Typing.exports_of_module hm).1 e he)
  obtain ⟨type, hknown, rfl⟩ : ∃ type, m.functionTypes[e.index]?.join = some type ∧
      .func type = other := by
    simpa [Wasm.Module.exportType?, hfunc] using hother
  have htype : type = .ofSignature logger.signature := by
    rw [← hsignature, Wasm.Module.functionType]
    simp only [Wasm.Module.functionTypes, List.getElem?_toArray, List.getElem?_map,
      List.getElem?_append_left himported, hk, Option.map_some, Option.join_some] at hknown
    rw [hknown, Option.getD_some]
  exact ⟨logger, sink, hlogger, e, he, rfl, htype ▸ hother⟩

end Linked

/-- Whatever an instance was asked, it is ready to be asked more. -/
theorem Loader.ready_answers {l : Loader} {c : Compiled} {t : ImportTable}
    (valid : Wasm.Typing.module c.module = true) {i : Instance}
    (made : (l.instantiate c t).outcome = .ok i) (rs : List Request) :
    ∃ functions, Linked t (l.linkage t) c.module functions ∧
      Ready (l.linkage t) c.module functions l.fuel l.cap (i.answers rs).2 ∧
      (i.answers rs).2.module = c.module := by
  obtain ⟨functions, hvalid⟩ := Wasm.Typing.exists_valid_of_module valid
  obtain ⟨hready, -⟩ := Session.accounts_callsOfInstantiate (h := ⟨0, c⟩) t l hvalid
  obtain ⟨hlinked, hi⟩ := hready i made
  refine ⟨functions, hlinked, hlinked.ready_answers hi rs, ?_⟩
  rw [Instance.module_answers, module_of_instantiate made]

/-- In every state that an instance reaches, its list of exports is that of the compiled module and says
of each name what is found by asking for a function or by calling it. -/
theorem exports_tell_of_calls (l : Loader) (c : Compiled) (t : ImportTable)
    (valid : Wasm.Typing.module c.module = true) (i : Instance)
    (made : (l.instantiate c t).outcome = .ok i) (rs : List Request) :
    (i.answers rs).2.TellsOfExports t c := by
  obtain ⟨functions, hlinked, hready, hmodule⟩ := Loader.ready_answers valid made rs
  have htells (exported : String) : (i.answers rs).2.TellsOf exported :=
    hlinked.tellsOf hready valid hmodule exported
  have hsame : (i.answers rs).2.exports = c.exports := by
    rw [Instance.exports, Compiled.exports, hmodule]
  refine ⟨hsame, ?_, htells, fun e he func imported => ?_⟩
  · rw [hsame]
    exact Wasm.Module.describes_exportKinds (Wasm.Typing.exports_of_module valid).1
  · obtain ⟨logger, sink, hlogger, hexports⟩ :=
      hlinked.exportsFunction_of_imported valid he func imported
    have hlisted : (e.name, .function logger.signature) ∈ (i.answers rs).2.exports := by
      rw [hsame]
      exact Wasm.Module.function_mem_exportKinds_iff.2 hexports
    exact ⟨logger, sink, hlogger, hlisted, ((htells e.name).function _).1 hlisted⟩

/-- A guest that exports a function of the host again, a function on vectors, and a memory. -/
def varietyGuest : Wasm.Module where
  types := #[⟨[.num .i32], []⟩, ⟨[.vector], []⟩]
  imports := [⟨consoleModule, logFunction, .func 0⟩]
  functions := [1]
  memories := [⟨⟨1, none⟩, false⟩]
  exports := [⟨"log", .func, 0⟩, ⟨"mix", .func, 1⟩, ⟨"memory", .memory, 0⟩]
  codes := [⟨[], []⟩]

/-- After a call of the host's function by way of the guest, that function shows its signature, the
second function has none, and the memory is no function. -/
theorem exports_tell_of_calls_varietyGuest :
    Wasm.Typing.module varietyGuest = true ∧
      ∃ i, (({} : Loader).instantiate ⟨"guest", varietyGuest, 0⟩
          (.integerLogger .w32 (.recorder 0))).outcome = .ok i ∧
        let i := (i.answers [.invoke "log" [.i32 42]]).2
        i.exports = [("log", .function ⟨[.i32], []⟩), ("mix", .unsupportedFunction functionTypeText),
          ("memory", .memory 1 none)] ∧
        i.signature "log" = .ok ⟨[.i32], []⟩ ∧
        (i.hasFunction "mix" = true ∧ ∃ expected actual,
          i.signature "mix" = .error (.arityOrType "mix" expected actual)) ∧
        i.Lacks "memory" := by
  have valid : Wasm.Typing.module varietyGuest = true := by decide +kernel
  obtain ⟨i, hi, -⟩ := Loader.exists_instantiated (l := {}) (c := ⟨"guest", varietyGuest, 0⟩)
    (t := .integerLogger .w32 (.recorder 0)) (P := fun _ => True) (by decide +kernel)
  have htells := exports_tell_of_calls {} ⟨"guest", varietyGuest, 0⟩
    (.integerLogger .w32 (.recorder 0)) valid i hi [.invoke "log" [.i32 42]]
  have hexports := htells.same.trans (show Compiled.exports ⟨"guest", varietyGuest, 0⟩ =
    [("log", .function ⟨[.i32], []⟩), ("mix", .unsupportedFunction functionTypeText),
      ("memory", .memory 1 none)] by decide +kernel)
  refine ⟨valid, i, hi, hexports, ((htells.tells "log").function _).1 ?_,
    (htells.tells "mix").unsupported.1 ⟨functionTypeText, ?_⟩,
    (htells.tells "memory").lacks (fun s => ?_) fun text => ?_⟩
  all_goals
    rw [hexports]
    simp

end GuestHarness
