import GuestHarness.Recorder
import GuestHarness.Proofs.Import.Agreement
import GuestHarness.Proofs.Wasm.TypedCalls
import GuestHarness.Proofs.Wasm.Validity

/-! What calls of loggers emit, said of the calls themselves: of their arguments, and of the memories as
the calls find them. -/
namespace GuestHarness
open Wasm (Operand Memory ImportCall HaveTypes)

namespace Logger

variable {logger : Logger} {args : List Operand}

/-- What a logger emits that is called with these arguments: the integer with its sign, or the text in
the memory that its source leads to. -/
def emission? (logger : Logger) (memory? : MemorySource → Option Memory) (args : List Operand) :
    Option Emission :=
  match logger, args with
  | .integer .w32, [.i32 b] => some (.integer b.toInt32.toInt64)
  | .integer .w64, [.i64 b] => some (.integer b.toInt64)
  | .string source, [.i32 offset, .i32 length] =>
    (memory? source).bind fun m => (m.readText ⟨offset, length⟩).toOption.map .text
  | _, _ => none

/-- The memory that a source leads to, among the memories as they are now. -/
def memoryOf? (registry : Registry) (exported? : String → Option Nat) (caller : Wasm.Caller)
    (memories : Array Memory) (source : MemorySource) : Option Memory :=
  (Logger.source registry exported? caller source).toOption.map fun a => memories[a]?.getD default

/-- A text is read exactly where the memory that the source leads to has one. -/
theorem emission?_string (registry : Registry) (exported? : String → Option Nat)
    (caller : Wasm.Caller) (source : MemorySource) (offset length : UInt32) (memories : Array Memory) :
    emission? (.string source) (memoryOf? registry exported? caller memories)
        [.i32 offset, .i32 length] =
      (Logger.read registry exported? caller source ⟨offset, length⟩ memories).toOption.map .text := by
  dsimp only [emission?]
  unfold memoryOf? Logger.read
  cases h : Logger.source registry exported? caller source with
  | error e => rfl
  | ok a => rfl

/-- An event and an emission, for all sinks. -/
theorem emissionsTo_event_emitted (level : Level) (message : String)
    (fields : List (String × String)) (bound sink : Sink) (e : Emission) :
    emissionsTo sink [event level message fields, .emitted bound e] =
      if bound = sink then [e] else [] := by
  have hevent : (event level message fields).emission? sink = none := rfl
  rw [emissionsTo, List.filterMap_cons_none hevent]
  by_cases h : bound = sink
  · subst h
    simp [Occurrence.emission?]
  · simp [Occurrence.emission?, h]

section

variable (registry : Registry) (exported? : String → Option Nat) (bound sink : Sink)
  (caller : Wasm.Caller) (args : List Operand) (memories : Array Memory)

/-- A call that succeeds emits once, to the sink the logger is bound to; one that fails emits nothing. -/
theorem emissionsTo_call (logger : Logger) :
    emissionsTo sink (logger.call registry exported? bound caller args memories).1 =
      if bound = sink ∧ (logger.call registry exported? bound caller args memories).2.isOk then
        (logger.emission? (memoryOf? registry exported? caller memories) args).toList
      else [] := by
  fun_cases Logger.call registry exported? logger bound caller args memories
  case case1 b v =>
    rw [emissionsTo_event_emitted]
    simp [Except.isOk, Except.toBool, emission?, v]
  case case2 b v =>
    rw [emissionsTo_event_emitted]
    simp [Except.isOk, Except.toBool, emission?, v]
  case case3 source offset length _ text hread =>
    rw [emissionsTo_event_emitted, emission?_string, hread]
    simp [Except.isOk, Except.toBool, Except.toOption]
  case case4 =>
    simp [emissionsTo, Occurrence.emission?, event, Except.isOk, Except.toBool]
  case case5 hcases _ _ =>
    have hemission : emission? logger (memoryOf? registry exported? caller memories) args = none := by
      unfold emission?
      split <;> simp_all
    simp [hemission, emissionsTo]

variable {args} in
/-- With arguments of its types, a logger fails exactly if there is nothing it could emit. -/
theorem isOk_call_iff {logger : Logger}
    (h : HaveTypes args (Wasm.FuncType.ofSignature logger.signature).params) :
    (logger.call registry exported? bound caller args memories).2.isOk ↔
      (logger.emission? (memoryOf? registry exported? caller memories) args).isSome := by
  match logger with
  | .integer .w32 =>
    obtain ⟨b, vs, rfl, hvs⟩ := h.exists_i32
    cases hvs
    rfl
  | .integer .w64 =>
    obtain ⟨v, vs, hv, hvs, rfl⟩ := List.forall₂_cons_right_iff.1 h
    cases hv
    cases hvs
    rfl
  | .string source =>
    obtain ⟨offset, vs, rfl, hvs⟩ := h.exists_i32
    obtain ⟨length, ws, rfl, hws⟩ := hvs.exists_i32
    cases hws
    rw [emission?_string, Logger.call]
    cases Logger.read registry exported? caller source ⟨offset, length⟩ memories <;> rfl

end
end Logger

namespace Wasm.Module

variable (m : Wasm.Module)

/-- The functions among the imports of a module, in order, with the indices of their types. -/
def functionImports : List (Import × Nat) :=
  m.imports.filterMap fun i => match i.type with | .func t => some (i, t) | _ => none

theorem importedFunctions_eq_map : m.importedFunctions = m.functionImports.map Prod.snd := by
  unfold importedFunctions functionImports
  rw [List.map_filterMap]
  congr 1
  funext i
  cases i.type <;> rfl

variable {m}

theorem mem_of_functionImports {index t : Nat} {i : Import}
    (h : m.functionImports[index]? = some (i, t)) : i ∈ m.imports ∧ i.type = .func t := by
  obtain ⟨j, hj, hi⟩ := List.mem_filterMap.1 (List.mem_of_getElem? h)
  cases htype : j.type <;> rw [htype] at hi <;> cases hi
  exact ⟨hj, htype⟩

end Wasm.Module

/-- The logger that an imported function of a module is bound to by a table, and its sink. -/
def ImportTable.logger? (t : ImportTable) (m : Wasm.Module) (index : Nat) : Option (Logger × Sink) := do
  let (i, _) ← m.functionImports[index]?
  let e ← t.find? i.module i.name
  match e.offer with
  | .logger logger sink => some (logger, sink)
  | .memory _ => none

namespace Linkage

variable {t : ImportTable} {l : Linkage} {m : Wasm.Module}

/-- What linking makes of a table leads an import to the logger that the table offers it. -/
theorem Links.logger_definition? (hl : l.Links t.entries) (module name : String) :
    (match l.definition? module name with
      | some (.logger logger sink) => some (logger, sink)
      | _ => none) =
      (t.find? module name).bind fun e =>
        match e.offer with
        | .logger logger sink => some (logger, sink)
        | .memory _ => none := by
  cases hfind : t.find? module name with
  | none =>
    have hnone : l.definition? module name = none := by
      by_contra hsome
      obtain ⟨e, he⟩ := hl.find?_of_defined (Option.isSome_iff_ne_none.2 hsome)
      rw [hfind] at he
      cases he
    rw [hnone]
    rfl
  | some e =>
    obtain ⟨hmem, rfl, rfl⟩ := ImportTable.mem_of_find? hfind
    have hholds := hl.holds e hmem
    unfold Holds at hholds
    cases hoffer : e.offer with
    | logger logger sink =>
      rw [hoffer] at hholds
      rw [hholds]
      simp [hoffer]
    | memory pages =>
      rw [hoffer] at hholds
      obtain ⟨a, ha, -⟩ := hholds
      rw [ha]
      simp [hoffer]

/-- The functions that a module imports are the loggers that the table offers it. -/
theorem Links.logger?_importedLoggers (hl : l.Links t.entries) (index : Nat) :
    (l.importedLoggers m)[index]?.join = t.logger? m index := by
  have hmap : l.importedLoggers m = m.functionImports.map fun i =>
      match l.definition? i.1.module i.1.name with
      | some (.logger logger sink) => some (logger, sink)
      | _ => none := by
    unfold importedLoggers Wasm.Module.functionImports
    rw [List.map_filterMap]
    congr 1
    funext i
    cases i.type with
    | func t =>
      dsimp only [Option.map_some]
      cases l.definition? i.module i.name with
      | none => rfl
      | some d => cases d <;> rfl
    | _ => rfl
  rw [hmap, List.getElem?_map]
  unfold ImportTable.logger?
  cases m.functionImports[index]? with
  | none => rfl
  | some i => exact hl.logger_definition? i.1.module i.1.name

/-- An imported function that is provided for is a logger of its type. -/
theorem Links.logger?_of_provided (hl : l.Links t.entries)
    (provided : ∀ i ∈ m.imports, l.provides m i = true) {index k : Nat}
    (h : m.importedFunctions[index]? = some k) :
    ∃ logger sink, t.logger? m index = some (logger, sink) ∧
      m.functionType k = Wasm.FuncType.ofSignature logger.signature := by
  rw [m.importedFunctions_eq_map, List.getElem?_map, Option.map_eq_some_iff] at h
  obtain ⟨⟨i, k'⟩, hi, rfl⟩ := h
  obtain ⟨hmem, htype⟩ := Wasm.Module.mem_of_functionImports hi
  obtain ⟨e, declared, hfind, hdeclared, hsatisfies⟩ := (hl.provides_iff m i).1 (provided i hmem)
  simp only [Wasm.Module.importType?, htype, Option.map_eq_some_iff] at hdeclared
  obtain ⟨type, hk, rfl⟩ := hdeclared
  cases hoffer : e.offer with
  | memory pages => simp [Offer.satisfies, hoffer] at hsatisfies
  | logger logger sink =>
    refine ⟨logger, sink, ?_, ?_⟩
    · simp [ImportTable.logger?, hi, hfind, hoffer]
    · rw [Wasm.Module.functionType, hk, Option.getD_some, ← Wasm.FuncType.signature?_eq_some_iff]
      simpa [Offer.satisfies, hoffer] using hsatisfies

/-- Where all imports are provided for, none is a global variable. -/
theorem importedGlobals_of_provided (provided : ∀ i ∈ m.imports, l.provides m i = true) :
    m.importedGlobals = [] := by
  refine List.filterMap_eq_nil_iff.2 fun i hi => ?_
  have h := provided i hi
  cases htype : i.type with
  | global type =>
    simp only [provides, Wasm.Module.importType?, htype] at h
    cases hd : l.definition? i.module i.name with
    | none => simp [hd] at h
    | some d => cases d <;> simp [hd, fits] at h
  | _ => rfl

end Linkage
end GuestHarness
