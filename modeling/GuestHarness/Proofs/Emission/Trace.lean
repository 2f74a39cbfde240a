import GuestHarness.Proofs.Emission.Loggers

/-! What a list of calls leaves in the account of a run: for each sink the emissions of those calls that
succeeded at loggers bound to it, in order and once each. -/
namespace GuestHarness
open Wasm (Operand Memory ImportCall HaveTypes)

/-- The guest, or the host that called the logger itself, was given an answer. -/
def Wasm.ImportCall.succeeded (call : ImportCall Fault) : Bool := call.answer.isOk

namespace Linkage

variable (l : Linkage) (m : Wasm.Module)

/-- The memory that the module exports under a name. -/
def exportedMemory? : String → Option Nat :=
  Instance.exportedMemory? m
    (l.importedMemories m ++ List.range' l.memories.size m.memories.length).toArray

/-- The memory that a source leads to as of a call, with the contents and the size it has there. -/
def memoryAt? (call : ImportCall Fault) : MemorySource → Option Memory :=
  Logger.memoryOf? l.registry (l.exportedMemory? m) call.caller call.memories

/-- What the call of a logger comes to. -/
def logged (logger : Logger) (bound : Sink) (call : ImportCall Fault) :
    List Occurrence × Except Fault Unit :=
  logger.call l.registry (l.exportedMemory? m) bound call.caller call.args call.memories

end Linkage

/-- What a call emits to a sink: nothing, unless the logger is bound to the sink and the call
succeeded. -/
def ImportTable.emissionTo? (t : ImportTable) (l : Linkage) (m : Wasm.Module) (sink : Sink)
    (call : ImportCall Fault) : Option Emission := do
  let (logger, bound) ← t.logger? m call.index
  if bound = sink ∧ call.succeeded then logger.emission? (l.memoryAt? m call) call.args else none

/-- The call is one of a logger of the table with arguments of its types. It succeeded exactly if there
is something that it could emit. -/
def ImportTable.Binds (t : ImportTable) (l : Linkage) (m : Wasm.Module) (call : ImportCall Fault) :
    Prop :=
  ∃ logger bound, t.logger? m call.index = some (logger, bound) ∧
    HaveTypes call.args (Wasm.FuncType.ofSignature logger.signature).params ∧
    (call.succeeded ↔ (logger.emission? (l.memoryAt? m call) call.args).isSome)

namespace Linkage

variable {t : ImportTable} {l : Linkage} {m : Wasm.Module} {fuel cap : Option Nat}
  {call : ImportCall Fault} {logger : Logger} {bound : Sink}

theorem callLogger_of_logger (hl : l.Links t.entries)
    (h : t.logger? m call.index = some (logger, bound)) (occurred : Array Occurrence) :
    l.callLogger m call.caller call.index call.args call.memories occurred =
      (occurred ++ (l.logged m logger bound call).1,
        (l.logged m logger bound call).2.map fun () => []) := by
  rw [callLogger, hl.logger?_importedLoggers, h]
  rfl

theorem callLogger_of_none (hl : l.Links t.entries) (h : t.logger? m call.index = none)
    (occurred : Array Occurrence) :
    l.callLogger m call.caller call.index call.args call.memories occurred = (occurred, .ok []) := by
  rw [callLogger, hl.logger?_importedLoggers, h]

/-- The answer to a call is the logger's. It does not depend on what occurred before. -/
theorem answer_eq (hl : l.Links t.entries) (made : (l.program m fuel cap).Makes call)
    (h : t.logger? m call.index = some (logger, bound)) :
    call.answer = (l.logged m logger bound call).2.map fun () => [] := by
  obtain ⟨_, _, host, -, -, hanswer⟩ := made
  rw [hanswer]
  exact congrArg Prod.snd (callLogger_of_logger hl h host)

/-- A call succeeded if the logger did not fail. -/
theorem succeeded_eq (hl : l.Links t.entries) (made : (l.program m fuel cap).Makes call)
    (h : t.logger? m call.index = some (logger, bound)) :
    call.succeeded = (l.logged m logger bound call).2.isOk := by
  rw [Wasm.ImportCall.succeeded, answer_eq hl made h]
  cases (l.logged m logger bound call).2 <;> rfl

/-- A call of a linked program adds to the account what it emits, and nothing else that goes to a
sink. -/
theorem emissionsTo_afterCall (hl : l.Links t.entries) (made : (l.program m fuel cap).Makes call)
    (sink : Sink) (occurred : Array Occurrence) :
    emissionsTo sink ((l.program m fuel cap).afterCall occurred call).toList =
      emissionsTo sink occurred.toList ++ (t.emissionTo? l m sink call).toList := by
  have hafter : (l.program m fuel cap).afterCall occurred call =
      (l.callLogger m call.caller call.index call.args call.memories occurred).1 := rfl
  rw [hafter, ImportTable.emissionTo?]
  cases h : t.logger? m call.index with
  | none =>
    rw [callLogger_of_none hl h]
    simp
  | some b =>
    obtain ⟨logger, bound⟩ := b
    have hemitted : emissionsTo sink (l.logged m logger bound call).1 =
        if bound = sink ∧ (l.logged m logger bound call).2.isOk then
          (logger.emission? (l.memoryAt? m call) call.args).toList
        else [] := Logger.emissionsTo_call ..
    rw [callLogger_of_logger hl h, Array.toList_appendList, emissionsTo_append, hemitted,
      ← succeeded_eq hl made h]
    by_cases hsinks : bound = sink ∧ call.succeeded <;> simp [hsinks]

/-- A list of calls leaves the emissions of those that succeeded, in order and once each. -/
theorem emissionsTo_foldl_afterCall (hl : l.Links t.entries) (sink : Sink)
    {calls : List (ImportCall Fault)} (made : ∀ call ∈ calls, (l.program m fuel cap).Makes call)
    (occurred : Array Occurrence) :
    emissionsTo sink (calls.foldl (l.program m fuel cap).afterCall occurred).toList =
      emissionsTo sink occurred.toList ++ calls.filterMap (t.emissionTo? l m sink) := by
  induction calls generalizing occurred with
  | nil => simp
  | cons call calls ih =>
    have hcall := made call List.mem_cons_self
    have hcalls := fun c hc => made c (List.mem_cons_of_mem call hc)
    rw [List.foldl_cons, ih hcalls, emissionsTo_afterCall hl hcall, List.append_assoc]
    congr 1
    cases h : t.emissionTo? l m sink call <;> simp [h]

/-- Each call of a linked program is a call of a logger of the table. -/
theorem binds_of_makes (hl : l.Links t.entries)
    (provided : ∀ i ∈ m.imports, l.provides m i = true)
    (made : (l.program m fuel cap).Makes call) : t.Binds l m call := by
  obtain ⟨f, type, host, hfunction, hargs, -⟩ := id made
  obtain ⟨k, hk, hf⟩ | ⟨_, _, _, _, _, _, hf⟩ := Wasm.Typing.functionSpace_cases hfunction
  · cases hf
    obtain ⟨logger, bound, hlogger, htype⟩ := hl.logger?_of_provided provided hk
    rw [htype] at hargs
    refine ⟨logger, bound, hlogger, hargs, ?_⟩
    rw [succeeded_eq hl made hlogger]
    exact Logger.isOk_call_iff _ _ bound _ _ hargs
  · cases hf

/-- Loggers give no results. -/
theorem eq_nil_of_callLogger {caller : Wasm.Caller} {index : Nat} {args results : List Operand}
    {memories : Array Memory} {occurred : Array Occurrence}
    (h : (l.callLogger m caller index args memories occurred).2 = .ok results) : results = [] := by
  unfold callLogger at h
  split at h
  · cases h
    rfl
  · next logger bound _ =>
    dsimp only at h
    generalize Logger.call _ _ logger bound caller args memories = called at h
    obtain ⟨more, e | ⟨⟩⟩ := called <;> cases h
    rfl

/-- A valid module makes a typed program with the loggers that it imports. -/
theorem types_program {functions : Array Wasm.FuncType} (valid : Wasm.Typing.Valid m functions)
    (hl : l.Links t.entries) (provided : ∀ i ∈ m.imports, l.provides m i = true) :
    Wasm.Typing.Types (Wasm.Typing.moduleContext m functions) (l.program m fuel cap) := by
  refine valid.types fun index k hk caller args results memories host _ hanswer => ?_
  obtain ⟨logger, bound, -, htype⟩ := hl.logger?_of_provided provided hk
  rw [htype, eq_nil_of_callLogger hanswer]
  rcases logger with (_ | _) | _ <;> exact .nil

end Linkage
end GuestHarness
