import GuestHarness.Proofs.Emission.Requests
import GuestHarness.Proofs.Emission.Trace

/-! What the accounts of an instance hold, from its start on: for each sink just what the calls emit
that the instance makes. This is kept up by every answer, whether or not the run behind it fails. -/
namespace GuestHarness
open Wasm (ImportCall)
open Wasm.Typing (Valid moduleContext)

/-- What a table was linked to provides a valid module with all that it imports. -/
structure Linked (t : ImportTable) (l : Linkage) (m : Wasm.Module)
    (functions : Array Wasm.FuncType) : Prop where
  links : l.Links t.entries
  provided : ∀ i ∈ m.imports, l.provides m i = true
  valid : Valid m functions

/-- An instance of a linked module between two calls. -/
structure Ready (l : Linkage) (m : Wasm.Module) (functions : Array Wasm.FuncType)
    (fuel cap : Option Nat) (i : Instance) : Prop where
  program : i.program = l.program m fuel cap
  idle : i.store.host = #[]
  suits : (moduleContext m functions).Suits i.store

/-- The calls are calls of loggers, and what they emit is all that went to sinks. -/
structure Accounts (t : ImportTable) (l : Linkage) (m : Wasm.Module)
    (calls : List (ImportCall Fault)) (noticed : List Occurrence) : Prop where
  bound : ∀ call ∈ calls, t.Binds l m call
  emitted (sink : Sink) : emissionsTo sink noticed = calls.filterMap (t.emissionTo? l m sink)

variable {t : ImportTable} {l : Linkage} {m : Wasm.Module} {functions : Array Wasm.FuncType}
  {fuel cap : Option Nat} {i : Instance}

namespace Accounts

variable {calls calls' : List (ImportCall Fault)} {noticed noticed' : List Occurrence}

theorem silent (h : ∀ sink, emissionsTo sink noticed = []) : Accounts t l m [] noticed :=
  ⟨by simp, h⟩

theorem append (h : Accounts t l m calls noticed) (h' : Accounts t l m calls' noticed') :
    Accounts t l m (calls ++ calls') (noticed ++ noticed') where
  bound call hcall := (List.mem_append.1 hcall).elim (h.bound call) (h'.bound call)
  emitted sink := by rw [emissionsTo_append, h.emitted, h'.emitted, List.filterMap_append]

theorem of_emissionsTo_eq (h : Accounts t l m calls noticed)
    (heq : ∀ sink, emissionsTo sink noticed' = emissionsTo sink noticed) :
    Accounts t l m calls noticed' :=
  ⟨h.bound, fun sink => by rw [heq, h.emitted]⟩

/-- An account holds what calls made of it that found it empty. -/
theorem of_foldl (h : Linked t l m functions)
    (made : ∀ call ∈ calls, (l.program m fuel cap).Makes call) :
    Accounts t l m calls (calls.foldl (l.program m fuel cap).afterCall #[]).toList where
  bound call hcall := Linkage.binds_of_makes h.links h.provided (made call hcall)
  emitted sink := Linkage.emissionsTo_foldl_afterCall h.links sink made #[]

end Accounts

theorem Instance.run_eq (i : Instance) (exported : String) (index : Nat) (args : List Value) :
    let invoked := Wasm.Machine.invoke i.program i.store index (args.map .ofValue)
    (i.run exported index args).1.noticed = invoked.2.host.toList ∧
      (i.run exported index args).2 = { i with store := { invoked.2 with host := #[] } } := by
  obtain ⟨name, module, registry, program, store⟩ := i
  dsimp only [run]
  generalize Wasm.Machine.invoke program store index (args.map .ofValue) = invoked
  exact ⟨rfl, rfl⟩

theorem Linkage.noticed_start (l : Linkage) (m : Wasm.Module) (name : String)
    (fuel cap : Option Nat) :
    (l.start m name fuel cap).noticed =
      (Wasm.Machine.setup (l.program m fuel cap) m (m.initialStore l.memories #[])).1.host.toList := by
  unfold start
  dsimp only
  split <;> rfl

theorem Ready.of_start (hsuits : (moduleContext m functions).Suits
      (Wasm.Machine.setup (l.program m fuel cap) m (m.initialStore l.memories #[])).1)
    {name : String} (hi : (l.start m name fuel cap).outcome = .ok i) :
    Ready l m functions fuel cap i := by
  unfold Linkage.start at hi
  dsimp only at hi
  split at hi <;> cases hi
  exact ⟨rfl, rfl, hsuits⟩

namespace Linked

theorem types (h : Linked t l m functions) :
    Wasm.Typing.Types (moduleContext m functions) (l.program m fuel cap) :=
  Linkage.types_program h.valid h.links h.provided

/-- Running a function keeps an instance ready, and its account holds what its calls emit. -/
theorem run (h : Linked t l m functions) (hi : Ready l m functions fuel cap i) {s : Signature}
    {index : Nat} {args : List Value} (hargs : args.map Value.type = s.params)
    (hindex : i.program.functions[index]?.map Wasm.Function.type = some (.ofSignature s))
    (exported : String) :
    Ready l m functions fuel cap (i.run exported index args).2 ∧
      Accounts t l m
        (Wasm.Machine.callsOfInvoke i.program i.store index (args.map .ofValue))
        (i.run exported index args).1.noticed := by
  obtain ⟨hnoticed, hafter⟩ := i.run_eq exported index args
  have htypes : Wasm.Typing.Types (moduleContext m functions) (l.program m fuel cap) := h.types
  rw [hi.program] at hnoticed hafter hindex ⊢
  rw [hnoticed, hafter, Wasm.Machine.host_invoke]
  rw [htypes.functions] at hindex
  have htyped : Wasm.HaveTypes (args.map .ofValue) (Wasm.FuncType.ofSignature s).params := by
    rw [Wasm.FuncType.ofSignature, ← hargs, List.map_map]
    exact Wasm.HaveTypes.ofValues args
  obtain ⟨hsuits, -⟩ := Wasm.Typing.sound_invoke htypes hi.suits hindex htyped
  refine ⟨⟨rfl, rfl, hsuits⟩, ?_⟩
  rw [hi.idle]
  exact .of_foldl h fun call hcall =>
    Wasm.Typing.makes_of_mem_callsOfInvoke htypes hi.suits hindex htyped hcall

/-- Answering a request keeps an instance ready, and its account holds what its calls emit. -/
theorem answer (h : Linked t l m functions) (hi : Ready l m functions fuel cap i) (r : Request) :
    Ready l m functions fuel cap (i.answer r).2 ∧
      Accounts t l m (i.callsBy r) (i.answer r).1.noticed := by
  unfold Instance.callsBy
  cases hentry : i.entry? r with
  | none =>
    obtain ⟨hsame, hsilent⟩ := Instance.answer_of_entry?_eq_none hentry
    rw [hsame]
    exact ⟨hi, .silent hsilent⟩
  | some entry =>
    obtain ⟨index, args⟩ := entry
    have henters := Instance.enters_of_entry? hentry
    obtain ⟨s, hargs, hindex⟩ := henters.type
    obtain ⟨exported, hanswer, hemitted⟩ := henters.run
    obtain ⟨hready, haccounts⟩ := h.run hi hargs hindex exported
    rw [hanswer]
    exact ⟨hready, haccounts.of_emissionsTo_eq hemitted⟩

/-- So it is for requests answered one after the other. -/
theorem answers (h : Linked t l m functions) (hi : Ready l m functions fuel cap i)
    (rs : List Request) :
    Accounts t l m (i.callsDuring rs) ((i.answers rs).1.flatMap Account.noticed) := by
  induction rs generalizing i with
  | nil => exact .silent fun _ => rfl
  | cons r rs ih =>
    obtain ⟨hready, haccounts⟩ := h.answer hi r
    exact haccounts.append (ih hready)

/-- The account of making a module an instance holds what the calls of its start function emit. -/
theorem start (h : Linked t l m functions) (name : String) :
    (∀ i, (l.start m name fuel cap).outcome = .ok i → Ready l m functions fuel cap i) ∧
      Accounts t l m
        (Wasm.Machine.callsOfSetup (l.program m fuel cap) m (m.initialStore l.memories #[]))
        (l.start m name fuel cap).noticed := by
  have hinitial : (moduleContext m functions).Suits
      (m.initialStore l.memories (#[] : Array Occurrence)) :=
    h.valid.suits (Linkage.importedGlobals_of_provided h.provided) l.memories #[]
  obtain ⟨hsuits, hmade⟩ := Wasm.Typing.sound_setup h.types hinitial h.valid.start
  refine ⟨fun i hi => Ready.of_start hsuits hi, ?_⟩
  rw [Linkage.noticed_start, Wasm.Machine.host_setup]
  exact .of_foldl h hmade

end Linked
end GuestHarness
