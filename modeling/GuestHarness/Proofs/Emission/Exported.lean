import GuestHarness.Proofs.Emission.Sources
import GuestHarness.Proofs.Wasm.Exports

/-! String loggers that read a memory the module exports. The memory is looked up in the instance that
calls, so that a guest's calls read it as they find it, from the start function on; when the host calls a
logger that the module exports again, no instance calls, and the logger is left without a memory. -/
namespace GuestHarness
open Wasm (Caller ImportCall Memory MemoryType MemoriesExtend)

namespace Wasm

/-- The module exports a memory under the name, and threads do not share it. -/
def Module.ExportsMemory (m : Module) (name : String) (index : Nat) : Prop :=
  ⟨name, .memory, index⟩ ∈ m.exports ∧
    ∃ type, m.memoryTypes[index]? = some type ∧ type.shared = false

namespace Machine

variable {σ ε : Type} {p : Program σ ε} {s : Store σ} {call : ImportCall ε}

theorem memories_of_called? {stack : List Operand} {f : Nat} (h : called? p s stack f = some call) :
    call.memories = s.memories := by
  unfold called? at h
  split at h <;> cases h
  rfl

theorem memories_of_calledIndirectly? {stack : List Operand} {type table : Nat}
    (h : calledIndirectly? p s stack type table = some call) : call.memories = s.memories := by
  unfold calledIndirectly? at h
  split at h
  · split at h
    · exact memories_of_called? h
    · cases h
  · cases h

/-- The call that a step makes finds the memories as the step does. -/
theorem memories_of_callFrom? {state : Store σ × Thread} (h : callFrom? p state = some call) :
    call.memories = state.1.memories := by
  obtain ⟨i, -, hcall⟩ := Option.bind_eq_some_iff.1 h
  unfold callBy? at hcall
  split at hcall
  · exact memories_of_called? hcall
  · exact memories_of_called? hcall
  · exact memories_of_calledIndirectly? hcall
  · exact memories_of_calledIndirectly? hcall
  · cases hcall

/-- The memories that a call finds extend those that were there when the run began. -/
theorem extend_of_mem_callsOfRun {n : Nat} {t : Thread} (h : call ∈ callsOfRun p n s t) :
    MemoriesExtend p.cap s.memories call.memories := by
  rw [callsOfRun_eq_filterMap] at h
  obtain ⟨state, hstate, hcall⟩ := List.mem_filterMap.1 h
  rw [memories_of_callFrom? hcall]
  exact (history_run p s t n).first _ (List.mem_map.2 ⟨state, hstate, rfl⟩)

theorem extend_of_mem_callsOfInvoke {f : Nat} {args : List Operand}
    (h : call ∈ callsOfInvoke p s f args) : MemoriesExtend p.cap s.memories call.memories := by
  unfold callsOfInvoke at h
  split at h
  · cases h
  · cases List.mem_singleton.1 h
    exact .refl s.memories
  · split at h
    · next henter =>
      rw [← (spends_of_enter henter).memories]
      exact extend_of_mem_callsOfRun h
    · cases h

theorem extend_of_mem_callsOfSetup {m : Module} (h : call ∈ callsOfSetup p m s) :
    MemoriesExtend p.cap s.memories call.memories := by
  unfold callsOfSetup at h
  split at h
  · cases h
  · cases helements : m.elements.foldlM placeElements s with
    | error kind =>
      rw [helements] at h
      cases h
    | ok s₁ =>
      rw [helements] at h
      dsimp only at h
      cases hdatas : m.datas.foldlM (placeData p) s₁ with
      | error kind =>
        rw [hdatas] at h
        cases h
      | ok s₂ =>
        rw [hdatas] at h
        obtain ⟨_, hplaced, hs₁⟩ := History.of_passages (R := MemoriesExtend p.cap) .refl
          Store.memories extend_placeElements s m.elements
        obtain ⟨_, hfilled, hs₂⟩ := History.of_passages (R := MemoriesExtend p.cap) .refl
          (f := placeData p) Store.memories extend_placeData s₁ m.datas
        obtain rfl := hs₁ s₁ helements
        obtain rfl := hs₂ s₂ hdatas
        refine (hplaced.whole.trans hfilled.whole).trans ?_
        dsimp only [callsOfStart] at h
        split at h
        · cases h
        · exact extend_of_mem_callsOfInvoke h

end Machine
end Wasm

namespace Instance

variable {i : Instance} {call : ImportCall Fault}

theorem extend_of_mem_callsBy {r : Request} (h : call ∈ i.callsBy r) :
    MemoriesExtend i.program.cap i.store.memories call.memories := by
  unfold callsBy at h
  split at h
  · exact Wasm.Machine.extend_of_mem_callsOfInvoke h
  · cases h

theorem extend_of_mem_callsDuring {rs : List Request} (h : call ∈ i.callsDuring rs) :
    MemoriesExtend i.program.cap i.store.memories call.memories := by
  induction rs generalizing i with
  | nil => cases h
  | cons r rs ih =>
    obtain h | h := List.mem_append.1 h
    · exact extend_of_mem_callsBy h
    · have hrest := ih h
      rw [show (i.answer r).2.program = i.program by rw [i.answer_eq r]] at hrest
      exact (i.history_answer r).whole.trans hrest

end Instance

namespace Linkage

variable {l : Linkage} {m : Wasm.Module}

/-- An import of a memory that is provided for leads to an address of the linkage. -/
theorem exists_address_of_provides {i : Wasm.Import} {type : MemoryType}
    (htype : i.type = .memory type) (h : l.provides m i = true) :
    ∃ a, l.address? i.module i.name = some a ∧ a < l.memories.size := by
  simp only [provides, Wasm.Module.importType?, htype] at h
  unfold address?
  cases hd : l.definition? i.module i.name with
  | none => simp [hd] at h
  | some d =>
    simp only [hd] at h
    cases d with
    | logger logger sink => simp [fits] at h
    | memory a =>
      refine ⟨a, rfl, ?_⟩
      by_contra hbound
      simp [fits, Array.getElem?_eq_none (Nat.not_lt.1 hbound)] at h

/-- Each memory that the module imports has its address. -/
theorem forall₂_importedMemories (provided : ∀ i ∈ m.imports, l.provides m i = true) :
    List.Forall₂ (fun _ a => a < l.memories.size) m.importedMemories (l.importedMemories m) := by
  unfold Wasm.Module.importedMemories importedMemories
  generalize m.imports = is at provided
  induction is with
  | nil => exact .nil
  | cons i is ih =>
    have hrest := ih fun j hj => provided j (List.mem_cons_of_mem i hj)
    cases htype : i.type with
    | memory type =>
      obtain ⟨a, ha, hbound⟩ := exists_address_of_provides htype (provided i List.mem_cons_self)
      rw [List.filterMap_cons_some (by rw [htype]), List.filterMap_cons_some (b := a) (by rw [htype, ha])]
      exact .cons hbound hrest
    | func k | table type | global type =>
      rw [List.filterMap_cons_none (by rw [htype]), List.filterMap_cons_none (by rw [htype])]
      exact hrest

/-- Each index of a memory leads to an address that the store of the module has. -/
theorem exists_address (provided : ∀ i ∈ m.imports, l.provides m i = true) {index : Nat}
    {type : MemoryType} (h : m.memoryTypes[index]? = some type) (fuel cap : Option Nat) :
    ∃ a, (l.program m fuel cap).memories[index]? = some a ∧
      a < l.memories.size + m.memories.length := by
  have himported := forall₂_importedMemories provided
  have hown : List.Forall₂ (fun _ a => a < l.memories.size + m.memories.length) m.memories
      (List.range' l.memories.size m.memories.length) := by
    refine List.forall₂_iff_get.2 ⟨by simp, fun k _ hk => ?_⟩
    rw [List.length_range'] at hk
    simp [hk]
  have hall := List.rel_append (himported.imp fun _ _ h => Nat.lt_add_right _ h) hown
  rw [Wasm.Module.memoryTypes, List.getElem?_toArray] at h
  obtain ⟨hindex, -⟩ := List.getElem?_eq_some_iff.1 h
  have haddress := hindex
  rw [hall.length_eq] at haddress
  refine ⟨_, ?_, hall.get hindex haddress⟩
  exact (List.getElem?_toArray ..).trans (List.getElem?_eq_getElem haddress)

/-- A name under which the module exports a memory leads to the address of that memory. -/
theorem exportedMemory?_of_exports (hnames : (m.exports.map Wasm.Export.name).Nodup)
    {name : String} {index : Nat} (h : m.ExportsMemory name index) (fuel cap : Option Nat) :
    l.exportedMemory? m name = (l.program m fuel cap).memories[index]? := by
  obtain ⟨hexport, type, htype, hshared⟩ := h
  simp only [exportedMemory?, Instance.exportedMemory?, Option.bind_eq_bind,
    (Wasm.Typing.export?_eq_some_iff hnames).2 hexport, htype, hshared, Option.bind_some]
  rfl

theorem exportedMemory?_eq_none (hnames : (m.exports.map Wasm.Export.name).Nodup)
    {name : String} (h : ∀ index, ¬ m.ExportsMemory name index) : l.exportedMemory? m name = none := by
  simp only [exportedMemory?, Instance.exportedMemory?, Option.bind_eq_bind]
  refine Option.bind_eq_none_iff.2 fun index hindex => Option.bind_eq_none_iff.2 fun type htype => ?_
  cases hshared : type.shared with
  | true => rfl
  | false =>
    exact absurd ⟨(Wasm.Typing.export?_eq_some_iff hnames).1 hindex, type, htype, hshared⟩ (h index)

end Linkage

namespace Logger

variable {registry : Registry} {exported? : String → Option Nat} {memories : Array Memory}
  {name : String}

/-- A guest that exports the memory has the text read from it. -/
theorem read_exported {a : Nat} {memory : Memory} (hexported : exported? name = some a)
    (hmemory : memories[a]? = some memory) (d : Descriptor) :
    read registry exported? .guest (.exported name) d memories = memory.readText d := by
  have hsource : source registry exported? .guest (.exported name) = .ok a := by
    simp only [source, hexported]
  rw [read, hsource, ← Option.getD_some (a := memory) (b := default), ← hmemory]
  rfl

/-- Where no instance calls, or none that exports the memory, no text is read. -/
theorem read_exported_of_lacking {caller : Caller}
    (h : caller = .host ∨ exported? name = none) (d : Descriptor) :
    read registry exported? caller (.exported name) d memories =
      .error (.memoryUnavailable name) := by
  have hsource : source registry exported? caller (.exported name) =
      .error (.memoryUnavailable name) := by
    obtain rfl | hnone := h
    · rfl
    · cases caller <;> simp only [source, hnone]
  rw [read, hsource]
  rfl

end Logger

namespace Loader

variable (l : Loader) (c : Compiled) (t : ImportTable)

/-- The module makes the call while it becomes an instance, or the instance does while it answers
requests. -/
def Calls (call : ImportCall Fault) : Prop :=
  call ∈ l.callsOfInstantiate c t ∨
    ∃ i rs, (l.instantiate c t).outcome = .ok i ∧ call ∈ i.callsDuring rs

/-- What is known of the calls of a string logger that reads the memory exported under a name. -/
structure ReadsExported (name : String) (sink : Sink) (call : ImportCall Fault) : Prop where
  /-- A guest that exports the memory has it read as it is at the call: the call fails as the reading of
  the text does, and else emits the text. -/
  reads {index : Nat} (exported : c.module.ExportsMemory name index) (guest : call.caller = .guest) :
    ∃ a memory offset length, (l.program c t).memories[index]? = some a ∧
      call.memories[a]? = some memory ∧ call.args = [.i32 offset, .i32 length] ∧
      call.answer = (memory.readText ⟨offset, length⟩).map (fun _ => []) ∧
      ∀ occurred, emissionsTo sink ((l.program c t).afterCall occurred call).toList =
        emissionsTo sink occurred.toList ++
          ((memory.readText ⟨offset, length⟩).toOption.map .text).toList
  /-- It fails for the range or the bytes only. -/
  fails {index : Nat} (exported : c.module.ExportsMemory name index) (guest : call.caller = .guest)
    {e : Fault} (failed : call.answer = .error e) : e.isDescriptorFault = true
  /-- A call of the host, or of a guest that exports no such memory, fails for want of it and emits
  nothing. -/
  lacks (lacking : call.caller = .host ∨ ∀ index, ¬ c.module.ExportsMemory name index) :
    call.answer = .error (.memoryUnavailable name) ∧
      ∀ sink occurred, emissionsTo sink ((l.program c t).afterCall occurred call).toList =
        emissionsTo sink occurred.toList

variable {l c t} {functions : Array Wasm.FuncType} {call : ImportCall Fault}

theorem Calls.starts (h : l.Calls c t call) : l.starts c t = true := by
  obtain h | ⟨i, rs, hi, -⟩ := h
  · unfold callsOfInstantiate at h
    split at h
    · assumption
    · cases h
  · exact (exists_setup_of_instantiate hi).1

theorem Calls.makes (valid : Wasm.Typing.Valid c.module functions) (h : l.Calls c t call) :
    (l.program c t).Makes call := by
  have hlinked := linked_of_starts h.starts valid
  obtain hmem | ⟨i, rs, hi, hmem⟩ := id h
  · rw [callsOfInstantiate_of_starts h.starts] at hmem
    exact hlinked.makes_of_mem_callsOfSetup hmem
  · obtain ⟨hready, -⟩ := Session.accounts_callsOfInstantiate (h := ⟨0, c⟩) t l valid
    exact hlinked.makes_of_mem_callsDuring (hready i hi).2 hmem

/-- A call finds the memories as an extension of those that were linked and of the module's own. -/
theorem Calls.extend (h : l.Calls c t call) :
    MemoriesExtend l.cap (l.initialStore c t).memories call.memories := by
  obtain hmem | ⟨i, rs, hi, hmem⟩ := id h
  · rw [callsOfInstantiate_of_starts h.starts] at hmem
    exact Wasm.Machine.extend_of_mem_callsOfSetup hmem
  · obtain ⟨-, hprogram, s, hs, hstore⟩ := exists_setup_of_instantiate hi
    obtain ⟨_, hsetup, hlast⟩ :=
      Wasm.Machine.history_setup (l.program c t) (l.initialStore c t) c.module
    obtain rfl := hlast s hs
    have hlater := Instance.extend_of_mem_callsDuring hmem
    rw [hprogram, hstore] at hlater
    exact hsetup.whole.trans hlater

/-- Each memory of the module is there whenever a call is made. -/
theorem Calls.exists_memory (h : l.Calls c t call) {index : Nat} {type : MemoryType}
    (htype : c.module.memoryTypes[index]? = some type) :
    ∃ a memory, (l.program c t).memories[index]? = some a ∧ call.memories[a]? = some memory := by
  obtain ⟨-, -, hprovided⟩ := starts_iff.1 h.starts
  obtain ⟨a, ha, hbound⟩ := Linkage.exists_address hprovided htype l.fuel l.cap
  have hsize : call.memories.size = (l.linkage t).memories.size + c.module.memories.length := by
    rw [h.extend.size]
    simp [initialStore, Wasm.Module.initialStore]
  exact ⟨a, _, ha, Array.getElem?_eq_getElem (hsize ▸ hbound)⟩

/-- The call of a string logger is answered as its text is read, and emits the text if there is one. -/
theorem exists_read_of_makes (hstarts : l.starts c t = true)
    (valid : Wasm.Typing.Valid c.module functions) (made : (l.program c t).Makes call)
    {source : MemorySource} {sink : Sink}
    (hlogger : t.logger? c.module call.index = some (.string source, sink)) :
    ∃ offset length text, call.args = [.i32 offset, .i32 length] ∧
      Logger.read (l.linkage t).registry ((l.linkage t).exportedMemory? c.module) call.caller source
        ⟨offset, length⟩ call.memories = text ∧
      call.answer = text.map (fun _ => []) ∧
      ∀ sink' occurred, emissionsTo sink' ((l.program c t).afterCall occurred call).toList =
        emissionsTo sink' occurred.toList ++
          if sink = sink' then (text.toOption.map .text).toList else [] := by
  obtain ⟨-, -, hprovided⟩ := starts_iff.1 hstarts
  have hlinked := linked_of_starts hstarts valid
  obtain ⟨_, _, hbound, hargs, -⟩ := Linkage.binds_of_makes hlinked.links hprovided made
  cases hlogger.symm.trans hbound
  obtain ⟨offset, vs, hoffset, hvs⟩ := hargs.exists_i32
  obtain ⟨length, ws, rfl, hws⟩ := hvs.exists_i32
  cases hws
  have hanswer := Linkage.answer_eq hlinked.links made hlogger
  rw [Linkage.logged, hoffset, Logger.snd_call_string] at hanswer
  refine ⟨offset, length, _, hoffset, rfl, ?_, fun sink' occurred => ?_⟩
  · rw [hanswer]
    cases Logger.read _ _ _ _ _ _ <;> rfl
  · have hemission : (Logger.string source).emission? ((l.linkage t).memoryAt? c.module call) call.args =
        (Logger.read (l.linkage t).registry ((l.linkage t).exportedMemory? c.module) call.caller source
          ⟨offset, length⟩ call.memories).toOption.map .text := by
      rw [hoffset]
      exact Logger.emission?_string ..
    have hafter := Linkage.emissionsTo_afterCall hlinked.links made sink' occurred
    rw [program, hafter, ImportTable.emissionTo?, hlogger]
    simp only [Option.bind_eq_bind, Option.bind_some, hemission, Wasm.ImportCall.succeeded, hanswer]
    cases Logger.read _ _ _ _ _ _ <;> by_cases hsink : sink = sink' <;>
      simp [hsink, Except.map, Except.toOption, Except.isOk, Except.toBool]

theorem Calls.readsExported (hm : Wasm.Typing.module c.module = true)
    (valid : Wasm.Typing.Valid c.module functions) (h : l.Calls c t call) {name : String} {sink : Sink}
    (hlogger : t.logger? c.module call.index = some (.string (.exported name), sink)) :
    l.ReadsExported c t name sink call := by
  obtain ⟨-, hnames⟩ := Wasm.Typing.exports_of_module hm
  obtain ⟨offset, length, text, hargs, hread, hanswer, hemitted⟩ :=
    exists_read_of_makes h.starts valid (h.makes valid) hlogger
  have hguest {index : Nat} (exported : c.module.ExportsMemory name index)
      (guest : call.caller = .guest) : ∃ a memory, (l.program c t).memories[index]? = some a ∧
        call.memories[a]? = some memory ∧ text = memory.readText ⟨offset, length⟩ := by
    obtain ⟨-, type, htype, -⟩ := id exported
    obtain ⟨a, memory, ha, hmemory⟩ := h.exists_memory htype
    have hexported : (l.linkage t).exportedMemory? c.module name = some a := by
      rw [Linkage.exportedMemory?_of_exports hnames exported l.fuel l.cap]
      exact ha
    rw [guest, Logger.read_exported hexported hmemory] at hread
    exact ⟨a, memory, ha, hmemory, hread.symm⟩
  refine ⟨fun exported guest => ?_, fun exported guest e failed => ?_, fun lacking => ?_⟩
  · obtain ⟨a, memory, ha, hmemory, rfl⟩ := hguest exported guest
    refine ⟨a, memory, offset, length, ha, hmemory, hargs, hanswer, fun occurred => ?_⟩
    rw [hemitted, if_pos rfl]
  · obtain ⟨a, memory, -, -, rfl⟩ := hguest exported guest
    rw [hanswer, Logger.map_eq_error_iff] at failed
    exact Wasm.Memory.isDescriptorFault_of_readText failed
  · rw [Logger.read_exported_of_lacking
      (lacking.imp_right fun hnone => Linkage.exportedMemory?_eq_none hnames hnone)] at hread
    subst hread
    refine ⟨hanswer, fun sink' occurred => ?_⟩
    rw [hemitted]
    simp [Except.toOption]

end Loader

/-- A string logger that is to read the memory which a module exports under a name reads it whenever the
guest calls, with the contents and the size that the memory has then: from the start function or from a
function that the host called, directly or through a table. It is without a memory exactly if the host
calls it, or if the module exports no memory under that name that is its own alone. -/
theorem exported_logger_reads_for_guests (l : Loader) (c : Compiled) (t : ImportTable)
    (valid : Wasm.Typing.module c.module = true) (call : ImportCall Fault) (made : l.Calls c t call)
    (name : String) (sink : Sink)
    (logger : t.logger? c.module call.index = some (.string (.exported name), sink)) :
    l.ReadsExported c t name sink call := by
  obtain ⟨functions, hvalid⟩ := Wasm.Typing.exists_valid_of_module valid
  exact made.readsExported valid hvalid logger

/-- A guest with a text in the memory that it exports. It logs the text, and exports the logger too. -/
def relayingGuest : Wasm.Module where
  types := #[⟨[.num .i32, .num .i32], []⟩, ⟨[], []⟩]
  imports := [⟨consoleModule, logFunction, .func 0⟩]
  functions := [1]
  memories := [⟨⟨1, none⟩, false⟩]
  exports := [⟨"memory", .memory, 0⟩, ⟨"log", .func, 0⟩, ⟨"main", .func, 1⟩]
  codes := [⟨[], [.literal (.i32 0), .literal (.i32 2), .call 0]⟩]
  datas := [⟨.active 0 [.literal (.i32 0)], [0x68, 0x69]⟩]

def relayingTable : ImportTable := .stringLoggerExported (.recorder 0) defaultMemoryExport

theorem exportsMemory_relayingGuest : relayingGuest.ExportsMemory "memory" 0 :=
  ⟨by decide, ⟨⟨1, none⟩, false⟩, by decide, rfl⟩

/-- Asked to run, the guest logs its text; the host, which calls the same logger with the same arguments,
is told that there is no memory. -/
theorem host_call_misses_exported_memory :
    relayingGuest.ExportsMemory "memory" 0 ∧
      ∃ i, (({} : Loader).instantiate ⟨"guest", relayingGuest, 0⟩ relayingTable).outcome = .ok i ∧
        emissionsTo (.recorder 0) (i.answer (.invoke "main" [])).1.noticed = [.text "hi"] ∧
        (i.answer (.invoke "log" [.i32 0, .i32 2])).1.outcome =
          .error (.memoryUnavailable "memory") := by
  refine ⟨exportsMemory_relayingGuest, ?_⟩
  obtain ⟨i, hi, hemitted, hrefused⟩ := Loader.exists_instantiated (l := {})
    (c := ⟨"guest", relayingGuest, 0⟩) (t := relayingTable)
    (P := fun i => emissionsTo (.recorder 0) (i.answer (.invoke "main" [])).1.noticed = [.text "hi"] ∧
      (i.answer (.invoke "log" [.i32 0, .i32 2])).1.outcome.map (fun _ => ()) =
        .error (.memoryUnavailable "memory"))
    (by decide +kernel)
  exact ⟨i, hi, hemitted, Logger.map_eq_error_iff.1 hrefused⟩

theorem exported_logger_reads_for_guests_relayingGuest :
    Wasm.Typing.module relayingGuest = true ∧
      ∃ call, ({} : Loader).Calls ⟨"guest", relayingGuest, 0⟩ relayingTable call ∧
        relayingTable.logger? relayingGuest call.index =
          some (.string (.exported "memory"), .recorder 0) ∧
        ∃ memory : Memory, call.answer = (memory.readText ⟨0, 2⟩).map fun _ => [] := by
  have valid : Wasm.Typing.module relayingGuest = true := by decide +kernel
  obtain ⟨i, hi, call, hcall, hlogger, hguest, hargs⟩ := Loader.exists_instantiated (l := {})
    (c := ⟨"guest", relayingGuest, 0⟩) (t := relayingTable)
    (P := fun i => ∃ call ∈ i.callsDuring [.invoke "main" []],
      relayingTable.logger? relayingGuest call.index =
        some (.string (.exported "memory"), .recorder 0) ∧
      call.caller = .guest ∧ call.args = [.i32 0, .i32 2])
    (by decide +kernel)
  refine ⟨valid, ?_⟩
  have made : ({} : Loader).Calls ⟨"guest", relayingGuest, 0⟩ relayingTable call :=
    .inr ⟨i, _, hi, hcall⟩
  have hreads := exported_logger_reads_for_guests {} ⟨"guest", relayingGuest, 0⟩ relayingTable valid
    call made _ _ hlogger
  obtain ⟨a, memory, offset, length, -, -, hargs', hanswer, -⟩ :=
    hreads.reads exportsMemory_relayingGuest hguest
  rw [hargs] at hargs'
  cases hargs'
  exact ⟨call, made, hlogger, memory, hanswer⟩

end GuestHarness
