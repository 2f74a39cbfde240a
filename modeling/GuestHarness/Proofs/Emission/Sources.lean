import GuestHarness.Proofs.Import.Aliasing
import GuestHarness.Proofs.Loading.Memories

/-! The memories that string loggers read of the host. The check has a module import something under the
key of the memory, and not that it be a memory: a logger is left without one exactly if no memory of the
table has the joined name of that key, which can be if the key is that of a function. -/
namespace GuestHarness
open Wasm (ImportCall Memory Operand)

namespace Wasm.Module

/-- The module declares that what it imports under the key is a memory. -/
def ImportsMemory (m : Module) (module name : String) : Prop :=
  ∃ i ∈ m.imports, i.module = module ∧ i.name = name ∧ ∃ type, i.type = .memory type

theorem hasImport_iff {m : Module} {module name : String} :
    m.hasImport module name = true ↔ ∃ i ∈ m.imports, i.module = module ∧ i.name = name := by
  simp [hasImport]

theorem exists_of_importType?_memory {m : Module} {i : Import} {type : MemoryType}
    (h : m.importType? i = some (.memory type)) : i.type = .memory type := by
  unfold importType? at h
  cases htype : i.type with
  | memory type' =>
    simp only [htype, Option.some.injEq, ExternType.memory.injEq] at h
    rw [h]
  | func k =>
    simp only [htype] at h
    obtain ⟨type', -, heq⟩ := Option.map_eq_some_iff.1 h
    cases heq
  | table type' | global type' => simp [htype] at h

end Wasm.Module

/-- Only a memory satisfies an import of a memory, and it satisfies no other. -/
theorem Offer.isMemory_iff_of_satisfies {o : Offer} {declared : Wasm.ExternType}
    (h : o.satisfies declared = true) : o.isMemory = true ↔ ∃ type, declared = .memory type := by
  cases o <;> cases declared <;> simp_all [satisfies, isMemory]

/-- Reading a text fails for its range or its bytes, never for want of the memory. -/
theorem Wasm.Memory.readText_ne_memoryUnavailable (m : Memory) (d : Descriptor) (key : String) :
    m.readText d ≠ .error (.memoryUnavailable key) := by
  rw [readText, readBytes_eq]
  by_cases hbounds : d.stop ≤ m.size
  · rw [if_pos hbounds]
    dsimp only
    cases Text.Utf8.decode (m.slice d.offset.toNat d.length.toNat) <;> simp
  · rw [if_neg hbounds]
    simp

namespace Logger

variable {registry : Registry} {exported? : String → Option Nat} {sink : Sink}
  {caller : Wasm.Caller} {args : List Operand} {memories : Array Memory} {module name key : String}

theorem map_eq_error_iff {α β : Type} {x : Except Fault α} {f : α → β} {e : Fault} :
    x.map f = .error e ↔ x = .error e := by
  cases x <;> simp [Except.map]

/-- A string logger fails as the reading of its text does. -/
theorem snd_call_string (source : MemorySource) (offset length : UInt32) :
    (Logger.call registry exported? (.string source) sink caller [.i32 offset, .i32 length]
        memories).2 =
      (Logger.read registry exported? caller source ⟨offset, length⟩ memories).map fun _ => () := by
  rw [Logger.call]
  cases Logger.read registry exported? caller source ⟨offset, length⟩ memories <;> rfl

/-- A text lacks its memory exactly if the registry does not know the joined name. -/
theorem read_eq_memoryUnavailable_iff (d : Descriptor) :
    Logger.read registry exported? caller (.imported module name) d memories =
        .error (.memoryUnavailable key) ↔
      key = qualifiedName module name ∧ registry.find? key = none := by
  rw [Logger.read, Logger.source]
  cases hfind : registry.find? (qualifiedName module name) with
  | none =>
    constructor
    · intro h
      cases h
      exact ⟨rfl, hfind⟩
    · rintro ⟨rfl, -⟩
      rfl
  | some a =>
    refine iff_of_false ((memories[a]?.getD default).readText_ne_memoryUnavailable d key) ?_
    rintro ⟨rfl, hnone⟩
    rw [hfind] at hnone
    cases hnone

theorem call_eq_memoryUnavailable_iff
    (hargs : Wasm.HaveTypes args (Wasm.FuncType.ofSignature
      (Logger.string (.imported module name)).signature).params) :
    (Logger.call registry exported? (.string (.imported module name)) sink caller args memories).2 =
        .error (.memoryUnavailable key) ↔
      key = qualifiedName module name ∧ registry.find? key = none := by
  obtain ⟨offset, vs, rfl, hvs⟩ := hargs.exists_i32
  obtain ⟨length, ws, rfl, hws⟩ := hvs.exists_i32
  cases hws
  rw [snd_call_string, map_eq_error_iff, read_eq_memoryUnavailable_iff]

end Logger

theorem Linkage.Registers.find_eq_none_iff {l : Linkage} {es : List ImportEntry}
    (hl : l.Registers es) (key : String) :
    l.registry.find? key = none ↔ ∀ e ∈ memoriesIn es, e.joined ≠ key := by
  rw [hl.find]
  cases hlast : lastJoined? (memoriesIn es) key with
  | none =>
    refine iff_of_true rfl fun e he hjoined => ?_
    subst hjoined
    obtain ⟨e', hsome⟩ := lastJoined?_isSome he
    cases hlast.symm.trans hsome
  | some e =>
    obtain ⟨he, hjoined⟩ := mem_of_lastJoined? hlast
    obtain ⟨a, ha, -⟩ := hl.exists_address he
    refine iff_of_false (fun hnone => ?_) fun hdiffer => hdiffer e he hjoined
    rw [Option.bind_some, ha] at hnone
    cases hnone

/-- What is known of the calls of a string logger that reads the host's memory under a key. -/
structure ImportTable.ReadsImported (t : ImportTable) (m : Wasm.Module) (module name : String)
    (call : ImportCall Fault) : Prop where
  /-- The module imports something under the key. -/
  imported : m.hasImport module name = true
  /-- The table offers something there: a memory exactly if the module imports a memory. -/
  offered : ∃ e, t.find? module name = some e ∧
    (e.offer.isMemory = true ↔ m.ImportsMemory module name)
  /-- The call is left without a memory exactly if none of the table has the joined name of the key. -/
  lacking (key : String) : call.answer = .error (.memoryUnavailable key) ↔
    key = qualifiedName module name ∧ ∀ e ∈ t.memoryEntries, e.joined ≠ key
  /-- That is never so if what the module imports under the key is a memory. -/
  supplied (memory : m.ImportsMemory module name) (key : String) :
    call.answer ≠ .error (.memoryUnavailable key)

namespace ImportTable

variable {t : ImportTable} {m : Wasm.Module} {l : Linkage} {module name : String} {sink : Sink}
  {index : Nat}

/-- The check has a module import something under the key of each memory that its loggers read. -/
theorem hasImport_of_check {moduleName : String} (hcheck : t.check m moduleName = .ok ())
    (h : t.logger? m index = some (.string (.imported module name), sink)) :
    m.hasImport module name = true := by
  simp only [logger?, Option.bind_eq_bind, Option.bind_eq_some_iff] at h
  obtain ⟨⟨i, k⟩, hi, e, he, hoffer⟩ := h
  obtain ⟨hmem, -⟩ := Wasm.Module.mem_of_functionImports hi
  have hnone := (t.check_eq_ok_iff m).1 hcheck i hmem
  obtain ⟨e', declared, he', hdeclared, hsatisfies⟩ := provided_of_objection?_eq_none hnone
  cases he.symm.trans he'
  cases hlogger : e.offer with
  | memory pages => simp [hlogger] at hoffer
  | logger logger bound =>
    simp only [hlogger, Option.some.injEq, Prod.mk.injEq] at hoffer
    obtain ⟨rfl, rfl⟩ := hoffer
    rw [hlogger] at hsatisfies
    simp only [objection?, he, hdeclared, hsatisfies, if_true, hlogger] at hnone
    split at hnone
    · next himport => exact himport
    · cases hnone

/-- Under a key that the module imports, the table has what the module declares. -/
theorem exists_offer_of_hasImport (hl : l.Links t.entries)
    (provided : ∀ i ∈ m.imports, l.provides m i = true) (h : m.hasImport module name = true) :
    ∃ e, t.find? module name = some e ∧ (e.offer.isMemory = true ↔ m.ImportsMemory module name) := by
  obtain ⟨i, hi, rfl, rfl⟩ := Wasm.Module.hasImport_iff.1 h
  obtain ⟨e, declared, he, hdeclared, hsatisfies⟩ := (hl.provides_iff m i).1 (provided i hi)
  refine ⟨e, he, fun hmemory => ?_, ?_⟩
  · obtain ⟨type, rfl⟩ := (Offer.isMemory_iff_of_satisfies hsatisfies).1 hmemory
    exact ⟨i, hi, rfl, rfl, type, Wasm.Module.exists_of_importType?_memory hdeclared⟩
  · rintro ⟨j, hj, hmodule, hname, type, htype⟩
    obtain ⟨e', declared', he', hdeclared', hsatisfies'⟩ := (hl.provides_iff m j).1 (provided j hj)
    rw [hmodule, hname] at he'
    cases he.symm.trans he'
    rw [Wasm.Module.importType?, htype] at hdeclared'
    cases hdeclared'
    exact (Offer.isMemory_iff_of_satisfies hsatisfies').2 ⟨type, rfl⟩

theorem mem_memoryEntries {e : ImportEntry} (he : t.find? module name = some e)
    (hmemory : e.offer.isMemory = true) :
    e ∈ t.memoryEntries ∧ e.joined = qualifiedName module name := by
  obtain ⟨hmem, rfl, rfl⟩ := mem_of_find? he
  exact ⟨List.mem_filter.2 ⟨hmem, hmemory⟩, rfl⟩

end ImportTable

namespace Loader

variable {l : Loader} {c : Compiled} {t : ImportTable} {functions : Array Wasm.FuncType}

theorem readsImported (hstarts : l.starts c t = true)
    (valid : Wasm.Typing.Valid c.module functions) {call : ImportCall Fault}
    (made : (l.program c t).Makes call) {module name : String} {sink : Sink}
    (h : t.logger? c.module call.index = some (.string (.imported module name), sink)) :
    t.ReadsImported c.module module name call := by
  obtain ⟨hcheck, hlink, hprovided⟩ := starts_iff.1 hstarts
  have hlinked := linked_of_starts hstarts valid
  have himport := ImportTable.hasImport_of_check hcheck h
  have hoffered := ImportTable.exists_offer_of_hasImport hlinked.links hprovided himport
  have hlacking (key : String) : call.answer = .error (.memoryUnavailable key) ↔
      key = qualifiedName module name ∧ ∀ e ∈ t.memoryEntries, e.joined ≠ key := by
    have hfailed : call.answer = .error (.memoryUnavailable key) ↔
        ((l.linkage t).logged c.module (.string (.imported module name)) sink call).2 =
          .error (.memoryUnavailable key) := by
      rw [Linkage.answer_eq hlinked.links made h, Logger.map_eq_error_iff]
    obtain ⟨logger, bound, hbound, hargs, -⟩ := Linkage.binds_of_makes hlinked.links hprovided made
    cases h.symm.trans hbound
    have hregisters : (l.linkage t).Registers t.entries := ImportTable.registers_of_link hlink
    rw [hfailed, Linkage.logged, Logger.call_eq_memoryUnavailable_iff hargs,
      hregisters.find_eq_none_iff]
    rfl
  refine ⟨himport, hoffered, hlacking, fun hmemory key hanswer => ?_⟩
  obtain ⟨rfl, hdiffer⟩ := (hlacking key).1 hanswer
  obtain ⟨e, he, hoffer⟩ := hoffered
  obtain ⟨hmem, hjoined⟩ := ImportTable.mem_memoryEntries he (hoffer.2 hmemory)
  exact hdiffer e hmem hjoined

end Loader

/-- A string logger that reads the host's memory under a key is called without one exactly if no memory of
the table has the joined name of that key. A module that passed the check imports something under the key,
and if that is a memory, no call is without it. This holds of all calls in the course of making an instance
and of its answers. -/
theorem logger_is_without_memory_iff (l : Loader) (c : Compiled) (t : ImportTable)
    (valid : Wasm.Typing.module c.module = true) (i : Instance)
    (made : (l.instantiate c t).outcome = .ok i) (rs : List Request) :
    ∀ call ∈ l.callsOfInstantiate c t ++ i.callsDuring rs, ∀ module name sink,
      t.logger? c.module call.index = some (.string (.imported module name), sink) →
        t.ReadsImported c.module module name call := by
  obtain ⟨functions, hvalid⟩ := Wasm.Typing.exists_valid_of_module valid
  obtain ⟨hready, -⟩ := Session.accounts_callsOfInstantiate (h := ⟨0, c⟩) t l hvalid
  obtain ⟨hlinked, hi⟩ := hready i made
  obtain ⟨hstarts, -⟩ := Loader.exists_setup_of_instantiate made
  intro call hcall module name sink hlogger
  refine Loader.readsImported hstarts hvalid ?_ hlogger
  obtain hcall | hcall := List.mem_append.1 hcall
  · rw [Loader.callsOfInstantiate_of_starts hstarts] at hcall
    exact hlinked.makes_of_mem_callsOfSetup hcall
  · exact hlinked.makes_of_mem_callsDuring hi hcall

/-- A guest that has a text logged of no bytes. -/
def textGuest : Wasm.Module where
  types := #[⟨[.num .i32, .num .i32], []⟩, ⟨[], []⟩]
  imports := [⟨consoleModule, logFunction, .func 0⟩]
  functions := [1]
  exports := [⟨"main", .func, 1⟩]
  codes := [⟨[], [.literal (.i32 0), .literal (.i32 0), .call 0]⟩]

/-- A string logger that is to read a memory under the key of the logger itself. -/
def selfReading : ImportTable :=
  ImportTable.empty.insert consoleModule logFunction
    (.logger (.string (.imported consoleModule logFunction)) (.recorder 0))

/-- The guest passes the check and becomes an instance, and its logger has no memory to read. -/
theorem logger_reads_its_own_key :
    selfReading.check textGuest "guest" = .ok () ∧
      ∃ i, (({} : Loader).instantiate ⟨"guest", textGuest, 0⟩ selfReading).outcome = .ok i ∧
        (i.answer (.invoke "main" [])).1.outcome = .error (.memoryUnavailable "console.log") := by
  refine ⟨by decide +kernel, ?_⟩
  have hrun : ((({} : Loader).instantiate ⟨"guest", textGuest, 0⟩ selfReading).outcome.toOption.any
      fun i => decide ((i.answer (.invoke "main" [])).1.outcome.map (fun _ => ()) =
        .error (.memoryUnavailable "console.log"))) = true := by
    decide +kernel
  cases hi : (({} : Loader).instantiate ⟨"guest", textGuest, 0⟩ selfReading).outcome with
  | error e => simp [hi, Except.toOption] at hrun
  | ok i =>
    simp only [hi, Except.toOption, Option.any_some, decide_eq_true_eq] at hrun
    refine ⟨i, rfl, ?_⟩
    cases ho : (i.answer (.invoke "main" [])).1.outcome with
    | ok reply => simp [ho, Except.map] at hrun
    | error e =>
      simp only [ho, Except.map, Except.error.injEq] at hrun
      rw [hrun]

theorem logger_is_without_memory_iff_textGuest :
    Wasm.Typing.module textGuest = true ∧
      ∃ i, (({} : Loader).instantiate ⟨"guest", textGuest, 0⟩ selfReading).outcome = .ok i ∧
        ∃ call ∈ i.callsDuring [.invoke "main" []],
          call.answer = .error (.memoryUnavailable "console.log") := by
  have valid : Wasm.Typing.module textGuest = true := by decide +kernel
  have hrun : ((({} : Loader).instantiate ⟨"guest", textGuest, 0⟩ selfReading).outcome.toOption.any
      fun i => decide (∃ call ∈ i.callsDuring [.invoke "main" []], selfReading.logger? textGuest
        call.index = some (.string (.imported consoleModule logFunction), .recorder 0))) = true := by
    decide +kernel
  refine ⟨valid, ?_⟩
  cases hi : (({} : Loader).instantiate ⟨"guest", textGuest, 0⟩ selfReading).outcome with
  | error e => simp [hi, Except.toOption] at hrun
  | ok i =>
    simp only [hi, Except.toOption, Option.any_some, decide_eq_true_eq] at hrun
    obtain ⟨call, hcall, hlogger⟩ := hrun
    have hreads := logger_is_without_memory_iff {} ⟨"guest", textGuest, 0⟩ selfReading valid i hi
      [.invoke "main" []] call (List.mem_append_right _ hcall) _ _ _ hlogger
    exact ⟨i, rfl, call, hcall, (hreads.lacking "console.log").2 ⟨by decide, by decide⟩⟩

end GuestHarness
