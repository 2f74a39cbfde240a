import GuestHarness.Proofs.Session.Basic
import GuestHarness.Proofs.Emission.Accounts

/-! Emissions in their order. Whatever a host does with a compiled module and a table, each recorder is
left with what the successful calls of the loggers bound to it emit, in the order of the calls and once
each. -/
namespace GuestHarness
open Wasm (ImportCall)

/-- Linking emits nothing. -/
theorem ImportTable.emissionsTo_link (t : ImportTable) (cap : Option Nat) (sink : Sink) :
    emissionsTo sink (t.link cap).noticed = [] := by
  have h (es : List ImportEntry) (l : Linkage) :
      emissionsTo sink (es.foldlM (fun l e => e.link cap l) l : Account LoadError Linkage).noticed =
        [] := by
    induction es generalizing l with
    | nil => rfl
    | cons e es ih =>
      rw [List.foldlM_cons, Account.bind_eq_andThen, Account.emissionsTo_andThen_of_silent ih]
      unfold ImportEntry.link
      split <;> rfl
  exact h t.entries {}

namespace Loader

variable (l : Loader) (c : Compiled) (t : ImportTable)

/-- What a table is linked to; nothing if it cannot be. -/
def linkage : Linkage := (t.link l.cap).outcome.toOption.getD {}

def fuel : Option Nat := l.settings.initialFuel.map UInt64.toNat

/-- Nothing stops the module before its segments are copied: it passes the check, the table can be
linked, and all imports are provided. -/
def starts : Bool :=
  (t.check c.module c.name).isOk && (t.link l.cap).outcome.isOk &&
    c.module.imports.all ((l.linkage t).provides c.module)

/-- The calls of imported functions while the module is made an instance. -/
def callsOfInstantiate : List (ImportCall Fault) :=
  if l.starts c t then
    let linkage := l.linkage t
    Wasm.Machine.callsOfSetup (linkage.program c.module l.fuel l.cap) c.module
      (c.module.initialStore linkage.memories #[])
  else []

/-- What remains of making an instance once the table is linked. -/
def instantiateLinked (linkage : Linkage) : Account LoadError Instance := do
  let name := ("module", c.name)
  Account.log (event .debug "Linked imports" [name, ("imports", toString t.size)])
  let made := linkage.instantiate c.module c.name l.fuel l.cap
  let instance_ ← (made.logFailure fun e =>
    event .warn "Instantiation failed" [name, ("error", e.message)]).mapError .fault
  Account.log (event .info "Instantiated module" [name])
  return instance_

theorem instantiate_eq : l.instantiate c t =
    (Account.ofExcept ((t.check c.module c.name).mapError .fault)).andThen fun _ =>
      (t.link l.cap).andThen (l.instantiateLinked c t) := rfl

/-- From there on only the engine emits anything, and only it makes an instance. -/
theorem instantiateLinked_spec (linkage : Linkage) :
    (∀ sink, emissionsTo sink (l.instantiateLinked c t linkage).noticed =
        emissionsTo sink (linkage.instantiate c.module c.name l.fuel l.cap).noticed) ∧
      ∀ i, (l.instantiateLinked c t linkage).outcome = .ok i →
        (linkage.instantiate c.module c.name l.fuel l.cap).outcome = .ok i := by
  unfold instantiateLinked
  generalize linkage.instantiate c.module c.name l.fuel l.cap = made
  simp only [Account.bind_eq_andThen, Account.emissionsTo_log_andThen]
  refine ⟨fun sink => ?_, fun i hi => ?_⟩
  · rw [Account.emissionsTo_andThen_of_silent fun _ => by
      simp only [Account.emissionsTo_log_andThen]; rfl]
    rw [Account.noticed_mapError, Account.emissionsTo_logFailure]
  · obtain ⟨noticed, e | i'⟩ := made
    · cases hi
    · cases hi
      rfl

variable {l c t}

theorem starts_iff : l.starts c t = true ↔ t.check c.module c.name = .ok () ∧
    (t.link l.cap).outcome = .ok (l.linkage t) ∧
      ∀ i ∈ c.module.imports, (l.linkage t).provides c.module i = true := by
  have hcheck : (t.check c.module c.name).isOk = true ↔ t.check c.module c.name = .ok () := by
    cases t.check c.module c.name <;> simp [Except.isOk, Except.toBool]
  have hlink : (t.link l.cap).outcome.isOk = true ↔
      (t.link l.cap).outcome = .ok (l.linkage t) := by
    unfold linkage
    cases (t.link l.cap).outcome <;> simp [Except.isOk, Except.toBool, Except.toOption]
  simp only [starts, Bool.and_eq_true, hcheck, hlink, List.all_eq_true, and_assoc]

/-- A valid module that starts is provided with all that it imports. -/
theorem linked_of_starts {functions : Array Wasm.FuncType} (h : l.starts c t = true)
    (valid : Wasm.Typing.Valid c.module functions) : Linked t (l.linkage t) c.module functions := by
  obtain ⟨-, hlink, hprovided⟩ := starts_iff.1 h
  exact ⟨ImportTable.links_of_link hlink, hprovided, valid⟩

/-- A module that starts is made an instance by the engine, and all that is emitted is emitted there. -/
theorem instantiate_of_starts (h : l.starts c t = true) :
    (∀ sink, emissionsTo sink (l.instantiate c t).noticed =
        emissionsTo sink ((l.linkage t).start c.module c.name l.fuel l.cap).noticed) ∧
      ∀ i, (l.instantiate c t).outcome = .ok i →
        ((l.linkage t).start c.module c.name l.fuel l.cap).outcome = .ok i := by
  obtain ⟨hcheck, hlink, hprovided⟩ := starts_iff.1 h
  have hstart : (l.linkage t).instantiate c.module c.name l.fuel l.cap =
      (l.linkage t).start c.module c.name l.fuel l.cap :=
    if_pos (List.all_eq_true.2 hprovided)
  obtain ⟨hemitted, houtcome⟩ := l.instantiateLinked_spec c t (l.linkage t)
  rw [instantiate_eq, hcheck, Account.andThen_of_ok rfl, Account.andThen_of_ok hlink, ← hstart]
  refine ⟨fun sink => ?_, houtcome⟩
  simpa [t.emissionsTo_link] using hemitted sink

/-- A module that does not start emits nothing, and there is no instance of it. -/
theorem instantiate_of_not_starts (h : l.starts c t = false) :
    (∀ sink, emissionsTo sink (l.instantiate c t).noticed = []) ∧
      ∀ i, (l.instantiate c t).outcome ≠ .ok i := by
  rw [instantiate_eq]
  cases hcheck : t.check c.module c.name with
  | error e => exact ⟨fun _ => rfl, fun i hi => by cases hi⟩
  | ok _ =>
    rw [Account.andThen_of_ok rfl]
    cases hlink : (t.link l.cap).outcome with
    | error e =>
      rw [Account.andThen_of_error hlink]
      exact ⟨t.emissionsTo_link l.cap, fun i hi => by cases hi⟩
    | ok linkage =>
      have hlinkage : l.linkage t = linkage := by
        rw [Loader.linkage, hlink]
        rfl
      have hprovided : ¬ c.module.imports.all (linkage.provides c.module) := by
        intro hall
        rw [← hlinkage] at hall hlink
        simp [starts_iff.2 ⟨hcheck, hlink, List.all_eq_true.1 hall⟩] at h
      have hfail : linkage.instantiate c.module c.name l.fuel l.cap =
          .fail (.instantiation c.name engineText) := if_neg hprovided
      obtain ⟨hemitted, houtcome⟩ := l.instantiateLinked_spec c t linkage
      rw [hfail] at hemitted houtcome
      rw [Account.andThen_of_ok hlink]
      refine ⟨fun sink => ?_, fun i hi => ?_⟩
      · simpa [t.emissionsTo_link] using hemitted sink
      · cases houtcome i hi

end Loader

/-- What a host does with one compiled module and one table: it makes instances, and sends requests to
those it has. -/
inductive Use where
  | instantiate
  | request (place : Nat) (r : Request)

def Use.on (t : ImportTable) : Use → Operation
  | instantiate => .instantiate 0 t
  | request place r => .request place r

namespace Session

variable (files : FileTree) (t : ImportTable)

/-- The calls of imported functions that a use of the first module comes to. -/
def callsBy (s : Session) : Use → List (ImportCall Fault)
  | .instantiate =>
    match s.compiled[0]? with
    | some h => s.loader.callsOfInstantiate h.compiled t
    | none => []
  | .request place r =>
    match s.instances[place]? with
    | some i => i.callsBy r
    | none => []

/-- The calls of imported functions in a session, in order. -/
def callsDuring (s : Session) : List Use → List (ImportCall Fault)
  | [] => []
  | u :: us => s.callsBy t u ++ callsDuring (s.step files (u.on t)).2 us

/-- The session has the module, and its instances are ready. -/
structure Serves (l : Loader) (h : Handle) (functions : Array Wasm.FuncType) (s : Session) : Prop where
  loader : s.loader = l
  compiled : s.compiled[0]? = some h
  instances : ∀ i ∈ s.instances, Linked t (l.linkage t) h.compiled.module functions ∧
    Ready (l.linkage t) h.compiled.module functions l.fuel l.cap i

variable {t} {l : Loader} {h : Handle} {functions : Array Wasm.FuncType} {s : Session}

theorem accounts_callsOfInstantiate (t : ImportTable) (l : Loader)
    (valid : Wasm.Typing.Valid h.compiled.module functions) :
    (∀ i, (l.instantiate h.compiled t).outcome = .ok i →
        Linked t (l.linkage t) h.compiled.module functions ∧
          Ready (l.linkage t) h.compiled.module functions l.fuel l.cap i) ∧
      Accounts t (l.linkage t) h.compiled.module (l.callsOfInstantiate h.compiled t)
        (l.instantiate h.compiled t).noticed := by
  unfold Loader.callsOfInstantiate
  cases hstarts : l.starts h.compiled t with
  | false =>
    obtain ⟨hsilent, hnone⟩ := Loader.instantiate_of_not_starts hstarts
    exact ⟨fun i hi => absurd hi (hnone i), .silent hsilent⟩
  | true =>
    obtain ⟨hemitted, houtcome⟩ := Loader.instantiate_of_starts hstarts
    have hlinked := Loader.linked_of_starts hstarts valid
    obtain ⟨hready, haccounts⟩ := hlinked.start h.compiled.name
    exact ⟨fun i hi => ⟨hlinked, hready i (houtcome i hi)⟩, haccounts.of_emissionsTo_eq hemitted⟩

theorem Serves.accounts_instantiate (files : FileTree)
    (valid : Wasm.Typing.Valid h.compiled.module functions) (hs : s.Serves t l h functions) :
    (s.step files (.instantiate 0 t)).2.Serves t l h functions ∧
      Accounts t (l.linkage t) h.compiled.module (s.callsBy t .instantiate)
        (s.step files (.instantiate 0 t)).1.noticed := by
  obtain ⟨hready, haccounts⟩ := accounts_callsOfInstantiate t l valid
  simp only [step, callsBy, hs.compiled, hs.loader, keepInstance]
  refine ⟨⟨rfl, hs.compiled, fun i hi => ?_⟩, haccounts.of_emissionsTo_eq fun sink => ?_⟩
  · obtain hi | hi := List.mem_append.1 hi
    · exact hs.instances i hi
    · cases houtcome : (l.instantiate h.compiled t).outcome with
      | error e => simp [houtcome, Except.toOption] at hi
      | ok i' =>
        obtain rfl : i = i' := by simpa [houtcome, Except.toOption] using hi
        exact hready i houtcome
  · rw [Account.noticed_map]

theorem Serves.accounts_request (files : FileTree) (hs : s.Serves t l h functions) (place : Nat)
    (r : Request) :
    (s.step files (.request place r)).2.Serves t l h functions ∧
      Accounts t (l.linkage t) h.compiled.module (s.callsBy t (.request place r))
        (s.step files (.request place r)).1.noticed := by
  cases hi : s.instances[place]? with
  | none =>
    simp only [step, callsBy, hi]
    exact ⟨hs, .silent fun _ => rfl⟩
  | some i =>
    simp only [step, callsBy, hi]
    obtain ⟨hlinked, hready⟩ := hs.instances i (List.mem_of_getElem? hi)
    obtain ⟨hready', haccounts⟩ := hlinked.answer hready r
    refine ⟨⟨hs.loader, hs.compiled, fun i' hi' => ?_⟩, haccounts.of_emissionsTo_eq fun sink => ?_⟩
    · obtain hi' | rfl := List.mem_or_eq_of_mem_set hi'
      · exact hs.instances i' hi'
      · exact ⟨hlinked, hready'⟩
    · rw [Account.noticed_map, Account.noticed_mapError]

/-- A session accounts for all of its calls. -/
theorem Serves.accounts (files : FileTree) (valid : Wasm.Typing.Valid h.compiled.module functions)
    (hs : s.Serves t l h functions) (us : List Use) :
    Accounts t (l.linkage t) h.compiled.module (s.callsDuring files t us)
      ((s.run files (us.map (Use.on t))).flatMap Account.noticed) := by
  induction us generalizing s with
  | nil => exact .silent fun _ => rfl
  | cons u us ih =>
    obtain ⟨hs', haccounts⟩ : (s.step files (u.on t)).2.Serves t l h functions ∧
        Accounts t (l.linkage t) h.compiled.module (s.callsBy t u)
          (s.step files (u.on t)).1.noticed := by
      cases u with
      | instantiate => exact hs.accounts_instantiate files valid
      | request place r => exact hs.accounts_request files place r
    exact haccounts.append (ih hs')

end Session

/-- A guest that logs a number and then traps. -/
def integerGuest : Wasm.Module where
  types := #[⟨[.num .i32], []⟩, ⟨[], []⟩]
  imports := [⟨consoleModule, logFunction, .func 0⟩]
  functions := [1]
  exports := [⟨"main", .func, 1⟩]
  codes := [⟨[], [.literal (.i32 42), .call 0, .unreachable]⟩]

end GuestHarness
