import GuestHarness.Proofs.Fuel.Supply
import GuestHarness.Proofs.Wasm.Hosts

/-! Sinks under other names. No guest can tell which sinks its loggers are bound to: a table whose sinks
are exchanged for others passes the same modules, makes the same instances of them, and these answer the
same; what was emitted to one sink is emitted to the other. -/
namespace GuestHarness
open Wasm (Caller Operand Memory)

section

variable (g : Sink → Sink)

/-- What occurs when emissions go to the other sink. -/
def Occurrence.redirect : Occurrence → Occurrence
  | emitted sink e => emitted (g sink) e
  | logged event => logged event

/-- The account with the emissions to the other sinks. -/
def Account.redirect {ε α : Type} (a : Account ε α) : Account ε α :=
  ⟨a.noticed.map (.redirect g), a.outcome⟩

def Offer.redirect : Offer → Offer
  | memory pages => memory pages
  | logger l sink => logger l (g sink)

def ImportEntry.redirect (e : ImportEntry) : ImportEntry := { e with offer := e.offer.redirect g }

/-- The table with its loggers bound to the other sinks. -/
def ImportTable.redirect (t : ImportTable) : ImportTable := ⟨t.entries.map (.redirect g)⟩

def Definition.redirect : Definition → Definition
  | memory a => memory a
  | logger l sink => logger l (g sink)

def Linkage.redirect (l : Linkage) : Linkage :=
  { l with definitions := l.definitions.map fun d => (d.1, d.2.redirect g) }

end

namespace Account

variable {ε ε' α β : Type} (g : Sink → Sink) (a : Account ε α)

@[simp] theorem noticed_redirect : (a.redirect g).noticed = a.noticed.map (.redirect g) := rfl

@[simp] theorem outcome_redirect : (a.redirect g).outcome = a.outcome := rfl

/-- Redirecting an operation is redirecting each of its parts. -/
theorem redirect_andThen (k : α → Account ε β) :
    (a.andThen k).redirect g = (a.redirect g).andThen fun v => (k v).redirect g := by
  cases ha : a.outcome with
  | error e => rw [andThen_of_error ha, andThen_of_error (a.outcome_redirect g ▸ ha)]; rfl
  | ok v =>
    rw [andThen_of_ok ha, andThen_of_ok (a.outcome_redirect g ▸ ha)]
    simp [redirect]

theorem redirect_map (f : α → β) : (f <$> a).redirect g = f <$> a.redirect g :=
  a.redirect_andThen g fun v => pure (f v)

theorem redirect_logFailure (event : ε → Event) :
    (a.logFailure event).redirect g = (a.redirect g).logFailure event := by
  unfold logFailure
  rw [outcome_redirect]
  split
  · simp [redirect, Occurrence.redirect]
  · rfl

theorem redirect_mapError (f : ε → ε') : (a.mapError f).redirect g = (a.redirect g).mapError f := rfl

theorem andThen_map {γ : Type} (f : α → β) (k : β → Account ε γ) :
    (f <$> a).andThen k = a.andThen fun v => k (f v) := by
  cases ha : a.outcome with
  | error e =>
    have hmapped : (f <$> a).outcome = .error e := by rw [outcome_map, ha]; rfl
    rw [andThen_of_error ha, andThen_of_error hmapped, noticed_map]
  | ok v =>
    have hmapped : (f <$> a).outcome = .ok (f v) := by rw [outcome_map, ha]; rfl
    rw [andThen_of_ok ha, andThen_of_ok hmapped, noticed_map]

theorem mapError_map (f : α → β) (e : ε → ε') : (f <$> a).mapError e = f <$> a.mapError e := by
  refine Account.ext ?_ ?_
  · simp
  · rw [outcome_mapError, outcome_map, outcome_map, outcome_mapError]
    cases a.outcome <;> rfl

variable {a} in
theorem outcome_of_mapError {e : ε → ε'} {v : α} (h : (a.mapError e).outcome = .ok v) :
    a.outcome = .ok v := by
  rw [outcome_mapError] at h
  cases ha : a.outcome with
  | error err => rw [ha] at h; cases h
  | ok v' => rw [ha] at h; cases h; rfl

/-- What the first part gives may be exchanged for what the second part treats alike. -/
theorem andThen_redirect_map {γ : Type} (f : α → β) {k : α → Account ε γ} {k' : β → Account ε γ}
    (hk : ∀ v, a.outcome = .ok v → k' (f v) = (k v).redirect g) :
    ((f <$> a).redirect g).andThen k' = (a.andThen k).redirect g := by
  rw [redirect_map, andThen_map, redirect_andThen]
  exact andThen_congr fun v hv => hk v hv

end Account

theorem Offer.satisfies_redirect (g : Sink → Sink) (o : Offer) (declared : Wasm.ExternType) :
    (o.redirect g).satisfies declared = o.satisfies declared := by
  cases o with
  | memory pages => rfl
  | logger logger sink => cases declared <;> rfl

theorem Offer.kind_redirect (g : Sink → Sink) (o : Offer) : (o.redirect g).kind = o.kind := by
  cases o <;> rfl

namespace ImportTable

variable (g : Sink → Sink) (t : ImportTable)

theorem find?_redirect (module name : String) :
    (t.redirect g).find? module name = (t.find? module name).map (.redirect g) := by
  unfold find? redirect
  rw [List.find?_map]
  rfl

/-- The check does not look at sinks. -/
theorem objection?_redirect (m : Wasm.Module) (i : Wasm.Import) :
    (t.redirect g).objection? m i = t.objection? m i := by
  unfold objection?
  rw [find?_redirect]
  cases t.find? i.module i.name with
  | none => rfl
  | some e =>
    dsimp only [Option.map_some, ImportEntry.redirect]
    rw [Offer.kind_redirect]
    simp only [Offer.satisfies_redirect]
    obtain ⟨module, name, offer⟩ := e
    cases offer with
    | memory pages => rfl
    | logger logger sink =>
      cases logger with
      | integer width => rfl
      | string source => cases source <;> rfl

theorem check_redirect (m : Wasm.Module) (moduleName : String) :
    (t.redirect g).check m moduleName = t.check m moduleName := by
  unfold check firstObjection?
  simp only [objection?_redirect]

@[simp] theorem size_redirect : (t.redirect g).size = t.size := List.length_map _

end ImportTable

namespace Linkage

variable (g : Sink → Sink) (l : Linkage)

@[simp] theorem memories_redirect : (l.redirect g).memories = l.memories := rfl

@[simp] theorem registry_redirect : (l.redirect g).registry = l.registry := rfl

theorem definition?_redirect (module name : String) :
    (l.redirect g).definition? module name = (l.definition? module name).map (.redirect g) := by
  unfold definition? redirect
  induction l.definitions with
  | nil => rfl
  | cons d ds ih =>
    rw [List.map_cons, List.lookup_cons, List.lookup_cons, ih]
    split <;> rfl

theorem address?_redirect (module name : String) :
    (l.redirect g).address? module name = l.address? module name := by
  unfold address?
  rw [definition?_redirect]
  cases l.definition? module name with
  | none => rfl
  | some d => cases d <;> rfl

theorem define_redirect (module name : String) (d : Definition) :
    (l.redirect g).define module name (d.redirect g) =
      (l.define module name d).map (.redirect g) := by
  unfold define
  rw [definition?_redirect]
  cases l.definition? module name <;> rfl

theorem addTo_redirect (cap : Option Nat) (e : ImportEntry) :
    (e.redirect g).addTo cap (l.redirect g) = (e.addTo cap l).map (.redirect g) := by
  obtain ⟨module, name, offer⟩ := e
  cases offer with
  | logger logger sink => exact l.define_redirect g module name (.logger logger sink)
  | memory pages =>
    simp only [ImportEntry.addTo, ImportEntry.redirect, Offer.redirect, addMemory]
    split
    · rfl
    · split
      · have hdefine := l.define_redirect g module name (.memory l.memories.size)
        rw [memories_redirect]
        dsimp only [Definition.redirect] at hdefine
        rw [hdefine]
        cases l.define module name (.memory l.memories.size) <;> rfl
      · rfl

theorem link_redirect (cap : Option Nat) (e : ImportEntry) :
    (e.redirect g).link cap (l.redirect g) =
      (Linkage.redirect g <$> e.link cap l : Account LoadError Linkage).redirect g := by
  unfold ImportEntry.link
  rw [addTo_redirect]
  cases e.addTo cap l <;> rfl

end Linkage

/-- A table is linked to what it was linked to, with the other sinks. -/
theorem ImportTable.link_redirect (g : Sink → Sink) (t : ImportTable) (cap : Option Nat) :
    (t.redirect g).link cap =
      (Linkage.redirect g <$> t.link cap : Account LoadError Linkage).redirect g := by
  have h (es : List ImportEntry) (l : Linkage) :
      (es.map (ImportEntry.redirect g)).foldlM (fun l e => e.link cap l) (l.redirect g) =
        (Linkage.redirect g <$> es.foldlM (fun l e => e.link cap l) l :
          Account LoadError Linkage).redirect g := by
    induction es generalizing l with
    | nil => rfl
    | cons e es ih =>
      rw [List.map_cons, List.foldlM_cons, List.foldlM_cons, Linkage.link_redirect]
      simp only [Account.bind_eq_andThen]
      rw [Account.map_andThen]
      exact Account.andThen_redirect_map g _ _ fun l' _ => ih l'
  exact h t.entries {}

namespace Logger

/-- A logger emits to the other sink what it emits to its own. -/
theorem call_redirect (g : Sink → Sink) (registry : Registry) (exported? : String → Option Nat)
    (logger : Logger) (sink : Sink) (caller : Caller) (args : List Operand)
    (memories : Array Memory) :
    logger.call registry exported? (g sink) caller args memories =
      Prod.map (List.map (.redirect g)) id
        (logger.call registry exported? sink caller args memories) := by
  fun_cases Logger.call registry exported? logger sink caller args memories <;>
    simp only [Logger.call, *] <;> rfl

end Logger

namespace Linkage

variable (g : Sink → Sink) (l : Linkage) (m : Wasm.Module)

theorem fits_redirect (d : Definition) (declared : Wasm.ExternType) :
    (l.redirect g).fits (d.redirect g) declared = l.fits d declared := by
  cases d with
  | memory a => rfl
  | logger logger sink => cases declared <;> rfl

theorem provides_redirect (i : Wasm.Import) : (l.redirect g).provides m i = l.provides m i := by
  unfold provides
  rw [definition?_redirect]
  cases m.importType? i with
  | none => rfl
  | some declared =>
    cases l.definition? i.module i.name with
    | none => rfl
    | some d => exact l.fits_redirect g d declared

theorem importedMemories_redirect : (l.redirect g).importedMemories m = l.importedMemories m := by
  unfold importedMemories
  simp only [address?_redirect]

theorem importedLoggers_redirect :
    (l.redirect g).importedLoggers m =
      (l.importedLoggers m).map (Option.map (Prod.map id g)) := by
  unfold importedLoggers
  rw [List.map_filterMap]
  congr 1
  funext i
  cases i.type with
  | func k =>
    dsimp only
    rw [definition?_redirect]
    cases l.definition? i.module i.name with
    | none => rfl
    | some d => cases d <;> rfl
  | table | memory | global => rfl

theorem callLogger_redirect (caller : Caller) (index : Nat) (args : List Operand)
    (memories : Array Memory) (occurred : Array Occurrence) :
    (l.redirect g).callLogger m caller index args memories (occurred.map (.redirect g)) =
      Prod.map (Array.map (.redirect g)) id (l.callLogger m caller index args memories occurred) := by
  unfold callLogger
  rw [importedLoggers_redirect, importedMemories_redirect, List.getElem?_map]
  cases (l.importedLoggers m)[index]? with
  | none => rfl
  | some bound? =>
    cases bound? with
    | none => rfl
    | some bound =>
      obtain ⟨logger, sink⟩ := bound
      simp only [Option.map_some, Option.join_some, Prod.map_apply, id, Logger.call_redirect,
        registry_redirect, memories_redirect, Prod.mk.injEq]
      refine ⟨Array.toList_inj.1 ?_, rfl⟩
      simp

/-- The program of a module with the other sinks goes as the program with its own. -/
theorem follows_redirect (fuel cap : Option Nat) :
    (l.program m fuel cap).Follows ((l.redirect g).program m fuel cap)
      (Array.map (.redirect g)) where
  eq := by
    unfold program
    rw [importedMemories_redirect]
    rfl
  call := l.callLogger_redirect g m

end Linkage

/-- Of an empty account nothing is redirected. -/
theorem Wasm.Store.mapHost_of_empty {s : Wasm.Store (Array Occurrence)} (h : s.host = #[])
    {f : Occurrence → Occurrence} : s.mapHost (Array.map f) = s := by
  have hempty : s.host.map f = s.host := by
    rw [h, Array.map_empty]
  rw [mapHost, hempty]

namespace Instance

/-- The instance with the loggers of another linkage. -/
def relink (l : Linkage) (i : Instance) : Instance :=
  { i with program := { i.program with call := l.callLogger i.module } }

/-- The instance was made with a linkage, and nothing goes on in it. -/
structure MadeWith (l : Linkage) (i : Instance) : Prop where
  program : ∃ fuel cap, i.program = l.program i.module fuel cap
  idle : i.store.host = #[]

variable {l : Linkage} {i : Instance} (h : i.MadeWith l) (g : Sink → Sink)
include h

theorem MadeWith.follows :
    i.program.Follows (i.relink (l.redirect g)).program (Array.map (.redirect g)) := by
  obtain ⟨fuel, cap, hprogram⟩ := h.program
  have hsame : (i.relink (l.redirect g)).program = (l.redirect g).program i.module fuel cap := by
    rw [(l.follows_redirect g i.module fuel cap).eq, relink, hprogram]
    rfl
  rw [hsame, hprogram]
  exact l.follows_redirect g i.module fuel cap

theorem MadeWith.invoke_relink (index : Nat) (args : List Operand) :
    Wasm.Machine.invoke (i.relink (l.redirect g)).program i.store index args =
      Prod.map id (Wasm.Store.mapHost (Array.map (.redirect g)))
        (Wasm.Machine.invoke i.program i.store index args) := by
  rw [← Wasm.Machine.invoke_mapHost i.store (h.follows g), Wasm.Store.mapHost_of_empty h.idle]

/-- Running a function is redirected, and leaves the same instance. -/
theorem run_relink (exported : String) (index : Nat) (args : List Value) :
    (i.relink (l.redirect g)).run exported index args =
      ((i.run exported index args).1.redirect g,
        (i.run exported index args).2.relink (l.redirect g)) := by
  have hinvoke := h.invoke_relink g index (args.map .ofValue)
  have hstore : (i.relink (l.redirect g)).store = i.store := rfl
  obtain ⟨hnoticed, hafter⟩ := i.run_eq exported index args
  obtain ⟨hnoticed', hafter'⟩ := (i.relink (l.redirect g)).run_eq exported index args
  rw [hstore, hinvoke] at hnoticed' hafter'
  refine Prod.ext (Account.ext ?_ ?_) ?_
  · rw [hnoticed', Account.noticed_redirect, hnoticed]
    exact Array.toList_map
  · rw [Account.outcome_redirect, outcome_run, outcome_run, hstore, hinvoke]
    rfl
  · rw [hafter', hafter]
    rfl

theorem call_relink (exported : String) (index : Nat) (s : Signature) (args : List Value) :
    (i.relink (l.redirect g)).call exported index s args =
      ((i.call exported index s args).1.redirect g,
        (i.call exported index s args).2.relink (l.redirect g)) := by
  unfold call
  cases s.checkArgs exported args with
  | error e => rfl
  | ok _ =>
    dsimp only
    rw [run_relink h]
    refine Prod.ext ?_ rfl
    simp only [Account.bind_eq_andThen, Account.redirect_andThen, Account.redirect_logFailure]
    rfl

theorem invoke_relink (exported : String) (args : List Value) :
    (i.relink (l.redirect g)).invoke exported args =
      ((i.invoke exported args).1.redirect g,
        (i.invoke exported args).2.relink (l.redirect g)) := by
  have hresolve : (i.relink (l.redirect g)).resolve exported = i.resolve exported := rfl
  unfold invoke
  rw [hresolve]
  cases i.resolve exported with
  | error e => rfl
  | ok found =>
    obtain ⟨index, s⟩ := found
    dsimp only
    split
    · rfl
    · rw [call_relink h]
      exact Prod.ext (Account.redirect_map g _ _).symm rfl

end Instance

namespace Linkage

variable (g : Sink → Sink) (l : Linkage) (m : Wasm.Module) (name : String) (fuel cap : Option Nat)

theorem madeWith_of_start {i : Instance} (h : (l.start m name fuel cap).outcome = .ok i) :
    i.MadeWith l := by
  unfold start at h
  dsimp only at h
  split at h <;> cases h
  exact ⟨⟨fuel, cap, rfl⟩, rfl⟩

/-- A module is made the same instance, but for the sinks of its loggers. -/
theorem start_redirect :
    (l.redirect g).start m name fuel cap =
      (Instance.relink (l.redirect g) <$> l.start m name fuel cap : Account Fault Instance).redirect
        g := by
  have hstore : (m.initialStore l.memories (#[] : Array Occurrence)).mapHost
      (Array.map (.redirect g)) = m.initialStore l.memories #[] :=
    Wasm.Store.mapHost_of_empty rfl
  have hsetup := Wasm.Machine.setup_mapHost (m.initialStore l.memories #[])
    (l.follows_redirect g m fuel cap) m
  rw [hstore] at hsetup
  unfold start
  dsimp only [memories_redirect]
  rw [hsetup]
  generalize Wasm.Machine.setup (l.program m fuel cap) m (m.initialStore l.memories #[]) = made
  obtain ⟨s, e | u⟩ := made
  · cases e <;> refine Account.ext ?_ rfl <;> exact Array.toList_map
  · cases u
    rw [(l.follows_redirect g m fuel cap).eq]
    refine Account.ext ?_ rfl
    simp [Wasm.Store.mapHost]

theorem instantiate_redirect :
    (l.redirect g).instantiate m name fuel cap =
      (Instance.relink (l.redirect g) <$> l.instantiate m name fuel cap :
        Account Fault Instance).redirect g := by
  have hprovides : (l.redirect g).provides m = l.provides m := funext (l.provides_redirect g m)
  unfold instantiate
  rw [hprovides]
  split
  · exact l.start_redirect g m name fuel cap
  · rfl

end Linkage

namespace Loader

variable {l : Loader} {c : Compiled} {t : ImportTable}

theorem instantiateLinked_redirect (l : Loader) (c : Compiled) (t : ImportTable) (linkage : Linkage)
    (g : Sink → Sink) :
    l.instantiateLinked c (t.redirect g) (linkage.redirect g) =
      (Instance.relink (linkage.redirect g) <$> l.instantiateLinked c t linkage :
        Account LoadError Instance).redirect g := by
  unfold instantiateLinked
  rw [Linkage.instantiate_redirect, ImportTable.size_redirect]
  generalize linkage.instantiate c.module c.name l.fuel l.cap = made
  simp only [Account.bind_eq_andThen, Account.map_andThen, Account.redirect_andThen,
    Account.redirect_map]
  refine Account.andThen_congr fun _ _ => ?_
  obtain ⟨noticed, e | i⟩ := made
  · refine Account.ext ?_ rfl
    change noticed.map _ ++ [_] = (noticed ++ [_]).map _
    simp [Occurrence.redirect]
  · rw [Account.map_of_ok rfl]
    rfl

/-- Making an instance is redirected, and makes the same instance but for the sinks of its loggers. -/
theorem instantiate_redirect (l : Loader) (c : Compiled) (t : ImportTable) (g : Sink → Sink) :
    l.instantiate c (t.redirect g) =
      (Instance.relink ((l.linkage t).redirect g) <$> l.instantiate c t :
        Account LoadError Instance).redirect g := by
  rw [instantiate_eq, instantiate_eq, ImportTable.check_redirect, ImportTable.link_redirect,
    Account.map_andThen, Account.redirect_andThen]
  refine Account.andThen_congr fun _ _ => ?_
  rw [Account.map_andThen]
  refine Account.andThen_redirect_map g _ _ fun linkage hlink => ?_
  have hlinkage : l.linkage t = linkage := by
    rw [Loader.linkage, hlink]
    rfl
  rw [hlinkage]
  exact l.instantiateLinked_redirect c t linkage g

/-- Compiling emits nothing that could be redirected. -/
theorem redirect_compile (l : Loader) (name : String) (bytes : List UInt8) (g : Sink → Sink) :
    (l.compile name bytes).1.redirect g = (l.compile name bytes).1 := by
  unfold compile
  dsimp only
  split
  · split <;> rfl
  · split <;> rfl

theorem redirect_compileFile (l : Loader) (files : FileTree) (path : String) (g : Sink → Sink) :
    (l.compileFile files path).1.redirect g = (l.compileFile files path).1 := by
  unfold compileFile
  split
  · rfl
  · exact l.redirect_compile _ _ g

/-- An instance was made with what its table was linked to. -/
theorem madeWith_of_instantiate {l : Loader} {c : Compiled} {t : ImportTable} {i : Instance}
    (h : (l.instantiate c t).outcome = .ok i) : i.MadeWith (l.linkage t) := by
  obtain ⟨hstarts, -⟩ := exists_setup_of_instantiate h
  have hstart := (instantiate_of_starts hstarts).2 i h
  exact (l.linkage t).madeWith_of_start c.module c.name l.fuel l.cap hstart

end Loader

end GuestHarness
