import GuestHarness.Proofs.Session.Cache

/-! Sessions with a loader that keeps modules and with one that does not, side by side. Both loaders
stay faithful to the bytes that the session compiles, so that each step shows the same in both. -/
namespace GuestHarness

/-- The bytes that are compiled in the course of some operations. -/
def compiledBytes (files : FileTree) (ops : List Operation) : List (List UInt8) :=
  ops.filterMap fun op => (op.source? files).map Prod.snd

theorem forall_mem_compiledBytes_cons {files : FileTree} {op : Operation} {ops : List Operation}
    {p : List UInt8 → Prop} :
    (∀ b ∈ compiledBytes files (op :: ops), p b) ↔
      (∀ src ∈ op.source? files, p src.2) ∧ ∀ b ∈ compiledBytes files ops, p b := by
  cases h : op.source? files <;> simp [compiledBytes, h]

/-- What an operation on bytes shows when they are compiled anew, by a loader with these settings. -/
def Operation.expected? (l : Loader) (files : FileTree) :
    Operation → Option (Account LoadError (Result Compiled))
  | compile name bytes =>
    some (Result.compiled <$> (Account.ofExcept (Loader.anew l.hash name bytes)).mapError .fault)
  | compileFile path =>
    match files.read path with
    | .error e => some (.fail (.fault (.io path e.message)))
    | .ok bytes =>
      let name := (Path.fileName? path).getD Loader.anonymous
      some (Result.compiled <$> (Account.ofExcept (Loader.anew l.hash name bytes)).mapError .fault)
  | load name bytes table =>
    some (Result.loaded <$> ((Account.ofExcept (Loader.anew l.hash name bytes)).mapError .fault).andThen
      fun c => (l.instantiate c table).unlogged)
  | _ => none

namespace Session

/-- What a host can tell of an operation, apart from the log and from which handle it was given. -/
def observed (a : Account LoadError (Result Handle)) : Account LoadError (Result Compiled) :=
  Result.map Handle.compiled <$> a.unlogged

variable {s s' : Session} {files : FileTree} {known : List UInt8 → Prop}

theorem observed_map (f : α → Result Handle) (a : Account LoadError α) :
    observed (f <$> a) = (fun v => (f v).map Handle.compiled) <$> a.unlogged := by
  unfold observed
  rw [Account.unlogged_map]
  ext1
  · simp
  · cases h : a.unlogged.outcome <;> simp [h, Except.map]

theorem observed_keepCompiled (attempt : Account Fault Handle × Loader) :
    observed (s.keepCompiled attempt).1 =
      Result.compiled <$> (Handle.compiled <$> attempt.1.unlogged).mapError LoadError.fault := by
  unfold keepCompiled
  rw [observed_map]
  ext1
  · simp [Account.unlogged]
  · cases h : attempt.1.outcome with
    | error e =>
      have hl : (attempt.1.mapError LoadError.fault).unlogged.outcome = .error (.fault e) :=
        Account.mapError_of_error h _
      have hr : ((Handle.compiled <$> attempt.1.unlogged).mapError LoadError.fault).outcome =
          .error (.fault e) :=
        Account.mapError_of_error (by simp [Account.unlogged, h, Except.map]) _
      rw [Account.outcome_map, Account.outcome_map, hl, hr]
      rfl
    | ok c =>
      have hl : (attempt.1.mapError LoadError.fault).unlogged.outcome = .ok c :=
        Account.mapError_of_ok h _
      have hr : ((Handle.compiled <$> attempt.1.unlogged).mapError LoadError.fault).outcome =
          .ok c.compiled :=
        Account.mapError_of_ok (by simp [Account.unlogged, h, Except.map]) _
      rw [Account.outcome_map, Account.outcome_map, hl, hr]
      rfl

theorem compiled_keepCompiled (attempt : Account Fault Handle × Loader) :
    (s.keepCompiled attempt).2.compiled.map Handle.compiled = s.compiled.map Handle.compiled ++
      (Handle.compiled <$> attempt.1.unlogged).outcome.toOption.toList := by
  cases h : attempt.1.outcome <;>
    simp [keepCompiled, Account.unlogged, h, Except.map, Except.toOption]

theorem observed_keepInstance (attempt : Account LoadError Instance × Loader) :
    observed (s.keepInstance attempt).1 = Result.loaded <$> attempt.1.unlogged :=
  observed_map _ _

theorem instances_keepInstance (attempt : Account LoadError Instance × Loader) :
    (s.keepInstance attempt).2.instances =
      s.instances ++ attempt.1.unlogged.outcome.toOption.toList := rfl

/-- No operation changes the settings or the hash of the loader. -/
theorem loader_step (s : Session) (files : FileTree) (op : Operation) :
    (s.step files op).2.loader.settings = s.loader.settings ∧
      (s.step files op).2.loader.hash = s.loader.hash := by
  cases op with
  | compile name bytes => simp [step, keepCompiled]
  | compileFile path =>
    cases h : files.read path <;> simp [step, keepCompiled, Loader.compileFile, h]
  | load name bytes table => simp [step, keepInstance, Loader.load]
  | instantiate place table =>
    cases h : s.compiled[place]? <;> simp [step, keepInstance, h]
  | request place r => cases h : s.instances[place]? <;> simp [step, h]
  | validate bytes => exact ⟨rfl, rfl⟩
  | clearCache => exact ⟨rfl, rfl⟩

/-- Every operation keeps a faithful loader faithful, wherever what is kept gets cleared. -/
theorem faithful_step (hs : s.loader.Faithful known)
    (distinct : ∀ b b', known b → known b' → s.loader.hash b = s.loader.hash b' → b = b')
    (op : Operation) (hop : ∀ src ∈ op.source? files, known src.2) :
    (s.step files op).2.loader.Faithful known := by
  cases op with
  | compile name bytes => exact hs.compile distinct (hop (name, bytes) rfl) name
  | compileFile path =>
    cases h : files.read path with
    | error e => simpa [step, keepCompiled, Loader.compileFile, h] using hs
    | ok bytes =>
      have hb : known bytes :=
        hop ((Path.fileName? path).getD Loader.anonymous, bytes) (by simp [Operation.source?, h])
      simpa [step, keepCompiled, Loader.compileFile, h] using hs.compile distinct hb _
  | load name bytes table => exact hs.compile distinct (hop (name, bytes) rfl) name
  | instantiate place table =>
    cases h : s.compiled[place]? <;> simpa [step, keepInstance, h] using hs
  | request place r => cases h : s.instances[place]? <;> simpa [step, h] using hs
  | validate bytes => exact hs
  | clearCache => exact Loader.faithful_of_cache_nil rfl

/-- An operation on bytes shows what compiling them anew gives. -/
theorem observed_step_eq_expected (hs : s.loader.Faithful known) (op : Operation)
    (hop : ∀ src ∈ op.source? files, known src.2) :
    ∀ e ∈ op.expected? s.loader files, observed (s.step files op).1 = e := by
  intro e he
  cases op with
  | compile name bytes =>
    cases he
    simp only [step, observed_keepCompiled]
    rw [Loader.compile_eq_anew hs (hop (name, bytes) rfl) name]
  | compileFile path =>
    cases h : files.read path with
    | error err =>
      simp only [Operation.expected?, h, Option.mem_some_iff] at he
      subst he
      simp only [step, Loader.compileFile, h, observed_keepCompiled]
      rfl
    | ok bytes =>
      have hb : known bytes :=
        hop ((Path.fileName? path).getD Loader.anonymous, bytes) (by simp [Operation.source?, h])
      simp only [Operation.expected?, h, Option.mem_some_iff] at he
      subst he
      simp only [step, Loader.compileFile, h, observed_keepCompiled]
      rw [Loader.compile_eq_anew hs hb]
  | load name bytes table =>
    cases he
    simp only [step, observed_keepInstance]
    rw [Loader.load_eq_anew hs (hop (name, bytes) rfl) name]
  | instantiate place table => cases he
  | request place r => cases he
  | validate bytes => cases he
  | clearCache => cases he

/-- What `expected?` says depends on the settings and the hash of the loader only. -/
theorem expected?_congr {l l' : Loader} (hs : l.settings = l'.settings) (hh : l.hash = l'.hash)
    (op : Operation) : op.expected? l files = op.expected? l' files := by
  have hi (c : Compiled) (t : ImportTable) : l.instantiate c t = l'.instantiate c t :=
    Loader.instantiate_congr (by rw [hs]) c t
  cases op <;> simp [Operation.expected?, hh, hi]

/-- Two sessions that differ in what their loaders keep, and in nothing that a host can tell. -/
structure Agree (known : List UInt8 → Prop) (s s' : Session) : Prop where
  settings : s.loader.settings =
    { s'.loader.settings with cacheModules := s.loader.settings.cacheModules }
  hash : s.loader.hash = s'.loader.hash
  faithful : s.loader.Faithful known
  faithful' : s'.loader.Faithful known
  compiled : s.compiled.map Handle.compiled = s'.compiled.map Handle.compiled
  instances : s.instances = s'.instances

/-- Sessions that agree still agree after an operation that gave both the same. -/
theorem Agree.next (h : Agree known s s')
    (distinct : ∀ b b', known b → known b' → s.loader.hash b = s.loader.hash b' → b = b')
    {op : Operation} (hop : ∀ src ∈ op.source? files, known src.2)
    (compiled : (s.step files op).2.compiled.map Handle.compiled =
      (s'.step files op).2.compiled.map Handle.compiled)
    (instances : (s.step files op).2.instances = (s'.step files op).2.instances) :
    Agree known (s.step files op).2 (s'.step files op).2 := by
  refine ⟨?_, ?_, faithful_step h.faithful distinct op hop,
    faithful_step h.faithful' (by rwa [← h.hash]) op hop, compiled, instances⟩
  · rw [(loader_step _ _ op).1, (loader_step _ _ op).1]
    exact h.settings
  · rw [(loader_step _ _ op).2, (loader_step _ _ op).2]
    exact h.hash

theorem Agree.compile (h : Agree known s s') {bytes : List UInt8} (hb : known bytes)
    (name : String) :
    Handle.compiled <$> (s.loader.compile name bytes).1.unlogged =
      Handle.compiled <$> (s'.loader.compile name bytes).1.unlogged := by
  rw [Loader.compile_eq_anew h.faithful hb, Loader.compile_eq_anew h.faithful' hb, h.hash]

theorem Agree.compileFile (h : Agree known s s') {path : String}
    (hop : ∀ src ∈ (Operation.compileFile path).source? files, known src.2) :
    Handle.compiled <$> (s.loader.compileFile files path).1.unlogged =
      Handle.compiled <$> (s'.loader.compileFile files path).1.unlogged := by
  cases hf : files.read path with
  | error e => simp only [Loader.compileFile, hf]
  | ok bytes =>
    have hb : known bytes :=
      hop ((Path.fileName? path).getD Loader.anonymous, bytes) (by simp [Operation.source?, hf])
    simp only [Loader.compileFile, hf]
    exact h.compile hb _

/-- One operation shows the same in both sessions, and gives the same instances and modules. -/
theorem Agree.step (h : Agree known s s')
    (distinct : ∀ b b', known b → known b' → s.loader.hash b = s.loader.hash b' → b = b')
    (op : Operation) (hop : ∀ src ∈ op.source? files, known src.2) :
    observed (s.step files op).1 = observed (s'.step files op).1 ∧
      Agree known (s.step files op).2 (s'.step files op).2 := by
  have shared := h.next distinct hop
  have hi (c : Compiled) (t : ImportTable) : s.loader.instantiate c t = s'.loader.instantiate c t :=
    Loader.instantiate_congr h.settings c t
  cases op with
  | compile name bytes =>
    have hc := h.compile (hop (name, bytes) rfl) name
    refine ⟨?_, shared ?_ h.instances⟩
    · simp only [Session.step, observed_keepCompiled, hc]
    · simp only [Session.step, compiled_keepCompiled, hc, h.compiled]
  | compileFile path =>
    have hc := h.compileFile hop
    refine ⟨?_, shared ?_ h.instances⟩
    · simp only [Session.step, observed_keepCompiled, hc]
    · simp only [Session.step, compiled_keepCompiled, hc, h.compiled]
  | load name bytes table =>
    have hb : known bytes := hop (name, bytes) rfl
    have hl : (s.loader.load name bytes table).1.unlogged =
        (s'.loader.load name bytes table).1.unlogged := by
      rw [Loader.load_eq_anew h.faithful hb, Loader.load_eq_anew h.faithful' hb, h.hash]
      simp only [hi]
    refine ⟨?_, shared h.compiled ?_⟩
    · simp only [Session.step, observed_keepInstance, hl]
    · simp only [Session.step, instances_keepInstance, hl, h.instances]
  | instantiate place table =>
    -- The handles at the place may differ, but not the modules that they lead to.
    have hp : (s.compiled[place]?).map Handle.compiled = (s'.compiled[place]?).map Handle.compiled := by
      rw [← List.getElem?_map, ← List.getElem?_map, h.compiled]
    cases hs : s.compiled[place]? with
    | none =>
      have hs' : s'.compiled[place]? = none := by simpa [hs] using hp.symm
      simp only [Session.step, hs, hs'] at shared ⊢
      exact ⟨trivial, shared h.compiled h.instances⟩
    | some c =>
      obtain ⟨c', hs', hc⟩ : ∃ c', s'.compiled[place]? = some c' ∧ c'.compiled = c.compiled := by
        simpa [hs] using hp.symm
      simp only [Session.step, hs, hs', hc, hi] at shared ⊢
      refine ⟨by simp only [observed_keepInstance], shared h.compiled ?_⟩
      simp only [instances_keepInstance, h.instances]
  | request place r =>
    simp only [Session.step, h.instances] at shared ⊢
    cases hs : s'.instances[place]? with
    | none =>
      simp only [hs] at shared ⊢
      exact ⟨trivial, shared h.compiled h.instances⟩
    | some i =>
      simp only [hs] at shared ⊢
      exact ⟨trivial, shared h.compiled trivial⟩
  | validate bytes => exact ⟨rfl, shared h.compiled h.instances⟩
  | clearCache => exact ⟨rfl, shared h.compiled h.instances⟩

/-- A whole session shows the same with either loader. -/
theorem Agree.run (h : Agree known s s')
    (distinct : ∀ b b', known b → known b' → s.loader.hash b = s.loader.hash b' → b = b')
    {ops : List Operation} (hops : ∀ b ∈ compiledBytes files ops, known b) :
    (s.run files ops).map observed = (s'.run files ops).map observed := by
  induction ops generalizing s s' with
  | nil => rfl
  | cons op ops ih =>
    obtain ⟨hop, hops⟩ := forall_mem_compiledBytes_cons.1 hops
    obtain ⟨hshown, hnext⟩ := h.step distinct op hop
    have hrest := ih hnext (by rwa [(loader_step _ _ op).2]) hops
    simp only [Session.run, List.map_cons, hshown, hrest]

/-- In a whole session, each operation on bytes shows what compiling them anew gives. -/
theorem observed_run_eq_expected (hs : s.loader.Faithful known)
    (distinct : ∀ b b', known b → known b' → s.loader.hash b = s.loader.hash b' → b = b')
    {ops : List Operation} (hops : ∀ b ∈ compiledBytes files ops, known b) {k : Nat} {op : Operation}
    (hop : ops[k]? = some op) :
    ∀ e ∈ op.expected? s.loader files, ((s.run files ops).map observed)[k]? = some e := by
  induction ops generalizing s k with
  | nil => simp at hop
  | cons first ops ih =>
    obtain ⟨hfirst, hops⟩ := forall_mem_compiledBytes_cons.1 hops
    intro e he
    cases k with
    | zero =>
      cases hop
      have hshown := observed_step_eq_expected hs op hfirst e he
      simpa [Session.run] using hshown
    | succ k =>
      obtain ⟨hsettings, hhash⟩ := loader_step s files first
      rw [← expected?_congr hsettings hhash] at he
      have hrest := ih (faithful_step hs distinct first hfirst) (by rwa [hhash]) hops hop e he
      simpa [Session.run] using hrest

/-- Whether compiled modules are kept shows in nothing but the log and the identity of handles; and an
operation on bytes shows what these very bytes compile to under the name it gave. -/
theorem keeping_modules_does_not_show (settings : Loader.Settings) (hash : List UInt8 → UInt64)
    (files : FileTree) (ops : List Operation)
    (distinct : ∀ b ∈ compiledBytes files ops, ∀ b' ∈ compiledBytes files ops,
      hash b = hash b' → b = b') :
    let keeping : Loader := { settings := { settings with cacheModules := true }, hash }
    let plain : Loader := { settings := { settings with cacheModules := false }, hash }
    let shown := (Session.run files { loader := keeping } ops).map observed
    shown = (Session.run files { loader := plain } ops).map observed ∧
      ∀ (k : Nat) (op : Operation), ops[k]? = some op →
        ∀ e ∈ op.expected? plain files, shown[k]? = some e := by
  intro keeping plain shown
  have hdistinct (b b' : List UInt8) : b ∈ compiledBytes files ops → b' ∈ compiledBytes files ops →
      hash b = hash b' → b = b' := fun hb hb' => distinct b hb b' hb'
  have hagree : Agree (· ∈ compiledBytes files ops) { loader := plain } { loader := keeping } :=
    ⟨rfl, rfl, Loader.faithful_of_cache_nil rfl, Loader.faithful_of_cache_nil rfl, rfl, rfl⟩
  have hshown : shown = (Session.run files { loader := plain } ops).map observed :=
    (hagree.run hdistinct fun b hb => hb).symm
  refine ⟨hshown, fun k op hop e he => ?_⟩
  rw [hshown]
  exact observed_run_eq_expected (s := { loader := plain }) hagree.faithful hdistinct
    (fun b hb => hb) hop e he

/-- Bytes that are compiled under two names, cleared and compiled again, between bytes that are
refused. -/
theorem keeping_modules_does_not_show_renamed :
    let empty := Wasm.Binary.preamble
    let ops : List Operation := [.compile "a" empty, .compile "b" empty, .compile "b" [0],
      .clearCache, .load "c" empty .empty, .instantiate 1 .empty]
    (∀ b ∈ compiledBytes {} ops, ∀ b' ∈ compiledBytes {} ops, contentHash b = contentHash b' → b = b') ∧
      (Session.run {} { loader := { settings := { cacheModules := true } } } ops).map observed =
        (Session.run {} { loader := { settings := { cacheModules := false } } } ops).map observed := by
  intro empty ops
  have distinct : ∀ b ∈ compiledBytes {} ops, ∀ b' ∈ compiledBytes {} ops,
      contentHash b = contentHash b' → b = b' := by decide
  exact ⟨distinct, (keeping_modules_does_not_show {} contentHash {} ops distinct).1⟩

end Session
end GuestHarness
