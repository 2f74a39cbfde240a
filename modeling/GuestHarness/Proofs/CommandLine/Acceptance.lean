import GuestHarness.Proofs.CommandLine.Modes
import GuestHarness.Proofs.Loading.Stages

/-! Which bytes are accepted. A loader of any history compiles what a fresh one compiles, and it
validates what of this is in the binary format. The commands look at files in these two ways. -/
namespace GuestHarness
open Wasm (Module)

namespace Loader

variable {l : Loader} {name : String} {bytes : List UInt8}

/-- Validating looks for a module in the binary format. -/
theorem validate_eq_ok_iff : validate bytes = .ok () ↔ ∃ m, Module.read? bytes = some m := by
  unfold validate
  cases Module.read? bytes <;> simp

theorem validate_eq_error_iff {e : Fault} : validate bytes = .error e ↔
    Module.read? bytes = none ∧ e = .validation anonymous engineText := by
  unfold validate
  cases Module.read? bytes <;> simp [eq_comm]

/-- A faithful loader compiles what compiles anew. -/
theorem Faithful.compile_eq_ok_iff (hl : l.Faithful (· = bytes)) (name : String) :
    (∃ h, (l.compile name bytes).1.outcome = .ok h) ↔ ∃ m, Module.compile? bytes = some m := by
  have hanew := compiled_eq_anew hl rfl name
  unfold anew at hanew
  cases hm : Module.compile? bytes <;> cases ho : (l.compile name bytes).1.outcome <;>
    simp [hm, ho, Except.map] at hanew ⊢

theorem Faithful.compile_eq_error_iff (hl : l.Faithful (· = bytes)) (name : String) {e : Fault} :
    (l.compile name bytes).1.outcome = .error e ↔
      Module.compile? bytes = none ∧ e = .validation name engineText := by
  have hanew := compiled_eq_anew hl rfl name
  unfold anew at hanew
  cases hm : Module.compile? bytes <;> cases ho : (l.compile name bytes).1.outcome <;>
    simp [hm, ho, Except.map] at hanew ⊢
  simp [hanew, eq_comm]

/-- A loader that keeps nothing compiles bytes as they are. -/
theorem compile_of_cache_nil (hempty : l.cache = []) (name : String) (bytes : List UInt8) :
    (l.compile name bytes).1.outcome =
      match Module.compile? bytes with
      | none => .error (.validation name engineText)
      | some m => .ok ⟨l.issued, ⟨name, m, l.hash bytes⟩⟩ := by
  have hnone : l.kept? (l.hash bytes) = none := by simp [kept?, hempty]
  unfold compile
  cases Module.compile? bytes <;> simp [hnone, issue]

/-- How a loader takes bytes, as against a fresh loader. -/
structure Accepts (l fresh : Loader) (name : String) (bytes : List UInt8) : Prop where
  compiles : (∃ h, (l.compile name bytes).1.outcome = .ok h) ↔ ∃ m, Module.compile? bytes = some m
  /-- What was compiled before makes no difference. -/
  anew : (∃ h, (l.compile name bytes).1.outcome = .ok h) ↔
    ∃ h, (fresh.compile name bytes).1.outcome = .ok h
  refuses : ∀ e, (l.compile name bytes).1.outcome = .error e ↔
    Module.compile? bytes = none ∧ e = .validation name engineText
  refuses' : ∀ e, (fresh.compile name bytes).1.outcome = .error e ↔
    Module.compile? bytes = none ∧ e = .validation name engineText
  validates : validate bytes = .ok () ↔ ∃ m, Module.read? bytes = some m
  rejects : ∀ e, validate bytes = .error e ↔
    Module.read? bytes = none ∧ e = .validation anonymous engineText
  /-- What is validated compiles. -/
  stricter : validate bytes = .ok () → ∃ h, (l.compile name bytes).1.outcome = .ok h
  /-- The two agree but on modules that are not in the binary format. -/
  agree : (validate bytes = .ok () ↔ ∃ h, (l.compile name bytes).1.outcome = .ok h) ↔
    Wasm.magic.isPrefixOf bytes = true ∨ Module.compile? bytes = none

theorem Faithful.accepts (hl : l.Faithful (· = bytes)) {fresh : Loader} (hempty : fresh.cache = [])
    (name : String) : l.Accepts fresh name bytes := by
  have hfresh : fresh.Faithful (· = bytes) := faithful_of_cache_nil hempty
  refine ⟨hl.compile_eq_ok_iff name, ?_, fun e => hl.compile_eq_error_iff name,
    fun e => hfresh.compile_eq_error_iff name, validate_eq_ok_iff, fun e => validate_eq_error_iff,
    fun h => ?_, ?_⟩
  · rw [hl.compile_eq_ok_iff, hfresh.compile_eq_ok_iff]
  · obtain ⟨m, hm⟩ := validate_eq_ok_iff.1 h
    exact (hl.compile_eq_ok_iff name).2 ⟨m, Module.compile?_of_read? hm⟩
  · rw [hl.compile_eq_ok_iff, validate_eq_ok_iff, ← Module.read?_eq_compile?_iff]
    cases hread : Module.read? bytes with
    | none => cases Module.compile? bytes <;> simp
    | some m => simp [Module.compile?_of_read? hread]

end Loader

namespace CommandLine

variable {files : FileTree} {buildDir module path : String} {bytes : List UInt8} {json : Bool}

/-- The name that a file's module gets. -/
def moduleName (path : String) : String := (Path.fileName? path).getD Loader.anonymous

theorem compileFile_of_read {l : Loader} (hempty : l.cache = []) (hread : files.read path = .ok bytes) :
    (l.compileFile files path).1.outcome =
      match Module.compile? bytes with
      | none => .error (.validation (moduleName path) engineText)
      | some m => .ok ⟨l.issued, ⟨moduleName path, m, l.hash bytes⟩⟩ := by
  unfold Loader.compileFile
  rw [hread]
  exact Loader.compile_of_cache_nil hempty _ _

/-- What the commands make of a file that was found and read. -/
structure CommandsOn (files : FileTree) (buildDir module path : String) (bytes : List UInt8) :
    Prop where
  validate : (validate files buildDir module).outcome = .ok () ↔ ∃ m, Module.read? bytes = some m
  inspect : ∀ json, (inspect files buildDir module json).outcome = .ok () ↔
    ∃ m, Module.compile? bytes = some m
  /-- A run of a file that does not compile ends there. -/
  refused : Module.compile? bytes = none → ∀ env options json,
    (run files env buildDir module options json).outcome =
      .error (runError path (.validation (moduleName path) engineText))
  /-- Any other run goes on to what the guest does. -/
  begun : ∀ m, Module.compile? bytes = some m → ∀ env options json,
    let l : Loader := { settings := runSettings env options.fuel }
    let made := l.instantiate ⟨moduleName path, m, l.hash bytes⟩ (options.imports.table reportSink)
    (run files env buildDir module options json).outcome =
      (((made.mapError faultOf).andThen (callExport · options)).outcome.map fun _ => ()).mapError
        (runError path)

section

variable (resolved : (resolveModule files module buildDir).outcome = .ok path)
  (hread : files.read path = .ok bytes)
include resolved hread

theorem outcome_validate : (validate files buildDir module).outcome = .ok () ↔
    ∃ m, Module.read? bytes = some m := by
  have hcreated : (Loader.create {}).outcome = .ok {} := rfl
  unfold validate
  simp only [Account.bind_eq_andThen, Account.andThen_of_ok resolved,
    Account.andThen_of_ok (Account.outcome_log _), hread,
    Account.andThen_of_ok (Account.mapError_of_ok hcreated _)]
  rw [← Loader.validate_eq_ok_iff]
  cases Loader.validate bytes with
  | ok _ => exact iff_of_true rfl rfl
  | error e => exact iff_of_false (fun h => by cases h) fun h => by cases h

theorem outcome_inspect (json : Bool) : (inspect files buildDir module json).outcome = .ok () ↔
    ∃ m, Module.compile? bytes = some m := by
  have hcreated : (Loader.create {}).outcome = .ok {} := rfl
  have hcompiled := compileFile_of_read (l := {}) rfl hread
  have hprinted (lines : List String) : (lines.forM (printLine (ε := CommandError))).outcome =
      .ok () := by
    induction lines with
    | nil => rfl
    | cons line lines ih =>
      change ((printLine line).andThen fun _ => lines.forM printLine).outcome = .ok ()
      rw [Account.andThen_of_ok rfl]
      exact ih
  unfold inspect
  simp only [Account.bind_eq_andThen, Account.andThen_of_ok resolved,
    Account.andThen_of_ok (Account.outcome_log _),
    Account.andThen_of_ok (Account.mapError_of_ok hcreated _)]
  cases hm : Module.compile? bytes with
  | none =>
    rw [hm] at hcompiled
    rw [Account.andThen_of_error (Account.mapError_of_error hcompiled _)]
    simp
  | some m =>
    rw [hm] at hcompiled
    rw [Account.andThen_of_ok (Account.mapError_of_ok hcompiled _)]
    cases json with
    | false => exact iff_of_true (hprinted _) ⟨m, rfl⟩
    | true => exact iff_of_true rfl ⟨m, rfl⟩

omit hread in
/-- Both modes end a run as executing the export ends. -/
theorem outcome_run (env : Environment) (options : RunOptions) (json : Bool) :
    (run files env buildDir module options json).outcome =
      ((execute files env path options reportSink).outcome.map fun _ => ()).mapError
        (runError path) := by
  cases json with
  | true => exact (run_json files env buildDir module options resolved).1
  | false =>
    rw [(run_plain files env buildDir module options resolved).1,
      outcome_execute files env path options reportSink]

omit resolved in
theorem outcome_execute_of_read (env : Environment) (options : RunOptions) (sink : Sink) :
    let l : Loader := { settings := runSettings env options.fuel }
    (execute files env path options sink).outcome =
      match Module.compile? bytes with
      | none => .error (.validation (moduleName path) engineText)
      | some m =>
        (((l.instantiate ⟨moduleName path, m, l.hash bytes⟩ (options.imports.table sink)).mapError
          faultOf).andThen (callExport · options)).outcome := by
  intro l
  have hcreated : (Loader.create (runSettings env options.fuel)).outcome = .ok l := rfl
  have hcompiled := compileFile_of_read (l := l) rfl hread
  unfold execute
  simp only [Account.bind_eq_andThen]
  rw [Account.andThen_of_ok hcreated]
  cases hm : Module.compile? bytes with
  | none =>
    rw [hm] at hcompiled
    rw [Account.andThen_of_error hcompiled]
  | some m =>
    rw [hm] at hcompiled
    rw [Account.andThen_of_ok hcompiled]

theorem commandsOn : CommandsOn files buildDir module path bytes where
  validate := outcome_validate resolved hread
  inspect := outcome_inspect resolved hread
  refused hm env options json := by
    rw [outcome_run resolved, outcome_execute_of_read hread, hm]
    rfl
  begun m hm env options json := by
    intro l made
    rw [outcome_run resolved, outcome_execute_of_read hread, hm]

end

/-- What is accepted does not depend on what a loader did before, as long as nothing else it compiled has
the hash of the bytes. What is validated compiles, and what compiles is validated if it is in the binary
format; validating changes nothing. A file that the command line reports as valid is one that can be
inspected and run, and if it is in the binary format the reverse holds too. -/
theorem validated_modules_compile (settings : Loader.Settings) (hash : List UInt8 → UInt64)
    (files : FileTree) (ops : List Operation) (name : String) (bytes : List UInt8)
    (distinct : ∀ b ∈ compiledBytes files ops, hash b = hash bytes → b = bytes) :
    let s := Session.after files { loader := { settings, hash } } ops
    s.loader.Accepts { settings, hash } name bytes ∧ (s.step files (.validate bytes)).2 = s ∧
      ∀ buildDir module path, (resolveModule files module buildDir).outcome = .ok path →
        files.read path = .ok bytes → CommandsOn files buildDir module path bytes := by
  intro s
  have hfresh : ({ settings, hash } : Loader).KeepsCompiled (· ∈ compiledBytes files ops) := by
    intro k h hk
    simp [Loader.kept?] at hk
  obtain ⟨-, hhash, hkeeps⟩ := Session.loader_after (s := { loader := { settings, hash } }) hfresh
    ops fun b hb => hb
  have hl : s.loader.Faithful (· = bytes) := hkeeps.faithful fun b hb h => distinct b hb (by
    rwa [hhash] at h)
  exact ⟨hl.accepts rfl name, rfl, fun _ _ _ resolved hread => commandsOn resolved hread⟩

/-- The module with nothing in it, as text. -/
def emptyText : List UInt8 := [0x28, 0x6D, 0x6F, 0x64, 0x75, 0x6C, 0x65, 0x29]

theorem compile?_emptyText : ∃ m, Module.compile? emptyText = some m := by
  have hdecode : Text.Utf8.decode emptyText = .ok "(module)" := by
    decide +kernel
  have htokens : (Wasm.ModuleText.tokens "(module)".toList).map Wasm.ModuleText.isEmptyModule =
      some true := by
    decide +kernel
  refine ⟨{}, ?_⟩
  rw [Module.compile?, if_neg (by decide), hdecode]
  dsimp only
  rw [htokens]
  rfl

/-- Binary bytes, in a session that compiled a text before, and a file of it. -/
theorem validated_modules_compile_preamble :
    let ops : List Operation := [.compile "a" emptyText, .clearCache, .compile "b" Wasm.Binary.preamble]
    let files := FileTree.ofList [("guest.wasm", Wasm.Binary.preamble)]
    let l := (Session.after files { loader := { settings := {}, hash := contentHash } } ops).loader
    (∀ b ∈ compiledBytes files ops, contentHash b = contentHash Wasm.Binary.preamble →
        b = Wasm.Binary.preamble) ∧
      Loader.validate Wasm.Binary.preamble = .ok () ∧
      (∃ h, (l.compile "c" Wasm.Binary.preamble).1.outcome = .ok h) ∧
      (validate files "build" "guest.wasm").outcome = .ok () := by
  intro ops files l
  have distinct : ∀ b ∈ compiledBytes files ops, contentHash b = contentHash Wasm.Binary.preamble →
      b = Wasm.Binary.preamble := by
    decide
  have hread : files.read "guest.wasm" = .ok Wasm.Binary.preamble := by
    decide +kernel
  have resolved : (resolveModule files "guest.wasm" "build").outcome = .ok "guest.wasm" := by
    have hfile : files.isFile "guest.wasm" = true := by decide +kernel
    rw [resolveModule_outcome, if_pos hfile]
  have hvalid : Loader.validate Wasm.Binary.preamble = .ok () := by
    decide +kernel
  obtain ⟨haccepts, -, hcommands⟩ := validated_modules_compile {} contentHash files ops "c"
    Wasm.Binary.preamble distinct
  exact ⟨distinct, hvalid, haccepts.stricter hvalid,
    (hcommands "build" "guest.wasm" "guest.wasm" resolved hread).validate.2 (haccepts.validates.1 hvalid)⟩

/-- The text compiles and is not validated. -/
theorem text_compiles_without_being_valid :
    ¬ (Loader.validate emptyText = .ok () ↔
      ∃ h, (({} : Loader).compile "text" emptyText).1.outcome = .ok h) := by
  have hinvalid : Loader.validate emptyText ≠ .ok () := by
    decide +kernel
  have hcompiles : ∃ h, (({} : Loader).compile "text" emptyText).1.outcome = .ok h :=
    ((Loader.faithful_of_cache_nil rfl).compile_eq_ok_iff "text").2 compile?_emptyText
  exact fun h => hinvalid (h.2 hcompiles)

end CommandLine
end GuestHarness
