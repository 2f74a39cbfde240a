import GuestHarness.CommandLine.Program
import GuestHarness.Proofs.Emission.Redirection
import GuestHarness.Proofs.Json.Spelling
import GuestHarness.Proofs.Session.Isolation

/-! The two modes of running an export. They bind the guest's loggers to different sinks and print
different things, and yet tell of the same run. -/
namespace GuestHarness.CommandLine
open Wasm (ImportCall)

/-- The choice of imports does not depend on the sink. -/
theorem table_redirect (imports : ImportChoice) (sink sink' : Sink) :
    (imports.table sink).redirect (fun _ => sink') = imports.table sink' := by
  cases imports <;> rfl

section

variable {l : Linkage} {i : Instance} (h : i.MadeWith l) (g : Sink → Sink) (options : RunOptions)
include h

theorem callExport_relink :
    callExport (i.relink (l.redirect g)) options = (callExport i options).redirect g := by
  unfold callExport
  simp only [Account.bind_eq_andThen, Account.redirect_andThen]
  have hsignature : (i.relink (l.redirect g)).signature options.exported =
      i.signature options.exported := rfl
  rw [hsignature]
  refine Account.andThen_congr fun s _ => Account.andThen_congr fun args _ => ?_
  rw [Instance.invoke_relink h]
  rfl

end

/-- A run is the same with any sink, but for where its emissions go. -/
theorem execute_redirect (files : FileTree) (env : Environment) (path : String)
    (options : RunOptions) (sink sink' : Sink) :
    execute files env path options sink' =
      (execute files env path options sink).redirect fun _ => sink' := by
  have hcreate (s : Loader.Settings) : (Loader.create s).redirect (fun _ => sink') = Loader.create s := rfl
  unfold execute
  simp only [Account.bind_eq_andThen, Account.redirect_andThen, hcreate,
    Loader.redirect_compileFile]
  refine Account.andThen_congr fun l _ => Account.andThen_congr fun handle _ => ?_
  rw [← table_redirect options.imports sink sink', Loader.instantiate_redirect,
    ← Account.redirect_mapError, Account.mapError_map, ← Account.redirect_andThen]
  refine Account.andThen_redirect_map _ _ _ fun i hi => ?_
  have hmade : (l.instantiate handle.compiled (options.imports.table sink)).outcome = .ok i :=
    Account.outcome_of_mapError hi
  exact callExport_relink (Loader.madeWith_of_instantiate hmade) _ options

/-- The calls of loggers that calling an export comes to, once its arguments are read. -/
def callsOfExport (i : Instance) (options : RunOptions) : List (ImportCall Fault) :=
  match (i.signature options.exported).bind (·.parseArgs options.exported options.args) with
  | .error _ => []
  | .ok args => i.callsBy (.invoke options.exported args)

/-- The calls of loggers in the course of a run: by the start function, and then by the export. -/
def guestCalls (l : Loader) (c : Compiled) (t : ImportTable) (options : RunOptions) :
    List (ImportCall Fault) :=
  l.callsOfInstantiate c t ++
    match (l.instantiate c t).outcome with
    | .error _ => []
    | .ok i => callsOfExport i options

/-- What the guest emits in a run with the given sink: what its calls of loggers emit, in their order. -/
def guestEmissions (files : FileTree) (env : Environment) (path : String) (options : RunOptions)
    (sink : Sink) : List Emission :=
  let l : Loader := { settings := runSettings env options.fuel }
  let t := options.imports.table sink
  match (l.compileFile files path).1.outcome with
  | .error _ => []
  | .ok h =>
    (guestCalls l h.compiled t options).filterMap
      (t.emissionTo? (l.linkage t) h.compiled.module sink)

section

variable {t : ImportTable} {l : Linkage} {m : Wasm.Module} {functions : Array Wasm.FuncType}
  {fuel cap : Option Nat} {i : Instance}

theorem emissionsTo_callExport (h : Linked t l m functions) (hi : Ready l m functions fuel cap i)
    (options : RunOptions) (sink : Sink) :
    emissionsTo sink (callExport i options).noticed =
      (callsOfExport i options).filterMap (t.emissionTo? l m sink) := by
  unfold callExport callsOfExport
  cases hs : i.signature options.exported with
  | error e => rfl
  | ok s =>
    simp only [Account.bind_eq_andThen, Account.andThen_of_ok (Account.outcome_ofExcept _), Except.bind]
    cases hargs : s.parseArgs options.exported options.args with
    | error e => rfl
    | ok args =>
      have haccounts := (h.answer hi (.invoke options.exported args)).2
      rw [← haccounts.emitted sink, Instance.answer, Account.noticed_map,
        Account.andThen_of_ok (Account.outcome_ofExcept _)]
      exact Account.emissionsTo_andThen_of_silent (fun _ => rfl) _

end

theorem emissionsTo_compileFile (l : Loader) (files : FileTree) (path : String) (sink : Sink) :
    emissionsTo sink (l.compileFile files path).1.noticed = [] := by
  unfold Loader.compileFile
  split
  · rfl
  · exact Session.emissionsTo_compile l _ _ sink

/-- What a loader compiles that keeps nothing is a valid module. -/
theorem valid_of_compileFile {l : Loader} (hempty : l.cache = []) {files : FileTree} {path : String}
    {h : Handle} (hcompiled : (l.compileFile files path).1.outcome = .ok h) :
    Wasm.Typing.module h.compiled.module = true := by
  unfold Loader.compileFile at hcompiled
  split at hcompiled
  · cases hcompiled
  · next bytes _ =>
    have hnone : l.kept? (l.hash bytes) = none := by simp [Loader.kept?, hempty]
    obtain ⟨h', hk, -⟩ | ⟨h', hk, -⟩ | ⟨-, -, houtcome, -⟩ | ⟨module, -, hm, houtcome, -⟩ :=
      Loader.compile_cases l ((Path.fileName? path).getD Loader.anonymous) bytes
    · cases hnone.symm.trans hk
    · cases hnone.symm.trans hk
    · cases houtcome.symm.trans hcompiled
    · cases houtcome.symm.trans hcompiled
      exact Wasm.Typing.module_of_compile? hm

theorem emissionsTo_instantiated (l : Loader) {h : Handle} (t : ImportTable)
    (valid : Wasm.Typing.module h.compiled.module = true) (options : RunOptions) (sink : Sink) :
    emissionsTo sink (((l.instantiate h.compiled t).mapError faultOf).andThen
        (callExport · options)).noticed =
      (guestCalls l h.compiled t options).filterMap
        (t.emissionTo? (l.linkage t) h.compiled.module sink) := by
  obtain ⟨functions, hvalid⟩ := Wasm.Typing.exists_valid_of_module valid
  obtain ⟨hready, haccounts⟩ := Session.accounts_callsOfInstantiate (h := h) t l hvalid
  unfold guestCalls
  rw [List.filterMap_append, ← haccounts.emitted sink]
  cases hmade : (l.instantiate h.compiled t).outcome with
  | error e =>
    rw [Account.andThen_of_error (Account.mapError_of_error hmade faultOf)]
    simp
  | ok i =>
    obtain ⟨hlinked, hi⟩ := hready i hmade
    rw [Account.andThen_of_ok (Account.mapError_of_ok hmade faultOf), emissionsTo_append,
      emissionsTo_callExport hlinked hi]
    rfl

/-- All that a run emits comes from its calls of loggers, and each of them emits once if it succeeds. -/
theorem emissionsTo_execute (files : FileTree) (env : Environment) (path : String)
    (options : RunOptions) (sink : Sink) :
    emissionsTo sink (execute files env path options sink).noticed =
      guestEmissions files env path options sink := by
  have hcreated : (Loader.create (runSettings env options.fuel)).outcome =
      .ok { settings := runSettings env options.fuel } := rfl
  unfold guestEmissions execute
  simp only [Account.bind_eq_andThen]
  rw [Account.andThen_of_ok hcreated, emissionsTo_append]
  have hquiet : emissionsTo sink (Loader.create (runSettings env options.fuel)).noticed = [] := rfl
  rw [hquiet, List.nil_append]
  generalize hl : ({ settings := runSettings env options.fuel } : Loader) = l
  have hempty : l.cache = [] := by rw [← hl]
  cases hcompiled : (l.compileFile files path).1.outcome with
  | error e => rw [Account.andThen_of_error hcompiled, emissionsTo_compileFile]
  | ok h =>
    rw [Account.andThen_of_ok hcompiled, emissionsTo_append, emissionsTo_compileFile,
      List.nil_append]
    exact emissionsTo_instantiated l _ (valid_of_compileFile hempty hcompiled) options sink

section

variable (files : FileTree) (env : Environment) (path : String) (options : RunOptions)

theorem outcome_execute (sink sink' : Sink) :
    (execute files env path options sink').outcome = (execute files env path options sink).outcome := by
  rw [execute_redirect files env path options sink sink', Account.outcome_redirect]

/-- What is redirected to one sink is the same for each sink, and nothing goes to another. -/
theorem emissionsTo_redirect (os : List Occurrence) (sink sink' : Sink) :
    emissionsTo sink (os.map (.redirect fun _ => sink)) =
      emissionsTo sink' (os.map (.redirect fun _ => sink')) := by
  unfold emissionsTo
  rw [List.filterMap_map, List.filterMap_map]
  congr 1
  funext o
  cases o <;> simp [Occurrence.redirect, Occurrence.emission?]

theorem emissionsTo_redirect_of_ne (os : List Occurrence) {sink sink' : Sink} (h : sink ≠ sink') :
    emissionsTo sink' (os.map (.redirect fun _ => sink)) = [] := by
  unfold emissionsTo
  rw [List.filterMap_map]
  refine List.filterMap_eq_nil_iff.2 fun o _ => ?_
  cases o <;> simp [Occurrence.redirect, Occurrence.emission?, h]

theorem emissionsTo_execute_of_ne {sink sink' : Sink} (h : sink ≠ sink') :
    emissionsTo sink' (execute files env path options sink).noticed = [] := by
  rw [execute_redirect files env path options sink sink]
  exact emissionsTo_redirect_of_ne _ h

/-- The guest emits the same to whichever sink. -/
theorem guestEmissions_eq (sink sink' : Sink) :
    guestEmissions files env path options sink' = guestEmissions files env path options sink := by
  have h (s : Sink) : guestEmissions files env path options s =
      emissionsTo s ((execute files env path options sink).noticed.map (.redirect fun _ => s)) := by
    rw [← emissionsTo_execute, execute_redirect files env path options sink s,
      Account.noticed_redirect]
  rw [h sink', h sink]
  exact emissionsTo_redirect _ sink' sink

end

/-- The lines that a run prints after its emissions: its result, if it has one. -/
def resultLines : Except Fault RunOutcome → List String
  | .ok ⟨some v, _⟩ => [v.text]
  | _ => []

/-- The members of a document under a key. -/
def valuesAt (key : String) : Json → List Json
  | .object members => Json.membersAt key members
  | _ => []

/-- The document reports a run: what the guest emitted, and then what the run came to, as a result or as
an error. -/
structure Reports (doc : Json) (module : String) (options : RunOptions) (emissions : List Emission)
    (outcome : Except Fault RunOutcome) : Prop where
  module : valuesAt "module" doc = [.text module]
  exported : valuesAt "export" doc = [.text options.exported]
  emissions : valuesAt "emissions" doc = [.array (emissions.map Emission.toJson)]
  succeeded {o : RunOutcome} (h : outcome = .ok o) :
    valuesAt "result" doc = [Json.optional Value.toJson o.result] ∧
      valuesAt "remaining_fuel" doc = [Json.optional (fun n => Json.integer n) o.remainingFuel] ∧
      valuesAt "error" doc = []
  failed {e : Fault} (h : outcome = .error e) :
    valuesAt "result" doc = [] ∧ valuesAt "remaining_fuel" doc = [] ∧
      valuesAt "error" doc = [.record [("code", .text e.code), ("message", .text e.message)]]

/-- The two modes tell of one run. They end alike, plain mode prints the emissions and the result, and
what JSON mode prints is one document that reports the run. -/
structure SameRun (path module : String) (options : RunOptions) (emissions : List Emission)
    (outcome : Except Fault RunOutcome) (plain json : Account CommandError Unit) : Prop where
  plainOutcome : plain.outcome = (outcome.map fun _ => ()).mapError (runError path)
  jsonOutcome : json.outcome = (outcome.map fun _ => ()).mapError (runError path)
  plainOutput : outputOf plain.noticed =
    String.join ((emissions.map Emission.display ++ resultLines outcome).map (· ++ "\n"))
  jsonOutput : ∃ doc, Json.parse? (outputOf json.noticed) = some doc ∧
    Reports doc module options emissions outcome

theorem reports_report (module : String) (options : RunOptions) (ran : Account Fault RunOutcome) :
    Reports (report module options ran) module options (emissionsTo reportSink ran.noticed)
      ran.outcome := by
  obtain ⟨noticed, e | o⟩ := ran
  · refine ⟨rfl, rfl, rfl, (fun h => by cases h), fun h => ?_⟩
    cases h
    exact ⟨rfl, rfl, rfl⟩
  · refine ⟨rfl, rfl, rfl, fun h => ?_, fun h => by cases h⟩
    cases h
    exact ⟨rfl, rfl, rfl⟩

theorem wellFormed_report (module : String) (options : RunOptions) (ran : Account Fault RunOutcome) :
    Json.WellFormed (report module options ran) := by
  refine .object fun m hm => ?_
  obtain hm | hm := List.mem_append.1 hm
  · simp only [List.mem_cons, List.not_mem_nil, or_false] at hm
    obtain rfl | rfl | rfl := hm
    · exact .text _
    · exact .text _
    · refine .array fun v hv => ?_
      obtain ⟨e, -, rfl⟩ := List.mem_map.1 hv
      exact e.wellFormed_toJson
  · split at hm
    · simp only [RunOutcome.members, List.mem_cons, List.not_mem_nil, or_false] at hm
      obtain rfl | rfl := hm
      · exact Json.wellFormed_optional Value.wellFormed_toJson _
      · exact Json.wellFormed_optional (fun n => Json.wellFormed_integer n) _
    · obtain rfl := List.mem_singleton.1 hm
      refine .object fun m hm => ?_
      simp only [List.mem_cons, List.not_mem_nil, or_false] at hm
      obtain rfl | rfl := hm <;> exact .text _

/-- Looking for a module's file prints nothing. -/
theorem emissionsTo_resolveModule (files : FileTree) (module buildDir : String) (sink : Sink) :
    emissionsTo sink (resolveModule files module buildDir).noticed = [] := by
  unfold resolveModule resolveAmong
  dsimp only
  split
  · rfl
  · split <;> rfl

section

variable (files : FileTree) (env : Environment) (buildDir module : String) (options : RunOptions)
  {path : String} (resolved : (resolveModule files module buildDir).outcome = .ok path)
include resolved

theorem run_plain :
    let ran := execute files env path options .standardOutput
    let plain := run files env buildDir module options false
    plain.outcome = (ran.outcome.map fun _ => ()).mapError (runError path) ∧
      emissionsTo .standardOutput plain.noticed =
        emissionsTo .standardOutput ran.noticed ++ (resultLines ran.outcome).map Emission.text := by
  intro ran plain
  simp only [plain, run, Account.bind_eq_andThen, Account.andThen_of_ok resolved,
    Account.andThen_of_ok (Account.outcome_log _), emissionsTo_append, emissionsTo_resolveModule,
    Account.noticed_log, emissionsTo_logged, List.nil_append, Bool.false_eq_true, if_false]
  cases houtcome : ran.outcome with
  | error e =>
    rw [Account.andThen_of_error (Account.mapError_of_error houtcome _)]
    exact ⟨rfl, (List.append_nil _).symm⟩
  | ok o =>
    rw [Account.andThen_of_ok (Account.mapError_of_ok houtcome _), emissionsTo_append]
    obtain ⟨_ | v, remainingFuel⟩ := o
    · exact ⟨rfl, rfl⟩
    · exact ⟨rfl, rfl⟩

theorem run_json :
    let ran := execute files env path options reportSink
    let json := run files env buildDir module options true
    json.outcome = (ran.outcome.map fun _ => ()).mapError (runError path) ∧
      emissionsTo .standardOutput json.noticed = [.text (report module options ran).pretty] := by
  have hne : reportSink ≠ .standardOutput := by simp [reportSink]
  intro ran json
  simp only [json, run, Account.bind_eq_andThen, Account.andThen_of_ok resolved,
    Account.andThen_of_ok (Account.outcome_log _), emissionsTo_append, emissionsTo_resolveModule,
    Account.noticed_log, emissionsTo_logged, List.nil_append, if_true,
    emissionsTo_execute_of_ne files env path options hne]
  exact ⟨rfl, rfl⟩

/-- The two modes tell of one run, however it ends: with any sink the guest emits the same and the run
ends the same way. -/
theorem modes_tell_of_one_run :
    ∃ emissions outcome,
      (∀ sink, guestEmissions files env path options sink = emissions ∧
        (execute files env path options sink).outcome = outcome) ∧
      SameRun path module options emissions outcome
        (run files env buildDir module options false) (run files env buildDir module options true) := by
  obtain ⟨hplain, hprinted⟩ := run_plain files env buildDir module options resolved
  obtain ⟨hjson, hreport⟩ := run_json files env buildDir module options resolved
  have hemitted (sink : Sink) :
      emissionsTo sink (execute files env path options sink).noticed =
        guestEmissions files env path options reportSink := by
    rw [emissionsTo_execute]
    exact guestEmissions_eq files env path options reportSink sink
  have houtcome (sink : Sink) := outcome_execute files env path options reportSink sink
  refine ⟨guestEmissions files env path options reportSink,
    (execute files env path options reportSink).outcome,
    fun sink => ⟨guestEmissions_eq files env path options reportSink sink, houtcome sink⟩, ?_⟩
  constructor
  · rw [hplain, houtcome]
  · exact hjson
  · unfold outputOf
    rw [hprinted, hemitted, houtcome, List.map_append, List.map_map, List.map_append, List.map_map]
    rfl
  · refine ⟨report module options (execute files env path options reportSink), ?_, ?_⟩
    · have hline : outputOf (run files env buildDir module options true).noticed =
          (report module options (execute files env path options reportSink)).pretty ++
            String.ofList ['\n'] := by
        simp [outputOf, hreport, String.join, Emission.display]
      rw [hline]
      exact Json.parse?_pretty (wellFormed_report module options _) (by simp [Json.Blanks, Json.isSpace])
    · rw [← hemitted reportSink]
      exact reports_report module options _

end

/-- A module whose `main` logs seven and then traps. -/
def talkative : List UInt8 :=
  [0x00, 0x61, 0x73, 0x6d, 0x01, 0x00, 0x00, 0x00,
    0x01, 0x08, 0x02, 0x60, 0x01, 0x7f, 0x00, 0x60, 0x00, 0x00,
    0x02, 0x0f, 0x01, 0x07, 0x63, 0x6f, 0x6e, 0x73, 0x6f, 0x6c, 0x65, 0x03, 0x6c, 0x6f, 0x67, 0x00, 0x00,
    0x03, 0x02, 0x01, 0x01,
    0x07, 0x08, 0x01, 0x04, 0x6d, 0x61, 0x69, 0x6e, 0x00, 0x01,
    0x0a, 0x09, 0x01, 0x07, 0x00, 0x41, 0x07, 0x10, 0x00, 0x00, 0x0b]

theorem modes_tell_of_one_run_talkative :
    let files := FileTree.ofList [("guest.wasm", talkative)]
    let options : RunOptions := ⟨.int, "main", [], none⟩
    (resolveModule files "guest.wasm" "build").outcome = .ok "guest.wasm" ∧
      ∃ emissions outcome,
        (∀ sink, guestEmissions files (.ofList []) "guest.wasm" options sink = emissions ∧
          (execute files (.ofList []) "guest.wasm" options sink).outcome = outcome) ∧
        SameRun "guest.wasm" "guest.wasm" options emissions outcome
          (run files (.ofList []) "build" "guest.wasm" options false)
          (run files (.ofList []) "build" "guest.wasm" options true) := by
  intro files options
  have resolved : (resolveModule files "guest.wasm" "build").outcome = .ok "guest.wasm" := by
    have hfile : files.isFile "guest.wasm" = true := by decide +kernel
    rw [resolveModule_outcome, if_pos hfile]
  exact ⟨resolved, modes_tell_of_one_run files (.ofList []) "build" "guest.wasm" options resolved⟩

end GuestHarness.CommandLine
