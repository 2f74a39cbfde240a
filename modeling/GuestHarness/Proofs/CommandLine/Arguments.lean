import GuestHarness.Proofs.Calls.Introspection
import GuestHarness.Proofs.CommandLine.Modes

/-! Arguments given as texts. Their number is compared first, then each is read at the type of its place;
what has been read is accepted by the function it is meant for. -/
namespace GuestHarness

theorem Value.type_of_parse {t : ValueType} {text : String} {v : Value}
    (h : Value.parse t text = .ok v) : v.type = t := by
  unfold Value.parse at h
  dsimp only at h
  split at h
  · next hread =>
    cases h
    cases t <;> obtain ⟨_, -, rfl⟩ := Option.map_eq_some_iff.1 hread <;> rfl
  · cases h

theorem getLast?_toList_append {a b : String} (h : b.toList ≠ []) :
    (a ++ b).toList.getLast? = b.toList.getLast? := by
  rw [String.toList_append, List.getLast?_append_of_ne_nil _ h]

/-- What is said of a text is never what is said of a number of texts: it ends differently. -/
theorem LiteralError.message_ne (e : LiteralError) (n : Nat) : e.message ≠ s!"{n} argument(s)" := by
  intro h
  have hlast : e.message.toList.getLast? = some ')' := by
    rw [h]
    exact getLast?_toList_append (by decide)
  cases e with
  | unknownType text =>
    have hmessage : (unknownType text).message = s!"unknown value type '{text}" ++ "'" := rfl
    rw [hmessage, getLast?_toList_append (by decide)] at hlast
    revert hlast
    decide
  | invalid t text =>
    have hmessage : (invalid t text).message = s!"'{text}' is not a valid " ++ t.name := rfl
    rw [hmessage, getLast?_toList_append (by cases t <;> decide)] at hlast
    revert hlast
    cases t <;> decide

namespace Signature

variable (s : Signature) (exported : String)

/-- The failure to read so many texts, whatever they are. -/
def countFault (n : Nat) : Fault := .arityOrType exported (typesText s.params) s!"{n} argument(s)"

/-- The failure to read one of the texts. -/
def literalFault (e : LiteralError) : Fault := .arityOrType exported (typesText s.params) e.message

/-- What each text is read as, at the type of its place. -/
def readings (texts : List String) : List (Except LiteralError Value) :=
  List.zipWith Value.parse s.params texts

/-- What becomes of texts that are read one after the other: all that they are read as, or the failure of
the first that cannot be read. -/
inductive ReadInOrder (readings : List (Except LiteralError Value)) : Except Fault (List Value) → Prop
  | all (vs : List Value) (h : readings = vs.map .ok) : ReadInOrder readings (.ok vs)
  | upTo (vs : List Value) (e : LiteralError) (rest : List (Except LiteralError Value))
    (h : readings = vs.map .ok ++ .error e :: rest) :
    ReadInOrder readings (.error (s.literalFault exported e))

/-- Texts are read as arguments, unless their number is wrong, and what has been read is accepted. -/
structure ReadsTexts (texts : List String) : Prop where
  count : s.parseArgs exported texts = .error (s.countFault exported texts.length) ↔
    texts.length ≠ s.params.length
  inOrder (same : texts.length = s.params.length) :
    s.ReadInOrder exported (s.readings texts) (s.parseArgs exported texts)
  accepted (vs : List Value) (read : s.parseArgs exported texts = .ok vs) :
    vs.length = s.params.length ∧ s.checkArgs exported vs = .ok ()

theorem countFault_ne_literalFault (n : Nat) (e : LiteralError) :
    s.countFault exported n ≠ s.literalFault exported e := by
  unfold countFault literalFault
  intro h
  exact e.message_ne n (Fault.arityOrType.inj h).2.2.symm

theorem readInOrder_parseEach {ts : List ValueType} {texts : List String}
    (same : texts.length = ts.length) :
    s.ReadInOrder exported (List.zipWith Value.parse ts texts) (s.parseEach exported ts texts) := by
  induction ts generalizing texts with
  | nil =>
    obtain rfl := List.length_eq_zero_iff.1 same
    exact .all [] rfl
  | cons t ts ih =>
    obtain _ | ⟨text, texts⟩ := texts
    · cases same
    · have hrest := ih (Nat.succ.inj same)
      rw [List.zipWith_cons_cons, parseEach]
      cases Value.parse t text with
      | error e => exact .upTo [] e _ rfl
      | ok v =>
        generalize s.parseEach exported ts texts = read at hrest
        cases hrest with
        | all vs h => exact .all (v :: vs) (by rw [h, List.map_cons])
        | upTo vs e rest h =>
          exact .upTo (v :: vs) e rest (by rw [h, List.map_cons, List.cons_append])

theorem types_of_readings {ts : List ValueType} {texts : List String} {vs : List Value}
    (same : texts.length = ts.length) (h : List.zipWith Value.parse ts texts = vs.map .ok) :
    vs.map Value.type = ts := by
  induction ts generalizing texts vs with
  | nil =>
    rw [List.zipWith_nil_left] at h
    obtain rfl := List.map_eq_nil_iff.1 h.symm
    rfl
  | cons t ts ih =>
    obtain _ | ⟨text, texts⟩ := texts
    · cases same
    · rw [List.zipWith_cons_cons] at h
      obtain ⟨v, vs, rfl, hv, hvs⟩ := List.map_eq_cons_iff.1 h.symm
      rw [List.map_cons, Value.type_of_parse hv.symm, ih (Nat.succ.inj same) hvs.symm]

theorem parseArgs_of_length_ne {texts : List String} (h : texts.length ≠ s.params.length) :
    s.parseArgs exported texts = .error (s.countFault exported texts.length) := if_neg h

theorem readInOrder_parseArgs {texts : List String} (same : texts.length = s.params.length) :
    s.ReadInOrder exported (s.readings texts) (s.parseArgs exported texts) := by
  rw [parseArgs, if_pos same]
  exact s.readInOrder_parseEach exported same

variable {s exported}

/-- What has been read has the types of the parameters. -/
theorem types_of_parseArgs {texts : List String} {vs : List Value}
    (h : s.parseArgs exported texts = .ok vs) : vs.map Value.type = s.params := by
  by_cases same : texts.length = s.params.length
  · have hread := s.readInOrder_parseArgs exported same
    rw [h] at hread
    cases hread with
    | all vs hall => exact types_of_readings same hall
  · cases h.symm.trans (s.parseArgs_of_length_ne exported same)

theorem readsTexts (s : Signature) (exported : String) (texts : List String) :
    s.ReadsTexts exported texts where
  count := by
    refine ⟨fun hcount same => ?_, s.parseArgs_of_length_ne exported⟩
    have hread := s.readInOrder_parseArgs exported same
    generalize s.parseArgs exported texts = read at hcount hread
    cases hread with
    | all => cases hcount
    | upTo vs e =>
      exact s.countFault_ne_literalFault exported _ e (Except.error.inj hcount).symm
  inOrder := s.readInOrder_parseArgs exported
  accepted vs read := by
    have htypes := types_of_parseArgs read
    refine ⟨?_, checkArgs_eq_ok_iff.2 htypes⟩
    rw [← htypes, List.length_map]

end Signature

/-- A call with arguments of the types that the function is known for is refused only if more than one
result is in the way. -/
theorem Linked.refused_invoke_iff {t : ImportTable} {l : Linkage} {m : Wasm.Module}
    {functions : Array Wasm.FuncType} {fuel cap : Option Nat} {i : Instance}
    (h : Linked t l m functions) (hi : Ready l m functions fuel cap i) {exported : String}
    {s : Signature} {args : List Value} (known : i.signature exported = .ok s)
    (htypes : args.map Value.type = s.params) :
    (∀ name, (i.invoke exported args).1.outcome ≠ .error (.notFound name)) ∧
      ((∃ name expected actual, (i.invoke exported args).1.outcome =
          .error (.arityOrType name expected actual)) ↔ 1 < s.results.length) := by
  obtain ⟨index, hfunction⟩ := Instance.signature_eq_ok_iff.1 known
  have hresolve := Instance.resolve_of_function? hfunction
  by_cases hresults : 1 < s.results.length
  · rw [Instance.invoke_of_results args hresolve hresults]
    exact ⟨fun name hname => (by cases hname), iff_of_true ⟨_, _, _, rfl⟩ hresults⟩
  · have hentry : i.entry? (.invoke exported args) = some (index, args) :=
      Instance.enters_invoke hresolve (Nat.le_of_not_lt hresults) htypes
    have hunrefused {e : Fault} (he : (i.invoke exported args).1.outcome = .error e) :
        e.refused? = none :=
      h.refused?_of_entry? hi hentry (Account.outcome_map_eq_error_iff.2 he)
    refine ⟨fun name hname => ?_, iff_of_false (fun ⟨_, _, _, he⟩ => ?_) hresults⟩
    · cases hunrefused hname
    · cases hunrefused he

namespace CommandLine

/-- A run whose arguments have been read: it comes to what the call comes to, and the call finds its
function and is refused only if that gives more than one result. -/
structure CallsAsRead (options : RunOptions) (i : Instance) (s : Signature) (args : List Value)
    (ran : Except Fault RunOutcome) : Prop where
  outcome : ran = (i.invoke options.exported args).1.outcome.map fun v =>
    ⟨v, (i.invoke options.exported args).2.fuel⟩
  found (name : String) : (i.invoke options.exported args).1.outcome ≠ .error (.notFound name)
  refused : (∃ name expected actual, (i.invoke options.exported args).1.outcome =
    .error (.arityOrType name expected actual)) ↔ 1 < s.results.length

theorem outcome_callExport {i : Instance} {options : RunOptions} {s : Signature} {args : List Value}
    (known : i.signature options.exported = .ok s)
    (read : s.parseArgs options.exported options.args = .ok args) :
    (callExport i options).outcome = (i.invoke options.exported args).1.outcome.map fun v =>
      ⟨v, (i.invoke options.exported args).2.fuel⟩ := by
  unfold callExport
  simp only [Account.bind_eq_andThen, Account.outcome_andThen, Account.outcome_ofExcept, known, read,
    Except.bind]
  cases (i.invoke options.exported args).1.outcome <;> rfl

/-- A run whose module was made an instance comes to what calling the export comes to. -/
theorem outcome_execute_of_made {files : FileTree} {env : Environment} {path : String}
    {options : RunOptions} {sink : Sink} {h : Handle} {i : Instance}
    (compiled : (Loader.compileFile { settings := runSettings env options.fuel } files
      path).1.outcome = .ok h)
    (made : (Loader.instantiate { settings := runSettings env options.fuel } h.compiled
      (options.imports.table sink)).outcome = .ok i) :
    (execute files env path options sink).outcome = (callExport i options).outcome := by
  have hcreated : (Loader.create (runSettings env options.fuel)).outcome =
      .ok { settings := runSettings env options.fuel } := rfl
  unfold execute
  simp only [Account.bind_eq_andThen]
  rw [Account.andThen_of_ok hcreated, Account.andThen_of_ok compiled,
    Account.andThen_of_ok (Account.mapError_of_ok made faultOf)]

end CommandLine

open CommandLine in
/-- Arguments that have been read from texts are arguments that are accepted, for each signature. In a run
nothing else stands between reading them and the call but that the function may give more than one
result. -/
theorem read_arguments_are_accepted :
    (∀ (s : Signature) (exported : String) (texts : List String), s.ReadsTexts exported texts) ∧
      ∀ (files : FileTree) (env : Environment) (path : String) (options : RunOptions) (sink : Sink)
        (h : Handle) (i : Instance) (s : Signature) (args : List Value),
        let l : Loader := { settings := runSettings env options.fuel }
        (l.compileFile files path).1.outcome = .ok h →
        (l.instantiate h.compiled (options.imports.table sink)).outcome = .ok i →
        i.signature options.exported = .ok s →
        s.parseArgs options.exported options.args = .ok args →
        CallsAsRead options i s args (execute files env path options sink).outcome := by
  refine ⟨Signature.readsTexts, ?_⟩
  intro files env path options sink h i s args l compiled made known read
  have valid : Wasm.Typing.module h.compiled.module = true := valid_of_compileFile rfl compiled
  obtain ⟨functions, hlinked, hi, -⟩ := Loader.ready_answers valid made []
  obtain ⟨hfound, hrefused⟩ :=
    hlinked.refused_invoke_iff hi known (Signature.types_of_parseArgs read)
  exact ⟨(outcome_execute_of_made compiled made).trans (outcome_callExport known read), hfound, hrefused⟩

/-- A module whose `twice` gives its argument back two times. -/
def twiceModule : List UInt8 :=
  [0x00, 0x61, 0x73, 0x6d, 0x01, 0x00, 0x00, 0x00,
    0x01, 0x07, 0x01, 0x60, 0x01, 0x7f, 0x02, 0x7f, 0x7f,
    0x03, 0x02, 0x01, 0x00,
    0x07, 0x09, 0x01, 0x05, 0x74, 0x77, 0x69, 0x63, 0x65, 0x00, 0x00,
    0x0a, 0x08, 0x01, 0x06, 0x00, 0x20, 0x00, 0x20, 0x00, 0x0b]

open CommandLine in
/-- The text is read as a number, and the call is refused for its two results. -/
theorem read_arguments_are_accepted_twice :
    let files := FileTree.ofList [("guest.wasm", twiceModule)]
    let options : RunOptions := ⟨.none, "twice", ["4294967295"], none⟩
    let l : Loader := { settings := runSettings (.ofList []) options.fuel }
    let s : Signature := ⟨[.i32], [.i32, .i32]⟩
    ∃ h i, (l.compileFile files "guest.wasm").1.outcome = .ok h ∧
      (l.instantiate h.compiled (options.imports.table .standardOutput)).outcome = .ok i ∧
      i.signature "twice" = .ok s ∧ s.parseArgs "twice" options.args = .ok [.i32 (-1)] ∧
      ∃ name expected actual, (execute files (.ofList []) "guest.wasm" options
        .standardOutput).outcome = .error (.arityOrType name expected actual) := by
  intro files options l s
  have hreached : ((l.compileFile files "guest.wasm").1.outcome.toOption.bind fun h =>
      (l.instantiate h.compiled (options.imports.table .standardOutput)).outcome.toOption.map
        fun i => i.signature "twice") = some (.ok s) := by
    decide +kernel
  have read : s.parseArgs "twice" options.args = .ok [.i32 (-1)] := by decide +kernel
  obtain ⟨h, hcompiled, hmade⟩ := Option.bind_eq_some_iff.1 hreached
  obtain ⟨i, hi, known⟩ := Option.map_eq_some_iff.1 hmade
  have compiled := Loader.eq_ok_of_toOption hcompiled
  have made := Loader.eq_ok_of_toOption hi
  have hcall := read_arguments_are_accepted.2 files (.ofList []) "guest.wasm" options .standardOutput
    h i s [.i32 (-1)] compiled made known read
  obtain ⟨name, expected, actual, hrefused⟩ := hcall.refused.2 (by decide)
  refine ⟨h, i, compiled, made, known, read, name, expected, actual, ?_⟩
  rw [hcall.outcome, hrefused]
  rfl

end GuestHarness
