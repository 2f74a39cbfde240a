import GuestHarness.Proofs.CommandLine.Modes
import GuestHarness.Proofs.Decimal.Digits

/-! The JSON forms of types, integers, signatures and emissions. Reading the text of one of them gives back
what was written, also from the report of a run. -/
namespace GuestHarness
namespace Json
open Decimal

theorem spellsItems_writeItems {v : Json} {vs : List Json}
    (h : ∀ w ∈ v :: vs, Spells w (writeCompact w)) : SpellsItems (v :: vs) (writeItems (v :: vs)) := by
  induction vs generalizing v with
  | nil => simpa [writeItems] using SpellsItems.last (h v List.mem_cons_self) blanks_nil
  | cons w ws ih =>
    have hmore := SpellsItems.more (h v List.mem_cons_self) blanks_nil
      (ih fun x hx => h x (List.mem_cons_of_mem _ hx))
    simpa [writeItems] using hmore

theorem spellsMembers_writeMembers {m : String × Json} {ms : List (String × Json)}
    (h : ∀ m' ∈ m :: ms, Spells m'.2 (writeCompact m'.2)) :
    SpellsMembers ((m :: ms).map fun m' => (some m'.1, m'.2))
      (writeMembers ((m :: ms).map fun m' => (some m'.1, m'.2))) := by
  induction ms generalizing m with
  | nil =>
    have hlast := SpellsMembers.last (k := m.1) blanks_nil (h m List.mem_cons_self) blanks_nil
    simpa [writeMembers, writeJsonText] using hlast
  | cons w ws ih =>
    have hmore := SpellsMembers.more (k := m.1) blanks_nil (h m List.mem_cons_self) blanks_nil
      (ih fun x hx => h x (List.mem_cons_of_mem _ hx))
    simpa [writeMembers, writeJsonText] using hmore

/-- The form on one line spells the document. -/
theorem spells_writeCompact {v : Json} (h : WellFormed v) : Spells v (writeCompact v) := by
  induction h with
  | null => exact .null
  | bool b => cases b with
    | false => exact .isFalse
    | true => exact .isTrue
  | number h => exact .number h
  | text s => exact .text s
  | array h ih =>
    rename_i items
    cases items with
    | nil => exact .emptyArray
    | cons v vs => exact .array blanks_nil (spellsItems_writeItems ih)
  | object h ih =>
    rename_i members
    cases members with
    | nil => exact .emptyObject
    | cons m ms => exact .object blanks_nil (spellsMembers_writeMembers ih)

/-- Reading the form on one line gives the document back. -/
theorem parse?_compact {v : Json} (h : WellFormed v) : parse? v.compact = some v := by
  simpa [compact] using parse?_of_spells (spells_writeCompact h) blanks_nil

/-- What is encoded so can be told from its text, whether on one line or indented. -/
structure ReadsBack {α : Type} (p : α → Prop) (encode : α → Json) (decode? : Json → Option α) :
    Prop where
  compact (a : α) (ha : p a) : (parse? (encode a).compact).bind decode? = some a
  pretty (a : α) (ha : p a) : (parse? (encode a).pretty).bind decode? = some a
  distinct (a b : α) (ha : p a) (hb : p b)
    (same : (encode a).compact = (encode b).compact ∨ (encode a).pretty = (encode b).pretty) : a = b

theorem ReadsBack.of_decode {α : Type} {p : α → Prop} {encode : α → Json} {decode? : Json → Option α}
    (hform : ∀ a, WellFormed (encode a)) (hdecode : ∀ a, p a → decode? (encode a) = some a) :
    ReadsBack p encode decode? := by
  have hcompact (a : α) (ha : p a) : (parse? (encode a).compact).bind decode? = some a := by
    rw [parse?_compact (hform a), Option.bind_some, hdecode a ha]
  have hpretty (a : α) (ha : p a) : (parse? (encode a).pretty).bind decode? = some a := by
    have hparse : parse? (encode a).pretty = some (encode a) := by
      simpa using parse?_pretty (hform a) blanks_nil
    rw [hparse, Option.bind_some, hdecode a ha]
  refine ⟨hcompact, hpretty, fun a b ha hb hsame => Option.some.inj ?_⟩
  obtain hsame | hsame := hsame
  · rw [← hcompact a ha, hsame, hcompact b hb]
  · rw [← hpretty a ha, hsame, hpretty b hb]

theorem ofString_integerText (n : Int) : Numeral.ofString (Value.integerText n) =
    ⟨decide (n < 0), Nat.toDigits 10 n.natAbs, [], 0, true⟩ := by
  have hdigits := @isDigit_of_mem_toDigits n.natAbs
  have htake : (Nat.toDigits 10 n.natAbs).takeWhile isDigit = Nat.toDigits 10 n.natAbs := by
    simpa using takeWhile_of_lacks hdigits (.nil isDigit)
  have hdrop : (Nat.toDigits 10 n.natAbs).dropWhile isDigit = [] := by
    simpa using dropWhile_of_lacks hdigits (.nil isDigit)
  unfold Numeral.ofString
  rw [splitSign_integerText]
  simp only [htake, hdrop, FloatLiteral.exponentPart?, Option.getD_some, decide_true]

/-- An integer of 64 bits, with a sign or without, is read as one. -/
theorem ofNumeral?_integerText {n : Int} (hlow : -2 ^ 63 ≤ n) (hhigh : n < 2 ^ 64) :
    Number.ofNumeral? (Value.integerText n) = some (.integer n) := by
  have hword : maxWord = 2 ^ 64 - 1 := rfl
  unfold Number.ofNumeral?
  rw [ofString_integerText]
  simp only [digitsValue_toDigits, hword, twoTo_eq, Bool.and_eq_true, Bool.not_eq_true',
    decide_eq_true_eq, decide_eq_false_iff_not]
  by_cases hn : n < 0
  · have hvalue : -(n.natAbs : Int) = n := by omega
    rw [if_neg fun h => h.1.2 hn, if_pos ⟨⟨⟨trivial, hn⟩, by omega⟩, by omega⟩, hvalue]
  · have hvalue : (n.natAbs : Int) = n := by omega
    rw [if_pos ⟨⟨trivial, hn⟩, by omega⟩, hvalue]

theorem intIn?_integer {lo hi n : Int} (hlo : lo ≤ n) (hhi : n ≤ hi) (hlow : -2 ^ 63 ≤ lo)
    (hhigh : hi < 2 ^ 64) : intIn? lo hi (integer n) = some n := by
  simp only [intIn?, integer, ofNumeral?_integerText (Int.le_trans hlow hlo) (Int.lt_of_le_of_lt hhi hhigh)]
  exact if_pos ⟨hlo, hhi⟩

/-- In particular an integer with a sign that fits so many bits. -/
theorem intIn?_signed {k : Nat} (hk : k ≤ 63) {n : Int} (hlow : -2 ^ k ≤ n) (hhigh : n < 2 ^ k) :
    intIn? (-twoTo k) (twoTo k - 1) (integer n) = some n := by
  have htwo : (twoTo k : Int) = 2 ^ k := by simp [twoTo_eq]
  have hpow : (2 : Int) ^ k ≤ 2 ^ 63 := by exact_mod_cast Nat.pow_le_pow_right (by decide) hk
  rw [htwo]
  exact intIn?_integer hlow (by omega) (by omega) (by omega)

theorem pair?_record {first second : String} (h : first ≠ second) (a b : Json) :
    pair? first second (.record [(first, a), (second, b)]) = some (a, b) := by
  simp [pair?, record, membersAt, h, h.symm]

end Json

open Json

theorem ValueType.ofJson?_toJson (t : ValueType) : ValueType.ofJson? t.toJson = some t :=
  ValueType.ofName?_name t

theorem Value.ofJson?_toJson {v : Value} (h : v.type = .i32 ∨ v.type = .i64) :
    Value.ofJson? v.toJson = some v := by
  have hcontent : ofContent? v.type v.contentJson = some v := by
    cases v with
    | i32 n =>
      have hread := intIn?_signed (k := 31) (by decide) n.le_toInt n.toInt_lt
      simp [type, contentJson, ofContent?, hread]
    | i64 n =>
      have hread := intIn?_signed (k := 63) (by decide) n.le_toInt n.toInt_lt
      simp [type, contentJson, ofContent?, hread]
    | f32 b | f64 b => obtain h | h := h <;> cases h
  simp [ofJson?, toJson, pair?_record, ValueType.ofJson?_toJson, hcontent]

/-- Items that are read back one by one are read back as a list. -/
theorem Json.mapM_map_of_decode {α : Type} {encode : α → Json} {decode? : Json → Option α}
    (h : ∀ a, decode? (encode a) = some a) (as : List α) :
    (as.map encode).mapM decode? = some as := by
  induction as with
  | nil => rfl
  | cons a as ih => simp [h, ih]

theorem Signature.ofJson?_toJson (s : Signature) : Signature.ofJson? s.toJson = some s := by
  simp [ofJson?, toJson, pair?_record, typesOfJson?, mapM_map_of_decode ValueType.ofJson?_toJson]

theorem Emission.ofJson?_toJson (e : Emission) : Emission.ofJson? e.toJson = some e := by
  cases e with
  | integer n =>
    have hread := intIn?_signed (k := 63) (by decide) n.le_toInt n.toInt_lt
    simp [ofJson?, toJson, pair?_record, name?, Json.text, ofContent?, hread]
  | text s => simp [ofJson?, toJson, pair?_record, name?, Json.text, ofContent?, Json.text?]

theorem ValueType.wellFormed_toJson (t : ValueType) : WellFormed t.toJson := .text _

theorem Signature.wellFormed_toJson (s : Signature) : WellFormed s.toJson := by
  have htypes (ts : List ValueType) : WellFormed (.array (ts.map ValueType.toJson)) := by
    refine .array fun v hv => ?_
    obtain ⟨t, -, rfl⟩ := List.mem_map.1 hv
    exact t.wellFormed_toJson
  refine .object fun m hm => ?_
  obtain rfl | rfl : m = _ ∨ m = _ := by simpa using hm
  · exact htypes _
  · exact htypes _

namespace CommandLine

variable (files : FileTree) (env : Environment) (buildDir module : String) (options : RunOptions)

/-- What a recorder of its own holds after the run of a report. -/
def recordedEmissions (path : String) : List Emission :=
  ((Recorders.mk #[#[]]).record (execute files env path options reportSink).noticed).emissions ⟨0⟩

theorem recordedEmissions_eq (path : String) : recordedEmissions files env options path =
    emissionsTo reportSink (execute files env path options reportSink).noticed :=
  Recorders.emissions_record _ _ ⟨0⟩ (by decide)

/-- What is printed in JSON mode is read as the report of the run. -/
theorem parse?_outputOf_run {path : String}
    (resolved : (resolveModule files module buildDir).outcome = .ok path) :
    Json.parse? (outputOf (run files env buildDir module options true).noticed) =
      some (report module options (execute files env path options reportSink)) := by
  obtain ⟨-, hreport⟩ := run_json files env buildDir module options resolved
  have hline : outputOf (run files env buildDir module options true).noticed =
      (report module options (execute files env path options reportSink)).pretty ++
        String.ofList ['\n'] := by
    simp [outputOf, hreport, String.join, Emission.display]
  rw [hline]
  exact Json.parse?_pretty (wellFormed_report module options _) (by simp [Json.Blanks, Json.isSpace])

end CommandLine

open CommandLine

/-- Data without fractions are read back from their JSON texts, so that distinct data have distinct texts:
types, integers of both widths, signatures and emissions. And from the report of a run the emissions are
read back that were recorded. -/
theorem plain_data_read_back :
    ReadsBack (fun _ => True) ValueType.toJson ValueType.ofJson? ∧
    ReadsBack (fun v : Value => v.type = .i32 ∨ v.type = .i64) Value.toJson Value.ofJson? ∧
    ReadsBack (fun _ => True) Signature.toJson Signature.ofJson? ∧
    ReadsBack (fun _ => True) Emission.toJson Emission.ofJson? ∧
    ∀ (files : FileTree) (env : Environment) (buildDir module : String) (options : RunOptions)
      (path : String), (resolveModule files module buildDir).outcome = .ok path →
      ∃ doc items, parse? (outputOf (run files env buildDir module options true).noticed) = some doc ∧
        valuesAt "emissions" doc = [.array items] ∧
        items.mapM Emission.ofJson? = some (recordedEmissions files env options path) := by
  refine ⟨.of_decode ValueType.wellFormed_toJson fun t _ => t.ofJson?_toJson,
    .of_decode Value.wellFormed_toJson fun v hv => Value.ofJson?_toJson hv,
    .of_decode Signature.wellFormed_toJson fun s _ => s.ofJson?_toJson,
    .of_decode Emission.wellFormed_toJson fun e _ => e.ofJson?_toJson,
    fun files env buildDir module options path resolved => ?_⟩
  have hreports := reports_report module options (execute files env path options reportSink)
  refine ⟨_, _, parse?_outputOf_run files env buildDir module options resolved, hreports.emissions, ?_⟩
  rw [recordedEmissions_eq, mapM_map_of_decode Emission.ofJson?_toJson]

/-- A run whose guest logs seven and then traps, and the least integer of 64 bits. -/
theorem plain_data_read_back_talkative :
    let files := FileTree.ofList [("guest.wasm", talkative)]
    let options : RunOptions := ⟨.int, "main", [], none⟩
    (parse? (Value.i64 Int64.minValue).toJson.compact).bind Value.ofJson? =
        some (.i64 Int64.minValue) ∧
      (resolveModule files "guest.wasm" "build").outcome = .ok "guest.wasm" ∧
      recordedEmissions files (.ofList []) options "guest.wasm" = [.integer 7] ∧
      ∃ doc items, parse? (outputOf (run files (.ofList []) "build" "guest.wasm" options true).noticed) =
          some doc ∧
        valuesAt "emissions" doc = [.array items] ∧ items.mapM Emission.ofJson? = some [.integer 7] := by
  intro files options
  have resolved : (resolveModule files "guest.wasm" "build").outcome = .ok "guest.wasm" := by
    have hfile : files.isFile "guest.wasm" = true := by decide +kernel
    rw [resolveModule_outcome, if_pos hfile]
  have hrecorded : recordedEmissions files (.ofList []) options "guest.wasm" = [.integer 7] := by
    decide +kernel
  obtain ⟨-, hvalues, -, -, hreport⟩ := plain_data_read_back
  have hdecoded := hreport files (.ofList []) "build" "guest.wasm" options "guest.wasm" resolved
  rw [hrecorded] at hdecoded
  exact ⟨hvalues.compact _ (.inr rfl), resolved, hrecorded, hdecoded⟩

end GuestHarness
