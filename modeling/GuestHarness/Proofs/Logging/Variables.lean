import GuestHarness.Proofs.Logging.Drafts

/-! The variables that settings of the log are taken from. A value that cannot be used counts as not
set, but for a blank level, which hides the general filter; and each setting depends on its own
variables only. -/
namespace GuestHarness

/-- The environment with a variable removed. -/
def Environment.without (env : Environment) (name : String) : Environment :=
  fun n => if n = name then none else env n

theorem Environment.without_self (env : Environment) (name : String) : env.without name name = none :=
  if_pos rfl

theorem Environment.without_of_ne (env : Environment) {name n : String} (h : n ≠ name) :
    env.without name n = env n :=
  if_neg h

namespace Logging

/-- The settings that the environment has a say in. -/
inductive Part where
  | format
  | filter
  | location
  | target
  | threadNames
  | threadIds
  deriving DecidableEq

/-- The variables that a draft is made from. -/
inductive Variable where
  | format
  | level
  | general
  | location
  | target
  | threadNames
  | threadIds
  deriving DecidableEq

namespace Variable

def name : Variable → String
  | format => "WASMHOST_LOG_FORMAT"
  | level => "WASMHOST_LOG_LEVEL"
  | general => "RUST_LOG"
  | location => "WASMHOST_LOG_LOCATION"
  | target => "WASMHOST_LOG_TARGET"
  | threadNames => "WASMHOST_LOG_THREAD_NAMES"
  | threadIds => "WASMHOST_LOG_THREAD_IDS"

def part : Variable → Part
  | format => .format
  | level | general => .filter
  | location => .location
  | target => .target
  | threadNames => .threadNames
  | threadIds => .threadIds

/-- The words that a variable may hold. What a filter holds is free. -/
def words? : Variable → Option (List String)
  | format => some ["json", "pretty", "compact"]
  | level | general => none
  | location | target | threadNames | threadIds =>
    some ["1", "true", "yes", "on", "0", "false", "no", "off", ""]

/-- One of the words in any case, or a filter that is not blank; blanks at the ends do not count. -/
def Usable (v : Variable) (text : String) : Prop :=
  match v.words? with
  | some words => lowerCased (Text.trim text) ∈ words
  | none => Text.trim text ≠ ""

end Variable

/-- A blank level hides a general filter that could be used. -/
def Hides (env : Environment) (v : Variable) : Prop :=
  v = .level ∧ ∃ text, env Variable.general.name = some text ∧ Variable.general.Usable text

theorem toOption_parse_of_not_usable {text : String} (h : ¬Variable.format.Usable text) :
    (LogFormat.parse text).toOption = none := by
  have hwords : ¬lowerCased (Text.trim text) ∈ ["json", "pretty", "compact"] := h
  simp only [List.mem_cons, List.not_mem_nil, or_false, not_or] at hwords
  obtain ⟨hjson, hpretty, hcompact⟩ := hwords
  unfold LogFormat.parse
  simp only [if_neg hjson, if_neg hpretty, if_neg hcompact]
  rfl

theorem flag?_of_not_usable {text : String} (h : ¬Variable.location.Usable text) :
    flag? text = none := by
  have hwords : ¬lowerCased (Text.trim text) ∈
      ["1", "true", "yes", "on"] ++ ["0", "false", "no", "off", ""] := h
  rw [List.mem_append, not_or] at hwords
  unfold flag?
  simp only [List.contains_iff_mem, if_neg hwords.1, if_neg hwords.2]

theorem usableFilter_of_usable {text : String} (h : Variable.general.Usable text) :
    Draft.usableFilter (some text) = some text := by
  have hne : Text.trim text ≠ "" := h
  rw [ne_eq, ← String.toList_inj, Text.toList_trim] at hne
  simpa [Draft.usableFilter, Option.filter] using hne

theorem usableFilter_of_not_usable {text : String} (h : ¬Variable.general.Usable text) :
    Draft.usableFilter (some text) = none := by
  have hblank : Text.trim text = "" := not_not.1 h
  rw [← String.toList_inj, Text.toList_trim] at hblank
  simp [Draft.usableFilter, Option.filter, hblank]

theorem Variable.name_injective {u v : Variable} (h : u.name = v.name) : u = v := by
  cases u <;> cases v <;> first | rfl | exact absurd h (by decide)

/-- The drafts have the same set in one place. -/
def Draft.SameAt (d e : Draft) : Part → Prop
  | .format => d.format = e.format
  | .filter => d.filter = e.filter
  | .location => d.location = e.location
  | .target => d.target = e.target
  | .threadNames => d.threadNames = e.threadNames
  | .threadIds => d.threadIds = e.threadIds

theorem Draft.ext_sameAt {d e : Draft} (h : ∀ part, SameAt d e part) : d = e := by
  cases d
  cases e
  have hformat := h .format
  have hfilter := h .filter
  have hlocation := h .location
  have htarget := h .target
  have hnames := h .threadNames
  have hids := h .threadIds
  simp only [SameAt] at hformat hfilter hlocation htarget hnames hids
  subst hformat hfilter hlocation htarget hnames hids
  rfl

/-- A setting depends on its own variables only. -/
theorem sameAt_of_agree {env env' : Environment} {part : Part}
    (h : ∀ v : Variable, v.part = part → env v.name = env' v.name) :
    (Draft.ofEnvironment env).SameAt (Draft.ofEnvironment env') part := by
  cases part with
  | format => exact congrArg (Option.bind · _) (h .format rfl)
  | filter =>
    have hlevel : env "WASMHOST_LOG_LEVEL" = env' "WASMHOST_LOG_LEVEL" := h .level rfl
    have hgeneral : env "RUST_LOG" = env' "RUST_LOG" := h .general rfl
    simp only [Draft.SameAt, Draft.ofEnvironment, hlevel, hgeneral]
  | location => exact congrArg (Option.bind · _) (h .location rfl)
  | target => exact congrArg (Option.bind · _) (h .target rfl)
  | threadNames => exact congrArg (Option.bind · _) (h .threadNames rfl)
  | threadIds => exact congrArg (Option.bind · _) (h .threadIds rfl)

variable {env : Environment} {v : Variable} {text : String}

theorem sameAt_without_of_ne {part : Part} (h : v.part ≠ part) :
    (Draft.ofEnvironment env).SameAt (Draft.ofEnvironment (env.without v.name)) part := by
  refine sameAt_of_agree fun u hu => (env.without_of_ne fun hname => h ?_).symm
  rw [← Variable.name_injective hname, hu]

/-- A draft is as without a variable if it is so where the variable counts. -/
theorem ofEnvironment_without (h : (Draft.ofEnvironment env).SameAt
      (Draft.ofEnvironment (env.without v.name)) v.part) :
    Draft.ofEnvironment env = Draft.ofEnvironment (env.without v.name) := by
  refine Draft.ext_sameAt fun part => ?_
  by_cases hpart : v.part = part
  · exact hpart ▸ h
  · exact sameAt_without_of_ne hpart

theorem bind_eq_bind_without {α : Type} {read : String → Option α} (hset : env v.name = some text)
    (hread : read text = none) : (env v.name).bind read = (env.without v.name v.name).bind read := by
  rw [hset, env.without_self]
  exact hread

theorem filter_of_blank_level (hset : env Variable.level.name = some text)
    (hblank : ¬Variable.level.Usable text) : (Draft.ofEnvironment env).filter = none :=
  calc Draft.usableFilter ((env Variable.level.name).or (env Variable.general.name))
      = Draft.usableFilter (some text) := by rw [hset, Option.some_or]
    _ = none := usableFilter_of_not_usable hblank

theorem filter_without_level (env : Environment) :
    (Draft.ofEnvironment (env.without Variable.level.name)).filter =
      Draft.usableFilter (env Variable.general.name) := by
  have hkept : env.without Variable.level.name Variable.general.name = env Variable.general.name :=
    env.without_of_ne (by decide)
  calc Draft.usableFilter ((env.without Variable.level.name Variable.level.name).or
        (env.without Variable.level.name Variable.general.name))
      = Draft.usableFilter (env Variable.general.name) := by rw [hkept, env.without_self, Option.none_or]

theorem usableFilter_of_not_hides (h : ¬Hides env .level) :
    Draft.usableFilter (env Variable.general.name) = none := by
  cases hgeneral : env Variable.general.name with
  | none => rfl
  | some text => exact usableFilter_of_not_usable fun husable => h ⟨rfl, text, hgeneral, husable⟩

theorem sameAt_own_part (hset : env v.name = some text) (hunusable : ¬v.Usable text)
    (h : ¬Hides env v) :
    (Draft.ofEnvironment env).SameAt (Draft.ofEnvironment (env.without v.name)) v.part := by
  cases v with
  | format => exact bind_eq_bind_without hset (toOption_parse_of_not_usable hunusable)
  | location | target | threadNames | threadIds =>
    exact bind_eq_bind_without hset (flag?_of_not_usable hunusable)
  | level =>
    have hwithout := (filter_without_level env).trans (usableFilter_of_not_hides h)
    exact (filter_of_blank_level hset hunusable).trans hwithout.symm
  | general =>
    have hkept : env.without Variable.general.name Variable.level.name = env Variable.level.name :=
      env.without_of_ne (by decide)
    -- A level that is set comes first, and without one the general filter is the unusable one.
    calc Draft.usableFilter ((env Variable.level.name).or (env Variable.general.name))
        = Draft.usableFilter ((env Variable.level.name).or none) := by
          rw [hset]
          cases env Variable.level.name with
          | none => exact usableFilter_of_not_usable hunusable
          | some level => rfl
      _ = Draft.usableFilter ((env.without Variable.general.name Variable.level.name).or
            (env.without Variable.general.name Variable.general.name)) := by
          rw [hkept, env.without_self]

/-- A level that hides a general filter leaves none, and without it there is that one. -/
theorem Hides.filters (h : Hides env v) (hset : env v.name = some text) (hunusable : ¬v.Usable text) :
    (Draft.ofEnvironment env).filter = none ∧
      ∃ general, (Draft.ofEnvironment (env.without v.name)).filter = some general := by
  obtain ⟨rfl, general, hgeneral, husable⟩ := h
  refine ⟨filter_of_blank_level hset hunusable, general, ?_⟩
  rw [filter_without_level, hgeneral]
  exact usableFilter_of_usable husable

/-- What the environment sets is the same without a variable, and so is all that is built from it later,
unless the variable hides the general filter; then all is as if neither were set. -/
structure CountsAsAbsent (env : Environment) (v : Variable) : Prop where
  draft : Draft.ofEnvironment env = Draft.ofEnvironment (env.without v.name) ↔ ¬Hides env v
  later : (∀ steps, ((Draft.ofEnvironment env).after steps).build =
      ((Draft.ofEnvironment (env.without v.name)).after steps).build) ↔ ¬Hides env v
  hidden : Hides env v → Draft.ofEnvironment env =
    Draft.ofEnvironment ((env.without v.name).without Variable.general.name)

theorem ofEnvironment_of_hides (h : Hides env v) (hset : env v.name = some text)
    (hunusable : ¬v.Usable text) : Draft.ofEnvironment env =
      Draft.ofEnvironment ((env.without v.name).without Variable.general.name) := by
  obtain ⟨hnone, -⟩ := h.filters hset hunusable
  obtain ⟨rfl, -⟩ := h
  refine Draft.ext_sameAt fun part => ?_
  by_cases hpart : part = .filter
  · subst hpart
    exact hnone
  · refine sameAt_of_agree fun u hu => ?_
    have hname (w : Variable) (hw : w.part = .filter) : u.name ≠ w.name := fun hname =>
      hpart (by rw [← hu, Variable.name_injective hname, hw])
    rw [Environment.without_of_ne _ (hname .general rfl), Environment.without_of_ne _ (hname .level rfl)]

theorem countsAsAbsent (hset : env v.name = some text) (hunusable : ¬v.Usable text) :
    CountsAsAbsent env v := by
  have hsame (h : ¬Hides env v) : Draft.ofEnvironment env = Draft.ofEnvironment (env.without v.name) :=
    ofEnvironment_without (sameAt_own_part hset hunusable h)
  have hdiffers (h : Hides env v) :
      (Draft.ofEnvironment env).filter ≠ (Draft.ofEnvironment (env.without v.name)).filter := by
    obtain ⟨hnone, general, hsome⟩ := h.filters hset hunusable
    rw [hnone, hsome]
    exact (Option.some_ne_none general).symm
  refine ⟨⟨fun heq h => hdiffers h (congrArg Draft.filter heq), hsame⟩,
    ⟨fun hlater h => ?_, fun h steps => ?_⟩, fun h => ofEnvironment_of_hides h hset hunusable⟩
  · exact hdiffers h (Draft.build_after_eq_iff.1 hlater).filter
  · rw [hsame h]

/-- In any environment a variable that is set to what it cannot be used for counts as absent, for the
draft and for all that is built from it by later steps, if and only if it is not a blank level beside a
usable general filter; and each setting is the same in environments that agree on its own variables. -/
theorem unusable_variables_count_as_absent_iff (env : Environment) :
    (∀ v : Variable, ∀ text, env v.name = some text → ¬v.Usable text → CountsAsAbsent env v) ∧
      ∀ (env' : Environment) (part : Part),
        (∀ v : Variable, v.part = part → env v.name = env' v.name) →
          (Draft.ofEnvironment env).SameAt (Draft.ofEnvironment env') part :=
  ⟨fun _ _ => countsAsAbsent, fun _ _ => sameAt_of_agree⟩

/-- An unknown format beside a general filter. -/
theorem unusable_variables_count_as_absent_iff_unknownFormat :
    CountsAsAbsent (.ofList [("WASMHOST_LOG_FORMAT", "xml"), ("RUST_LOG", "debug")]) .format ∧
      (Draft.ofEnvironment (.ofList [("WASMHOST_LOG_FORMAT", "xml"), ("RUST_LOG", "debug")])).SameAt
        (Draft.ofEnvironment (.ofList [("RUST_LOG", "debug")])) .filter := by
  have hunknown : ¬Variable.format.Usable "xml" := by
    change ¬lowerCased (Text.trim "xml") ∈ ["json", "pretty", "compact"]
    decide
  obtain ⟨habsent, hagree⟩ := unusable_variables_count_as_absent_iff
    (.ofList [("WASMHOST_LOG_FORMAT", "xml"), ("RUST_LOG", "debug")])
  refine ⟨habsent .format "xml" (by decide) hunknown, hagree _ .filter fun v hv => ?_⟩
  cases v with
  | level | general => decide
  | format | location | target | threadNames | threadIds => cases hv

/-- A blank level beside a general filter. -/
theorem blank_level_hides_general_filter :
    ¬Variable.level.Usable " " ∧
      (Draft.ofEnvironment (.ofList [("WASMHOST_LOG_LEVEL", " "), ("RUST_LOG", "debug")])).build.filter =
        "info" ∧
      (Draft.ofEnvironment (Environment.without
        (.ofList [("WASMHOST_LOG_LEVEL", " "), ("RUST_LOG", "debug")]) "WASMHOST_LOG_LEVEL")).build.filter =
        "debug" := by
  refine ⟨?_, by decide, by decide⟩
  change ¬Text.trim " " ≠ ""
  decide

end Logging
end GuestHarness
