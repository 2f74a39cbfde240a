import GuestHarness.Logging.Settings
import Mathlib.Data.List.Basic

/-! Drafts of settings and the choices made on them. All that later choices can find out about a draft
are its filter, set or not, and what would be built from it. A draft taken up again from what was built
has a filter, so that the degree zero of verbosity leaves it alone. -/
namespace GuestHarness.Logging

/-- What can be chosen explicitly. -/
inductive Choice where
  | verbosity (degree : Nat)
  | format (f : LogFormat)
  | filter (text : String)
  | location (on : Bool)
  | target (on : Bool)
  | threadNames (on : Bool)
  | threadIds (on : Bool)
  deriving DecidableEq

/-- A choice, or to build the settings and to take up a draft again from them. -/
inductive Step where
  | choose (c : Choice)
  | rebuild
  deriving DecidableEq

/-- The filter that a step chooses, whatever was set before. -/
def Step.chosenFilter? : Step → Option String
  | choose (.filter text) => some text
  | choose (.verbosity (degree + 1)) => some (Draft.verbosityFilter (degree + 1))
  | _ => none

/-- The filter that a step puts where none is set, if it chooses none. -/
def Step.filling? : Step → Option String
  | choose (.verbosity 0) => some "warn"
  | rebuild => some "info"
  | _ => none

theorem Step.filling?_eq_none {s : Step} (hzero : s ≠ .choose (.verbosity 0)) (hrebuild : s ≠ .rebuild) :
    s.filling? = none := by
  unfold filling?
  split
  · exact absurd rfl hzero
  · exact absurd rfl hrebuild
  · rfl

/-- The same steps but for taking up again. -/
def withoutRebuilds (steps : List Step) : List Step := steps.filter (· ≠ .rebuild)

theorem filterMap_withoutRebuilds (steps : List Step) :
    (withoutRebuilds steps).filterMap Step.chosenFilter? = steps.filterMap Step.chosenFilter? := by
  rw [withoutRebuilds, List.filterMap_filter]
  refine List.filterMap_congr fun s _ => ?_
  cases s <;> rfl

def Settings.withFilter (s : Settings) (text : String) : Settings := { s with filter := text }

theorem Settings.eq_iff {s t : Settings} :
    s = t ↔ s.filter = t.filter ∧ s.withFilter "" = t.withFilter "" := by
  constructor
  · rintro rfl
    exact ⟨rfl, rfl⟩
  · rintro ⟨hfilter, hrest⟩
    calc s = (s.withFilter "").withFilter s.filter := rfl
      _ = (t.withFilter "").withFilter t.filter := by rw [hfilter, hrest]
      _ = t := rfl

namespace Draft

variable {d e : Draft} {steps : List Step}

def choose (d : Draft) : Choice → Draft
  | .verbosity degree => d.verbosity degree
  | .format f => { d with format := some f }
  | .filter text => { d with filter := some text }
  | .location on => { d with location := some on }
  | .target on => { d with target := some on }
  | .threadNames on => { d with threadNames := some on }
  | .threadIds on => { d with threadIds := some on }

def step (d : Draft) : Step → Draft
  | .choose c => d.choose c
  | .rebuild => ofSettings d.build

def after (d : Draft) (steps : List Step) : Draft := steps.foldl step d

@[simp] theorem after_nil (d : Draft) : d.after [] = d := rfl

@[simp] theorem after_cons (d : Draft) (s : Step) (steps : List Step) :
    d.after (s :: steps) = (d.step s).after steps := rfl

@[simp] theorem filter_build (d : Draft) : d.build.filter = d.filter.getD "info" := rfl

/-- What a step makes of the filter depends on the filter alone. -/
theorem filter_step (d : Draft) (s : Step) :
    (d.step s).filter = (s.chosenFilter?.or d.filter).or s.filling? := by
  cases s with
  | rebuild => cases h : d.filter <;> simp [step, ofSettings, Step.chosenFilter?, Step.filling?, h]
  | choose c =>
    cases c with
    | verbosity degree =>
      cases degree with
      | zero =>
        cases h : d.filter <;>
          simp [step, choose, verbosity, verbosityFilter, Step.chosenFilter?, Step.filling?, h]
      | succ degree => simp [step, choose, verbosity, Step.chosenFilter?]
    | filter text => rfl
    | format | location | target | threadNames | threadIds =>
      simp [step, choose, Step.chosenFilter?, Step.filling?]

/-- The last filter that is chosen counts, then one that was set before, then the first that is put
where none is set. -/
theorem filter_after (d : Draft) (steps : List Step) : (d.after steps).filter =
    (steps.filterMap Step.chosenFilter?).getLast?.or
      (d.filter.or (steps.findSome? Step.filling?)) := by
  induction steps generalizing d with
  | nil => simp
  | cons s steps ih =>
    rw [after_cons, ih, filter_step, List.findSome?_cons]
    cases hchosen : s.chosenFilter? with
    | some text =>
      rw [List.filterMap_cons_some hchosen, List.getLast?_cons]
      cases (steps.filterMap Step.chosenFilter?).getLast? <;> rfl
    | none =>
      rw [List.filterMap_cons_none hchosen, Option.none_or, Option.or_assoc]
      cases s.filling? <;> rfl

/-- What is put where no filter is set: the general one if settings are taken up again before the degree
zero is asked for. -/
theorem findSome?_filling (steps : List Step) : steps.findSome? Step.filling? =
    if .rebuild ∈ steps.takeWhile (· ≠ .choose (.verbosity 0)) then some "info"
    else if .choose (.verbosity 0) ∈ steps then some "warn" else none := by
  induction steps with
  | nil => rfl
  | cons s steps ih =>
    rw [List.findSome?_cons]
    by_cases hzero : s = .choose (.verbosity 0)
    · subst hzero
      simp [Step.filling?]
    by_cases hrebuild : s = .rebuild
    · subst hrebuild
      simp [Step.filling?]
    rw [Step.filling?_eq_none hzero hrebuild, List.takeWhile_cons_of_pos (by simpa using hzero)]
    simp [ih, Ne.symm hzero, Ne.symm hrebuild]

/-- The drafts would be built to the same settings if it were not for their filters. -/
def SameRest (d e : Draft) : Prop := d.build.withFilter "" = e.build.withFilter ""

theorem SameRest.choose (h : SameRest d e) (c : Choice) : SameRest (d.choose c) (e.choose c) := by
  simp only [SameRest, Settings.withFilter, build, Settings.mk.injEq] at h ⊢
  obtain ⟨hformat, -, hlocation, htarget, hnames, hids⟩ := h
  cases c with
  | verbosity degree =>
    have hkeeps (d : Draft) : d.choose (.verbosity degree) =
        { d with filter := (d.choose (.verbosity degree)).filter } := by
      simp only [Draft.choose, verbosity]
      split <;> rfl
    rw [hkeeps d, hkeeps e]
    exact ⟨hformat, trivial, hlocation, htarget, hnames, hids⟩
  | filter => exact ⟨hformat, trivial, hlocation, htarget, hnames, hids⟩
  | format => exact ⟨rfl, trivial, hlocation, htarget, hnames, hids⟩
  | location => exact ⟨hformat, trivial, rfl, htarget, hnames, hids⟩
  | target => exact ⟨hformat, trivial, hlocation, rfl, hnames, hids⟩
  | threadNames => exact ⟨hformat, trivial, hlocation, htarget, rfl, hids⟩
  | threadIds => exact ⟨hformat, trivial, hlocation, htarget, hnames, rfl⟩

theorem SameRest.step (h : SameRest d e) (s : Step) : SameRest (d.step s) (e.step s) := by
  cases s with
  | choose c => exact h.choose c
  | rebuild => exact h

theorem SameRest.after (h : SameRest d e) (steps : List Step) :
    SameRest (d.after steps) (e.after steps) := by
  induction steps generalizing d e with
  | nil => exact h
  | cons s steps ih => exact ih (h.step s)

theorem sameRest_withoutRebuilds (d : Draft) (steps : List Step) :
    SameRest (d.after steps) (d.after (withoutRebuilds steps)) := by
  induction steps generalizing d with
  | nil => rfl
  | cons s steps ih =>
    cases s with
    | choose c => exact ih (d.choose c)
    | rebuild =>
      have htaken : SameRest (d.step .rebuild) d := rfl
      exact (htaken.after steps).trans (ih d)

/-- Drafts that no later step can tell apart. -/
structure Alike (d e : Draft) : Prop where
  filter : d.filter = e.filter
  build : d.build = e.build

/-- What is built later tells drafts apart if they are not alike, and only then. -/
theorem build_after_eq_iff :
    (∀ steps, (d.after steps).build = (e.after steps).build) ↔ Alike d e := by
  constructor
  · intro h
    have hbuild : d.build = e.build := h []
    have hquiet : (d.verbosity 0).build.filter = (e.verbosity 0).build.filter :=
      congrArg Settings.filter (h [.choose (.verbosity 0)])
    have hgeneral := congrArg Settings.filter hbuild
    refine ⟨?_, hbuild⟩
    -- With the degree zero it shows whether a filter is set, and without it which.
    cases hd : d.filter with
    | none =>
      cases he : e.filter with
      | none => rfl
      | some text =>
        have hwarn : "warn" = text := by simpa [verbosity, verbosityFilter, hd, he] using hquiet
        have hinfo : "info" = text := by simpa [hd, he] using hgeneral
        exact absurd (hwarn.trans hinfo.symm) (by decide)
    | some text =>
      cases he : e.filter with
      | none =>
        have hwarn : text = "warn" := by simpa [verbosity, verbosityFilter, hd, he] using hquiet
        have hinfo : text = "info" := by simpa [hd, he] using hgeneral
        exact absurd (hwarn.symm.trans hinfo) (by decide)
      | some text' =>
        have hsame : text = text' := by simpa [hd, he] using hgeneral
        rw [hsame]
  · intro h steps
    rw [Settings.eq_iff]
    refine ⟨?_, SameRest.after (Settings.eq_iff.1 h.build).2 steps⟩
    rw [filter_build, filter_build, filter_after, filter_after, h.filter]

/-- No filter is set or chosen, and the degree zero is asked for, first after a draft was taken up
again. -/
structure MissesQuiet (d : Draft) (steps : List Step) : Prop where
  unset : d.filter = none
  unchosen : ∀ s ∈ steps, s.chosenFilter? = none
  asked : .choose (.verbosity 0) ∈ steps
  late : .rebuild ∈ steps.takeWhile (· ≠ .choose (.verbosity 0))

theorem filter_after_withoutRebuilds (d : Draft) (steps : List Step) :
    (d.after (withoutRebuilds steps)).filter = (steps.filterMap Step.chosenFilter?).getLast?.or
      (d.filter.or (if .choose (.verbosity 0) ∈ steps then some "warn" else none)) := by
  have hrebuild : .rebuild ∉ (withoutRebuilds steps).takeWhile (· ≠ .choose (.verbosity 0)) := fun h =>
    of_decide_eq_true (List.mem_filter.1 ((List.takeWhile_prefix _).subset h)).2 rfl
  have hzero : .choose (.verbosity 0) ∈ withoutRebuilds steps ↔ .choose (.verbosity 0) ∈ steps := by
    simp [withoutRebuilds]
  rw [filter_after, filterMap_withoutRebuilds, findSome?_filling, if_neg hrebuild]
  simp only [hzero]

/-- Where the degree zero comes too late, it leaves the general filter. -/
theorem MissesQuiet.filters (h : MissesQuiet d steps) : (d.after steps).build.filter = "info" ∧
    (d.after (withoutRebuilds steps)).build.filter = "warn" := by
  have hchosen : steps.filterMap Step.chosenFilter? = [] := List.filterMap_eq_nil_iff.2 h.unchosen
  rw [filter_build, filter_build, filter_after_withoutRebuilds, filter_after, findSome?_filling, hchosen,
    h.unset, if_pos h.late, if_pos h.asked]
  exact ⟨rfl, rfl⟩

theorem filter_eq_of_not_missesQuiet (h : ¬MissesQuiet d steps) :
    (d.after steps).build.filter = (d.after (withoutRebuilds steps)).build.filter := by
  rw [filter_build, filter_build, filter_after_withoutRebuilds, filter_after, findSome?_filling]
  cases hlast : (steps.filterMap Step.chosenFilter?).getLast? with
  | some text => rfl
  | none =>
    have hunchosen := List.filterMap_eq_nil_iff.1 (List.getLast?_eq_none_iff.1 hlast)
    cases hunset : d.filter with
    | some text => rfl
    | none =>
      by_cases hlate : .rebuild ∈ steps.takeWhile (· ≠ .choose (.verbosity 0))
      · have hasked : .choose (.verbosity 0) ∉ steps := fun hasked =>
          h ⟨hunset, hunchosen, hasked, hlate⟩
        rw [if_pos hlate, if_neg hasked]
        rfl
      · rw [if_neg hlate]

end Draft

open Draft

/-- From any draft and by any steps the same settings are built whether or not they are built and taken
up again in between, unless no filter is set or chosen and the degree zero of verbosity is first asked
for after that: then the filter is the general one in place of that for warnings. -/
theorem rebuilding_is_neutral_iff (d : Draft) (steps : List Step) :
    ((d.after steps).build = (d.after (withoutRebuilds steps)).build ↔ ¬MissesQuiet d steps) ∧
      (MissesQuiet d steps → (d.after (withoutRebuilds steps)).build.filter = "warn" ∧
        (d.after steps).build = (d.after (withoutRebuilds steps)).build.withFilter "info") := by
  have hrest := sameRest_withoutRebuilds d steps
  refine ⟨⟨fun h hmiss => ?_, fun h => ?_⟩, fun hmiss => ?_⟩
  · obtain ⟨hinfo, hwarn⟩ := hmiss.filters
    rw [h, hwarn] at hinfo
    exact absurd hinfo (by decide)
  · exact Settings.eq_iff.2 ⟨filter_eq_of_not_missesQuiet h, hrest⟩
  · obtain ⟨hinfo, hwarn⟩ := hmiss.filters
    exact ⟨hwarn, Settings.eq_iff.2 ⟨hinfo, hrest⟩⟩

/-- The default settings, taken up again, are not quieted. -/
theorem rebuilding_misses_quiet :
    (({} : Draft).after [.rebuild, .choose (.verbosity 0)]).build.filter = "info" ∧
      (({} : Draft).after (withoutRebuilds [.rebuild, .choose (.verbosity 0)])).build.filter = "warn" := by
  decide

end GuestHarness.Logging
