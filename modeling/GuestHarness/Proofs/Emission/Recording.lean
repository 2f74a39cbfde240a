import GuestHarness.Recorder

/-! Recorders in use. However handles on buffers are made, copied, emitted through, drained and read, a
handle and all that were copied from it are one recorder: whatever was emitted through any of them was
drained once or is still there, in its order. -/
namespace GuestHarness.Recorders

/-- What is asked of one recorder. -/
inductive Request where
  | copy
  | emit (e : Emission)
  | drain
  | emissions
  | texts
  | integers
  | size
  deriving Repr, DecidableEq

/-- A recorder is made, or one that was made is asked for something. -/
inductive Use where
  | fresh
  | on (place : Nat) (request : Request)
  deriving Repr, DecidableEq

inductive Answer where
  | done
  | emissions (es : List Emission)
  | texts (ts : List String)
  | integers (vs : List Int64)
  | size (n : Nat)
  deriving Repr, DecidableEq

namespace Answer

def listed : Answer → List Emission
  | emissions es => es
  | _ => []

end Answer

/-- Buffers, and the handles on them in the order they were made. -/
structure Held where
  recorders : Recorders
  handles : List Recorder

def Request.apply (s : Held) (r : Recorder) : Request → Answer × Held
  | copy => (.done, { s with handles := s.handles ++ [r.copy] })
  | emit e => (.done, { s with recorders := s.recorders.emit r e })
  | drain => (.emissions (s.recorders.drain r).1, { s with recorders := (s.recorders.drain r).2 })
  | emissions => (.emissions (s.recorders.emissions r), s)
  | texts => (.texts (s.recorders.texts r), s)
  | integers => (.integers (s.recorders.integers r), s)
  | size => (.size (s.recorders.size r), s)

/-- Nothing is done at a place where no handle is. -/
def Use.apply (s : Held) : Use → Answer × Held
  | fresh => (.done, ⟨s.recorders.fresh.2, s.handles ++ [s.recorders.fresh.1]⟩)
  | on place request =>
    match s.handles[place]? with
    | some r => request.apply s r
    | none => (.done, s)

variable {rs : Recorders} {us : List Use} {u : Use} {q : Request} {r r' : Recorder} {e : Emission}
  {place place' g g' : Nat}

section Histories
-- a history has its latest use first, so that what a use does depends on the rest of the list

variable (rs : Recorders)

def held : List Use → Held
  | [] => ⟨rs, []⟩
  | u :: us => (u.apply (held us)).2

/-- What a use would answer after the others. -/
def answer (us : List Use) (u : Use) : Answer := (u.apply (held rs us)).1

/-- The group of each handle, named by the place of the handle that was not a copy. -/
def groups : List Use → List Nat
  | [] => []
  | .fresh :: us => groups us ++ [(groups us).length]
  | .on place .copy :: us => groups us ++ (groups us)[place]?.toList
  | _ :: us => groups us

/-- What was emitted through the handles of a group. -/
def emitted (g : Nat) : List Use → List Emission
  | [] => []
  | .on place (.emit e) :: us => emitted g us ++ if (groups us)[place]? = some g then [e] else []
  | _ :: us => emitted g us

/-- What was answered when handles of a group were drained. -/
def drained (g : Nat) : List Use → List Emission
  | [] => []
  | .on place .drain :: us => drained g us ++
      if (groups us)[place]? = some g then (answer rs us (.on place .drain)).listed else []
  | _ :: us => drained g us

/-- The group whose buffer a use may change. -/
def Use.changes? (us : List Use) : Use → Option Nat
  | on place (.emit _) => (groups us)[place]?
  | on place .drain => (groups us)[place]?
  | _ => none

/-- The handles with their groups. -/
def members (us : List Use) : List (Recorder × Nat) := (held rs us).handles.zip (groups us)

end Histories

/-- What holds of handles and buffers after every history. -/
structure Tracked (rs : Recorders) (us : List Use) : Prop where
  lengths : (held rs us).handles.length = (groups us).length
  below : ∀ m ∈ members rs us, m.1.buffer < (held rs us).recorders.buffers.size
  named : ∀ g ∈ groups us, g < (groups us).length
  unused : ∀ g, (groups us).length ≤ g → emitted g us = [] ∧ drained rs g us = []
  apart : ∀ m ∈ members rs us, ∀ m' ∈ members rs us, m.1 = m'.1 ↔ m.2 = m'.2
  account : ∀ m ∈ members rs us,
    drained rs m.2 us ++ (held rs us).recorders.emissions m.1 = emitted m.2 us

namespace Tracked

theorem start (rs : Recorders) : Tracked rs [] where
  lengths := rfl
  below := by simp [members, groups]
  named := by simp [groups]
  unused _ _ := ⟨rfl, rfl⟩
  apart := by simp [members, groups]
  account := by simp [members, groups]

/-- There is a handle at a place exactly if there is a group. -/
theorem getElem?_handles (h : Tracked rs us) (hg : (groups us)[place]? = some g) :
    ∃ r, (held rs us).handles[place]? = some r ∧ (r, g) ∈ members rs us := by
  obtain ⟨hplace, -⟩ := List.getElem?_eq_some_iff.1 hg
  rw [← h.lengths] at hplace
  refine ⟨_, List.getElem?_eq_getElem hplace, List.mem_of_getElem? (i := place) ?_⟩
  rw [members, List.getElem?_zip_eq_some]
  exact ⟨List.getElem?_eq_getElem hplace, hg⟩

theorem getElem?_handles_eq_none (h : Tracked rs us) (hg : (groups us)[place]? = none) :
    (held rs us).handles[place]? = none := by
  rw [List.getElem?_eq_none_iff] at hg ⊢
  rw [h.lengths]
  exact hg

theorem snd_lt (h : Tracked rs us) {m : Recorder × Nat} (hm : m ∈ members rs us) :
    m.2 < (groups us).length :=
  h.named _ (List.of_mem_zip hm).2

/-- A group that a handle is of is in use. -/
theorem ne_unused (h : Tracked rs us) (hm : (r, g) ∈ members rs us) (hg' : (groups us).length ≤ g') :
    some g ≠ some g' := by
  have := h.snd_lt hm
  simp only [ne_eq, Option.some.injEq]
  omega

/-- A use that changes nothing keeps all. -/
theorem of_eq (h : Tracked rs us) (hheld : held rs (u :: us) = held rs us)
    (hgroups : groups (u :: us) = groups us) (hemitted : ∀ g, emitted g (u :: us) = emitted g us)
    (hdrained : ∀ g, drained rs g (u :: us) = drained rs g us) : Tracked rs (u :: us) := by
  have hmembers : members rs (u :: us) = members rs us := by rw [members, hheld, hgroups]; rfl
  constructor
  · rw [hheld, hgroups, h.lengths]
  · rw [hheld, hmembers]
    exact h.below
  · rw [hgroups]
    exact h.named
  · intro g hg
    rw [hgroups] at hg
    rw [hemitted, hdrained]
    exact h.unused g hg
  · rw [hmembers]
    exact h.apart
  · intro m hm
    rw [hmembers] at hm
    rw [hemitted, hdrained, hheld, h.account m hm]

theorem fresh (h : Tracked rs us) : Tracked rs (.fresh :: us) := by
  have hmembers : members rs (.fresh :: us) =
      members rs us ++ [((held rs us).recorders.fresh.1, (groups us).length)] := by
    rw [members, groups, held, Use.apply, List.zip_append h.lengths]
    rfl
  have hbuffer (m) (hm : m ∈ members rs us) : m.1 ≠ (held rs us).recorders.fresh.1 := by
    intro heq
    have := h.below m hm
    rw [heq] at this
    exact Nat.lt_irrefl _ this
  have hgroup (m) (hm : m ∈ members rs us) : m.2 ≠ (groups us).length := Nat.ne_of_lt (h.snd_lt hm)
  constructor
  · simp [held, Use.apply, groups, h.lengths]
  · intro m hm
    rw [hmembers, List.mem_append, List.mem_singleton] at hm
    change _ < (held rs us).recorders.fresh.2.buffers.size
    rw [size_buffers_fresh]
    rcases hm with hm | rfl
    · exact Nat.lt_succ_of_lt (h.below m hm)
    · exact Nat.lt_succ_self _
  · intro g hg
    rw [groups, List.mem_append, List.mem_singleton] at hg
    rw [groups, List.length_append, List.length_singleton]
    rcases hg with hg | rfl
    · exact Nat.lt_succ_of_lt (h.named g hg)
    · exact Nat.lt_succ_self _
  · intro g hg
    rw [groups, List.length_append, List.length_singleton] at hg
    exact h.unused g (Nat.le_of_succ_le hg)
  · intro m hm m' hm'
    rw [hmembers, List.mem_append, List.mem_singleton] at hm hm'
    rcases hm with hm | rfl <;> rcases hm' with hm' | rfl
    · exact h.apart m hm m' hm'
    · exact iff_of_false (hbuffer m hm) (hgroup m hm)
    · exact iff_of_false (hbuffer m' hm').symm (hgroup m' hm').symm
    · exact iff_of_true rfl rfl
  · intro m hm
    rw [hmembers, List.mem_append, List.mem_singleton] at hm
    change drained rs m.2 us ++ (held rs us).recorders.fresh.2.emissions m.1 = emitted m.2 us
    rw [emissions_fresh]
    rcases hm with hm | rfl
    · exact h.account m hm
    · rw [emissions_fresh_self, (h.unused _ (Nat.le_refl _)).1, (h.unused _ (Nat.le_refl _)).2]
      rfl

theorem copy (h : Tracked rs us) (hr : (held rs us).handles[place]? = some r)
    (hg : (groups us)[place]? = some g) (hm : (r, g) ∈ members rs us) :
    Tracked rs (.on place .copy :: us) := by
  have hheld : held rs (.on place .copy :: us) =
      { held rs us with handles := (held rs us).handles ++ [r.copy] } := by
    rw [held, Use.apply, hr]
    rfl
  have hgroups : groups (.on place .copy :: us) = groups us ++ [g] := by
    rw [groups, hg]
    rfl
  have hmembers : members rs (.on place .copy :: us) = members rs us ++ [(r, g)] := by
    rw [members, hheld, hgroups]
    exact List.zip_append h.lengths
  have hsame (m) (hnew : m ∈ members rs (.on place .copy :: us)) : m ∈ members rs us := by
    rw [hmembers, List.mem_append, List.mem_singleton] at hnew
    rcases hnew with hnew | rfl
    · exact hnew
    · exact hm
  have hlength : (groups us).length ≤ (groups (.on place .copy :: us)).length := by simp [hgroups]
  constructor
  · rw [hheld, hgroups, List.length_append, List.length_append, h.lengths]
    rfl
  · intro m hnew
    rw [hheld]
    exact h.below m (hsame m hnew)
  · intro g' hg'
    rw [hgroups, List.mem_append, List.mem_singleton] at hg'
    refine Nat.lt_of_lt_of_le ?_ hlength
    rcases hg' with hg' | rfl
    · exact h.named g' hg'
    · exact h.snd_lt hm
  · intro g' hg'
    exact h.unused g' (Nat.le_trans hlength hg')
  · intro m hnew m' hnew'
    exact h.apart m (hsame m hnew) m' (hsame m' hnew')
  · intro m hnew
    rw [hheld]
    exact h.account m (hsame m hnew)

/-- A use that only changes the buffers keeps the handles and their groups. -/
theorem of_buffers (h : Tracked rs us) {rs' : Recorders}
    (hheld : held rs (u :: us) = { held rs us with recorders := rs' })
    (hgroups : groups (u :: us) = groups us)
    (hsize : rs'.buffers.size = (held rs us).recorders.buffers.size)
    (hunused : ∀ g, (groups us).length ≤ g → emitted g (u :: us) = [] ∧ drained rs g (u :: us) = [])
    (haccount : ∀ m ∈ members rs us,
      drained rs m.2 (u :: us) ++ rs'.emissions m.1 = emitted m.2 (u :: us)) :
    Tracked rs (u :: us) := by
  have hmembers : members rs (u :: us) = members rs us := by
    rw [members, hheld, hgroups]
    rfl
  constructor
  · rw [hheld, hgroups]
    exact h.lengths
  · rw [hmembers, hheld]
    intro m hm
    rw [hsize]
    exact h.below m hm
  · rw [hgroups]
    exact h.named
  · rw [hgroups]
    exact hunused
  · rw [hmembers]
    exact h.apart
  · rw [hmembers, hheld]
    exact haccount

theorem emit (h : Tracked rs us) (hr : (held rs us).handles[place]? = some r)
    (hg : (groups us)[place]? = some g) (hm : (r, g) ∈ members rs us) :
    Tracked rs (.on place (.emit e) :: us) := by
  have hheld : held rs (.on place (.emit e) :: us) =
      { held rs us with recorders := (held rs us).recorders.emit r e } := by
    rw [held, Use.apply, hr]
    rfl
  refine h.of_buffers hheld rfl (size_buffers_emit _ r e) (fun g' hg' => ?_) fun m hm' => ?_
  · rw [emitted, hg, if_neg (h.ne_unused hm hg'), List.append_nil]
    exact h.unused g' hg'
  · rw [emitted, hg, ← h.account m hm']
    by_cases hsame : g = m.2
    · rw [if_pos (congrArg some hsame), ← (h.apart _ hm _ hm').2 hsame,
        emissions_emit _ _ _ (h.below _ hm), List.append_assoc]
      rfl
    · have hother : r ≠ m.1 := fun heq => hsame ((h.apart _ hm _ hm').1 heq)
      rw [if_neg (by simpa using hsame), emissions_emit_of_ne _ _ hother, List.append_nil]
      rfl

theorem drain (h : Tracked rs us) (hr : (held rs us).handles[place]? = some r)
    (hg : (groups us)[place]? = some g) (hm : (r, g) ∈ members rs us) :
    Tracked rs (.on place .drain :: us) := by
  have hheld : held rs (.on place .drain :: us) =
      { held rs us with recorders := ((held rs us).recorders.drain r).2 } := by
    rw [held, Use.apply, hr]
    rfl
  have hanswer : answer rs us (.on place .drain) =
      .emissions ((held rs us).recorders.emissions r) := by
    rw [answer, Use.apply, hr]
    rfl
  refine h.of_buffers hheld rfl (size_buffers_drain _ r) (fun g' hg' => ?_) fun m hm' => ?_
  · rw [drained, hg, if_neg (h.ne_unused hm hg'), List.append_nil]
    exact h.unused g' hg'
  · rw [drained, hg, hanswer]
    change _ = emitted m.2 us
    rw [← h.account m hm']
    by_cases hsame : g = m.2
    · rw [if_pos (congrArg some hsame), ← (h.apart _ hm _ hm').2 hsame,
        emissions_drain _ _ (h.below _ hm), List.append_nil]
      rfl
    · have hother : r ≠ m.1 := fun heq => hsame ((h.apart _ hm _ hm').1 heq)
      rw [if_neg (by simpa using hsame), emissions_drain_of_ne _ hother, List.append_nil]

/-- Every use keeps track. -/
theorem cons (h : Tracked rs us) (u : Use) : Tracked rs (u :: us) := by
  cases u with
  | fresh => exact h.fresh
  | on place q =>
    cases hg : (groups us)[place]? with
    | none =>
      have hheld : held rs (.on place q :: us) = held rs us := by
        rw [held, Use.apply, h.getElem?_handles_eq_none hg]
      cases q <;> refine h.of_eq hheld ?_ (fun g => ?_) fun g => ?_ <;>
        simp [groups, emitted, drained, hg]
    | some g =>
      obtain ⟨r, hr, hm⟩ := h.getElem?_handles hg
      cases q with
      | copy => exact h.copy hr hg hm
      | emit e => exact h.emit hr hg hm
      | drain => exact h.drain hr hg hm
      | emissions | texts | integers | size =>
        refine h.of_eq ?_ rfl (fun _ => rfl) fun _ => rfl
        rw [held, Use.apply, hr]
        rfl

end Tracked

/-- Handles and buffers are kept track of through every history. -/
theorem tracked (rs : Recorders) (us : List Use) : Tracked rs us := by
  induction us with
  | nil => exact .start rs
  | cons u us ih => exact ih.cons u

/-- What a request to a handle of a group is answered. -/
theorem exists_answer (rs : Recorders) (hg : (groups us)[place]? = some g) :
    ∃ r, (held rs us).handles[place]? = some r ∧ (r, g) ∈ members rs us ∧
      ∀ q : Request, answer rs us (.on place q) = (q.apply (held rs us) r).1 := by
  obtain ⟨r, hr, hm⟩ := (tracked rs us).getElem?_handles hg
  exact ⟨r, hr, hm, fun q => by rw [answer, Use.apply, hr]⟩

/-- The answers of a recorder are about what its buffer holds. -/
theorem Request.apply_fst_congr {s s' : Held}
    (h : s.recorders.emissions r = s'.recorders.emissions r) (q : Request) :
    (q.apply s r).1 = (q.apply s' r).1 := by
  cases q <;> simp [apply, Recorders.drain, Recorders.texts, Recorders.integers, Recorders.size, h]

/-- A handle stays at its place. -/
theorem getElem?_handles_cons (u : Use) (h : (held rs us).handles[place]? = some r) :
    (held rs (u :: us)).handles[place]? = some r := by
  obtain ⟨hplace, -⟩ := List.getElem?_eq_some_iff.1 h
  cases u with
  | fresh => rw [held, Use.apply, List.getElem?_append_left hplace, h]
  | on place' q =>
    rw [held, Use.apply]
    split
    · next r' _ =>
      cases q with
      | copy => rw [Request.apply, List.getElem?_append_left hplace, h]
      | emit | drain | emissions | texts | integers | size => exact h
    · exact h

/-- Uses that change another group's buffer, or none, leave a buffer as it is. -/
theorem emissions_held_cons (hm : (r, g) ∈ members rs us) (hu : u.changes? us ≠ some g) :
    (held rs (u :: us)).recorders.emissions r = (held rs us).recorders.emissions r := by
  cases u with
  | fresh => exact emissions_fresh _ r
  | on place q =>
    cases hg : (groups us)[place]? with
    | none => rw [held, Use.apply, (tracked rs us).getElem?_handles_eq_none hg]
    | some g' =>
      obtain ⟨r', hr', hm'⟩ := (tracked rs us).getElem?_handles hg
      rw [held, Use.apply, hr']
      have hother (hne : some g' ≠ some g) : r' ≠ r := fun heq =>
        hne (congrArg some (((tracked rs us).apart _ hm' _ hm).1 heq))
      cases q with
      | emit e =>
        rw [Use.changes?, hg] at hu
        exact emissions_emit_of_ne _ e (hother hu)
      | drain =>
        rw [Use.changes?, hg] at hu
        exact emissions_drain_of_ne _ (hother hu)
      | copy | emissions | texts | integers | size => rfl

/-- What the recorders `rs` and those made since by the history `us` are good for. -/
structure Lossless (rs : Recorders) (us : List Use) : Prop where
  /-- What was drained from a group, and what any handle of it reads, is what was emitted to it. -/
  complete : ∀ place g, (groups us)[place]? = some g →
    drained rs g us ++ (answer rs us (.on place .emissions)).listed = emitted g us
  /-- All handles of a group answer alike. -/
  shared : ∀ place place' g, (groups us)[place]? = some g → (groups us)[place']? = some g →
    ∀ q : Request, answer rs us (.on place q) = answer rs us (.on place' q)
  /-- Every way of reading shows the same emissions, by their kinds and in their order. -/
  kinds : ∀ place g, (groups us)[place]? = some g → ∃ es,
    answer rs us (.on place .emissions) = .emissions es ∧
    answer rs us (.on place .drain) = .emissions es ∧
    answer rs us (.on place .texts) = .texts (es.filterMap Emission.text?) ∧
    answer rs us (.on place .integers) = .integers (es.filterMap Emission.integer?) ∧
    answer rs us (.on place .size) = .size es.length ∧
    (es.filterMap Emission.text?).length + (es.filterMap Emission.integer?).length = es.length
  /-- A group's answers change by emitting to it and draining it only. -/
  apart : ∀ u place g, (groups us)[place]? = some g → u.changes? us ≠ some g →
    ∀ q : Request, answer rs (u :: us) (.on place q) = answer rs us (.on place q)

/-- Recorders lose nothing, show nothing twice and keep apart what was not copied. -/
theorem recorders_are_lossless (rs : Recorders) (us : List Use) : Lossless rs us where
  complete place g hg := by
    obtain ⟨r, -, hm, hanswer⟩ := exists_answer rs hg
    rw [hanswer]
    exact (tracked rs us).account _ hm
  shared place place' g hg hg' q := by
    obtain ⟨r, -, hm, hanswer⟩ := exists_answer rs hg
    obtain ⟨r', -, hm', hanswer'⟩ := exists_answer rs hg'
    have hsame : r = r' := ((tracked rs us).apart _ hm _ hm').2 rfl
    rw [hanswer, hanswer', hsame]
  kinds place g hg := by
    obtain ⟨r, -, -, hanswer⟩ := exists_answer rs hg
    simp only [hanswer]
    exact ⟨_, rfl, rfl, rfl, rfl, rfl, length_texts_add_length_integers _ r⟩
  apart u place g hg hu q := by
    obtain ⟨r, hr, hm, hanswer⟩ := exists_answer rs hg
    have hlater : answer rs (u :: us) (.on place q) = (q.apply (held rs (u :: us)) r).1 := by
      rw [answer, Use.apply, getElem?_handles_cons u hr]
    rw [hlater, hanswer]
    exact q.apply_fst_congr (emissions_held_cons hm hu)

/-- A copy made later shows what was emitted before, and draining it empties the first handle. -/
example :
    let us : List Use := [.on 0 .copy, .on 0 (.emit (.integer 7)), .fresh]
    answer {} us (.on 1 .drain) = .emissions [.integer 7] ∧
      answer {} (.on 1 .drain :: us) (.on 0 .emissions) = .emissions [] := by
  decide

end GuestHarness.Recorders
