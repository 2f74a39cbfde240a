import GuestHarness.Sink

/-! Buffers of emissions. A recorder is the number of its buffer, so that all copies of it share what
was recorded. -/
namespace GuestHarness

/-- A handle on a buffer. -/
structure Recorder where
  buffer : Nat
  deriving Repr, DecidableEq, Inhabited

def Recorder.sink (r : Recorder) : Sink := .recorder r.buffer

/-- A further handle on the same buffer. -/
def Recorder.copy (r : Recorder) : Recorder := r

structure Recorders where
  buffers : Array (Array Emission) := #[]
  deriving Inhabited

namespace Recorders

variable (rs : Recorders)

/-- A recorder of its own, with nothing recorded. -/
def fresh : Recorder × Recorders := (⟨rs.buffers.size⟩, ⟨rs.buffers.push #[]⟩)

def emissions (r : Recorder) : List Emission := (rs.buffers[r.buffer]?.getD #[]).toList

def emit (r : Recorder) (e : Emission) : Recorders :=
  ⟨rs.buffers.modify r.buffer (·.push e)⟩

/-- What was recorded, leaving nothing. -/
def drain (r : Recorder) : List Emission × Recorders :=
  (rs.emissions r, ⟨rs.buffers.modify r.buffer fun _ => #[]⟩)

def size (r : Recorder) : Nat := (rs.emissions r).length

def texts (r : Recorder) : List String := (rs.emissions r).filterMap Emission.text?

def integers (r : Recorder) : List Int64 := (rs.emissions r).filterMap Emission.integer?

/-- Records what went to recorders. -/
def record (os : List Occurrence) : Recorders :=
  os.foldl (fun rs o =>
    match o with
    | .emitted (.recorder b) e => rs.emit ⟨b⟩ e
    | _ => rs) rs

theorem emissions_emit (r : Recorder) (e : Emission) (h : r.buffer < rs.buffers.size) :
    (rs.emit r e).emissions r = rs.emissions r ++ [e] := by
  simp [emit, emissions, h, Array.getElem_modify]

theorem emissions_emit_of_ne {r r' : Recorder} (e : Emission) (h : r ≠ r') :
    (rs.emit r e).emissions r' = rs.emissions r' := by
  have : r.buffer ≠ r'.buffer := fun hb => h (by cases r; cases r'; simp_all)
  simp [emit, emissions, Array.getElem?_modify, this]

theorem emissions_drain (r : Recorder) (h : r.buffer < rs.buffers.size) :
    (rs.drain r).2.emissions r = [] := by
  simp [drain, emissions, h, Array.getElem_modify]

theorem emissions_drain_of_ne {r r' : Recorder} (h : r ≠ r') :
    (rs.drain r).2.emissions r' = rs.emissions r' := by
  have : r.buffer ≠ r'.buffer := fun hb => h (by cases r; cases r'; simp_all)
  simp [drain, emissions, Array.getElem?_modify, this]

/-- A recorder of its own has nothing, and the others keep what they have. -/
theorem emissions_fresh (r : Recorder) : rs.fresh.2.emissions r = rs.emissions r := by
  simp only [fresh, emissions, Array.getElem?_push]
  split
  · next h => simp [h]
  · rfl

theorem emissions_fresh_self : rs.emissions rs.fresh.1 = [] := by
  simp [fresh, emissions]

@[simp] theorem size_buffers_fresh : rs.fresh.2.buffers.size = rs.buffers.size + 1 := by
  simp [fresh]

@[simp] theorem size_buffers_drain (r : Recorder) :
    (rs.drain r).2.buffers.size = rs.buffers.size := by
  simp [drain]

/-- Every emission is of one of the two kinds. -/
theorem length_texts_add_length_integers (r : Recorder) :
    (rs.texts r).length + (rs.integers r).length = rs.size r := by
  unfold texts integers size
  induction rs.emissions r with
  | nil => rfl
  | cons e es ih =>
    cases e <;>
      simp only [List.filterMap_cons, Emission.text?, Emission.integer?, List.length_cons] <;> omega

@[simp] theorem size_buffers_emit (r : Recorder) (e : Emission) :
    (rs.emit r e).buffers.size = rs.buffers.size := by
  simp [emit]

/-- A buffer is left with what it held and what went to it. -/
theorem emissions_record (os : List Occurrence) (r : Recorder) (h : r.buffer < rs.buffers.size) :
    (rs.record os).emissions r = rs.emissions r ++ emissionsTo r.sink os := by
  induction os generalizing rs with
  | nil => simp [record, emissionsTo]
  | cons o os ih =>
    cases o with
    | logged event => exact ih rs h
    | emitted sink e =>
      cases sink with
      | recorder b =>
        have hrecord : rs.record (.emitted (.recorder b) e :: os) = (rs.emit ⟨b⟩ e).record os := rfl
        rw [hrecord, ih (rs.emit ⟨b⟩ e) (by simpa using h)]
        by_cases hb : b = r.buffer
        · subst hb
          rw [emissions_emit rs r e h]
          simp [emissionsTo, Occurrence.emission?, Recorder.sink]
        · rw [emissions_emit_of_ne rs e (by rintro rfl; exact hb rfl)]
          simp [emissionsTo, Occurrence.emission?, Recorder.sink, hb]
      | log label => exact ih rs h
      | standardOutput => exact ih rs h

end Recorders
end GuestHarness
