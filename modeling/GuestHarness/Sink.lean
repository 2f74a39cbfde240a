import GuestHarness.Emission
import GuestHarness.Event

/-! Where emissions go. An operation does not send them there itself: it keeps an account of all that
others can notice of it, in order, so that each sink's share can be read off. -/
namespace GuestHarness

inductive Sink where
  /-- A buffer, by its number. -/
  | recorder (buffer : Nat)
  /-- The log, where emissions carry a label. -/
  | log (label : String)
  /-- Standard output, a line for each emission. -/
  | standardOutput
  deriving Repr, DecidableEq, Inhabited

/-- The event by which the log shows an emission. -/
def Emission.event (label : String) (e : Emission) : Event where
  level := .info
  target := Target.sink
  message := "[WASM] " ++ e.display
  fields := ("module", label) ::
    match e with
    | .integer v => [("value", Value.integerText v.toInt)]
    | .text _ => []

/-- What others can notice of an operation. -/
inductive Occurrence where
  | emitted (sink : Sink) (emission : Emission)
  | logged (event : Event)
  deriving Repr, DecidableEq

namespace Occurrence

def event? : Occurrence → Option Event
  | logged e => some e
  | emitted (.log label) e => some (e.event label)
  | emitted _ _ => none

/-- The emission, if it went to `sink`. -/
def emission? (sink : Sink) : Occurrence → Option Emission
  | emitted s e => if s = sink then some e else none
  | logged _ => none

end Occurrence

/-- What went to a sink, in order. -/
def emissionsTo (sink : Sink) (os : List Occurrence) : List Emission :=
  os.filterMap (Occurrence.emission? sink)

/-- What the log shows, in order. -/
def eventsOf (os : List Occurrence) : List Event := os.filterMap Occurrence.event?

@[simp] theorem emissionsTo_nil (sink : Sink) : emissionsTo sink [] = [] := rfl

@[simp] theorem emissionsTo_append (sink : Sink) (os ps : List Occurrence) :
    emissionsTo sink (os ++ ps) = emissionsTo sink os ++ emissionsTo sink ps := by
  simp [emissionsTo]

@[simp] theorem emissionsTo_logged (sink : Sink) (event : Event) :
    emissionsTo sink [.logged event] = [] := rfl

@[simp] theorem eventsOf_append (os ps : List Occurrence) :
    eventsOf (os ++ ps) = eventsOf os ++ eventsOf ps := by
  simp [eventsOf]

/-- The outcome of an operation with all that was noticed of it. -/
@[ext] structure Account (ε α : Type) where
  noticed : List Occurrence
  outcome : Except ε α

namespace Account

variable {ε α β : Type}

def ofExcept (r : Except ε α) : Account ε α := ⟨[], r⟩

def fail (e : ε) : Account ε α := ⟨[], .error e⟩

def log (event : Event) : Account ε Unit := ⟨[.logged event], .ok ()⟩

/-- The second operation begins where the first succeeded. -/
def andThen (a : Account ε α) (f : α → Account ε β) : Account ε β :=
  match a.outcome with
  | .error e => ⟨a.noticed, .error e⟩
  | .ok v => ⟨a.noticed ++ (f v).noticed, (f v).outcome⟩

instance : Monad (Account ε) where
  pure v := ⟨[], .ok v⟩
  bind := andThen

/-- An event that tells of the failure follows it. -/
def logFailure (a : Account ε α) (event : ε → Event) : Account ε α :=
  match a.outcome with
  | .error e => ⟨a.noticed ++ [.logged (event e)], .error e⟩
  | .ok _ => a

def mapError (f : ε → ε') (a : Account ε α) : Account ε' α :=
  ⟨a.noticed, a.outcome.mapError f⟩

@[simp] theorem bind_eq_andThen (a : Account ε α) (f : α → Account ε β) :
    a >>= f = a.andThen f := rfl

@[simp] theorem noticed_pure (v : α) : (pure v : Account ε α).noticed = [] := rfl

@[simp] theorem outcome_pure (v : α) : (pure v : Account ε α).outcome = .ok v := rfl

@[simp] theorem noticed_ofExcept (r : Except ε α) : (ofExcept r).noticed = [] := rfl

@[simp] theorem outcome_ofExcept (r : Except ε α) : (ofExcept r).outcome = r := rfl

@[simp] theorem noticed_fail (e : ε) : (fail e : Account ε α).noticed = [] := rfl

@[simp] theorem outcome_fail (e : ε) : (fail e : Account ε α).outcome = .error e := rfl

@[simp] theorem noticed_log (event : Event) : (log event : Account ε Unit).noticed = [.logged event] :=
  rfl

@[simp] theorem outcome_log (event : Event) : (log event : Account ε Unit).outcome = .ok () := rfl

@[simp] theorem noticed_mapError (f : ε → ε') (a : Account ε α) :
    (a.mapError f).noticed = a.noticed := rfl

@[simp] theorem outcome_mapError (f : ε → ε') (a : Account ε α) :
    (a.mapError f).outcome = a.outcome.mapError f := rfl

theorem mapError_of_ok {a : Account ε α} {v : α} (h : a.outcome = .ok v) (f : ε → ε') :
    (a.mapError f).outcome = .ok v := by
  rw [outcome_mapError, h]
  rfl

theorem mapError_of_error {a : Account ε α} {e : ε} (h : a.outcome = .error e) (f : ε → ε') :
    (a.mapError f).outcome = .error (f e) := by
  rw [outcome_mapError, h]
  rfl

theorem outcome_andThen (a : Account ε α) (f : α → Account ε β) :
    (a.andThen f).outcome = a.outcome.bind fun v => (f v).outcome := by
  unfold andThen
  split <;> simp_all [Except.bind]

theorem andThen_of_ok {a : Account ε α} {v : α} (h : a.outcome = .ok v) (f : α → Account ε β) :
    a.andThen f = ⟨a.noticed ++ (f v).noticed, (f v).outcome⟩ := by
  simp [andThen, h]

theorem andThen_of_error {a : Account ε α} {e : ε} (h : a.outcome = .error e) (f : α → Account ε β) :
    a.andThen f = ⟨a.noticed, .error e⟩ := by
  simp [andThen, h]

/-- A second operation that emits nothing leaves what the first one emitted. -/
theorem emissionsTo_andThen_of_silent {sink : Sink} {f : α → Account ε β}
    (hf : ∀ v, emissionsTo sink (f v).noticed = []) (a : Account ε α) :
    emissionsTo sink (a.andThen f).noticed = emissionsTo sink a.noticed := by
  cases h : a.outcome with
  | error e => rw [andThen_of_error h]
  | ok v => rw [andThen_of_ok h, emissionsTo_append, hf, List.append_nil]

@[simp] theorem emissionsTo_log_andThen (sink : Sink) (event : Event) (f : Unit → Account ε α) :
    emissionsTo sink ((log event).andThen f).noticed = emissionsTo sink (f ()).noticed := by
  rw [andThen_of_ok (outcome_log event), emissionsTo_append, noticed_log, emissionsTo_logged,
    List.nil_append]

@[simp] theorem emissionsTo_logFailure (sink : Sink) (a : Account ε α) (event : ε → Event) :
    emissionsTo sink (a.logFailure event).noticed = emissionsTo sink a.noticed := by
  unfold logFailure
  split <;> simp

@[simp] theorem noticed_map (f : α → β) (a : Account ε α) : (f <$> a).noticed = a.noticed := by
  change (a.andThen fun v => pure (f v)).noticed = _
  cases h : a.outcome with
  | error e => rw [andThen_of_error h]
  | ok v => simp [andThen_of_ok h]

@[simp] theorem outcome_map (f : α → β) (a : Account ε α) :
    (f <$> a).outcome = a.outcome.map f := by
  change (a.andThen fun v => pure (f v)).outcome = _
  cases h : a.outcome with
  | error e => rw [andThen_of_error h]; rfl
  | ok v => rw [andThen_of_ok h]; rfl

theorem outcome_map_eq_error_iff {f : α → β} {a : Account ε α} {e : ε} :
    (f <$> a).outcome = .error e ↔ a.outcome = .error e := by
  rw [outcome_map]
  cases a.outcome <;> simp [Except.map]

end Account
end GuestHarness
