import GuestHarness.Proofs.Session.Basic

/-! Keeping compiled modules does not show. As long as different bytes have different hashes, a loader
that keeps modules answers every session as one that keeps none, up to what the log says and to which
handles are the same; and each compiled module is what its own bytes compile to. -/
namespace GuestHarness

def Occurrence.isEmission : Occurrence → Bool
  | emitted .. => true
  | logged _ => false

namespace Account

variable {ε α β : Type}

/-- The account without what the log alone says. -/
def unlogged (a : Account ε α) : Account ε α := ⟨a.noticed.filter Occurrence.isEmission, a.outcome⟩

theorem unlogged_andThen (a : Account ε α) (f : α → Account ε β) :
    (a.andThen f).unlogged = a.unlogged.andThen fun v => (f v).unlogged := by
  cases h : a.outcome with
  | error e => rw [andThen_of_error h, andThen_of_error (a := a.unlogged) h]; rfl
  | ok v =>
    rw [andThen_of_ok h, andThen_of_ok (a := a.unlogged) h]
    simp [unlogged]

theorem unlogged_map (f : α → β) (a : Account ε α) : (f <$> a).unlogged = f <$> a.unlogged := by
  ext1 <;> simp [unlogged]

theorem unlogged_mapError (f : ε → ε') (a : Account ε α) :
    (a.mapError f).unlogged = a.unlogged.mapError f := rfl

end Account

namespace Loader

/-- What bytes compile to when nothing is kept. -/
def anew (hash : List UInt8 → UInt64) (name : String) (bytes : List UInt8) : Except Fault Compiled :=
  match Wasm.Module.compile? bytes with
  | none => .error (.validation name engineText)
  | some module => .ok ⟨name, module, hash bytes⟩

/-- Whatever is kept for bytes among `known` is what these bytes compile to. -/
def Faithful (known : List UInt8 → Prop) (l : Loader) : Prop :=
  ∀ bytes, known bytes → ∀ h, l.kept? (l.hash bytes) = some h →
    Wasm.Module.compile? bytes = some h.compiled.module ∧ h.compiled.hash = l.hash bytes

variable {l : Loader} {known : List UInt8 → Prop}

theorem faithful_of_cache_nil (h : l.cache = []) : l.Faithful known := by
  intro bytes _ h' hk
  simp [kept?, h] at hk

@[simp] theorem settings_issue (c : Compiled) : (l.issue c).2.settings = l.settings := by
  unfold issue
  dsimp only
  split <;> rfl

@[simp] theorem hash_issue (c : Compiled) : (l.issue c).2.hash = l.hash := by
  unfold issue
  dsimp only
  split <;> rfl

theorem kept?_issue (c : Compiled) (hash : UInt64) :
    (l.issue c).2.kept? hash =
      if l.settings.cacheModules ∧ hash = c.hash then some ⟨l.issued, c⟩ else l.kept? hash := by
  cases hc : l.settings.cacheModules with
  | false => simp [issue, kept?, hc]
  | true =>
    by_cases h : hash = c.hash
    · simp [issue, kept?, hc, h]
    · have hb : (hash == c.hash) = false := by simpa using h
      simp [issue, kept?, hc, h, List.lookup_cons, hb]

/-- The four ways in which compiling can go: what is kept has the name or gets it, or nothing is kept
and the bytes are refused or compiled. -/
theorem compile_cases (l : Loader) (name : String) (bytes : List UInt8) :
    (∃ h, l.kept? (l.hash bytes) = some h ∧ h.compiled.name = name ∧
      (l.compile name bytes).1.outcome = .ok h ∧ (l.compile name bytes).2 = l) ∨
    (∃ h, l.kept? (l.hash bytes) = some h ∧ h.compiled.name ≠ name ∧
      (l.compile name bytes).1.outcome = .ok ⟨l.issued, { h.compiled with name }⟩ ∧
      (l.compile name bytes).2 = { l with issued := l.issued + 1 }) ∨
    (l.kept? (l.hash bytes) = none ∧ Wasm.Module.compile? bytes = none ∧
      (l.compile name bytes).1.outcome = .error (.validation name engineText) ∧
      (l.compile name bytes).2 = l) ∨
    (∃ module, l.kept? (l.hash bytes) = none ∧ Wasm.Module.compile? bytes = some module ∧
      (l.compile name bytes).1.outcome = .ok ⟨l.issued, ⟨name, module, l.hash bytes⟩⟩ ∧
      (l.compile name bytes).2 = (l.issue ⟨name, module, l.hash bytes⟩).2) := by
  cases hk : l.kept? (l.hash bytes) with
  | some h =>
    by_cases hn : h.compiled.name = name
    · exact .inl ⟨h, rfl, hn, by simp [compile, hk, hn], by simp [compile, hk, hn]⟩
    · exact .inr (.inl ⟨h, rfl, hn, by simp [compile, hk, hn], by simp [compile, hk, hn]⟩)
  | none =>
    cases hm : Wasm.Module.compile? bytes with
    | none => exact .inr (.inr (.inl ⟨rfl, rfl, by simp [compile, hk, hm], by simp [compile, hk, hm]⟩))
    | some module =>
      exact .inr (.inr (.inr ⟨module, rfl, rfl, by simp [compile, hk, hm, issue],
        by simp [compile, hk, hm]⟩))

@[simp] theorem settings_compile (name : String) (bytes : List UInt8) :
    (l.compile name bytes).2.settings = l.settings := by
  obtain ⟨_, _, _, _, h⟩ | ⟨_, _, _, _, h⟩ | ⟨_, _, _, h⟩ | ⟨_, _, _, _, h⟩ :=
    compile_cases l name bytes <;> simp [h]

@[simp] theorem hash_compile (name : String) (bytes : List UInt8) :
    (l.compile name bytes).2.hash = l.hash := by
  obtain ⟨_, _, _, _, h⟩ | ⟨_, _, _, _, h⟩ | ⟨_, _, _, h⟩ | ⟨_, _, _, _, h⟩ :=
    compile_cases l name bytes <;> simp [h]

/-- A faithful loader gives what the bytes compile to, whatever it keeps. -/
theorem compiled_eq_anew (hl : l.Faithful known) {bytes : List UInt8} (hb : known bytes)
    (name : String) :
    (l.compile name bytes).1.outcome.map Handle.compiled = anew l.hash name bytes := by
  obtain ⟨h, hk, hn, ho, -⟩ | ⟨h, hk, -, ho, -⟩ | ⟨-, hm, ho, -⟩ | ⟨module, -, hm, ho, -⟩ :=
    compile_cases l name bytes
  · obtain ⟨hm, hh⟩ := hl bytes hb h hk
    subst hn
    simp [ho, anew, hm, Except.map, ← hh]
  · obtain ⟨hm, hh⟩ := hl bytes hb h hk
    simp [ho, anew, hm, Except.map, ← hh]
  · simp [ho, anew, hm, Except.map]
  · simp [ho, anew, hm, Except.map]

/-- Where no two of the known byte strings share a hash, compiling one of them keeps a loader
faithful. -/
theorem Faithful.compile (hl : l.Faithful known)
    (distinct : ∀ b b', known b → known b' → l.hash b = l.hash b' → b = b')
    {bytes : List UInt8} (hb : known bytes) (name : String) :
    (l.compile name bytes).2.Faithful known := by
  obtain ⟨_, _, _, _, h⟩ | ⟨_, _, _, _, h⟩ | ⟨_, _, _, h⟩ | ⟨module, _, hm, _, h⟩ :=
    compile_cases l name bytes
  · rwa [h]
  · rw [h]
    exact hl
  · rwa [h]
  · rw [h]
    intro b hb' h' hk
    rw [hash_issue, kept?_issue] at hk
    split at hk
    · next hc =>
      -- The module just kept answers for these bytes only, since no others have its hash.
      cases distinct b bytes hb' hb hc.2
      cases hk
      exact ⟨hm, by simp⟩
    · simpa using hl b hb' h' hk

theorem unlogged_compile (name : String) (bytes : List UInt8) :
    ((l.compile name bytes).1.unlogged).noticed = [] := by
  cases hk : l.kept? (l.hash bytes) with
  | some h =>
    by_cases hn : h.compiled.name = name <;>
      simp [compile, hk, hn, Account.unlogged, Occurrence.isEmission]
  | none =>
    cases hm : Wasm.Module.compile? bytes <;>
      simp [compile, hk, hm, Account.unlogged, Occurrence.isEmission]

/-- Compiling sends nothing to any sink. -/
theorem compile_eq_anew (hl : l.Faithful known) {bytes : List UInt8} (hb : known bytes)
    (name : String) :
    Handle.compiled <$> (l.compile name bytes).1.unlogged = .ofExcept (anew l.hash name bytes) := by
  ext1
  · simpa using unlogged_compile name bytes
  · simpa [Account.unlogged] using compiled_eq_anew hl hb name

/-- Of the settings, instances depend on the bounds alone. -/
theorem instantiate_congr {l l' : Loader} (h : l.settings =
    { l'.settings with cacheModules := l.settings.cacheModules }) (c : Compiled) (t : ImportTable) :
    l.instantiate c t = l'.instantiate c t := by
  have hf : l.settings.initialFuel = l'.settings.initialFuel := by rw [h]; rfl
  have hc : l.cap = l'.cap := by simp only [cap]; rw [h]
  simp only [instantiate, hf, hc]

/-- Loading bytes shows what making an instance of their compiled form shows. -/
theorem load_eq_anew (hl : l.Faithful known) {bytes : List UInt8} (hb : known bytes) (name : String)
    (table : ImportTable) :
    (l.load name bytes table).1.unlogged =
      ((Account.ofExcept (anew l.hash name bytes)).mapError .fault).andThen fun c =>
        (l.instantiate c table).unlogged := by
  have hi (c : Compiled) : (l.compile name bytes).2.instantiate c table = l.instantiate c table :=
    instantiate_congr (by simp) c table
  have hload : (l.load name bytes table).1 =
      ((l.compile name bytes).1.mapError .fault).andThen fun h => l.instantiate h.compiled table := by
    simp only [load, Account.bind_eq_andThen, hi]
  rw [hload, Account.unlogged_andThen, Account.unlogged_mapError, ← compile_eq_anew hl hb name]
  cases ho : (l.compile name bytes).1.outcome with
  | error e =>
    rw [Account.andThen_of_error (e := .fault e), Account.andThen_of_error (e := .fault e)]
    · simp
    · exact Account.mapError_of_error (by simp [Account.unlogged, ho, Except.map]) _
    · exact Account.mapError_of_error (by simp [Account.unlogged, ho]) _
  | ok h =>
    rw [Account.andThen_of_ok (v := h), Account.andThen_of_ok (v := h.compiled)]
    · simp
    · exact Account.mapError_of_ok (by simp [Account.unlogged, ho, Except.map]) _
    · exact Account.mapError_of_ok (by simp [Account.unlogged, ho]) _

end Loader
end GuestHarness
