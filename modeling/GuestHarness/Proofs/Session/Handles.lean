import Mathlib.Data.List.Dedup
import GuestHarness.Proofs.Session.Transparency

/-! Which handles are the same. A loader that keeps modules has one for each hash that was compiled since
it was last cleared, and gives it again whenever bytes with this hash are compiled under the name they had
first; every other handle is a new one. -/
namespace GuestHarness

/-- Bytes that compiled, told by the name they were to have and by their hash. -/
structure Compilation where
  name : String
  hash : UInt64
  deriving Repr, DecidableEq

/-- The name under which bytes with this hash were compiled first. -/
def firstName? (past : List Compilation) (hash : UInt64) : Option String :=
  (past.find? fun c => c.hash = hash).map Compilation.name

theorem firstName?_snoc (past : List Compilation) (c : Compilation) (hash : UInt64) :
    firstName? (past ++ [c]) hash =
      (firstName? past hash).or (if c.hash = hash then some c.name else none) := by
  unfold firstName?
  rw [List.find?_append, List.find?_singleton]
  cases past.find? fun c => c.hash = hash with
  | some _ => rfl
  | none => by_cases h : c.hash = hash <;> simp [h]

theorem isSome_firstName?_iff {past : List Compilation} {hash : UInt64} :
    (firstName? past hash).isSome ↔ hash ∈ past.map Compilation.hash := by
  simp [firstName?]

/-- Operations one after the other, each with the files as it finds them. -/
abbrev Timeline := List (FileTree × Operation)

namespace Session

variable (s : Session)

def afterAll (s : Session) (past : Timeline) : Session :=
  past.foldl (fun s did => (s.step did.1 did.2).2) s

/-- What an operation compiles, if the bytes are accepted. Loading compiles too, whether or not it gets
to an instance. -/
def compilation? (files : FileTree) (op : Operation) : Option Compilation :=
  match op.source? files with
  | none => none
  | some (name, bytes) =>
    (s.loader.compile name bytes).1.outcome.toOption.map fun _ => ⟨name, s.loader.hash bytes⟩

/-- What was compiled since the loader was last cleared, after one more operation. -/
def recordNext (past : List Compilation) (files : FileTree) : Operation → List Compilation
  | .clearCache => []
  | op => past ++ (s.compilation? files op).toList

/-- What was compiled in a history since the loader was last cleared, in order. -/
def compiledSince (s : Session) (past : List Compilation) : Timeline → List Compilation
  | [] => past
  | (files, op) :: rest => compiledSince (s.step files op).2 (s.recordNext past files op) rest

/-- The bytes that an operation compiles are all that matters to the loader, unless it clears it. -/
theorem loader_cases (s : Session) (files : FileTree) (op : Operation) (past : List Compilation) :
    (op = .clearCache ∧ (s.step files op).2.loader = s.loader.clearCache ∧
      s.recordNext past files op = []) ∨
    (op ≠ .clearCache ∧ op.source? files = none ∧ (s.step files op).2.loader = s.loader ∧
      s.recordNext past files op = past) ∨
    (∃ name bytes, op ≠ .clearCache ∧ op.source? files = some (name, bytes) ∧
      (s.step files op).2.loader = (s.loader.compile name bytes).2 ∧
      s.recordNext past files op = past ++
        ((s.loader.compile name bytes).1.outcome.toOption.map fun _ =>
          (⟨name, s.loader.hash bytes⟩ : Compilation)).toList) := by
  have hcompiled (name : String) (bytes : List UInt8) (hsource : op.source? files = some (name, bytes)) :
      s.compilation? files op = (s.loader.compile name bytes).1.outcome.toOption.map fun _ =>
        (⟨name, s.loader.hash bytes⟩ : Compilation) := by
    simp only [compilation?, hsource]
  have hidle (hsource : op.source? files = none) : s.compilation? files op = none := by
    simp [compilation?, hsource]
  cases op with
  | clearCache => exact .inl ⟨rfl, rfl, rfl⟩
  | compile name bytes =>
    exact .inr (.inr ⟨name, bytes, by simp, rfl, rfl, by rw [recordNext, hcompiled _ _ rfl]; simp⟩)
  | load name bytes table =>
    exact .inr (.inr ⟨name, bytes, by simp, rfl, rfl, by rw [recordNext, hcompiled _ _ rfl]; simp⟩)
  | compileFile path =>
    cases hread : files.read path with
    | error e =>
      have hsource : (Operation.compileFile path).source? files = none := by
        simp [Operation.source?, hread]
      exact .inr (.inl ⟨by simp, hsource, by simp [step, keepCompiled, Loader.compileFile, hread],
        by simp [recordNext, hidle hsource]⟩)
    | ok bytes =>
      have hsource : (Operation.compileFile path).source? files =
          some ((Path.fileName? path).getD Loader.anonymous, bytes) := by
        simp [Operation.source?, hread]
      exact .inr (.inr ⟨_, bytes, by simp, hsource,
        by simp [step, keepCompiled, Loader.compileFile, hread],
        by rw [recordNext, hcompiled _ _ hsource]; simp⟩)
  | validate bytes =>
    exact .inr (.inl ⟨by simp, rfl, rfl, by simp [recordNext, hidle rfl]⟩)
  | instantiate place table =>
    refine .inr (.inl ⟨by simp, rfl, ?_, by simp [recordNext, hidle rfl]⟩)
    cases hp : s.compiled[place]? <;> simp [step, hp, keepInstance]
  | request place r =>
    refine .inr (.inl ⟨by simp, rfl, ?_, by simp [recordNext, hidle rfl]⟩)
    cases hp : s.instances[place]? <;> simp [step, hp]

/-- The handle that an operation gives is the one that compiling its bytes gives. -/
theorem outcome_compile_of_step {files : FileTree} {op : Operation} {h : Handle} {name : String}
    {bytes : List UInt8} (hsource : op.source? files = some (name, bytes))
    (hgiven : (s.step files op).1.outcome = .ok (.compiled h)) :
    (s.loader.compile name bytes).1.outcome = .ok h := by
  have hkeep (attempt : Account Fault Handle × Loader)
      (houtcome : (s.keepCompiled attempt).1.outcome = .ok (.compiled h)) :
      attempt.1.outcome = .ok h := by
    unfold keepCompiled at houtcome
    rw [Account.outcome_map, Account.outcome_mapError] at houtcome
    cases hattempt : attempt.1.outcome with
    | error e => simp [hattempt, Except.map, Except.mapError] at houtcome
    | ok g => simpa [hattempt, Except.map, Except.mapError] using houtcome
  cases op with
  | compile name' bytes' =>
    cases hsource
    exact hkeep _ hgiven
  | compileFile path =>
    cases hread : files.read path with
    | error e => simp [Operation.source?, hread] at hsource
    | ok bytes' =>
      simp only [Operation.source?, hread, Option.some.injEq, Prod.mk.injEq] at hsource
      obtain ⟨rfl, rfl⟩ := hsource
      have hfile := hkeep _ hgiven
      simpa [Loader.compileFile, hread] using hfile
  | load name' bytes' table =>
    simp only [step, keepInstance, Account.outcome_map] at hgiven
    cases hloaded : (s.loader.load name' bytes' table).1.outcome <;>
      simp [hloaded, Except.map] at hgiven
  | _ => cases hsource

end Session

namespace Loader

variable {l : Loader} {past : List Compilation} {name name' : String} {bytes bytes' : List UInt8}
  {h h' : Handle} {hash : UInt64} {cleared : Prop}

/-- The loader keeps what was compiled first under each hash, and nothing else. -/
structure Records (past : List Compilation) (l : Loader) : Prop where
  keeps : l.settings.cacheModules = true
  names (k : UInt64) : (l.cache.lookup k).map (·.compiled.name) = firstName? past k
  distinct : (l.cache.map Prod.fst).Nodup
  hashes (k : UInt64) : k ∈ l.cache.map Prod.fst ↔ k ∈ past.map Compilation.hash
  issued (k : UInt64) (g : Handle) : l.cache.lookup k = some g → g.number < l.issued
  numbers (k k' : UInt64) (g g' : Handle) : l.cache.lookup k = some g →
    l.cache.lookup k' = some g' → g.number = g'.number → k = k'

/-- A handle that was given for bytes with this hash under this name is one that is kept exactly if nothing
was cleared since, and then the one that is kept for the hash under the name. -/
structure Remembers (h : Handle) (hash : UInt64) (name : String) (cleared : Prop) (l : Loader) : Prop where
  issued : h.number < l.issued
  kept (k : UInt64) (g : Handle) : l.cache.lookup k = some g →
    (g.number = h.number ↔ ¬ cleared ∧ k = hash ∧ g.compiled.name = name)
  same (k : UInt64) (g : Handle) : l.cache.lookup k = some g → g.number = h.number → g = h
  present : ¬ cleared → (l.cache.lookup hash).isSome

theorem kept?_of_keeps (hl : l.settings.cacheModules = true) (k : UInt64) :
    l.kept? k = l.cache.lookup k := by
  simp [kept?, hl]

theorem lookup_issue (hl : l.settings.cacheModules = true) (c : Compiled) (k : UInt64) :
    (l.issue c).2.cache.lookup k = if k = c.hash then some ⟨l.issued, c⟩ else l.cache.lookup k := by
  have hkept := kept?_issue (l := l) c k
  rw [kept?_of_keeps (by simpa using hl), kept?_of_keeps hl] at hkept
  simpa [hl] using hkept

theorem cache_issue (hl : l.settings.cacheModules = true) (c : Compiled) :
    (l.issue c).2.cache = (c.hash, ⟨l.issued, c⟩) :: l.cache := by
  simp [issue, hl]

theorem issued_issue (c : Compiled) : (l.issue c).2.issued = l.issued + 1 := by
  unfold issue
  dsimp only
  split <;> rfl

namespace Records

theorem of_clear (hl : l.settings.cacheModules = true) : Records [] l.clearCache where
  keeps := hl
  names k := by simp [clearCache, firstName?]
  distinct := .nil
  hashes k := by simp [clearCache]
  issued k g hg := by simp [clearCache] at hg
  numbers k k' g g' hg := by simp [clearCache] at hg

/-- Bytes whose hash is known add nothing to what is recorded. -/
theorem again (hl : Records past l) (hh : l.cache.lookup hash = some h) (name : String) :
    Records (past ++ [⟨name, hash⟩]) l where
  keeps := hl.keeps
  names k := by
    rw [firstName?_snoc, hl.names]
    by_cases hk : hash = k
    · subst hk
      rw [← hl.names, hh]
      rfl
    · simp [hk]
  distinct := hl.distinct
  hashes k := by
    have hold : hash ∈ past.map Compilation.hash := by
      rw [← isSome_firstName?_iff, ← hl.names, hh]
      rfl
    rw [hl.hashes, List.map_append, List.mem_append, List.map_singleton, List.mem_singleton]
    exact ⟨.inl, fun hk => hk.elim id fun heq => heq ▸ hold⟩
  issued := hl.issued
  numbers := hl.numbers

theorem more_issued (hl : Records past l) : Records past { l with issued := l.issued + 1 } where
  keeps := hl.keeps
  names := hl.names
  distinct := hl.distinct
  hashes := hl.hashes
  issued k g hg := Nat.lt_succ_of_lt (hl.issued k g hg)
  numbers := hl.numbers

theorem issue (hl : Records past l) (hnew : l.cache.lookup hash = none) (name : String)
    (module : Wasm.Module) :
    Records (past ++ [⟨name, hash⟩]) (l.issue ⟨name, module, hash⟩).2 := by
  have hfirst : firstName? past hash = none := by rw [← hl.names, hnew]; rfl
  have hlookup := lookup_issue hl.keeps ⟨name, module, hash⟩
  refine ⟨by simpa using hl.keeps, fun k => ?_, ?_, fun k => ?_, fun k g hg => ?_,
    fun k k' g g' hg hg' hnumber => ?_⟩
  · rw [hlookup, firstName?_snoc, ← hl.names]
    by_cases hk : k = hash
    · simp [hk, hnew]
    · simp [hk, Ne.symm hk]
  · rw [cache_issue hl.keeps, List.map_cons, List.nodup_cons]
    refine ⟨fun hmem => ?_, hl.distinct⟩
    rw [hl.hashes, ← isSome_firstName?_iff, hfirst] at hmem
    cases hmem
  · rw [cache_issue hl.keeps, List.map_cons, List.mem_cons, hl.hashes]
    simp [or_comm]
  · rw [issued_issue]
    rw [hlookup] at hg
    split at hg
    · cases hg
      exact Nat.lt_succ_self _
    · exact Nat.lt_succ_of_lt (hl.issued k g hg)
  · rw [hlookup] at hg hg'
    split at hg <;> split at hg'
    · next hk hk' => exact hk.trans hk'.symm
    · cases hg
      exact absurd hnumber (Nat.ne_of_gt (hl.issued k' g' hg'))
    · cases hg'
      exact absurd hnumber (Nat.ne_of_lt (hl.issued k g hg))
    · exact hl.numbers k k' g g' hg hg' hnumber

/-- Compiling records what it compiled. -/
theorem compile (hl : Records past l) (name : String) (bytes : List UInt8) :
    Records (past ++ ((l.compile name bytes).1.outcome.toOption.map fun _ =>
      (⟨name, l.hash bytes⟩ : Compilation)).toList) (l.compile name bytes).2 := by
  obtain ⟨h, hk, -, ho, hl'⟩ | ⟨h, hk, -, ho, hl'⟩ | ⟨-, -, ho, hl'⟩ | ⟨module, hk, -, ho, hl'⟩ :=
    compile_cases l name bytes
  all_goals rw [ho, hl']
  · exact hl.again (kept?_of_keeps hl.keeps _ ▸ hk) name
  · exact (hl.again (kept?_of_keeps hl.keeps _ ▸ hk) name).more_issued
  · simpa [Except.toOption] using hl
  · exact hl.issue (kept?_of_keeps hl.keeps _ ▸ hk) name module

theorem cacheSize_eq (hl : Records past l) :
    l.cacheSize = (past.map Compilation.hash).dedup.length := by
  have hperm : (l.cache.map Prod.fst).Perm (past.map Compilation.hash).dedup :=
    (List.perm_ext_iff_of_nodup hl.distinct (List.nodup_dedup _)).2 fun k => by
      rw [hl.hashes, List.mem_dedup]
  simpa [cacheSize] using hperm.length_eq

/-- A handle is remembered from when it is given. -/
theorem remembers_of_compile (hl : Records past l) (hgiven : (l.compile name bytes).1.outcome = .ok h) :
    Remembers h (l.hash bytes) name False (l.compile name bytes).2 := by
  obtain ⟨h₀, hk, hn, ho, hl'⟩ | ⟨h₀, hk, hn, ho, hl'⟩ | ⟨hk, -, ho, hl'⟩ | ⟨module, hk, -, ho, hl'⟩ :=
    compile_cases l name bytes
  all_goals
    rw [kept?_of_keeps hl.keeps] at hk
    rw [hl']
    cases ho.symm.trans hgiven
  · refine ⟨hl.issued _ _ hk, fun k g hg => ?_, fun k g hg hnumber => ?_, fun _ => by simp [hk]⟩
    · constructor
      · intro hnumber
        cases hl.numbers _ _ _ _ hg hk hnumber
        cases hg.symm.trans hk
        exact ⟨id, rfl, hn⟩
      · rintro ⟨-, rfl, -⟩
        cases hg.symm.trans hk
        rfl
    · cases hl.numbers _ _ _ _ hg hk hnumber
      exact Option.some.inj (hg.symm.trans hk)
  · refine ⟨Nat.lt_succ_self _, fun k g hg => ?_, fun k g hg hnumber => ?_, fun _ => by simp [hk]⟩
    · refine iff_of_false (Nat.ne_of_lt (hl.issued k g hg)) ?_
      rintro ⟨-, rfl, hname⟩
      cases hg.symm.trans hk
      exact hn hname
    · exact absurd hnumber (Nat.ne_of_lt (hl.issued k g hg))
  · have hlookup := lookup_issue hl.keeps ⟨name, module, l.hash bytes⟩
    refine ⟨by simp [issued_issue], fun k g hg => ?_, fun k g hg hnumber => ?_,
      fun _ => by simp [hlookup]⟩
    all_goals
      rw [hlookup] at hg
      split at hg
    · next hk =>
      cases hg
      simp [hk]
    · next hne =>
      exact iff_of_false (Nat.ne_of_lt (hl.issued k g hg)) fun ⟨_, heq, _⟩ => hne heq
    · cases hg
      rfl
    · exact absurd hnumber (Nat.ne_of_lt (hl.issued k g hg))

end Records

namespace Remembers

theorem clear (h : Remembers h' hash name cleared l) : Remembers h' hash name True l.clearCache :=
  ⟨h.issued, fun k g hg => by simp [clearCache] at hg, fun k g hg => by simp [clearCache] at hg,
    fun hnot => absurd trivial hnot⟩

/-- What is compiled later gets a handle that is remembered already, or a new one. -/
theorem compile (hr : Remembers h hash name cleared l) (hl : l.settings.cacheModules = true)
    (name' : String) (bytes : List UInt8) :
    Remembers h hash name cleared (l.compile name' bytes).2 := by
  obtain ⟨_, -, -, -, hl'⟩ | ⟨_, -, -, -, hl'⟩ | ⟨-, -, -, hl'⟩ | ⟨module, hk, -, -, hl'⟩ :=
    compile_cases l name' bytes
  all_goals rw [hl']
  · exact hr
  · exact ⟨Nat.lt_succ_of_lt hr.issued, hr.kept, hr.same, hr.present⟩
  · exact hr
  · rw [kept?_of_keeps hl] at hk
    have hlookup := lookup_issue hl ⟨name', module, l.hash bytes⟩
    -- The new entry is not for the remembered hash, unless the loader was cleared.
    have hother (hnot : ¬ cleared) : hash ≠ l.hash bytes := by
      rintro rfl
      simpa [hk] using hr.present hnot
    refine ⟨by rw [issued_issue]; exact Nat.lt_succ_of_lt hr.issued, fun k g hg => ?_,
      fun k g hg hnumber => ?_, fun hnot => ?_⟩
    · rw [hlookup] at hg
      split at hg
      · next heq =>
        cases hg
        exact iff_of_false (Nat.ne_of_gt hr.issued) fun ⟨hnot, hk', _⟩ =>
          hother hnot (hk'.symm.trans heq)
      · exact hr.kept k g hg
    · rw [hlookup] at hg
      split at hg
      · cases hg
        exact absurd hnumber (Nat.ne_of_gt hr.issued)
      · exact hr.same k g hg hnumber
    · rw [hlookup, if_neg (hother hnot)]
      exact hr.present hnot

/-- When a remembered handle is given again. -/
theorem number_eq_iff (hr : Remembers h hash name cleared l) (hl : Records past l)
    (hgiven : (l.compile name' bytes').1.outcome = .ok h') :
    (h.number = h'.number ↔ ¬ cleared ∧ hash = l.hash bytes' ∧
      firstName? (past ++ [⟨name', l.hash bytes'⟩]) hash = some name ∧
      firstName? (past ++ [⟨name', l.hash bytes'⟩]) hash = some name') ∧
    (h.number = h'.number → h = h') := by
  rw [firstName?_snoc, ← hl.names]
  obtain ⟨h₀, hk, hn, ho, -⟩ | ⟨h₀, hk, hn, ho, -⟩ | ⟨hk, -, ho, -⟩ | ⟨module, hk, -, ho, -⟩ :=
    compile_cases l name' bytes'
  all_goals
    rw [kept?_of_keeps hl.keeps] at hk
    cases ho.symm.trans hgiven
  · subst hn
    refine ⟨⟨fun hnumber => ?_, ?_⟩, fun hnumber => (hr.same _ _ hk hnumber.symm).symm⟩
    · obtain ⟨hnot, rfl, rfl⟩ := (hr.kept _ _ hk).1 hnumber.symm
      simp [hnot, hk]
    · rintro ⟨hnot, rfl, hname, -⟩
      refine ((hr.kept _ _ hk).2 ⟨hnot, rfl, ?_⟩).symm
      simpa [hk] using hname
  · refine ⟨iff_of_false (Nat.ne_of_lt hr.issued) ?_, fun hnumber => absurd hnumber (Nat.ne_of_lt hr.issued)⟩
    rintro ⟨-, rfl, -, hname⟩
    exact hn (by simpa [hk] using hname)
  · refine ⟨iff_of_false (Nat.ne_of_lt hr.issued) ?_, fun hnumber => absurd hnumber (Nat.ne_of_lt hr.issued)⟩
    rintro ⟨hnot, rfl, -⟩
    simpa [hk] using hr.present hnot

end Remembers

/-- What is kept stays as it is until the loader is cleared. -/
theorem lookup_compile (hl : l.settings.cacheModules = true) (name : String) (bytes : List UInt8)
    {k : UInt64} (hk : l.cache.lookup k = some h) :
    (l.compile name bytes).2.cache.lookup k = some h := by
  obtain ⟨_, -, -, -, hl'⟩ | ⟨_, -, -, -, hl'⟩ | ⟨-, -, -, hl'⟩ | ⟨module, hnew, -, -, hl'⟩ :=
    compile_cases l name bytes
  all_goals rw [hl']
  · exact hk
  · exact hk
  · exact hk
  · rw [kept?_of_keeps hl] at hnew
    rw [lookup_issue hl, if_neg, hk]
    rintro rfl
    cases hk.symm.trans hnew

theorem compile_of_error {e : Fault} (h : (l.compile name bytes).1.outcome = .error e) :
    (l.compile name bytes).2 = l := by
  obtain ⟨_, -, -, ho, -⟩ | ⟨_, -, -, ho, -⟩ | ⟨-, -, -, hl'⟩ | ⟨_, -, -, ho, -⟩ :=
    compile_cases l name bytes
  · cases ho.symm.trans h
  · cases ho.symm.trans h
  · exact hl'
  · cases ho.symm.trans h

/-- A loader that keeps nothing gives a new handle each time. -/
theorem number_of_plain (hl : l.settings.cacheModules = false) (hgiven : (l.compile name bytes).1.outcome = .ok h) :
    h.number = l.issued ∧ (l.compile name bytes).2.issued = l.issued + 1 := by
  have hnone : l.kept? (l.hash bytes) = none := by simp [kept?, hl]
  obtain ⟨_, hk, -⟩ | ⟨_, hk, -⟩ | ⟨-, -, ho, -⟩ | ⟨_, -, -, ho, hl'⟩ := compile_cases l name bytes
  · cases hnone.symm.trans hk
  · cases hnone.symm.trans hk
  · cases ho.symm.trans hgiven
  · cases ho.symm.trans hgiven
    exact ⟨rfl, by rw [hl', issued_issue]⟩

theorem issued_le_compile (l : Loader) (name : String) (bytes : List UInt8) :
    l.issued ≤ (l.compile name bytes).2.issued := by
  obtain ⟨_, -, -, -, hl'⟩ | ⟨_, -, -, -, hl'⟩ | ⟨-, -, -, hl'⟩ | ⟨_, -, -, -, hl'⟩ :=
    compile_cases l name bytes <;> simp [hl', issued_issue]

theorem cache_compile_of_plain (hl : l.settings.cacheModules = false) (name : String)
    (bytes : List UInt8) : (l.compile name bytes).2.cache = l.cache := by
  obtain ⟨_, -, -, -, hl'⟩ | ⟨_, -, -, -, hl'⟩ | ⟨-, -, -, hl'⟩ | ⟨_, -, -, -, hl'⟩ :=
    compile_cases l name bytes <;> simp [hl', issue, hl]

end Loader

namespace Session

variable {s : Session} {files : FileTree} {op : Operation} {past : List Compilation} {h : Handle}
  {hash : UInt64} {name : String} {bytes : List UInt8} {cleared : Prop}

/-- The operation gave a handle for these bytes under this name. -/
structure Gives (s : Session) (files : FileTree) (op : Operation) (name : String) (bytes : List UInt8)
    (h : Handle) : Prop where
  source : op.source? files = some (name, bytes)
  outcome : (s.step files op).1.outcome = .ok (.compiled h)

theorem Gives.compile (hg : s.Gives files op name bytes h) (past : List Compilation) :
    (s.loader.compile name bytes).1.outcome = .ok h ∧
      (s.step files op).2.loader = (s.loader.compile name bytes).2 ∧
      s.recordNext past files op = past ++ [⟨name, s.loader.hash bytes⟩] := by
  have hcompiled := outcome_compile_of_step s hg.source hg.outcome
  obtain ⟨rfl, -⟩ | ⟨-, hnone, -⟩ | ⟨name', bytes', -, hsource, hloader, hnext⟩ :=
    loader_cases s files op past
  · cases hg.source
  · cases hnone.symm.trans hg.source
  · cases hsource.symm.trans hg.source
    refine ⟨hcompiled, hloader, ?_⟩
    rw [hnext, hcompiled]
    rfl

theorem compiledSince_append (s : Session) (past : List Compilation) (before later : Timeline) :
    s.compiledSince past (before ++ later) =
      (s.afterAll before).compiledSince (s.compiledSince past before) later := by
  induction before generalizing s past with
  | nil => rfl
  | cons did before ih => exact ih _ _

theorem loader_afterAll (s : Session) (past : Timeline) :
    (s.afterAll past).loader.settings = s.loader.settings ∧
      (s.afterAll past).loader.hash = s.loader.hash := by
  induction past generalizing s with
  | nil => exact ⟨rfl, rfl⟩
  | cons did past ih =>
    obtain ⟨hsettings, hhash⟩ := ih (s.step did.1 did.2).2
    obtain ⟨hsettings', hhash'⟩ := loader_step s did.1 did.2
    exact ⟨hsettings.trans hsettings', hhash.trans hhash'⟩

theorem records_step (hs : s.loader.Records past) (files : FileTree) (op : Operation) :
    (s.step files op).2.loader.Records (s.recordNext past files op) := by
  obtain ⟨-, hloader, hnext⟩ | ⟨-, -, hloader, hnext⟩ | ⟨name, bytes, -, -, hloader, hnext⟩ :=
    loader_cases s files op past
  all_goals rw [hloader, hnext]
  · exact .of_clear hs.keeps
  · exact hs
  · exact hs.compile name bytes

theorem records_afterAll (hs : s.loader.Records past) (history : Timeline) :
    (s.afterAll history).loader.Records (s.compiledSince past history) := by
  induction history generalizing s past with
  | nil => exact hs
  | cons did history ih => exact ih (records_step hs did.1 did.2)

theorem remembers_step (hr : s.loader.Remembers h hash name cleared)
    (hs : s.loader.settings.cacheModules = true) (files : FileTree) (op : Operation) :
    (s.step files op).2.loader.Remembers h hash name (cleared ∨ op = .clearCache) := by
  obtain ⟨rfl, hloader, -⟩ | ⟨hne, -, hloader, -⟩ | ⟨name', bytes, hne, -, hloader, -⟩ :=
    loader_cases s files op []
  all_goals rw [hloader]
  · simpa using hr.clear
  · simpa [hne] using hr
  · simpa [hne] using hr.compile hs name' bytes

theorem remembers_afterAll (hr : s.loader.Remembers h hash name cleared)
    (hs : s.loader.settings.cacheModules = true) (between : Timeline) :
    (s.afterAll between).loader.Remembers h hash name
      (cleared ∨ .clearCache ∈ between.map Prod.snd) := by
  induction between generalizing s cleared with
  | nil => simpa [afterAll] using hr
  | cons did between ih =>
    have hnext := ih (remembers_step hr hs did.1 did.2) (by rwa [(loader_step s did.1 did.2).1])
    simpa [afterAll, or_assoc, eq_comm] using hnext

/-- What is kept after some operations, and what one more does to it. -/
structure Upkeep (s : Session) (past : List Compilation) (files : FileTree) (op : Operation) : Prop where
  /-- One module is kept for each hash that was compiled since the last clearing. -/
  size : s.loader.cacheSize = (past.map Compilation.hash).dedup.length
  /-- An operation that fails changes nothing, unless it is a load that got as far as to compile. -/
  failed (err : LoadError) : (s.step files op).1.outcome = .error err →
    (s.step files op).2.loader.cache = s.loader.cache ∨
      ∃ name bytes t, op = .load name bytes t ∧
        (s.loader.compile name bytes).1.outcome.isOk = true
  /-- A load does what compiling its bytes does, whatever comes of the instance. -/
  loaded (name : String) (bytes : List UInt8) (t : ImportTable) :
    (s.step files (.load name bytes t)).2.loader = (s.step files (.compile name bytes)).2.loader
  /-- What is kept is replaced by nothing else. -/
  kept (k : UInt64) (g : Handle) : op ≠ .clearCache → s.loader.cache.lookup k = some g →
    (s.step files op).2.loader.cache.lookup k = some g

theorem cache_of_failed {err : LoadError} (hfailed : (s.step files op).1.outcome = .error err) :
    (s.step files op).2.loader.cache = s.loader.cache ∨ ∃ name bytes t, op = .load name bytes t ∧
      (s.loader.compile name bytes).1.outcome.isOk = true := by
  obtain ⟨rfl, -⟩ | ⟨-, -, hloader, -⟩ | ⟨name, bytes, -, hsource, hloader, -⟩ :=
    loader_cases s files op []
  · cases hfailed
  · exact .inl (by rw [hloader])
  · cases hcompiled : (s.loader.compile name bytes).1.outcome with
    | error e => exact .inl (by rw [hloader, Loader.compile_of_error hcompiled])
    | ok g =>
      have hkeep (attempt : Account Fault Handle × Loader) (hattempt : attempt.1.outcome = .ok g) :
          (s.keepCompiled attempt).1.outcome = .ok (.compiled g) := by
        simp [keepCompiled, hattempt, Except.map, Except.mapError]
      cases op with
      | load name' bytes' t =>
        cases hsource
        exact .inr ⟨_, _, t, rfl, by rw [hcompiled]; rfl⟩
      | compile name' bytes' =>
        cases hsource
        cases (hkeep _ hcompiled).symm.trans hfailed
      | compileFile path =>
        cases hread : files.read path with
        | error e => simp [Operation.source?, hread] at hsource
        | ok bytes' =>
          simp only [Operation.source?, hread, Option.some.injEq, Prod.mk.injEq] at hsource
          obtain ⟨rfl, rfl⟩ := hsource
          have hgiven := hkeep (s.loader.compileFile files path)
            (by simpa [Loader.compileFile, hread] using hcompiled)
          cases hgiven.symm.trans hfailed
      | _ => cases hsource

theorem upkeep (hs : s.loader.Records past) (files : FileTree) (op : Operation) :
    s.Upkeep past files op where
  size := hs.cacheSize_eq
  failed err := cache_of_failed
  loaded name bytes t := rfl
  kept k g hne hg := by
    obtain ⟨rfl, -⟩ | ⟨-, -, hloader, -⟩ | ⟨name, bytes, -, -, hloader, -⟩ :=
      loader_cases s files op past
    · exact absurd rfl hne
    · rwa [hloader]
    · rw [hloader]
      exact Loader.lookup_compile hs.keeps name bytes hg

/-- When two handles of a loader that keeps modules are the same. -/
theorem number_eq_iff_of_gives (hs : s.loader.Records past) (between : Timeline) {files' : FileTree}
    {op' : Operation} {name' : String} {bytes' : List UInt8} {h' : Handle}
    (hgiven : s.Gives files op name bytes h)
    (hgiven' : ((s.step files op).2.afterAll between).Gives files' op' name' bytes' h') :
    let all := s.compiledSince past ((files, op) :: between ++ [(files', op')])
    (h.number = h'.number ↔ .clearCache ∉ between.map Prod.snd ∧
      s.loader.hash bytes = s.loader.hash bytes' ∧
      firstName? all (s.loader.hash bytes) = some name ∧
      firstName? all (s.loader.hash bytes) = some name') ∧
    (h.number = h'.number → h = h') := by
  intro all
  have hs₁ := records_step hs files op
  obtain ⟨hcompiled, hloader, -⟩ := hgiven.compile past
  have hremembers := remembers_afterAll (hloader ▸ hs.remembers_of_compile hcompiled) hs₁.keeps
    between
  have hhash : ((s.step files op).2.afterAll between).loader.hash = s.loader.hash :=
    (loader_afterAll _ between).2.trans (loader_step s files op).2
  obtain ⟨hcompiled', -, hrecorded'⟩ := hgiven'.compile
    ((s.step files op).2.compiledSince (s.recordNext past files op) between)
  have hall : all = (s.step files op).2.compiledSince (s.recordNext past files op) between ++
      [⟨name', s.loader.hash bytes'⟩] := by
    rw [← hhash, ← hrecorded']
    simp only [all, compiledSince, compiledSince_append]
    rfl
  have hiff := hremembers.number_eq_iff (records_afterAll hs₁ between) hcompiled'
  rw [hhash] at hiff
  rw [hall]
  simpa using hiff

/-- Nothing is ever kept by a loader that is not to keep modules, and it gives out ever new handles. -/
theorem plain_step (hs : s.loader.settings.cacheModules = false) (hempty : s.loader.cache = [])
    (files : FileTree) (op : Operation) :
    (s.step files op).2.loader.cache = [] ∧ s.loader.issued ≤ (s.step files op).2.loader.issued := by
  obtain ⟨-, hloader, -⟩ | ⟨-, -, hloader, -⟩ | ⟨name, bytes, -, -, hloader, -⟩ :=
    loader_cases s files op []
  all_goals rw [hloader]
  · exact ⟨rfl, Nat.le_refl _⟩
  · exact ⟨hempty, Nat.le_refl _⟩
  · exact ⟨(Loader.cache_compile_of_plain hs name bytes).trans hempty,
      s.loader.issued_le_compile name bytes⟩

theorem plain_afterAll (hs : s.loader.settings.cacheModules = false)
    (hempty : s.loader.cache = []) (history : Timeline) :
    (s.afterAll history).loader.cache = [] ∧
      s.loader.issued ≤ (s.afterAll history).loader.issued := by
  induction history generalizing s with
  | nil => exact ⟨hempty, Nat.le_refl _⟩
  | cons did history ih =>
    obtain ⟨hempty', hissued⟩ := plain_step hs hempty did.1 did.2
    obtain ⟨hlast, hissued'⟩ := ih (by rwa [(loader_step s did.1 did.2).1]) hempty'
    exact ⟨hlast, Nat.le_trans hissued hissued'⟩

theorem number_ne_of_gives (hs : s.loader.settings.cacheModules = false) (hempty : s.loader.cache = [])
    (between : Timeline) {files' : FileTree} {op' : Operation} {name' : String} {bytes' : List UInt8}
    {h' : Handle} (hgiven : s.Gives files op name bytes h)
    (hgiven' : ((s.step files op).2.afterAll between).Gives files' op' name' bytes' h') :
    h.number ≠ h'.number := by
  have hs₁ : (s.step files op).2.loader.settings.cacheModules = false := by
    rwa [(loader_step s files op).1]
  have hs' : ((s.step files op).2.afterAll between).loader.settings.cacheModules = false := by
    rwa [(loader_afterAll _ between).1]
  obtain ⟨hcompiled, hloader, -⟩ := hgiven.compile []
  obtain ⟨hcompiled', -, -⟩ := hgiven'.compile []
  obtain ⟨hnumber, hissued⟩ := Loader.number_of_plain hs hcompiled
  obtain ⟨hnumber', -⟩ := Loader.number_of_plain hs' hcompiled'
  obtain ⟨-, hlater⟩ := plain_afterAll hs₁ (plain_step hs hempty files op).1 between
  rw [hloader, hissued] at hlater
  omega

/-- A loader that keeps modules has one for each hash that was compiled since it was last cleared. It keeps
the first until then; what fails before it has compiled changes nothing, and a load that fails later keeps
what it compiled. Two handles are the same exactly if nothing was cleared between them and both were given
for the same hash under the name that was first for it; and one that keeps none never gives a handle
twice. -/
theorem handles_of_kept_modules (settings : Loader.Settings) (hash : List UInt8 → UInt64) :
    let keeping : Session := { loader := { settings := { settings with cacheModules := true }, hash } }
    let plain : Session := { loader := { settings := { settings with cacheModules := false }, hash } }
    (∀ (past : Timeline) files op,
      (keeping.afterAll past).Upkeep (keeping.compiledSince [] past) files op) ∧
    (∀ (before between : Timeline) files op files' op' name bytes h name' bytes' h',
      let s := keeping.afterAll before
      let s' := (s.step files op).2.afterAll between
      s.Gives files op name bytes h → s'.Gives files' op' name' bytes' h' →
        let past := keeping.compiledSince [] (before ++ (files, op) :: between ++ [(files', op')])
        (h.number = h'.number ↔ .clearCache ∉ between.map Prod.snd ∧ hash bytes = hash bytes' ∧
          firstName? past (hash bytes) = some name ∧ firstName? past (hash bytes) = some name') ∧
        (h.number = h'.number → h = h')) ∧
    (∀ past, (plain.afterAll past).loader.cacheSize = 0) ∧
    (∀ (before between : Timeline) files op files' op' name bytes h name' bytes' h',
      let s := plain.afterAll before
      let s' := (s.step files op).2.afterAll between
      s.Gives files op name bytes h → s'.Gives files' op' name' bytes' h' →
        h.number ≠ h'.number) := by
  intro keeping plain
  have hfresh : keeping.loader.Records [] := Loader.Records.of_clear (l := keeping.loader) rfl
  refine ⟨fun past files op => upkeep (records_afterAll hfresh past) files op, ?_, fun past => ?_, ?_⟩
  · intro before between files op files' op' name bytes h name' bytes' h' s s' hgiven hgiven' past
    have hhash : s.loader.hash = hash := (loader_afterAll keeping before).2
    have hiff := number_eq_iff_of_gives (records_afterAll hfresh before) between hgiven hgiven'
    rw [hhash] at hiff
    have hpast : past = s.compiledSince (keeping.compiledSince [] before)
        ((files, op) :: between ++ [(files', op')]) := by
      rw [← compiledSince_append, ← List.append_assoc]
    rwa [hpast]
  · have hempty := (plain_afterAll (s := plain) rfl rfl past).1
    simp [Loader.cacheSize, hempty]
  · intro before between files op files' op' name bytes h name' bytes' h' s s' hgiven hgiven'
    have hs : s.loader.settings.cacheModules = false := by
      rw [(loader_afterAll plain before).1]
    exact number_ne_of_gives hs (plain_afterAll (s := plain) rfl rfl before).1 between hgiven hgiven'

/-- A module that imports a memory. -/
def memoryGuestBytes : List UInt8 :=
  Wasm.Binary.preamble ++ [2, 8, 1, 1, 97, 1, 98, 2, 0, 1]

/-- Loading it with nothing to import fails, and it is kept all the same. -/
theorem failed_load_is_kept :
    let s : Session := { loader := {} }
    let (loaded, s') := s.step {} (.load "guest" memoryGuestBytes .empty)
    loaded.outcome.isOk = false ∧ s.loader.cacheSize = 0 ∧ s'.loader.cacheSize = 1 := by
  decide +kernel

/-- The empty module, compiled under the name it had first, and in between under another one. -/
theorem handles_of_kept_modules_renamed :
    let s : Session := { loader := {} }
    let op : Operation := .compile "a" Wasm.Binary.preamble
    let between : Timeline := [({}, .compile "b" Wasm.Binary.preamble)]
    let s' := (s.step {} op).2.afterAll between
    ∃ h h', s.Gives {} op "a" Wasm.Binary.preamble h ∧ s'.Gives {} op "a" Wasm.Binary.preamble h' ∧
      h.number = h'.number := by
  intro s op between s'
  have hruns : ((s.step {} op).1.outcome.isOk && (s'.step {} op).1.outcome.isOk) = true := by
    decide +kernel
  have hgives (s : Session) (hok : (s.step {} op).1.outcome.isOk = true) :
      ∃ h, s.Gives {} op "a" Wasm.Binary.preamble h := by
    simp only [step, op, keepCompiled, Account.outcome_map, Account.outcome_mapError] at hok
    cases hc : (s.loader.compile "a" Wasm.Binary.preamble).1.outcome with
    | error e => simp [hc, Except.map, Except.mapError, Except.isOk, Except.toBool] at hok
    | ok h => exact ⟨h, rfl, by simp [step, op, keepCompiled, hc, Except.map, Except.mapError]⟩
  obtain ⟨hok, hok'⟩ := Bool.and_eq_true_iff.1 hruns
  obtain ⟨h, hgiven⟩ := hgives s hok
  obtain ⟨h', hgiven'⟩ := hgives s' hok'
  have hsame := (handles_of_kept_modules {} contentHash).2.1 [] between {} op {} op "a" _ h "a" _ h'
    hgiven hgiven'
  refine ⟨h, h', hgiven, hgiven', hsame.1.2 ⟨by simp [between], rfl, ?_⟩⟩
  decide +kernel

end Session
end GuestHarness
