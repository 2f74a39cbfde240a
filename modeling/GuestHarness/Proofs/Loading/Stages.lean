import GuestHarness.Proofs.Fault.Provenance
import GuestHarness.Proofs.Session.Transparency

/-! Loading fails stage by stage: for bytes that are no valid module, for imports that the table does not
satisfy, for a memory of the table that is too large, and last for the guest's own reasons. This holds of
a loader with any history, as long as nothing else it compiled has the hash of the bytes. -/
namespace GuestHarness
open Wasm (ImportCall)

/-- The log takes nothing from what goes to sinks. -/
theorem Account.emissionsTo_unlogged {ε α : Type} (a : Account ε α) (sink : Sink) :
    emissionsTo sink a.unlogged.noticed = emissionsTo sink a.noticed := by
  unfold emissionsTo unlogged
  rw [List.filterMap_filter]
  congr 1
  funext o
  cases o <;> rfl

namespace Loader

/-- Whatever is kept was compiled from bytes with its hash, and these are among the known ones. -/
def KeepsCompiled (known : List UInt8 → Prop) (l : Loader) : Prop :=
  ∀ k h, l.kept? k = some h → ∃ b, known b ∧ l.hash b = k ∧
    Wasm.Module.compile? b = some h.compiled.module ∧ h.compiled.hash = k

variable {l : Loader} {known : List UInt8 → Prop}

theorem KeepsCompiled.mono {known' : List UInt8 → Prop} (h : l.KeepsCompiled known)
    (hsub : ∀ b, known b → known' b) : l.KeepsCompiled known' := by
  intro k c hk
  obtain ⟨b, hb, hrest⟩ := h k c hk
  exact ⟨b, hsub b hb, hrest⟩

theorem KeepsCompiled.compile (h : l.KeepsCompiled known) {bytes : List UInt8} (hb : known bytes)
    (name : String) : (l.compile name bytes).2.KeepsCompiled known := by
  obtain ⟨_, _, _, _, hl⟩ | ⟨_, _, _, _, hl⟩ | ⟨_, _, _, hl⟩ | ⟨module, _, hm, _, hl⟩ :=
    compile_cases l name bytes
  · rwa [hl]
  · rw [hl]
    exact h
  · rwa [hl]
  · rw [hl]
    intro k c hk
    rw [kept?_issue] at hk
    rw [hash_issue]
    split at hk
    · next hc =>
      cases hk
      exact ⟨bytes, hb, hc.2.symm, hm, hc.2.symm⟩
    · exact h k c hk

/-- What is kept for bytes is what they compile to, if no other known bytes have their hash. -/
theorem KeepsCompiled.faithful (h : l.KeepsCompiled known) {bytes : List UInt8}
    (distinct : ∀ b, known b → l.hash b = l.hash bytes → b = bytes) : l.Faithful (· = bytes) := by
  rintro b rfl c hc
  obtain ⟨b', hb', hhash, hm, hch⟩ := h _ c hc
  cases distinct b' hb' hhash
  exact ⟨hm, hch⟩

end Loader

namespace Session

/-- The session after some operations. -/
def after (files : FileTree) (s : Session) : List Operation → Session
  | [] => s
  | op :: ops => after files (s.step files op).2 ops

variable {s : Session} {files : FileTree} {known : List UInt8 → Prop}

theorem keepsCompiled_step (h : s.loader.KeepsCompiled known) (op : Operation)
    (hop : ∀ src ∈ op.source? files, known src.2) :
    (s.step files op).2.loader.KeepsCompiled known := by
  cases op with
  | compile name bytes => exact h.compile (hop (name, bytes) rfl) name
  | compileFile path =>
    cases hf : files.read path with
    | error e => simpa [step, keepCompiled, Loader.compileFile, hf] using h
    | ok bytes =>
      have hb : known bytes :=
        hop ((Path.fileName? path).getD Loader.anonymous, bytes) (by simp [Operation.source?, hf])
      simpa [step, keepCompiled, Loader.compileFile, hf] using h.compile hb _
  | load name bytes table => exact h.compile (hop (name, bytes) rfl) name
  | instantiate place table =>
    cases hp : s.compiled[place]? <;> simpa [step, keepInstance, hp] using h
  | request place r => cases hp : s.instances[place]? <;> simpa [step, hp] using h
  | validate bytes => exact h
  | clearCache =>
    intro k c hk
    have hnone : s.loader.clearCache.kept? k = none := by
      unfold Loader.kept?
      split <;> rfl
    cases hnone.symm.trans hk

/-- After any operations, the loader has the settings and the hash it began with, and keeps nothing that
was not compiled from bytes of one of the operations. -/
theorem loader_after (h : s.loader.KeepsCompiled known) (ops : List Operation)
    (hops : ∀ b ∈ compiledBytes files ops, known b) :
    (s.after files ops).loader.settings = s.loader.settings ∧
      (s.after files ops).loader.hash = s.loader.hash ∧
      (s.after files ops).loader.KeepsCompiled known := by
  induction ops generalizing s with
  | nil => exact ⟨rfl, rfl, h⟩
  | cons op ops ih =>
    obtain ⟨hop, hops⟩ := forall_mem_compiledBytes_cons.1 hops
    obtain ⟨hsettings, hhash⟩ := loader_step s files op
    have hrest := ih (keepsCompiled_step h op hop) hops
    rw [hsettings, hhash] at hrest
    exact hrest

end Session

namespace Loader

variable {l : Loader} {c : Compiled} {t : ImportTable} {name : String} {bytes : List UInt8}
  {m : Wasm.Module}

/-- Nothing of a module but its imports and its types bears on the check. -/
theorem check_congr {m m' : Wasm.Module} (himports : m'.imports = m.imports)
    (htypes : m'.types = m.types) (t : ImportTable) (name : String) :
    t.check m' name = t.check m name := by
  have htype (i : Wasm.Import) : m'.importType? i = m.importType? i := by
    unfold Wasm.Module.importType?
    rw [htypes]
  have himport (module name : String) : m'.hasImport module name = m.hasImport module name := by
    unfold Wasm.Module.hasImport
    rw [himports]
  have hobjection (i : Wasm.Import) : t.objection? m' i = t.objection? m i := by
    simp only [ImportTable.objection?, htype, himport]
  simp only [ImportTable.check, ImportTable.firstObjection?, himports, hobjection]

/-- A module that does not start is refused before anything is looked at but its imports and types. -/
theorem instantiate_congr_of_not_starts {hash : UInt64} (h : l.starts ⟨name, m, hash⟩ t = false)
    {m' : Wasm.Module} (himports : m'.imports = m.imports) (htypes : m'.types = m.types) :
    l.instantiate ⟨name, m', hash⟩ t = l.instantiate ⟨name, m, hash⟩ t := by
  rw [instantiate_eq, instantiate_eq, check_congr himports htypes t name]
  obtain ⟨cause, hcheck, -⟩ | ⟨err, hcheck, hlink, -⟩ | ⟨-, -, hstarts⟩ :=
    instantiate_cases l ⟨name, m, hash⟩ t
  · rw [hcheck]
    rfl
  · rw [hcheck]
    simp only [Account.andThen_of_error hlink]
  · rw [h] at hstarts
    cases hstarts

/-- What is seen of loading, when nothing that is kept misleads it: the bytes are no valid module, or
what making an instance of their module shows. -/
theorem load_of_faithful (hl : l.Faithful (· = bytes)) (name : String) (t : ImportTable) :
    (Wasm.Module.compile? bytes = none ∧
        (l.load name bytes t).1.outcome = .error (.fault (.validation name engineText)) ∧
        ∀ sink, emissionsTo sink (l.load name bytes t).1.noticed = []) ∨
      ∃ m, Wasm.Module.compile? bytes = some m ∧
        (l.load name bytes t).1.outcome = (l.instantiate ⟨name, m, l.hash bytes⟩ t).outcome ∧
        ∀ sink, emissionsTo sink (l.load name bytes t).1.noticed =
          emissionsTo sink (l.instantiate ⟨name, m, l.hash bytes⟩ t).noticed := by
  have hload := load_eq_anew hl rfl name t
  cases hm : Wasm.Module.compile? bytes with
  | none =>
    rw [anew, hm] at hload
    have hsame : (l.load name bytes t).1.unlogged = .fail (.fault (.validation name engineText)) :=
      hload
    refine .inl ⟨rfl, by simpa [Account.unlogged] using congrArg Account.outcome hsame,
      fun sink => ?_⟩
    rw [← Account.emissionsTo_unlogged, hsame]
    rfl
  | some m =>
    rw [anew, hm] at hload
    have hsame : (l.load name bytes t).1.unlogged =
        (l.instantiate ⟨name, m, l.hash bytes⟩ t).unlogged := hload.trans (by
      rw [Account.andThen_of_ok (Account.mapError_of_ok rfl _)]; rfl)
    refine .inr ⟨m, rfl, by simpa [Account.unlogged] using congrArg Account.outcome hsame,
      fun sink => ?_⟩
    rw [← Account.emissionsTo_unlogged, hsame, Account.emissionsTo_unlogged]

end Loader

/-- The stages of loading. Each is reached only by what all stages before it let through. -/
structure Loader.Stages (l : Loader) (name : String) (bytes : List UInt8) (t : ImportTable)
    (loaded : Account LoadError Instance) : Prop where
  /-- Bytes that are no valid module are refused. -/
  validation : loaded.outcome = .error (.fault (.validation name engineText)) ↔
    Wasm.Module.compile? bytes = none
  /-- Then the check may reject the module, and says why. -/
  link {m : Wasm.Module} (module : Wasm.Module.compile? bytes = some m) :
    ((∃ cause, loaded.outcome = .error (.fault (.link name cause))) ↔ t.check m name ≠ .ok ()) ∧
      ∀ e, t.check m name = .error e → loaded.outcome = .error (.fault e)
  /-- Then the first memory of the table that is too large is to blame, imported or not. -/
  hostFunction {m : Wasm.Module} (module : Wasm.Module.compile? bytes = some m)
    (checked : t.check m name = .ok ()) (host imported cause : String) :
    loaded.outcome = .error (.fault (.hostFunction host imported cause)) ↔
      ∃ e pages, t.tooLarge? l.cap = some e ∧ e.offer = .memory pages ∧ host = e.module ∧
        imported = e.name ∧ cause = pages.tooLargeText
  /-- The rest is up to the guest: there is an instance, or the module cannot be made ready, or a logger
  refused a call of the start function. -/
  guest {m : Wasm.Module} (module : Wasm.Module.compile? bytes = some m)
    (checked : t.check m name = .ok ()) (fits : t.tooLarge? l.cap = none) :
    let c : Compiled := ⟨name, m, l.hash bytes⟩
    (loaded.outcome = .error (.fault (.instantiation name engineText)) ↔
        Wasm.Machine.Unready (l.program c t) m (l.initialStore c t)) ∧
      (∀ e, e.isDescriptorFault = true → (loaded.outcome = .error (.fault e) ↔
        ∃ call ∈ l.callsOfInstantiate c t, call.answer = .error e)) ∧
      ∀ err, loaded.outcome = .error err → err = .fault (.instantiation name engineText) ∨
        ∃ e, err = .fault e ∧ e.isDescriptorFault = true
  /-- Nothing else is reported. -/
  only {err : LoadError} (failed : loaded.outcome = .error err) : ∃ e, err = .fault e ∧
    (e = .validation name engineText ∨ (∃ cause, e = .link name cause) ∨
      (∃ host imported cause, e = .hostFunction host imported cause) ∨
      e = .instantiation name engineText ∨ e.isDescriptorFault = true)

/-- Loading does not reach the guest's own stage. -/
def Loader.StopsEarly (l : Loader) (name : String) (bytes : List UInt8) (t : ImportTable) : Prop :=
  ∀ m, Wasm.Module.compile? bytes = some m → t.check m name ≠ .ok () ∨ t.tooLarge? l.cap ≠ none

namespace Loader

variable {l : Loader} {c : Compiled} {t : ImportTable} {name : String} {bytes : List UInt8}
  {m : Wasm.Module} {loaded : Account LoadError Instance}

/-- Where every memory of a table can be, a module that passes the check starts unless one of them is too
large, and the first of these is then to blame. -/
theorem starts_or_tooLarge (ht : t.KeysDiffer)
    (possible : ∀ e ∈ t.entries, ∀ pages, e.offer = .memory pages → pages.isPossible = true)
    (hcheck : t.check c.module c.name = .ok ()) :
    (t.tooLarge? l.cap = none ∧ l.starts c t = true) ∨
      ∃ e pages, t.tooLarge? l.cap = some e ∧ e.offer = .memory pages ∧ l.starts c t = false ∧
        (l.instantiate c t).outcome =
          .error (.fault (.hostFunction e.module e.name pages.tooLargeText)) := by
  obtain ⟨hrefused, hmade⟩ := ImportTable.link_of_keysDiffer ht l.cap
  cases hrefusal : t.refusal? l.cap with
  | none =>
    obtain ⟨linkage, hlink⟩ := hmade hrefusal
    refine .inl ⟨?_, starts_of_link hcheck hlink⟩
    exact (ImportTable.refusal?_eq_none_iff_of_possible possible).1 hrefusal
  | some err =>
    obtain ⟨e, pages, hlarge, hoffer, rfl⟩ :=
      (ImportTable.refusal?_eq_some_iff_of_possible possible).1 hrefusal
    have hlink := hrefused _ hrefusal
    refine .inr ⟨e, pages, hlarge, hoffer, ?_⟩
    obtain ⟨cause, hcheck', -⟩ | ⟨err, -, hlink', houtcome, hstarts⟩ | ⟨-, ⟨linkage, hlink'⟩, -⟩ :=
      instantiate_cases l c t
    · cases hcheck.symm.trans hcheck'
    · cases hlink.symm.trans hlink'
      exact ⟨hstarts, houtcome⟩
    · cases hlink.symm.trans hlink'

/-- The stages that a module can stop at before its own. -/
theorem stage_cases (ht : t.KeysDiffer)
    (possible : ∀ e ∈ t.entries, ∀ pages, e.offer = .memory pages → pages.isPossible = true)
    (c : Compiled) :
    (∃ cause, t.check c.module c.name = .error (.link c.name cause) ∧
        (l.instantiate c t).outcome = .error (.fault (.link c.name cause)) ∧ l.starts c t = false) ∨
      t.check c.module c.name = .ok () ∧
        ((∃ e pages, t.tooLarge? l.cap = some e ∧ e.offer = .memory pages ∧ l.starts c t = false ∧
            (l.instantiate c t).outcome =
              .error (.fault (.hostFunction e.module e.name pages.tooLargeText))) ∨
          t.tooLarge? l.cap = none ∧ l.starts c t = true) := by
  obtain h | ⟨-, hcheck, -⟩ | ⟨hcheck, -⟩ := instantiate_cases l c t
  · exact .inl h
  all_goals exact .inr ⟨hcheck, (starts_or_tooLarge ht possible hcheck).symm⟩

namespace Stages

theorem of_invalid (hm : Wasm.Module.compile? bytes = none)
    (h : loaded.outcome = .error (.fault (.validation name engineText))) :
    l.Stages name bytes t loaded where
  validation := by simp [h, hm]
  link hsome := by cases hm.symm.trans hsome
  hostFunction hsome := by cases hm.symm.trans hsome
  guest hsome := by cases hm.symm.trans hsome
  only herr := ⟨_, by simpa using (h.symm.trans herr).symm, .inl rfl⟩

theorem of_rejected (hm : Wasm.Module.compile? bytes = some m) {cause : String}
    (hcheck : t.check m name = .error (.link name cause))
    (h : loaded.outcome = .error (.fault (.link name cause))) : l.Stages name bytes t loaded where
  validation := by simp [h, hm]
  link hsome := by
    cases hm.symm.trans hsome
    rw [h, hcheck]
    exact ⟨by simp, fun e he => by cases he; rfl⟩
  hostFunction hsome hok := by
    cases hm.symm.trans hsome
    cases hcheck.symm.trans hok
  guest hsome hok := by
    cases hm.symm.trans hsome
    cases hcheck.symm.trans hok
  only herr := ⟨_, by simpa using (h.symm.trans herr).symm, .inr (.inl ⟨cause, rfl⟩)⟩

theorem of_tooLarge (hm : Wasm.Module.compile? bytes = some m) (hcheck : t.check m name = .ok ())
    {e : ImportEntry} {pages : MemoryPages} (hlarge : t.tooLarge? l.cap = some e)
    (hoffer : e.offer = .memory pages) (h : loaded.outcome =
      .error (.fault (.hostFunction e.module e.name pages.tooLargeText))) :
    l.Stages name bytes t loaded where
  validation := by simp [h, hm]
  link hsome := by
    cases hm.symm.trans hsome
    simp [h, hcheck]
  hostFunction _ _ host imported cause := by
    rw [h, hlarge]
    constructor
    · intro herr
      cases herr
      exact ⟨e, pages, rfl, hoffer, rfl, rfl, rfl⟩
    · rintro ⟨e', pages', he', hoffer', rfl, rfl, rfl⟩
      cases he'
      cases hoffer.symm.trans hoffer'
      rfl
  guest _ _ hfits := by cases hlarge.symm.trans hfits
  only herr := ⟨_, by simpa using (h.symm.trans herr).symm, .inr (.inr (.inl ⟨_, _, _, rfl⟩))⟩

theorem of_starts (hm : Wasm.Module.compile? bytes = some m) (hcheck : t.check m name = .ok ())
    (hfits : t.tooLarge? l.cap = none) (hstarts : l.starts ⟨name, m, l.hash bytes⟩ t = true)
    (h : loaded.outcome = (l.instantiate ⟨name, m, l.hash bytes⟩ t).outcome) :
    l.Stages name bytes t loaded := by
  obtain ⟨functions, hvalid⟩ :=
    Wasm.Typing.exists_valid_of_module (Wasm.Typing.module_of_compile? hm)
  have hfailures := l.startFailures (c := ⟨name, m, l.hash bytes⟩) t hvalid
  obtain ⟨hready, hkinds⟩ := hfailures.instantiation hstarts
  rw [← h] at hready hkinds
  have hother {e : Fault} (herr : loaded.outcome = .error (.fault e)) :
      e = .instantiation name engineText ∨ e.isDescriptorFault = true := by
    obtain herr | ⟨f, herr, hf⟩ := hkinds _ herr <;> cases herr
    · exact .inl rfl
    · exact .inr hf
  refine ⟨iff_of_false (fun herr => ?_) (by simp [hm]), fun hsome => ?_,
    fun _ _ host imported cause => ?_, fun hsome _ _ => ?_, fun herr => ?_⟩
  · rcases hother herr with h | h <;> cases h
  · cases hm.symm.trans hsome
    refine ⟨iff_of_false ?_ (by simp [hcheck]), fun e he => by cases hcheck.symm.trans he⟩
    rintro ⟨cause, herr⟩
    rcases hother herr with h | h <;> cases h
  · rw [hfits]
    refine iff_of_false (fun herr => ?_) (by simp)
    rcases hother herr with h | h <;> cases h
  · cases hm.symm.trans hsome
    exact ⟨hready, fun e he => h ▸ hfailures.descriptor e he, hkinds⟩
  · obtain rfl | ⟨e, rfl, he⟩ := hkinds _ herr
    · exact ⟨_, rfl, .inr (.inr (.inr (.inl rfl)))⟩
    · exact ⟨e, rfl, .inr (.inr (.inr (.inr he)))⟩

end Stages

/-- A faithful loader goes through the stages, with a table all of whose memories can be. -/
theorem Faithful.stages (hl : l.Faithful (· = bytes)) (ht : t.KeysDiffer)
    (possible : ∀ e ∈ t.entries, ∀ pages, e.offer = .memory pages → pages.isPossible = true)
    (name : String) : l.Stages name bytes t (l.load name bytes t).1 ∧
      (l.StopsEarly name bytes t → ∀ sink, emissionsTo sink (l.load name bytes t).1.noticed = []) := by
  obtain ⟨hm, houtcome, hsilent⟩ | ⟨m, hm, houtcome, hemitted⟩ := load_of_faithful hl name t
  · exact ⟨.of_invalid hm houtcome, fun _ => hsilent⟩
  have hsilent (hstarts : l.starts ⟨name, m, l.hash bytes⟩ t = false) (sink : Sink) :
      emissionsTo sink (l.load name bytes t).1.noticed = [] := by
    rw [hemitted]
    exact (instantiate_of_not_starts hstarts).1 sink
  obtain ⟨cause, hcheck, hlink, hstarts⟩ |
    ⟨hcheck, ⟨e, pages, hlarge, hoffer, hstarts, hhost⟩ | ⟨hfits, hstarts⟩⟩ :=
      stage_cases (l := l) ht possible ⟨name, m, l.hash bytes⟩
  · exact ⟨.of_rejected hm hcheck (houtcome.trans hlink), fun _ => hsilent hstarts⟩
  · exact ⟨.of_tooLarge hm hcheck hlarge hoffer (houtcome.trans hhost), fun _ => hsilent hstarts⟩
  · refine ⟨.of_starts hm hcheck hfits hstarts houtcome, fun hstops => ?_⟩
    exact absurd (hstops m hm) (by simp [hcheck, hfits])

end Loader

/-- Loading fails stage by stage, for a loader with any history in which nothing else that it compiled
had the hash of the bytes, and for any table whose memories can be. Before the guest's own stage nothing
is emitted, and a module has no say but by its imports and its types: none of its code is run. -/
theorem loading_fails_stage_by_stage (files : FileTree) (settings : Loader.Settings)
    (hash : List UInt8 → UInt64) (ops : List Operation) (name : String) (bytes : List UInt8)
    (steps : List BuildStep)
    (distinct : ∀ b ∈ compiledBytes files ops, hash b = hash bytes → b = bytes)
    (possible : ∀ e ∈ (ImportTable.build steps).entries, ∀ pages, e.offer = .memory pages →
      pages.isPossible = true) :
    let l := (Session.after files { loader := { settings, hash } } ops).loader
    let t := ImportTable.build steps
    l.Stages name bytes t (l.load name bytes t).1 ∧ (l.StopsEarly name bytes t →
      (∀ sink, emissionsTo sink (l.load name bytes t).1.noticed = []) ∧
      ∀ m m', Wasm.Module.compile? bytes = some m → m'.imports = m.imports → m'.types = m.types →
        l.instantiate ⟨name, m', hash bytes⟩ t = l.instantiate ⟨name, m, hash bytes⟩ t) := by
  intro l t
  have ht : t.KeysDiffer := ImportTable.keysDiffer_build steps
  have hfresh : (({ settings, hash } : Loader)).KeepsCompiled (· ∈ compiledBytes files ops) := by
    intro k h hk
    simp [Loader.kept?] at hk
  obtain ⟨-, hhash, hkeeps⟩ := Session.loader_after (s := { loader := { settings, hash } }) hfresh
    ops fun b hb => hb
  have hl : l.Faithful (· = bytes) := hkeeps.faithful fun b hb h => distinct b hb (by
    rwa [hhash] at h)
  obtain ⟨hstages, hsilent⟩ := hl.stages ht possible name
  refine ⟨hstages, fun hstops => ⟨hsilent hstops, fun m m' hm himports htypes => ?_⟩⟩
  refine Loader.instantiate_congr_of_not_starts ?_ himports htypes
  obtain ⟨-, -, -, hstarts⟩ | ⟨hcheck, ⟨_, _, -, -, hstarts, -⟩ | ⟨hfits, -⟩⟩ :=
    Loader.stage_cases (l := l) ht possible ⟨name, m, hash bytes⟩
  · exact hstarts
  · exact hstarts
  · exact absurd (hstops m hm) (by simp [hcheck, hfits])

/-- A memory that the module does not import, and that is larger than the settings allow. -/
theorem loading_fails_stage_by_stage_unused_memory :
    let ops : List Operation := [.compile "a" Wasm.Binary.preamble, .clearCache]
    let steps : List BuildStep := [.insert memoryModule memoryName (.memory { initial := 2000 })]
    let l := (Session.after {} { loader := { settings := {}, hash := contentHash } } ops).loader
    (∀ b ∈ compiledBytes {} ops, contentHash b = contentHash Wasm.Binary.preamble →
        b = Wasm.Binary.preamble) ∧
      (∀ e ∈ (ImportTable.build steps).entries, ∀ pages, e.offer = .memory pages →
        pages.isPossible = true) ∧
      (l.load "b" Wasm.Binary.preamble (.build steps)).1.outcome = .error (.fault
        (.hostFunction memoryModule memoryName (MemoryPages.tooLargeText { initial := 2000 }))) := by
  intro ops steps l
  have distinct : ∀ b ∈ compiledBytes {} ops, contentHash b = contentHash Wasm.Binary.preamble →
      b = Wasm.Binary.preamble := by decide
  have possible : ∀ e ∈ (ImportTable.build steps).entries, ∀ pages, e.offer = .memory pages →
      pages.isPossible = true := by
    intro e he pages hoffer
    obtain rfl : e = ⟨memoryModule, memoryName, .memory { initial := 2000 }⟩ := by
      simpa [ImportTable.build, ImportTable.step, ImportTable.insert, ImportTable.empty, steps] using he
    cases hoffer
    decide
  have hempty : (Wasm.Module.compile? Wasm.Binary.preamble).map (fun m => m.imports.isEmpty) =
      some true := by
    decide +kernel
  obtain ⟨m, hm, himports⟩ := Option.map_eq_some_iff.1 hempty
  have hcheck : (ImportTable.build steps).check m "b" = .ok () :=
    ((ImportTable.build steps).check_eq_ok_iff m).2 (by simp [List.isEmpty_iff.1 himports])
  have hstages := (loading_fails_stage_by_stage {} {} contentHash ops "b" Wasm.Binary.preamble steps
    distinct possible).1
  have hlarge : (ImportTable.build steps).tooLarge? l.cap =
      some ⟨memoryModule, memoryName, .memory { initial := 2000 }⟩ := by
    decide +kernel
  exact ⟨distinct, possible, (hstages.hostFunction hm hcheck _ _ _).2
    ⟨_, _, hlarge, rfl, rfl, rfl, rfl⟩⟩

end GuestHarness
