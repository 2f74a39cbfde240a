import GuestHarness.Proofs.Fault.Refusals
import GuestHarness.Proofs.Fuel.Supply
import GuestHarness.Proofs.Session.Handles
import GuestHarness.Proofs.Session.Isolation
import GuestHarness.Proofs.Wasm.Consumption

/-! The fuel of the instances of a session. Each begins with the whole supply, loses of it only while its
own guest runs, and has none left after a call that stopped for want of it. -/
namespace GuestHarness
open Wasm (Lasts)

namespace Wasm.Lasts

variable {fuel fuel' fuel'' : Option Nat}

theorem refl (fuel : Option Nat) : Lasts fuel fuel := fun n hn => ⟨n, hn, Nat.le_refl n⟩

theorem trans (h : Lasts fuel fuel') (h' : Lasts fuel' fuel'') : Lasts fuel fuel'' := by
  intro n hn
  obtain ⟨k, hk, hkn⟩ := h' n hn
  obtain ⟨j, hj, hjk⟩ := h k hk
  exact ⟨j, hj, Nat.le_trans hjk hkn⟩

/-- The more is spent of a supply, the less is left. -/
theorem of_spent (fuel : Option Nat) {spent spent' : Nat} (h : spent ≤ spent') :
    Lasts (fuel.map (· - spent')) (fuel.map (· - spent)) := by
  intro left hleft
  obtain ⟨n, hn, rfl⟩ := Option.map_eq_some_iff.1 hleft
  exact ⟨n - spent', Option.map_eq_some_iff.2 ⟨n, hn, rfl⟩, Nat.sub_le_sub_left h n⟩

end Wasm.Lasts

theorem Fault.trapKind?_of_isDescriptorFault {e : Fault} (h : e.isDescriptorFault = true) :
    e.trapKind? = none := by
  cases e <;> first
    | rfl
    | cases h

theorem Fault.trapKind?_of_refused? {e : Fault} (h : e.refused?.isSome) : e.trapKind? = none := by
  cases e <;> first
    | rfl
    | cases h

namespace Instance

variable {i : Instance} {r : Request}

theorem trapKind?_of_readMemory {name : String} {range : Descriptor} {e : Fault}
    (h : i.readMemory name range = .error e) : e.trapKind? = none := by
  unfold readMemory at h
  split at h
  · cases h
    rfl
  · rw [Wasm.Memory.readBytes_eq] at h
    split at h <;> cases h
    rfl

/-- A request that calls nothing does not fail as a guest does that is stopped. -/
theorem trapKind?_of_entry?_eq_none (h : i.entry? r = none) {e : Fault}
    (he : (i.answer r).1.outcome = .error e) : e.trapKind? = none := by
  cases hr : r.exported? with
  | some exported =>
    obtain ⟨e', hanswer, hrefused⟩ := refused_of_entry?_eq_none hr h
    rw [hanswer] at he
    cases he
    exact Fault.trapKind?_of_refused? (by rw [hrefused]; rfl)
  | none =>
    cases r with
    | invoke | invokeMulti | invokeTyped => cases hr
    | readMemory name range => exact trapKind?_of_readMemory (Account.outcome_map_eq_error_iff.1 he)
    | signature exported =>
      have hsignature : i.signature exported = .error e := Account.outcome_map_eq_error_iff.1 he
      unfold signature at hsignature
      cases hresolve : i.resolve exported with
      | ok found =>
        rw [hresolve] at hsignature
        cases hsignature
      | error e' =>
        rw [hresolve] at hsignature
        cases hsignature
        exact Fault.trapKind?_of_refused? (by rw [refused?_of_resolve hresolve]; rfl)
    | exports | fuel => cases he

/-- Answering the request runs code of the guest, and not only a function that it was given. -/
def RunsGuest (i : Instance) (r : Request) : Prop :=
  ∃ index args type locals body, i.entry? r = some (index, args) ∧
    i.program.functions[index]? = some (.defined type locals body)

theorem fuel_answer_of_entered {index : Nat} {args : List Value}
    (h : i.entry? r = some (index, args)) :
    (i.answer r).2.fuel =
      i.program.fuelLeft (Wasm.Machine.invoke i.program i.store index (args.map .ofValue)).2 := by
  have henters := enters_of_entry? h
  obtain ⟨exported, hanswer, -⟩ := henters.run
  rw [hanswer, (i.run_eq exported index args).2]
  rfl

/-- No request gives fuel back. -/
theorem lasts_fuel_answer (i : Instance) (r : Request) : Lasts (i.answer r).2.fuel i.fuel := by
  cases hentry : i.entry? r with
  | none =>
    rw [(answer_of_entry?_eq_none hentry).1]
    exact .refl _
  | some entry =>
    obtain ⟨index, args⟩ := entry
    rw [fuel_answer_of_entered hentry]
    exact .of_spent _ (Wasm.Machine.spent_invoke i.program i.store index (args.map .ofValue)).1

theorem fuel_answer_of_not_runsGuest (h : ¬ i.RunsGuest r) : (i.answer r).2.fuel = i.fuel := by
  cases hentry : i.entry? r with
  | none => rw [(answer_of_entry?_eq_none hentry).1]
  | some entry =>
    obtain ⟨index, args⟩ := entry
    have hspent := Wasm.Machine.spent_invoke_of_not_defined
      (fun type locals body hf => h ⟨index, args, type, locals, body, hentry, hf⟩) i.store
      (args.map .ofValue)
    rw [fuel_answer_of_entered hentry, Wasm.Program.fuelLeft, hspent]
    rfl

theorem not_runsGuest_of_exported? (h : r.exported? = none) : ¬ i.RunsGuest r := by
  rintro ⟨index, args, -, -, -, hentry, -⟩
  obtain ⟨exported, -, hexported, -⟩ := outcome_answer_of_entry? hentry
  cases h.symm.trans hexported

end Instance

namespace Linked

variable {t : ImportTable} {l : Linkage} {m : Wasm.Module} {functions : Array Wasm.FuncType}
  {fuel cap : Option Nat} {i : Instance} {r : Request}

/-- What fails as a refused call does runs nothing. -/
theorem not_runsGuest_of_refused (h : Linked t l m functions) (hi : Ready l m functions fuel cap i)
    {e : Fault} (he : (i.answer r).1.outcome = .error e) (hrefused : e.refused?.isSome) :
    ¬ i.RunsGuest r := by
  rintro ⟨index, args, -, -, -, hentry, -⟩
  rw [h.refused?_of_entry? hi hentry he] at hrefused
  cases hrefused

theorem ending_of_ranDry (h : Linked t l m functions) (hi : Ready l m functions fuel cap i)
    {index : Nat} {args : List Value} (hentry : i.entry? r = some (index, args)) {e : Fault}
    (he : (i.answer r).1.outcome = .error e) (hdry : e.trapKind? = some .outOfFuel) :
    (Wasm.Machine.invoke i.program i.store index (args.map .ofValue)).1 = .trapped .outOfFuel := by
  obtain ⟨exported, -, -, -, houtcome⟩ := h.outcome_answer hi hentry
  rw [houtcome, Instance.outcome_run_eq_error_iff] at he
  obtain hraised | ⟨kind, hkind, rfl⟩ := he
  · -- A logger raises descriptor faults only, and these are no traps.
    obtain ⟨call, hcall, hanswer⟩ :=
      ((Wasm.Machine.refusedLast_invoke i.program i.store index (args.map .ofValue)).1 e).1 hraised
    have hmakes : (l.program m fuel cap).Makes call :=
      h.makes_of_mem_callsBy hi (r := r) (by simpa [Instance.callsBy, hentry] using hcall)
    have hdescriptor := Linkage.isDescriptorFault_of_makes hmakes hanswer
    rw [Fault.trapKind?_of_isDescriptorFault hdescriptor] at hdry
    cases hdry
  · cases hdry
    generalize (Wasm.Machine.invoke i.program i.store index (args.map .ofValue)).1 = ending at hkind ⊢
    cases ending <;> cases hkind
    rfl

/-- A call fails for want of fuel only where the machine stops for it, and then nothing is left. -/
theorem fuel_answer_of_ranDry (h : Linked t l m functions) (hi : Ready l m functions fuel cap i)
    (hdry : (i.answer r).1.ranDry = true) : (i.answer r).2.fuel = some 0 := by
  cases houtcome : (i.answer r).1.outcome with
  | ok reply => simp [Account.ranDry, houtcome] at hdry
  | error e =>
    have hkind : e.trapKind? = some .outOfFuel := by simpa [Account.ranDry, houtcome] using hdry
    cases hentry : i.entry? r with
    | none =>
      rw [Instance.trapKind?_of_entry?_eq_none hentry houtcome] at hkind
      cases hkind
    | some entry =>
      obtain ⟨index, args⟩ := entry
      have hending := h.ending_of_ranDry hi hentry houtcome hkind
      have hinvoked := Wasm.Machine.spent_invoke i.program i.store index (args.map .ofValue)
      rw [Instance.fuel_answer_of_entered hentry]
      exact Wasm.Program.fuelLeft_of_exhausted (hinvoked.2 hending)

end Linked

namespace Session

/-- The modules of a session are valid, and its instances are ready with the fuel of its loader. -/
structure Supplied (s : Session) : Prop where
  kept : s.loader.KeepsCompiled fun _ => True
  compiled : ∀ h ∈ s.compiled, Wasm.Typing.module h.compiled.module = true
  instances : ∀ i ∈ s.instances, ∃ t l m functions,
    Linked t l m functions ∧ Ready l m functions s.loader.fuel s.loader.cap i

variable {s : Session} {files : FileTree} {op : Operation}

/-- What compiling gives is valid, whether it was kept or not. -/
theorem module_of_compile (h : s.loader.KeepsCompiled fun _ => True) {name : String}
    {bytes : List UInt8} {handle : Handle}
    (hcompiled : (s.loader.compile name bytes).1.outcome = .ok handle) :
    Wasm.Typing.module handle.compiled.module = true := by
  obtain ⟨c, hk, -, ho, -⟩ | ⟨c, hk, -, ho, -⟩ | ⟨-, -, ho, -⟩ | ⟨module, -, hm, ho, -⟩ :=
    Loader.compile_cases s.loader name bytes
  · cases hcompiled.symm.trans ho
    obtain ⟨b, -, -, hm, -⟩ := h _ _ hk
    exact Wasm.Typing.module_of_compile? hm
  · cases hcompiled.symm.trans ho
    obtain ⟨b, -, -, hm, -⟩ := h _ _ hk
    exact Wasm.Typing.module_of_compile? hm
  · cases hcompiled.symm.trans ho
  · cases hcompiled.symm.trans ho
    exact Wasm.Typing.module_of_compile? hm

namespace Supplied

theorem module_of_make (hs : s.Supplied) {c : Compiled} {t : ImportTable}
    (hdeed : s.deed? op = some (.make c t)) : Wasm.Typing.module c.module = true := by
  cases op with
  | load name bytes table =>
    cases hcompiled : (s.loader.compile name bytes).1.outcome with
    | error e => simp [deed?, hcompiled, Except.toOption] at hdeed
    | ok handle =>
      simp only [deed?, hcompiled, Except.toOption, Option.map_some, Option.some.injEq,
        Deed.make.injEq] at hdeed
      obtain ⟨rfl, rfl⟩ := hdeed
      exact module_of_compile hs.kept hcompiled
  | instantiate place table =>
    obtain ⟨handle, hplace, hmake⟩ := Option.map_eq_some_iff.1 hdeed
    cases hmake
    exact hs.compiled handle (List.mem_of_getElem? hplace)
  | request place r =>
    obtain ⟨i, -, hmake⟩ := Option.map_eq_some_iff.1 hdeed
    cases hmake
  | compile | compileFile | validate | clearCache => cases hdeed

/-- The handles of a session are those it had, and what an operation compiled. -/
theorem compiled_step (hs : s.Supplied) (files : FileTree) (op : Operation) :
    ∀ h ∈ (s.step files op).2.compiled, Wasm.Typing.module h.compiled.module = true := by
  have hkept {name : String} {bytes : List UInt8} (h : Handle)
      (hh : h ∈ s.compiled ++ (s.loader.compile name bytes).1.outcome.toOption.toList) :
      Wasm.Typing.module h.compiled.module = true := by
    obtain hh | hh := List.mem_append.1 hh
    · exact hs.compiled h hh
    · cases hcompiled : (s.loader.compile name bytes).1.outcome with
      | error e => simp [hcompiled, Except.toOption] at hh
      | ok handle =>
        obtain rfl : h = handle := by simpa [hcompiled, Except.toOption] using hh
        exact module_of_compile hs.kept hcompiled
  cases op with
  | compile name bytes => exact hkept
  | compileFile path =>
    cases hf : files.read path with
    | error e => simpa [step, keepCompiled, Loader.compileFile, hf, Except.toOption] using hs.compiled
    | ok bytes => simpa only [step, keepCompiled, Loader.compileFile, hf] using hkept
  | instantiate place table =>
    cases hp : s.compiled[place]? <;> simpa only [step, keepInstance, hp] using hs.compiled
  | request place r => cases hp : s.instances[place]? <;> simpa only [step, hp] using hs.compiled
  | validate bytes => exact hs.compiled
  | load name bytes table => exact hs.compiled
  | clearCache => exact hs.compiled

/-- An operation leaves the instances ready, and one that it makes is ready. -/
theorem instances_step (hs : s.Supplied) (files : FileTree) (op : Operation) :
    ∀ i ∈ (s.step files op).2.instances, ∃ t l m functions,
      Linked t l m functions ∧ Ready l m functions s.loader.fuel s.loader.cap i := by
  cases s.comes files op with
  | aside deed place silent same | failed c t deed place observed same =>
    rw [same]
    exact hs.instances
  | made c t i deed place outcome observed added =>
    rw [added]
    refine List.forall_mem_append.2 ⟨hs.instances, List.forall_mem_singleton.2 ?_⟩
    obtain ⟨functions, hvalid⟩ := Wasm.Typing.exists_valid_of_module (hs.module_of_make deed)
    obtain ⟨hready, -⟩ := accounts_callsOfInstantiate (h := ⟨0, c⟩) t s.loader hvalid
    exact ⟨t, s.loader.linkage t, c.module, functions, hready i outcome⟩
  | asked p r i deed place found account changed =>
    rw [changed]
    intro i' hi'
    obtain hi' | rfl := List.mem_or_eq_of_mem_set hi'
    · exact hs.instances i' hi'
    · obtain ⟨t, l, m, functions, hlinked, hready⟩ := hs.instances i (List.mem_of_getElem? found)
      exact ⟨t, l, m, functions, hlinked, (hlinked.answer hready r).1⟩

theorem step (hs : s.Supplied) (files : FileTree) (op : Operation) :
    (s.step files op).2.Supplied := by
  have hloader := loader_step s files op
  have hfuel : (s.step files op).2.loader.fuel = s.loader.fuel := by
    rw [Loader.fuel, hloader.1]
    rfl
  have hcap : (s.step files op).2.loader.cap = s.loader.cap := by
    rw [Loader.cap, hloader.1]
    rfl
  refine ⟨keepsCompiled_step hs.kept op fun _ _ => trivial, hs.compiled_step files op, ?_⟩
  rw [hfuel, hcap]
  exact hs.instances_step files op

theorem afterAll (hs : s.Supplied) (past : Timeline) : (s.afterAll past).Supplied := by
  induction past generalizing s with
  | nil => exact hs
  | cons did past ih => exact ih (hs.step did.1 did.2)

theorem fresh (settings : Loader.Settings) (hash : List UInt8 → UInt64) :
    ({ loader := { settings, hash } } : Session).Supplied := by
  refine ⟨fun k h hk => ?_, by simp, by simp⟩
  simp [Loader.kept?] at hk

end Supplied

/-- An operation leaves an instance alone that it asks nothing. -/
theorem getElem?_step {p : Nat} {i : Instance} (hi : s.instances[p]? = some i) (files : FileTree)
    (h : ∀ r, op ≠ .request p r) : (s.step files op).2.instances[p]? = some i := by
  have hlt : p < s.instances.length := (List.getElem?_eq_some_iff.1 hi).1
  cases s.comes files op with
  | aside deed place silent same | failed c t deed place observed same => rw [same, hi]
  | made c t i' deed place outcome observed added =>
    rw [added, List.getElem?_append_left hlt, hi]
  | asked q r i' deed place found account changed =>
    obtain ⟨q', i'', rfl, hi''⟩ := exists_request_of_ask deed
    have hq : q' = q := by simpa [share, place?, hi''] using place
    have hne : q ≠ p := fun heq => h r (by rw [hq, heq])
    rw [changed, List.getElem?_set_ne hne, hi]

theorem step_request {p : Nat} {i : Instance} (hi : s.instances[p]? = some i) (files : FileTree)
    (r : Request) : (s.step files (.request p r)).1 = replied (i.answer r).1 ∧
      (s.step files (.request p r)).2.instances[p]? = some (i.answer r).2 := by
  have hlt : p < s.instances.length := (List.getElem?_eq_some_iff.1 hi).1
  simp only [step, hi]
  exact ⟨rfl, List.getElem?_set_self hlt⟩

/-- In the course of a session an instance keeps its place and gains no fuel. -/
theorem lasts_fuel_afterAll {p : Nat} {i : Instance} (hi : s.instances[p]? = some i)
    (later : Timeline) :
    ∃ i', (s.afterAll later).instances[p]? = some i' ∧ Lasts i'.fuel i.fuel := by
  induction later generalizing s i with
  | nil => exact ⟨i, hi, .refl _⟩
  | cons did later ih =>
    obtain ⟨files, op⟩ := did
    by_cases hop : ∃ r, op = .request p r
    · obtain ⟨r, rfl⟩ := hop
      obtain ⟨i', hi', hless⟩ := ih (step_request hi files r).2
      exact ⟨i', hi', hless.trans (i.lasts_fuel_answer r)⟩
    · exact ih (getElem?_step hi files fun r heq => hop ⟨r, heq⟩)

/-- A module that was made an instance was copied, and its start function was called then. -/
theorem fuel_of_made {l : Loader} {c : Compiled} {t : ImportTable} {i : Instance}
    {ready : Wasm.Store (Array Occurrence)} (hi : (l.instantiate c t).outcome = .ok i)
    (hready : Wasm.Machine.copied (l.program c t) c.module (l.initialStore c t) = .ok ready) :
    i.fuel = (l.program c t).fuelLeft (Wasm.Machine.start (l.program c t) c.module ready).1 := by
  obtain ⟨-, hprogram, made, hsetup, hstore⟩ := Loader.exists_setup_of_instantiate hi
  obtain ⟨-, hstart, -, -⟩ :=
    Wasm.Machine.setup_of_copied (Wasm.Machine.atMost_of_setup hsetup) hready
  rw [← hstart, hsetup, Instance.fuel, hprogram, hstore]
  rfl

/-- The fuel of the instances of a session, and what becomes of it. -/
structure AccountsForFuel (settings : Loader.Settings) (s : Session) : Prop where
  /-- All instances are metered or none is, as the settings say. -/
  metered (i : Instance) (mem : i ∈ s.instances) : i.fuel = none ↔ settings.fuelEnabled = false
  bounded (i : Instance) (mem : i ∈ s.instances) (n : Nat) (left : i.fuel = some n) :
    n ≤ settings.fuelAmount.toNat
  /-- A start function is called with the whole supply, and the instance begins with what that leaves. -/
  full (files : FileTree) (op : Operation) (c : Compiled) (t : ImportTable)
    (deed : s.deed? op = some (.make c t)) (ready : Wasm.Store (Array Occurrence))
    (copied : Wasm.Machine.copied (s.loader.program c t) c.module (s.loader.initialStore c t) =
      .ok ready) :
    (s.loader.program c t).fuelLeft ready = settings.initialFuel.map UInt64.toNat ∧
      ∀ i, (s.step files op).2.instances = s.instances ++ [i] → i.fuel =
        (s.loader.program c t).fuelLeft (Wasm.Machine.start (s.loader.program c t) c.module ready).1
  falls (p : Nat) (i : Instance) (found : s.instances[p]? = some i) (later : Timeline) :
    ∃ i', (s.afterAll later).instances[p]? = some i' ∧ Lasts i'.fuel i.fuel
  /-- Only the guest's own code uses fuel, and only that of its instance. -/
  aside (files : FileTree) (op : Operation) (p : Nat) (i : Instance)
    (found : s.instances[p]? = some i) (idle : ∀ r, op = .request p r → ¬ i.RunsGuest r) :
    ∃ i', (s.step files op).2.instances[p]? = some i' ∧ i'.fuel = i.fuel
  /-- What asks for no call runs nothing, and neither does a call that is refused. -/
  idle (i : Instance) (mem : i ∈ s.instances) (r : Request) (quiet : r.exported? = none ∨
    ∃ e, (i.answer r).1.outcome = .error e ∧ e.refused?.isSome) : ¬ i.RunsGuest r
  /-- A call that stopped for want of fuel leaves none. -/
  dry (files : FileTree) (p : Nat) (i : Instance) (found : s.instances[p]? = some i) (r : Request)
    (e : Fault) (failed : (s.step files (.request p r)).1.outcome = .error (.fault e))
    (kind : e.trapKind? = some .outOfFuel) :
    ∃ i', (s.step files (.request p r)).2.instances[p]? = some i' ∧ i'.fuel = some 0

theorem outcome_of_replied {a : Account Fault Reply} {e : Fault}
    (h : (replied a).outcome = .error (.fault e)) : a.outcome = .error e := by
  rw [replied, Account.outcome_map, Account.outcome_mapError] at h
  cases ha : a.outcome with
  | ok reply => simp [ha, Except.map, Except.mapError] at h
  | error e' => simpa [ha, Except.map, Except.mapError] using h

namespace Supplied

theorem fuel_eq (hs : s.Supplied) {i : Instance} (hi : i ∈ s.instances) :
    i.fuel = s.loader.settings.initialFuel.map fun n => n.toNat - i.store.spent := by
  obtain ⟨t, l, m, functions, -, hready⟩ := hs.instances i hi
  rw [Instance.fuel, hready.program]
  exact Option.map_map ..

theorem fuelLeft_of_copied (l : Loader) (c : Compiled) (t : ImportTable)
    {ready : Wasm.Store (Array Occurrence)}
    (h : Wasm.Machine.copied (l.program c t) c.module (l.initialStore c t) = .ok ready) :
    (l.program c t).fuelLeft ready = l.settings.initialFuel.map UInt64.toNat := by
  rw [(Wasm.Machine.prepares_of_copied h).fuelLeft]
  exact Option.map_map ..

theorem fuel_of_added (files : FileTree) {c : Compiled} {t : ImportTable}
    (hdeed : s.deed? op = some (.make c t)) {ready : Wasm.Store (Array Occurrence)}
    (hready : Wasm.Machine.copied (s.loader.program c t) c.module (s.loader.initialStore c t) =
      .ok ready) {i : Instance} (hi : (s.step files op).2.instances = s.instances ++ [i]) :
    i.fuel =
      (s.loader.program c t).fuelLeft (Wasm.Machine.start (s.loader.program c t) c.module ready).1 := by
  have hinstances := (step_of_make files hdeed).2
  rw [hi, List.append_cancel_left_eq] at hinstances
  cases hmade : (s.loader.instantiate c t).outcome with
  | error e => simp [hmade, Except.toOption] at hinstances
  | ok i' =>
    obtain rfl : i = i' := by simpa [hmade, Except.toOption] using hinstances
    exact fuel_of_made hmade hready

theorem accountsForFuel (hs : s.Supplied) : s.AccountsForFuel s.loader.settings where
  metered i mem := by
    rw [hs.fuel_eq mem, Loader.Settings.initialFuel]
    cases s.loader.settings.fuelEnabled <;> simp
  bounded i mem n left := by
    rw [hs.fuel_eq mem, Loader.Settings.initialFuel] at left
    cases henabled : s.loader.settings.fuelEnabled with
    | false => simp [henabled] at left
    | true =>
      simp only [henabled, if_true, Option.map_some, Option.some.injEq] at left
      exact left ▸ Nat.sub_le _ _
  full files op c t deed ready copied :=
    ⟨fuelLeft_of_copied s.loader c t copied, fun _ added => fuel_of_added files deed copied added⟩
  falls p i found later := lasts_fuel_afterAll found later
  aside files op p i found idle := by
    by_cases hop : ∃ r, op = .request p r
    · obtain ⟨r, rfl⟩ := hop
      exact ⟨_, (step_request found files r).2, Instance.fuel_answer_of_not_runsGuest (idle r rfl)⟩
    · exact ⟨i, getElem?_step found files fun r heq => hop ⟨r, heq⟩, rfl⟩
  idle i mem r quiet := by
    obtain hreads | ⟨e, he, hrefused⟩ := quiet
    · exact Instance.not_runsGuest_of_exported? hreads
    · obtain ⟨t, l, m, functions, hlinked, hready⟩ := hs.instances i mem
      exact hlinked.not_runsGuest_of_refused hready he hrefused
  dry files p i found r e failed kind := by
    obtain ⟨hanswer, hleft⟩ := step_request found files r
    obtain ⟨t, l, m, functions, hlinked, hready⟩ := hs.instances i (List.mem_of_getElem? found)
    rw [hanswer] at failed
    refine ⟨_, hleft, hlinked.fuel_answer_of_ranDry hready ?_⟩
    rw [Account.ranDry, outcome_of_replied failed]
    exact decide_eq_true kind

end Supplied

end Session

/-- With five units the guest stops at the second function that it enters; a call that is refused before
costs nothing. -/
example :
    let c : Compiled := ⟨"guest", twoStepGuest, 0⟩
    let t := ImportTable.integerLogger .w32 .standardOutput
    let s : Session := { loader := ({} : Loader).withFuel true 5, compiled := [⟨0, c⟩] }
    let fuelAfter (rs : List Request) :=
      (s.after {} (.instantiate 0 t :: rs.map (.request 0))).instances.map Instance.fuel
    fuelAfter [.invoke "main" [.i32 1]] = [some 5] ∧ fuelAfter [.invoke "main" []] = [some 0] := by
  decide +kernel

end GuestHarness
