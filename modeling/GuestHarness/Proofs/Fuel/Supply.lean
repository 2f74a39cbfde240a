import GuestHarness.Proofs.Loading.Memories
import GuestHarness.Proofs.Wasm.Metering

/-! Fuel decides when a run stops, and nothing else that a host can notice. A host that has more of it,
or does not meter it, is answered the same up to where the fuel would have run out, and what was emitted
until then is where its own emissions begin. -/
namespace GuestHarness
open Wasm (Lasts Program ImportCall)

/-- The operation failed because the fuel ran out. -/
def Account.ranDry {α : Type} (a : Account Fault α) : Bool :=
  match a.outcome with
  | .error e => e.trapKind? = some .outOfFuel
  | .ok _ => false

/-- What goes on after an operation that ran dry ran dry. -/
theorem Account.ranDry_of_bind {α β : Type} {a : Account Fault α} {b : Account Fault β}
    {f : α → Except Fault β} (h : b.outcome = a.outcome.bind f) (hb : b.ranDry = false) :
    a.ranDry = false := by
  unfold ranDry at *
  cases ha : a.outcome with
  | error e =>
    rw [h, ha] at hb
    exact hb
  | ok v => rfl

theorem Account.ranDry_of_map {α β : Type} {a : Account Fault α} {f : α → β}
    (h : (f <$> a).ranDry = false) : a.ranDry = false := by
  refine ranDry_of_bind (f := fun v => .ok (f v)) ?_ h
  rw [outcome_map]
  cases a.outcome <;> rfl

namespace Account

variable {ε α β γ : Type}

theorem andThen_congr {a : Account ε α} {f g : α → Account ε β}
    (h : ∀ v, a.outcome = .ok v → f v = g v) : a.andThen f = a.andThen g := by
  cases ha : a.outcome with
  | error e => rw [andThen_of_error ha, andThen_of_error ha]
  | ok v => rw [andThen_of_ok ha, andThen_of_ok ha, h v ha]

theorem map_andThen (a : Account ε α) (f : α → Account ε β) (g : β → γ) :
    g <$> a.andThen f = a.andThen fun v => g <$> f v := by
  cases ha : a.outcome with
  | error e =>
    rw [andThen_of_error ha, andThen_of_error ha]
    rfl
  | ok v =>
    rw [andThen_of_ok ha, andThen_of_ok ha]
    refine Account.ext ?_ ?_
    · simp
    · simp

theorem map_of_ok {a : Account ε α} {v : α} (ha : a.outcome = .ok v) (f : α → β) :
    f <$> a = ⟨a.noticed, .ok (f v)⟩ := by
  refine Account.ext (noticed_map f a) ?_
  rw [outcome_map, ha]
  rfl

end Account

/-- Imported functions add to the account, and take nothing from it. -/
def Wasm.Program.Appends {ε : Type} (p : Program (Array Occurrence) ε) : Prop :=
  ∀ (call : ImportCall ε) (occurred : Array Occurrence),
    occurred.toList <+: (p.afterCall occurred call).toList

namespace Wasm.Program.Appends

variable {ε : Type} {p : Program (Array Occurrence) ε} (h : p.Appends)
include h

theorem foldl (calls : List (ImportCall ε)) (occurred : Array Occurrence) :
    occurred.toList <+: (calls.foldl p.afterCall occurred).toList := by
  induction calls generalizing occurred with
  | nil => exact List.prefix_rfl
  | cons call calls ih => exact (h call occurred).trans (ih _)

/-- Where some calls go on from others, so does what they leave in the account. -/
theorem prefix_of_calls {calls calls' : List (ImportCall ε)} (hcalls : calls <+: calls')
    (occurred : Array Occurrence) :
    (calls.foldl p.afterCall occurred).toList <+: (calls'.foldl p.afterCall occurred).toList := by
  obtain ⟨more, rfl⟩ := hcalls
  rw [List.foldl_append]
  exact h.foldl more _

end Wasm.Program.Appends

theorem Linkage.appends_program (l : Linkage) (m : Wasm.Module) (fuel cap : Option Nat) :
    (l.program m fuel cap).Appends := by
  intro call occurred
  change _ <+: (l.callLogger m call.caller call.index call.args call.memories occurred).1.toList
  unfold callLogger
  split
  · exact List.prefix_rfl
  · simp

namespace Instance

variable {i : Instance} {fuel : Option Nat}

/-- The instance with another supply of fuel. -/
def withFuel (i : Instance) (fuel : Option Nat) : Instance :=
  { i with program := i.program.withFuel fuel }

theorem lasts_fuel_withFuel (h : Lasts i.program.fuel fuel) : Lasts i.fuel (i.withFuel fuel).fuel :=
  h.sub i.store.spent

theorem entry?_withFuel (r : Request) : entry? (i.withFuel fuel) r = i.entry? r := by
  cases r <;> rfl

section

variable (h : Lasts i.program.fuel fuel)
include h

theorem run_withFuel {exported : String} {index : Nat} {args : List Value}
    (hfueled : (i.run exported index args).1.ranDry = false) :
    (i.withFuel fuel).run exported index args =
      ((i.run exported index args).1, (i.run exported index args).2.withFuel fuel) := by
  have hsame := (Wasm.Machine.invoke_withFuel h i.store index (args.map .ofValue)).2 fun hdry => by
    rw [Account.ranDry, outcome_run, hdry] at hfueled
    cases hfueled
  obtain ⟨name, module, registry, program, store⟩ := i
  dsimp only [run, withFuel] at hsame ⊢
  rw [hsame]

theorem call_withFuel {exported : String} {index : Nat} {s : Signature} {args : List Value}
    (hfueled : (i.call exported index s args).1.ranDry = false) :
    (i.withFuel fuel).call exported index s args =
      ((i.call exported index s args).1, (i.call exported index s args).2.withFuel fuel) := by
  by_cases htypes : args.map Value.type = s.params
  · have hrun := run_withFuel h (Account.ranDry_of_bind (outcome_call htypes) hfueled)
    unfold call
    rw [Signature.checkArgs_eq_ok_iff.2 htypes]
    dsimp only
    rw [hrun]
    rfl
  · unfold call Signature.checkArgs
    rw [if_neg htypes]

theorem invoke_withFuel {exported : String} {args : List Value}
    (hfueled : (i.invoke exported args).1.ranDry = false) :
    (i.withFuel fuel).invoke exported args =
      ((i.invoke exported args).1, (i.invoke exported args).2.withFuel fuel) := by
  have hresolve : (i.withFuel fuel).resolve exported = i.resolve exported := rfl
  unfold invoke at hfueled ⊢
  rw [hresolve]
  cases hfunction : i.resolve exported with
  | error e => rfl
  | ok function =>
    obtain ⟨index, s⟩ := function
    rw [hfunction] at hfueled
    dsimp only at hfueled ⊢
    split at hfueled
    · next hresults => rw [if_pos hresults, if_pos hresults]
    · next hresults =>
      rw [if_neg hresults, if_neg hresults, call_withFuel h (Account.ranDry_of_map hfueled)]

theorem invokeMulti_withFuel {exported : String} {args : List Value}
    (hfueled : (i.invokeMulti exported args).1.ranDry = false) :
    (i.withFuel fuel).invokeMulti exported args =
      ((i.invokeMulti exported args).1, (i.invokeMulti exported args).2.withFuel fuel) := by
  have hresolve : (i.withFuel fuel).resolve exported = i.resolve exported := rfl
  unfold invokeMulti at hfueled ⊢
  rw [hresolve]
  cases hfunction : i.resolve exported with
  | error e => rfl
  | ok function =>
    rw [hfunction] at hfueled
    exact call_withFuel h hfueled

theorem invokeTyped_withFuel {exported : String} {type : Signature} {args : List Value}
    (hfueled : (i.invokeTyped exported type args).1.ranDry = false) :
    (i.withFuel fuel).invokeTyped exported type args =
      ((i.invokeTyped exported type args).1, (i.invokeTyped exported type args).2.withFuel fuel) := by
  have htyped : (i.withFuel fuel).typed exported type = i.typed exported type := rfl
  unfold invokeTyped at hfueled ⊢
  rw [htyped]
  cases hfunction : i.typed exported type with
  | error e => rfl
  | ok index =>
    rw [hfunction] at hfueled
    have hrun : (i.run exported index args).1.ranDry = false := by
      refine Account.ranDry_of_bind (f := values exported type) ?_ hfueled
      simp [Account.outcome_andThen, Except.bind]
    dsimp only
    rw [run_withFuel h hrun]
    rfl

/-- An answer that is not for want of fuel is the answer that more fuel gives, unless it tells how much
is left. -/
theorem answer_withFuel {r : Request} (hr : r ≠ .fuel) (hfueled : (i.answer r).1.ranDry = false) :
    (i.withFuel fuel).answer r = ((i.answer r).1, (i.answer r).2.withFuel fuel) := by
  cases r with
  | invoke exported args =>
    simp only [answer, invoke_withFuel h (Account.ranDry_of_map hfueled)]
  | invokeMulti exported args =>
    simp only [answer, invokeMulti_withFuel h (Account.ranDry_of_map hfueled)]
  | invokeTyped exported type args typed =>
    simp only [answer, invokeTyped_withFuel h (Account.ranDry_of_map hfueled)]
  | fuel => exact absurd rfl hr
  | readMemory | signature | exports => rfl

/-- Whether or not an answer is for want of fuel, what it emits is where the emissions begin that more
fuel gives. -/
theorem prefix_emissionsTo_answer (hi : i.program.Appends) (r : Request) (sink : Sink) :
    emissionsTo sink (i.answer r).1.noticed <+:
      emissionsTo sink ((i.withFuel fuel).answer r).1.noticed := by
  cases hentry : i.entry? r with
  | none =>
    rw [(answer_of_entry?_eq_none hentry).2 sink]
    exact List.nil_prefix
  | some entry =>
    obtain ⟨index, args⟩ := entry
    have hentry' : entry? (i.withFuel fuel) r = some (index, args) := by
      rw [entry?_withFuel, hentry]
    have henters := enters_of_entry? hentry
    have henters' := enters_of_entry? hentry'
    obtain ⟨exported, -, hemitted⟩ := henters.run
    obtain ⟨exported', -, hemitted'⟩ := henters'.run
    have hcalls := (Wasm.Machine.invoke_withFuel h i.store index (args.map .ofValue)).1
    have hhosts := hi.prefix_of_calls hcalls i.store.host
    rw [hemitted, hemitted', (i.run_eq exported index args).1,
      ((i.withFuel fuel).run_eq exported' index args).1, Wasm.Machine.host_invoke,
      Wasm.Machine.host_invoke]
    exact hhosts.filterMap _

end

end Instance

/-- A request with its answer, and the instance that the answer left. -/
structure Answered where
  request : Request
  account : Account Fault Reply
  after : Instance

/-- What was answered to requests, in order. -/
def noticedIn (answered : List Answered) : List Occurrence := answered.flatMap (·.account.noticed)

/-- The two answers cannot be told apart but by the fuel that is left, of which there is no less. -/
structure Answered.Agrees (fuel : Option Nat) (a b : Answered) : Prop where
  request : b.request = a.request
  noticed : b.account.noticed = a.account.noticed
  outcome : a.request ≠ .fuel → b.account.outcome = a.account.outcome
  after : b.after = a.after.withFuel fuel
  left : Lasts a.after.fuel b.after.fuel

namespace Instance

variable {i : Instance} {fuel : Option Nat}

def answered (i : Instance) (r : Request) : Answered := ⟨r, (i.answer r).1, (i.answer r).2⟩

/-- The answers to requests, one after the other, whether or not they fail. -/
def course (i : Instance) : List Request → List Answered
  | [] => []
  | r :: rs => i.answered r :: course (i.answer r).2 rs

theorem program_answer (i : Instance) (r : Request) : (i.answer r).2.program = i.program := by
  rw [i.answer_eq r]

section

variable (h : Lasts i.program.fuel fuel)
include h

theorem agrees_answered {r : Request} (hfueled : (i.answer r).1.ranDry = false) :
    (i.answered r).Agrees fuel ((i.withFuel fuel).answered r) := by
  have hleft : Lasts (i.answer r).2.fuel ((i.answer r).2.withFuel fuel).fuel := by
    refine lasts_fuel_withFuel ?_
    rwa [program_answer]
  by_cases hr : r = .fuel
  · subst hr
    exact ⟨rfl, rfl, fun hne => absurd rfl hne, rfl, hleft⟩
  · have hanswer := answer_withFuel h hr hfueled
    refine ⟨rfl, ?_, fun _ => ?_, ?_, ?_⟩
    all_goals simp only [answered, hanswer]
    exact hleft

/-- As long as the fuel does not run out, more of it changes no answer. -/
theorem agree_course {rs : List Request} (hfueled : ∀ a ∈ i.course rs, a.account.ranDry = false) :
    List.Forall₂ (Answered.Agrees fuel) (i.course rs) ((i.withFuel fuel).course rs) := by
  induction rs generalizing i with
  | nil => exact .nil
  | cons r rs ih =>
    obtain ⟨hr, hrs⟩ := List.forall_mem_cons.1 hfueled
    have hanswered := agrees_answered h hr
    have hafter : ((i.withFuel fuel).answer r).2 = (i.answer r).2.withFuel fuel := hanswered.after
    rw [course, course, hafter]
    exact .cons hanswered (ih (by rwa [program_answer]) hrs)

/-- What is emitted up to the first answer that is for want of fuel is where the emissions begin that
more fuel gives. -/
theorem prefix_emissionsTo_course (hi : i.program.Appends) {rs : List Request}
    {before after : List Answered} {a : Answered} (hcourse : i.course rs = before ++ a :: after)
    (hfueled : ∀ b ∈ before, b.account.ranDry = false) (sink : Sink) :
    emissionsTo sink (noticedIn (before ++ [a])) <+:
      emissionsTo sink (noticedIn ((i.withFuel fuel).course rs)) := by
  induction before generalizing i rs with
  | nil =>
    cases rs with
    | nil => cases hcourse
    | cons r rs =>
      obtain ⟨rfl, -⟩ := List.cons.inj hcourse
      have hanswer := prefix_emissionsTo_answer h hi r sink
      simp only [noticedIn, course, List.nil_append, List.flatMap_cons, List.flatMap_nil,
        List.append_nil, emissionsTo_append]
      exact hanswer.trans (List.prefix_append _ _)
  | cons b before ih =>
    cases rs with
    | nil => cases hcourse
    | cons r rs =>
      obtain ⟨rfl, hlater⟩ := List.cons.inj hcourse
      obtain ⟨hr, hbefore⟩ := List.forall_mem_cons.1 hfueled
      have hanswered := agrees_answered h hr
      have hafter : ((i.withFuel fuel).answer r).2 = (i.answer r).2.withFuel fuel := hanswered.after
      have hrest := ih (by rwa [program_answer]) (by rwa [program_answer]) hlater hbefore
      have hnoticed := hanswered.noticed
      simp only [noticedIn, course, List.cons_append, List.flatMap_cons, emissionsTo_append, hafter,
        hnoticed] at hrest ⊢
      exact (List.prefix_append_right_inj _).2 hrest

end

end Instance

namespace Linkage

variable {l : Linkage} {m : Wasm.Module} {fuel fuel' cap : Option Nat} (h : Lasts fuel fuel')
include h

/-- Unless its start function ran dry, a module is made the same instance with more fuel. -/
theorem start_withFuel {name : String}
    (hfueled : (Wasm.Machine.setup (l.program m fuel cap) m (m.initialStore l.memories #[])).2 ≠
      .error (.trapped .outOfFuel)) :
    l.start m name fuel' cap = (·.withFuel fuel') <$> l.start m name fuel cap := by
  have hsame : Wasm.Machine.setup (l.program m fuel' cap) m (m.initialStore l.memories #[]) =
      Wasm.Machine.setup (l.program m fuel cap) m (m.initialStore l.memories #[]) :=
    (Wasm.Machine.setup_withFuel (p := l.program m fuel cap) h _ m).2 hfueled
  unfold start
  dsimp only
  rw [hsame]
  generalize Wasm.Machine.setup (l.program m fuel cap) m (m.initialStore l.memories #[]) = made
  obtain ⟨s, e | ⟨⟩⟩ := made
  · cases e <;> rfl
  · refine Account.ext ?_ ?_
    · simp
    · simp
      rfl

theorem prefix_emissionsTo_start (name : String) (sink : Sink) :
    emissionsTo sink (l.start m name fuel cap).noticed <+:
      emissionsTo sink (l.start m name fuel' cap).noticed := by
  have hcalls := (Wasm.Machine.setup_withFuel (p := l.program m fuel cap) h
    (m.initialStore l.memories #[]) m).1
  have hhosts := (l.appends_program m fuel cap).prefix_of_calls hcalls #[]
  rw [noticed_start, noticed_start, Wasm.Machine.host_setup, Wasm.Machine.host_setup]
  exact hhosts.filterMap _

end Linkage

/-- What became of making an instance and of sending it requests. -/
structure Trial where
  made : Account LoadError Instance
  answered : List Answered

namespace Trial

def noticed (a : Trial) : List Occurrence := a.made.noticed ++ noticedIn a.answered

/-- The two trials cannot be told apart but by the fuel that is left, of which there is no less. -/
structure Agrees (fuel : Option Nat) (a b : Trial) : Prop where
  made : b.made = (·.withFuel fuel) <$> a.made
  left (i : Instance) (hi : a.made.outcome = .ok i) : Lasts i.fuel (i.withFuel fuel).fuel
  answered : List.Forall₂ (Answered.Agrees fuel) a.answered b.answered

end Trial

namespace Loader

variable (l : Loader) (c : Compiled) (t : ImportTable)

/-- The loader with another supply of fuel for its instances, or with none that is metered. -/
def withFuel (metered : Bool) (amount : UInt64) : Loader :=
  { l with settings := l.settings.withFuel metered amount }

theorem lasts_fuel {amount amount' : UInt64} {metered : Bool}
    (h : metered = true → amount ≤ amount') :
    Lasts (l.withFuel true amount).fuel (l.withFuel metered amount').fuel := by
  intro n hn
  cases metered with
  | false => cases hn
  | true =>
    cases hn
    exact ⟨amount.toNat, rfl, h rfl⟩

/-- The fuel ran out while the module was made an instance. -/
def startsDry : Bool :=
  l.starts c t &&
    match (Wasm.Machine.setup (l.program c t) c.module (l.initialStore c t)).2 with
    | .error (.trapped .outOfFuel) => true
    | _ => false

def trial (rs : List Request) : Trial :=
  let made := l.instantiate c t
  ⟨made, match made.outcome with | .ok i => i.course rs | .error _ => []⟩

variable {l c t}

theorem instantiateLinked_map {l' : Loader} {linkage : Linkage} {f : Instance → Instance}
    (h : linkage.instantiate c.module c.name l'.fuel l'.cap =
      f <$> linkage.instantiate c.module c.name l.fuel l.cap) :
    l'.instantiateLinked c t linkage = f <$> l.instantiateLinked c t linkage := by
  unfold instantiateLinked
  rw [h]
  generalize linkage.instantiate c.module c.name l.fuel l.cap = made
  obtain ⟨noticed, e | i⟩ := made
  · rfl
  · rw [Account.map_of_ok rfl, Account.map_of_ok rfl]
    rfl

section

variable {metered : Bool} {amount : UInt64} (h : Lasts l.fuel (l.withFuel metered amount).fuel)
include h

/-- Unless the start function ran dry, the same instance is made with more fuel. -/
theorem instantiate_withFuel (hfueled : l.startsDry c t = false) :
    (l.withFuel metered amount).instantiate c t =
      (·.withFuel (l.withFuel metered amount).fuel) <$> l.instantiate c t := by
  have hcap : (l.withFuel metered amount).cap = l.cap := rfl
  rw [instantiate_eq, instantiate_eq, hcap, Account.map_andThen]
  refine Account.andThen_congr fun _ hpassed => ?_
  rw [Account.map_andThen]
  refine Account.andThen_congr fun linkage hlink => instantiateLinked_map ?_
  have hcheck : t.check c.module c.name = .ok () := by
    cases hcheck : t.check c.module c.name with
    | error e => simp [hcheck, Except.mapError] at hpassed
    | ok _ => rfl
  have hstarts : l.starts c t = true := starts_of_link hcheck hlink
  have hlinkage : l.linkage t = linkage := by
    rw [Loader.linkage, hlink]
    rfl
  have hprovided : c.module.imports.all (linkage.provides c.module) = true := by
    rw [← hlinkage]
    exact List.all_eq_true.2 (starts_iff.1 hstarts).2.2
  unfold Linkage.instantiate
  rw [if_pos hprovided, if_pos hprovided, hcap]
  refine Linkage.start_withFuel h fun hdry => ?_
  rw [startsDry, hstarts, program, initialStore, hlinkage, hdry] at hfueled
  cases hfueled

theorem prefix_emissionsTo_instantiate (sink : Sink) :
    emissionsTo sink (l.instantiate c t).noticed <+:
      emissionsTo sink ((l.withFuel metered amount).instantiate c t).noticed := by
  have hsame : (l.withFuel metered amount).starts c t = l.starts c t := rfl
  cases hstarts : l.starts c t with
  | false =>
    rw [(instantiate_of_not_starts hstarts).1]
    exact List.nil_prefix
  | true =>
    rw [(instantiate_of_starts hstarts).1, (instantiate_of_starts (hsame.trans hstarts)).1]
    exact Linkage.prefix_emissionsTo_start h c.name sink

end

@[simp] theorem made_trial (rs : List Request) : (l.trial c t rs).made = l.instantiate c t := rfl

theorem answered_trial_of_ok {i : Instance} (hi : (l.instantiate c t).outcome = .ok i)
    (rs : List Request) : (l.trial c t rs).answered = i.course rs := by
  simp [trial, hi]

theorem answered_trial_of_error {e : LoadError} (he : (l.instantiate c t).outcome = .error e)
    (rs : List Request) : (l.trial c t rs).answered = [] := by
  simp [trial, he]

/-- There is no instance of a module that started dry. -/
theorem startsDry_of_instantiate {i : Instance} (hi : (l.instantiate c t).outcome = .ok i) :
    l.startsDry c t = false := by
  obtain ⟨-, -, s, hsetup, -⟩ := exists_setup_of_instantiate hi
  rw [startsDry, hsetup, Bool.and_false]

/-- An instance has the fuel of the loader that made it. -/
theorem fuel_program_of_instantiate {i : Instance} (hi : (l.instantiate c t).outcome = .ok i) :
    i.program.fuel = l.fuel := by
  rw [(exists_setup_of_instantiate hi).2.1]
  rfl

theorem appends_of_instantiate {i : Instance} (hi : (l.instantiate c t).outcome = .ok i) :
    i.program.Appends := by
  rw [(exists_setup_of_instantiate hi).2.1]
  exact Linkage.appends_program _ _ _ _

section

variable {metered : Bool} {amount : UInt64} (h : Lasts l.fuel (l.withFuel metered amount).fuel)
include h

theorem instantiate_withFuel_of_ok {i : Instance} (hi : (l.instantiate c t).outcome = .ok i) :
    ((l.withFuel metered amount).instantiate c t).outcome =
      .ok (i.withFuel (l.withFuel metered amount).fuel) := by
  rw [instantiate_withFuel h (startsDry_of_instantiate hi), Account.map_of_ok hi]

/-- More fuel changes nothing where the fuel does not run out. -/
theorem agree_trial {rs : List Request} (hstart : l.startsDry c t = false)
    (hfueled : ∀ x ∈ (l.trial c t rs).answered, x.account.ranDry = false) :
    (l.trial c t rs).Agrees (l.withFuel metered amount).fuel
      ((l.withFuel metered amount).trial c t rs) := by
  have hmade := instantiate_withFuel h hstart
  refine ⟨hmade, fun i hi => ?_, ?_⟩
  · refine Instance.lasts_fuel_withFuel ?_
    rwa [fuel_program_of_instantiate hi]
  · cases houtcome : (l.instantiate c t).outcome with
    | error e =>
      have hfails : ((l.withFuel metered amount).instantiate c t).outcome = .error e := by
        rw [hmade, Account.outcome_map, houtcome]
        rfl
      rw [answered_trial_of_error houtcome, answered_trial_of_error hfails]
      exact .nil
    | ok i =>
      rw [answered_trial_of_ok houtcome] at hfueled
      rw [answered_trial_of_ok houtcome, answered_trial_of_ok (instantiate_withFuel_of_ok h houtcome)]
      refine Instance.agree_course ?_ hfueled
      rwa [fuel_program_of_instantiate houtcome]

/-- Where the start function runs dry, nothing follows it. -/
theorem prefix_emissionsTo_trial_of_startsDry (rs : List Request) (sink : Sink)
    (hdry : l.startsDry c t = true) :
    emissionsTo sink (l.trial c t rs).noticed <+:
      emissionsTo sink ((l.withFuel metered amount).trial c t rs).noticed := by
  cases houtcome : (l.instantiate c t).outcome with
  | ok i => simp [startsDry_of_instantiate houtcome] at hdry
  | error e =>
    have hmade := prefix_emissionsTo_instantiate (c := c) (t := t) h sink
    have hnone : noticedIn [] = [] := rfl
    rw [Trial.noticed, Trial.noticed, answered_trial_of_error houtcome, made_trial, made_trial, hnone,
      List.append_nil, emissionsTo_append]
    exact hmade.trans (List.prefix_append _ _)

/-- Where an answer runs dry and none before it, what was emitted up to there is where the emissions
begin that more fuel gives. -/
theorem prefix_emissionsTo_trial {rs : List Request} {before after : List Answered} {x : Answered}
    (hanswered : (l.trial c t rs).answered = before ++ x :: after)
    (hfueled : ∀ y ∈ before, y.account.ranDry = false) (sink : Sink) :
    emissionsTo sink ((l.trial c t rs).made.noticed ++ noticedIn (before ++ [x])) <+:
      emissionsTo sink ((l.withFuel metered amount).trial c t rs).noticed := by
  cases houtcome : (l.instantiate c t).outcome with
  | error e => simp [answered_trial_of_error houtcome] at hanswered
  | ok i =>
    rw [answered_trial_of_ok houtcome] at hanswered
    have hprogram : Lasts i.program.fuel (l.withFuel metered amount).fuel := by
      rwa [fuel_program_of_instantiate houtcome]
    have hcourse := Instance.prefix_emissionsTo_course hprogram (appends_of_instantiate houtcome)
      hanswered hfueled sink
    have hmade : ((l.withFuel metered amount).instantiate c t).noticed =
        (l.instantiate c t).noticed := by
      rw [instantiate_withFuel h (startsDry_of_instantiate houtcome), Account.noticed_map]
    rw [Trial.noticed, answered_trial_of_ok (instantiate_withFuel_of_ok h houtcome), made_trial,
      made_trial, hmade, emissionsTo_append, emissionsTo_append]
    exact (List.prefix_append_right_inj _).2 hcourse

end

end Loader

/-- A guest that logs a number, and another one in a function that it calls. -/
def twoStepGuest : Wasm.Module where
  types := #[⟨[.num .i32], []⟩, ⟨[], []⟩]
  imports := [⟨consoleModule, logFunction, .func 0⟩]
  functions := [1, 1]
  exports := [⟨"main", .func, 1⟩]
  codes := [⟨[], [.literal (.i32 1), .call 0, .call 2]⟩, ⟨[], [.literal (.i32 2), .call 0]⟩]

end GuestHarness
