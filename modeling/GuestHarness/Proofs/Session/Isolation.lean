import GuestHarness.Proofs.Loading.Stages

/-! Instances of one host, used in any order and with other operations in between. Each of them fares as it
would alone, with a new loader of the same settings; what they have in common is that the sinks they share
receive the emissions of all of them, in the order of the operations. -/
namespace GuestHarness

/-- What an operation does about an instance: it makes one, or asks one. -/
inductive Deed where
  | make (c : Compiled) (t : ImportTable)
  | ask (r : Request)

/-- The account of an operation, with what it does and the place of the instance it does it to. An attempt
to make an instance that fails has no place. -/
structure Share where
  deed : Option Deed
  place : Option Nat
  account : Account LoadError (Result Handle)

namespace Share

/-- The shares of the instance at a place. -/
def own (p : Nat) (shares : List Share) : List Share := shares.filter fun share => share.place = some p

/-- What goes to a sink, each emission with the place of the instance it comes from. -/
def merged (sink : Sink) (shares : List Share) : List (Option Nat × Emission) :=
  shares.flatMap fun share => (emissionsTo sink share.account.noticed).map fun e => (share.place, e)

end Share

namespace Session

/-- The compiled module and the table that an operation makes an instance of, or what it asks. -/
def deed? (s : Session) : Operation → Option Deed
  | .load name bytes t =>
    (s.loader.compile name bytes).1.outcome.toOption.map fun h => .make h.compiled t
  | .instantiate place t => s.compiled[place]?.map fun h => .make h.compiled t
  | .request place r => s.instances[place]?.map fun _ => .ask r
  | _ => none

/-- The place of the instance that an operation asks, or adds to the session. -/
def place? (files : FileTree) (s : Session) : Operation → Option Nat
  | .request place _ => s.instances[place]?.map fun _ => place
  | op => if s.instances.length < (s.step files op).2.instances.length then some s.instances.length
      else none

def share (files : FileTree) (s : Session) (op : Operation) : Share :=
  ⟨s.deed? op, s.place? files op, (s.step files op).1⟩

/-- The accounts of operations carried out one after the other, each with the instance it is about. -/
def shares (files : FileTree) (s : Session) : List Operation → List Share
  | [] => []
  | op :: ops => s.share files op :: shares files (s.step files op).2 ops

/-- A session with a new loader and one compiled module. -/
def alone (settings : Loader.Settings) (c : Compiled) : Session where
  loader := { settings }
  compiled := [⟨0, c⟩]

/-- Makes one instance of that module, and asks it. -/
def useAlone (t : ImportTable) (rs : List Request) : List Operation :=
  .instantiate 0 t :: rs.map (.request 0)

/-- A reply as the account of an operation. -/
def replied (a : Account Fault Reply) : Account LoadError (Result Handle) :=
  Result.reply <$> a.mapError .fault

variable {s : Session} {files : FileTree} {op : Operation}

/-- What an operation comes to: its share, and the instances that there are after it. -/
inductive Comes (s : Session) (share : Share) (after : List Instance) : Prop where
  | aside (deed : share.deed = none) (place : share.place = none)
      (silent : ∀ sink, emissionsTo sink share.account.noticed = []) (same : after = s.instances)
  | failed (c : Compiled) (t : ImportTable) (deed : share.deed = some (.make c t))
      (place : share.place = none)
      (observed : observed share.account = Result.loaded <$> (s.loader.instantiate c t).unlogged)
      (same : after = s.instances)
  | made (c : Compiled) (t : ImportTable) (i : Instance) (deed : share.deed = some (.make c t))
      (place : share.place = some s.instances.length)
      (outcome : (s.loader.instantiate c t).outcome = .ok i)
      (observed : observed share.account = Result.loaded <$> (s.loader.instantiate c t).unlogged)
      (added : after = s.instances ++ [i])
  | asked (p : Nat) (r : Request) (i : Instance) (deed : share.deed = some (.ask r))
      (place : share.place = some p) (found : s.instances[p]? = some i)
      (account : share.account = replied (i.answer r).1)
      (changed : after = s.instances.set p (i.answer r).2)

theorem unlogged_load (l : Loader) {name : String} {bytes : List UInt8} {h : Handle}
    (hcompiled : (l.compile name bytes).1.outcome = .ok h) (t : ImportTable) :
    (l.load name bytes t).1.unlogged = (l.instantiate h.compiled t).unlogged := by
  have hsettings : (l.compile name bytes).2.instantiate h.compiled t = l.instantiate h.compiled t :=
    Loader.instantiate_congr (by simp) h.compiled t
  have hload : (l.load name bytes t).1 = ((l.compile name bytes).1.mapError .fault).andThen
      fun h => (l.compile name bytes).2.instantiate h.compiled t := rfl
  have hok : ((l.compile name bytes).1.unlogged.mapError LoadError.fault).outcome = .ok h :=
    Account.mapError_of_ok hcompiled _
  rw [hload, Account.unlogged_andThen, Account.unlogged_mapError, Account.andThen_of_ok hok, hsettings,
    Account.noticed_mapError, Loader.unlogged_compile]
  rfl

/-- An operation that makes instances of a compiled module shows what making one with any loader of the
same settings shows, and adds what was made. -/
theorem step_of_make (files : FileTree) {c : Compiled} {t : ImportTable}
    (h : s.deed? op = some (.make c t)) :
    observed (s.step files op).1 = Result.loaded <$> (s.loader.instantiate c t).unlogged ∧
      (s.step files op).2.instances =
        s.instances ++ (s.loader.instantiate c t).outcome.toOption.toList := by
  cases op with
  | load name bytes table =>
    cases hcompiled : (s.loader.compile name bytes).1.outcome with
    | error e => simp [deed?, hcompiled, Except.toOption] at h
    | ok handle =>
      simp only [deed?, hcompiled, Except.toOption, Option.map_some, Option.some.injEq,
        Deed.make.injEq] at h
      obtain ⟨rfl, rfl⟩ := h
      have hload := unlogged_load s.loader hcompiled table
      rw [step, observed_keepInstance, instances_keepInstance, hload]
      exact ⟨rfl, rfl⟩
  | instantiate place table =>
    obtain ⟨handle, hplace, hdeed⟩ := Option.map_eq_some_iff.1 h
    cases hdeed
    simp only [step, hplace]
    exact ⟨observed_keepInstance _, rfl⟩
  | request place r =>
    obtain ⟨i, -, hdeed⟩ := Option.map_eq_some_iff.1 h
    cases hdeed
  | compile | compileFile | validate | clearCache => cases h

theorem exists_request_of_ask {r : Request} (h : s.deed? op = some (.ask r)) :
    ∃ p i, op = .request p r ∧ s.instances[p]? = some i := by
  cases op with
  | load name bytes table =>
    obtain ⟨handle, -, hdeed⟩ := Option.map_eq_some_iff.1 h
    cases hdeed
  | instantiate place table =>
    obtain ⟨handle, -, hdeed⟩ := Option.map_eq_some_iff.1 h
    cases hdeed
  | request place r' =>
    obtain ⟨i, hplace, hdeed⟩ := Option.map_eq_some_iff.1 h
    cases hdeed
    exact ⟨place, i, rfl, hplace⟩
  | compile | compileFile | validate | clearCache => cases h

theorem emissionsTo_compile (l : Loader) (name : String) (bytes : List UInt8) (sink : Sink) :
    emissionsTo sink (l.compile name bytes).1.noticed = [] := by
  rw [← Account.emissionsTo_unlogged, Loader.unlogged_compile, emissionsTo_nil]

/-- An operation that does nothing about an instance emits nothing and leaves all instances. -/
theorem step_of_no_deed (files : FileTree) (h : s.deed? op = none) :
    (∀ sink, emissionsTo sink (s.step files op).1.noticed = []) ∧
      (s.step files op).2.instances = s.instances := by
  cases op with
  | compile name bytes =>
    refine ⟨fun sink => ?_, rfl⟩
    rw [step, keepCompiled, Account.noticed_map, Account.noticed_mapError, emissionsTo_compile]
  | compileFile path =>
    refine ⟨fun sink => ?_, rfl⟩
    rw [step, keepCompiled, Account.noticed_map, Account.noticed_mapError, Loader.compileFile]
    split
    · rfl
    · exact emissionsTo_compile s.loader _ _ sink
  | validate bytes =>
    refine ⟨fun sink => ?_, rfl⟩
    rw [step, Account.noticed_map, Account.noticed_ofExcept, emissionsTo_nil]
  | load name bytes table =>
    cases hcompiled : (s.loader.compile name bytes).1.outcome with
    | ok handle => simp [deed?, hcompiled, Except.toOption] at h
    | error e =>
      have hload : (s.loader.load name bytes table).1 =
          ⟨(s.loader.compile name bytes).1.noticed, .error (.fault e)⟩ :=
        Account.andThen_of_error (Account.mapError_of_error hcompiled _) _
      refine ⟨fun sink => ?_, ?_⟩
      · rw [step, keepInstance, Account.noticed_map, hload, emissionsTo_compile]
      · rw [step, keepInstance, hload]
        exact List.append_nil _
  | instantiate place table =>
    have hnone : s.compiled[place]? = none := Option.map_eq_none_iff.1 h
    simp only [step, hnone]
    exact ⟨fun _ => rfl, trivial⟩
  | clearCache => exact ⟨fun _ => rfl, rfl⟩
  | request place r =>
    have hnone : s.instances[place]? = none := Option.map_eq_none_iff.1 h
    simp only [step, hnone]
    exact ⟨fun _ => rfl, trivial⟩

/-- Operations other than requests are about the place that they add, if they add one. -/
theorem place?_of_not_request (s : Session) (files : FileTree) (h : ∀ p r, op ≠ .request p r) :
    s.place? files op = if s.instances.length < (s.step files op).2.instances.length then
      some s.instances.length else none := by
  cases op with
  | request p r => exact absurd rfl (h p r)
  | compile | compileFile | validate | load | instantiate | clearCache => rfl

theorem comes (s : Session) (files : FileTree) (op : Operation) :
    s.Comes (s.share files op) (s.step files op).2.instances := by
  cases hdeed : s.deed? op with
  | none =>
    obtain ⟨hsilent, hsame⟩ := step_of_no_deed files hdeed
    refine .aside hdeed ?_ hsilent hsame
    by_cases hrequest : ∃ p r, op = .request p r
    · obtain ⟨p, r, rfl⟩ := hrequest
      have hnone : s.instances[p]? = none := Option.map_eq_none_iff.1 hdeed
      simp [share, place?, hnone]
    · rw [share, s.place?_of_not_request files fun p r hop => hrequest ⟨p, r, hop⟩, hsame]
      exact if_neg (Nat.lt_irrefl _)
  | some deed =>
    cases deed with
    | ask r =>
      obtain ⟨p, i, rfl, hi⟩ := exists_request_of_ask hdeed
      refine .asked p r i hdeed ?_ hi ?_ ?_
      · simp [share, place?, hi]
      · simp [share, step, hi, replied]
      · simp [step, hi]
    | make c t =>
      obtain ⟨hobserved, hinstances⟩ := step_of_make files hdeed
      have hrequest : ∀ p r, op ≠ .request p r := by
        rintro p r rfl
        obtain ⟨i, -, hask⟩ := Option.map_eq_some_iff.1 hdeed
        cases hask
      have hplace := s.place?_of_not_request files hrequest
      cases hmade : (s.loader.instantiate c t).outcome with
      | error e =>
        rw [hmade] at hinstances
        have hsame : (s.step files op).2.instances = s.instances :=
          hinstances.trans (List.append_nil _)
        rw [hsame, if_neg (Nat.lt_irrefl _)] at hplace
        exact .failed c t hdeed hplace hobserved hsame
      | ok i =>
        rw [hmade] at hinstances
        have hadded : (s.step files op).2.instances = s.instances ++ [i] := hinstances
        rw [hadded, if_pos (by simp)] at hplace
        exact .made c t i hdeed hplace hmade hobserved hadded

theorem account_shares (s : Session) (files : FileTree) (ops : List Operation) :
    (s.shares files ops).map Share.account = s.run files ops := by
  induction ops generalizing s with
  | nil => rfl
  | cons op ops ih => exact congrArg _ (ih _)

theorem own_shares_of_eq {p : Nat} (h : (s.share files op).place = some p) (ops : List Operation) :
    Share.own p (s.shares files (op :: ops)) =
      s.share files op :: Share.own p ((s.step files op).2.shares files ops) :=
  List.filter_cons_of_pos (by simpa using h)

theorem own_shares_of_ne {p : Nat} (h : (s.share files op).place ≠ some p) (ops : List Operation) :
    Share.own p (s.shares files (op :: ops)) = Share.own p ((s.step files op).2.shares files ops) :=
  List.filter_cons_of_neg (by simpa using h)

/-- An instance answers what it is asked, and nothing else changes it. -/
theorem own_shares_of_instance (files : FileTree) {p : Nat} {i : Instance} (hi : s.instances[p]? = some i)
    (ops : List Operation) :
    ∃ rs, (Share.own p (s.shares files ops)).map Share.deed = rs.map (fun r => some (.ask r)) ∧
      (Share.own p (s.shares files ops)).map Share.account = (i.answers rs).1.map replied ∧
      (s.after files ops).instances[p]? = some (i.answers rs).2 := by
  induction ops generalizing s i with
  | nil => exact ⟨[], rfl, rfl, hi⟩
  | cons op ops ih =>
    have hlt : p < s.instances.length := (List.getElem?_eq_some_iff.1 hi).1
    rw [after]
    cases s.comes files op with
    | aside deed place silent same =>
      rw [own_shares_of_ne (by simp [place])]
      exact ih (by rw [same, hi])
    | failed c t deed place observed same =>
      rw [own_shares_of_ne (by simp [place])]
      exact ih (by rw [same, hi])
    | made c t made deed place outcome observed added =>
      rw [own_shares_of_ne (by simpa [place] using Nat.ne_of_gt hlt)]
      exact ih (by rw [added, List.getElem?_append_left hlt, hi])
    | asked q r found deed place hfound account changed =>
      by_cases hq : q = p
      · subst hq
        cases hi.symm.trans hfound
        obtain ⟨rs, hdeeds, haccounts, hleft⟩ := ih (s := (s.step files op).2) (i := (i.answer r).2)
          (by rw [changed, List.getElem?_set_self hlt])
        have hown := own_shares_of_eq place ops
        refine ⟨r :: rs, ?_, ?_, hleft⟩
        · rw [hown, List.map_cons, deed, hdeeds, List.map_cons]
        · rw [hown, List.map_cons, account, haccounts, Instance.answers, List.map_cons]
      · rw [own_shares_of_ne (by simpa [place] using hq)]
        exact ih (by rw [changed, List.getElem?_set_ne hq, hi])

/-- An instance that is made in the course of some operations begins as it would with any loader of the
same settings. -/
theorem own_shares_of_new {p : Nat} (hp : s.instances.length ≤ p) {ops : List Operation}
    (hlt : p < (s.after files ops).instances.length) :
    ∃ c t i rs, (s.loader.instantiate c t).outcome = .ok i ∧
      (Share.own p (s.shares files ops)).map Share.deed =
        some (.make c t) :: rs.map (fun r => some (.ask r)) ∧
      (Share.own p (s.shares files ops)).map (fun share => observed share.account) =
        (Result.loaded <$> (s.loader.instantiate c t).unlogged) ::
          (i.answers rs).1.map (fun a => observed (replied a)) ∧
      (s.after files ops).instances[p]? = some (i.answers rs).2 := by
  induction ops generalizing s with
  | nil => exact absurd hlt (Nat.not_lt_of_le hp)
  | cons op ops ih =>
    have hloader (c : Compiled) (t : ImportTable) :
        (s.step files op).2.loader.instantiate c t = s.loader.instantiate c t :=
      Loader.instantiate_congr (by rw [(loader_step s files op).1]) c t
    rw [after] at hlt ⊢
    have hrest (hp' : (s.step files op).2.instances.length ≤ p) := ih hp' hlt
    simp only [hloader] at hrest
    cases s.comes files op with
    | aside deed place silent same =>
      rw [own_shares_of_ne (by simp [place])]
      exact hrest (by rwa [same])
    | failed c t deed place observed same =>
      rw [own_shares_of_ne (by simp [place])]
      exact hrest (by rwa [same])
    | made c t i deed place outcome hobserved added =>
      -- If the place is the one asked about, all that follows there are requests; if not, it is still free.
      by_cases hq : s.instances.length = p
      · subst hq
        have hi : (s.step files op).2.instances[s.instances.length]? = some i := by
          rw [added, List.getElem?_concat_length]
        obtain ⟨rs, hdeeds, haccounts, hleft⟩ := own_shares_of_instance files hi ops
        have hown := own_shares_of_eq place ops
        refine ⟨c, t, i, rs, outcome, ?_, ?_, hleft⟩
        · rw [hown, List.map_cons, deed, hdeeds]
        · have hreplies := congrArg (List.map observed) haccounts
          rw [List.map_map, List.map_map] at hreplies
          rw [hown, List.map_cons, hobserved]
          exact congrArg _ hreplies
      · rw [own_shares_of_ne (by simpa [place] using hq)]
        refine hrest ?_
        rw [added, List.length_append, List.length_singleton]
        omega
    | asked q r i deed place found account changed =>
      have hq : q ≠ p := by
        have hlength : q < s.instances.length := (List.getElem?_eq_some_iff.1 found).1
        omega
      rw [own_shares_of_ne (by simpa [place] using hq)]
      exact hrest (by rwa [changed, List.length_set])

/-- Requests to the only instance of a session. -/
theorem run_requests (files : FileTree) {i : Instance} (hi : s.instances = [i]) (rs : List Request) :
    s.run files (rs.map (.request 0)) = (i.answers rs).1.map replied ∧
      (s.after files (rs.map (.request 0))).instances = [(i.answers rs).2] := by
  induction rs generalizing s i with
  | nil => exact ⟨rfl, hi⟩
  | cons r rs ih =>
    have hstep : s.step files (.request 0 r) =
        (replied (i.answer r).1, { s with instances := [(i.answer r).2] }) := by
      simp [step, hi, replied]
    obtain ⟨hrun, hleft⟩ := ih (s := { s with instances := [(i.answer r).2] }) rfl
    rw [List.map_cons, run, after, hstep]
    exact ⟨congrArg _ hrun, hleft⟩

/-- The only instance of a session with a new loader. -/
theorem run_useAlone (files : FileTree) {l : Loader} {c : Compiled} {t : ImportTable} {i : Instance}
    (hi : (l.instantiate c t).outcome = .ok i) (rs : List Request) :
    ((alone l.settings c).run files (useAlone t rs)) =
        (Result.loaded <$> l.instantiate c t) :: (i.answers rs).1.map replied ∧
      ((alone l.settings c).after files (useAlone t rs)).instances = [(i.answers rs).2] := by
  have hsame : ({ settings := l.settings } : Loader).instantiate c t = l.instantiate c t :=
    Loader.instantiate_congr rfl c t
  have hstep : (alone l.settings c).step files (.instantiate 0 t) =
      (Result.loaded <$> l.instantiate c t, { alone l.settings c with instances := [i] }) := by
    simp [step, alone, keepInstance, hsame, hi, Except.toOption]
  obtain ⟨hrun, hleft⟩ := run_requests (s := { alone l.settings c with instances := [i] })
    files rfl rs
  rw [useAlone, run, after, hstep]
  exact ⟨congrArg _ hrun, hleft⟩

theorem emissionsTo_observed (a : Account LoadError (Result Handle)) (sink : Sink) :
    emissionsTo sink (observed a).noticed = emissionsTo sink a.noticed := by
  rw [observed, Account.noticed_map, Account.emissionsTo_unlogged]

/-- The instance at a place was made and asked just so, and fares in the session as it would alone. -/
structure FaresAlone (files : FileTree) (settings : Loader.Settings) (shares : List Share)
    (after : Session) (p : Nat) (c : Compiled) (t : ImportTable) (rs : List Request) : Prop where
  deeds : (Share.own p shares).map Share.deed = some (.make c t) :: rs.map fun r => some (.ask r)
  accounts : (Share.own p shares).map (fun share => observed share.account) =
    ((alone settings c).run files (useAlone t rs)).map observed
  left : after.instances[p]? = ((alone settings c).after files (useAlone t rs)).instances[0]?
  emissions (sink : Sink) :
    ((Share.merged sink shares).filter fun e => e.1 = some p).map Prod.snd =
      ((alone settings c).run files (useAlone t rs)).flatMap fun a => emissionsTo sink a.noticed

end Session

namespace Share

theorem map_snd_merged (sink : Sink) (shares : List Share) :
    (merged sink shares).map Prod.snd =
      shares.flatMap fun share => emissionsTo sink share.account.noticed := by
  unfold merged
  rw [List.map_flatMap]
  simp only [List.map_map, Function.comp_def, List.map_id']

/-- Of all that goes to a sink, the part of an instance is what its own shares send there. -/
theorem filter_merged (sink : Sink) (shares : List Share) (p : Nat) :
    ((merged sink shares).filter fun e => e.1 = some p).map Prod.snd =
      (own p shares).flatMap fun share => emissionsTo sink share.account.noticed := by
  induction shares with
  | nil => rfl
  | cons share shares ih =>
    rw [merged, List.flatMap_cons, List.filter_append, List.map_append]
    by_cases hp : share.place = some p
    · have hown : own p (share :: shares) = share :: own p shares :=
        List.filter_cons_of_pos (by simpa using hp)
      rw [hown, List.flatMap_cons, ← ih]
      congr 1
      rw [List.filter_eq_self.2 (by simp [hp])]
      simp [Function.comp_def]
    · have hown : own p (share :: shares) = own p shares :=
        List.filter_cons_of_neg (by simpa using hp)
      rw [hown, ← ih, List.filter_eq_nil_iff.2 (by simp [hp])]
      rfl

end Share

namespace Session

theorem exists_faresAlone {files : FileTree} {s : Session} (hs : s.instances = [])
    {ops : List Operation} {p : Nat} (hp : p < (s.after files ops).instances.length) :
    ∃ c t rs, FaresAlone files s.loader.settings (s.shares files ops) (s.after files ops) p c t rs := by
  have hfirst : s.instances.length ≤ p := by simp [hs]
  obtain ⟨c, t, i, rs, hi, hdeeds, haccounts, hleft⟩ := own_shares_of_new hfirst hp
  obtain ⟨hrun, hafter⟩ := run_useAlone files hi rs
  have hobserved : (Share.own p (s.shares files ops)).map (fun share => observed share.account) =
      ((alone s.loader.settings c).run files (useAlone t rs)).map observed := by
    rw [haccounts, hrun, List.map_cons, List.map_map, observed_map]
    rfl
  refine ⟨c, t, rs, hdeeds, hobserved, ?_, fun sink => ?_⟩
  · rw [hleft, hafter]
    rfl
  · have hsent := congrArg (List.flatMap fun a => emissionsTo sink a.noticed) hobserved
    rw [List.flatMap_map, List.flatMap_map] at hsent
    simp only [emissionsTo_observed] at hsent
    rw [Share.filter_merged, hsent]

/-- Every attempt to make an instance shows what it would show to a new loader. -/
theorem observed_of_make {s : Session} {files : FileTree} {ops : List Operation} {share : Share}
    (hshare : share ∈ s.shares files ops) {c : Compiled} {t : ImportTable}
    (hdeed : share.deed = some (.make c t)) :
    [observed share.account] =
      ((alone s.loader.settings c).run files [.instantiate 0 t]).map observed := by
  induction ops generalizing s with
  | nil => cases hshare
  | cons op ops ih =>
    obtain rfl | hrest := List.mem_cons.1 hshare
    · obtain ⟨hobserved, -⟩ := step_of_make files hdeed
      have hsame : ({ settings := s.loader.settings } : Loader).instantiate c t =
          s.loader.instantiate c t := Loader.instantiate_congr rfl c t
      have hrun : (alone s.loader.settings c).run files [.instantiate 0 t] =
          [Result.loaded <$> s.loader.instantiate c t] := by
        simp [run, step, alone, keepInstance, hsame]
      rw [hrun, List.map_singleton, observed_map]
      exact congrArg (fun a => [a]) hobserved
    · have hmade := ih hrest
      rwa [(loader_step s files op).1] at hmade

theorem silent_of_no_deed {s : Session} {files : FileTree} {ops : List Operation} {share : Share}
    (hshare : share ∈ s.shares files ops) (hdeed : share.deed = none) (sink : Sink) :
    emissionsTo sink share.account.noticed = [] := by
  induction ops generalizing s with
  | nil => cases hshare
  | cons op ops ih =>
    obtain rfl | hrest := List.mem_cons.1 hshare
    · exact (step_of_no_deed files hdeed).1 sink
    · exact ih hrest

end Session

/-- Instances are isolated. Whatever a host does, in any order, each instance is made, answers and is left
as if it had been alone with a new loader of the same settings; so is each attempt to make one that
fails. A sink receives the emissions of all operations in their order, of which those of each instance are
the ones it would have sent alone, and operations about no instance send none. -/
theorem instances_fare_alone (files : FileTree) (l : Loader) (compiled : List Handle)
    (ops : List Operation) :
    let s : Session := { loader := l, compiled }
    let shares := s.shares files ops
    shares.map Share.account = s.run files ops ∧
      (∀ p < (s.after files ops).instances.length, ∃ c t rs,
        Session.FaresAlone files l.settings shares (s.after files ops) p c t rs) ∧
      (∀ share ∈ shares,
        (∀ c t, share.deed = some (.make c t) → [Session.observed share.account] =
          ((Session.alone l.settings c).run files [.instantiate 0 t]).map Session.observed) ∧
        (share.deed = none → ∀ sink, emissionsTo sink share.account.noticed = [])) ∧
      (∀ sink, emissionsTo sink ((s.run files ops).flatMap Account.noticed) =
        (Share.merged sink shares).map Prod.snd) ∧
      ∀ (rs : Recorders) (r : Recorder), r.buffer < rs.buffers.size →
        (rs.record ((s.run files ops).flatMap Account.noticed)).emissions r =
          rs.emissions r ++ (Share.merged r.sink shares).map Prod.snd := by
  intro s shares
  have haccounts : shares.map Share.account = s.run files ops := s.account_shares files ops
  have hmerged (sink : Sink) : emissionsTo sink ((s.run files ops).flatMap Account.noticed) =
      (Share.merged sink shares).map Prod.snd := by
    rw [Share.map_snd_merged, ← haccounts, List.flatMap_map]
    exact List.filterMap_flatMap
  refine ⟨haccounts, fun p hp => Session.exists_faresAlone rfl hp, fun share hshare => ⟨?_, ?_⟩,
    hmerged, fun rs r hr => ?_⟩
  · exact fun c t hdeed => Session.observed_of_make hshare hdeed
  · exact fun hdeed sink => Session.silent_of_no_deed hshare hdeed sink
  · rw [rs.emissions_record _ r hr, hmerged]

/-- A guest that logs how often it was called before. -/
def countingGuest : Wasm.Module where
  types := #[⟨[.num .i32], []⟩, ⟨[], []⟩]
  imports := [⟨consoleModule, logFunction, .func 0⟩]
  functions := [1]
  globals := [⟨⟨.num .i32, true⟩, [.literal (.i32 0)]⟩]
  exports := [⟨"main", .func, 1⟩]
  codes := [⟨[], [.globalGet 0, .call 0, .globalGet 0, .literal (.i32 1),
    .numeric (.intBinary .w32 .add), .globalSet 0]⟩]

/-- Two instances of one module, with the same table and recorder: each counts its own calls. -/
theorem instances_fare_alone_countingGuest :
    let c : Compiled := ⟨"guest", countingGuest, 0⟩
    let t := ImportTable.integerLogger .w32 (.recorder 0)
    let call (p : Nat) : Operation := .request p (.invoke "main" [])
    let ops := [.instantiate 0 t, .instantiate 0 t, call 1, call 0, .clearCache, call 1]
    let s : Session := { loader := {}, compiled := [⟨0, c⟩] }
    1 < (s.after default ops).instances.length ∧
      (∃ c t rs, Session.FaresAlone default {} (s.shares default ops) (s.after default ops) 1 c t rs) ∧
      ((Recorders.mk #[#[]]).record ((s.run default ops).flatMap Account.noticed)).emissions ⟨0⟩ =
        [.integer 0, .integer 0, .integer 1] := by
  intro c t call ops s
  have htwo : 1 < (s.after default ops).instances.length := by decide +kernel
  obtain ⟨-, hfares, -, -, hrecord⟩ := instances_fare_alone default {} [⟨0, c⟩] ops
  refine ⟨htwo, hfares 1 htwo, (hrecord (Recorders.mk #[#[]]) ⟨0⟩ (by decide)).trans ?_⟩
  decide +kernel

end GuestHarness
