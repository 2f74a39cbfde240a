import GuestHarness.Proofs.Wasm.Inversion

/-! Each step leads from a typed state to a typed state, so that a run that comes to an end gives back
results of the function's types. -/
namespace GuestHarness.Wasm.Typing

variable {σ ε : Type} {c : Context} {p : Program σ ε} {s : Store σ} {t : Thread} {a : Scope}
  {final : List ValType}

/-- A jump goes to a block that goes on from what the jump takes along, or leaves the function. -/
theorem Enclosed.drop {locals : Array ValType} {results ts ends : List ValType}
    {labels : List (List ValType)} {ls : List Label} (h : Enclosed c locals results labels ls ends)
    {k : Nat} (hk : labels[k]? = some ts) :
    (ls.drop k = [] ∧ ts = results) ∨
      ∃ l outer labels' ls' below, ls.drop k = l :: ls' ∧ HaveTypes l.below below ∧
        l.arity = ts.length ∧
        Leads (c.within locals results labels') l.target (ts.reverse ++ below) outer ∧
        Enclosed c locals results labels' ls' outer := by
  induction h generalizing k with
  | function =>
    cases k with
    | zero =>
      cases hk
      exact .inl ⟨rfl, rfl⟩
    | succ k => cases hk
  | block hbelow harity htarget _ houter ih =>
    cases k with
    | zero =>
      cases hk
      exact .inr ⟨_, _, _, _, _, rfl, hbelow, harity, htarget, houter⟩
    | succ k => exact ih hk

theorem Enclosed.ends_eq {locals : Array ValType} {results ends : List ValType}
    {labels : List (List ValType)} (h : Enclosed c locals results labels [] ends) :
    ends = results := by
  cases h
  rfl

theorem Enclosed.exists_outer {locals : Array ValType} {results ends : List ValType}
    {labels : List (List ValType)} {l : Label} {ls : List Label}
    (h : Enclosed c locals results labels (l :: ls) ends) :
    ∃ outer labels' below, HaveTypes l.below below ∧
      Leads (c.within locals results labels') l.after (ends.reverse ++ below) outer ∧
      Enclosed c locals results labels' ls outer := by
  cases h with
  | block hbelow _ _ hafter houter => exact ⟨_, _, _, hbelow, hafter, houter⟩

/-- The thread goes on with other code and another stack. -/
theorem sound_next {code : List Instr} {stack : List Operand} {ts : List ValType}
    (hs : c.Suits s) (ha : a.Describes c t.labels t.locals t.arity)
    (hr : Returns c t.callers a.results final) (hstack : HaveTypes stack ts)
    (hcode : Leads (a.context c) code ts a.ends) :
    Sound (ε := ε) c final (.next s { t with code, stack }) :=
  .next hs ⟨a, ha, hr, ts, hstack, hcode⟩

theorem sound_leave (rest : List ValType) (hs : c.Suits s)
    (harity : t.arity = a.results.length) (hr : Returns c t.callers a.results final)
    (hstack : HaveTypes t.stack (a.results.reverse ++ rest)) :
    Sound (ε := ε) c final (Machine.leave s t) := by
  have htop := (hstack.take_drop (n := t.arity) (by simp [harity])).1
  unfold Machine.leave
  cases hcallers : t.callers with
  | nil =>
    rw [hcallers] at hr
    cases hr
    exact .returned hs htop
  | cons f fs =>
    rw [hcallers] at hr
    cases hr with
    | cons hresumes hreturns =>
      obtain ⟨b, rfl, hb, ts, hts, hcode⟩ := hresumes
      exact .next hs ⟨b, hb, hreturns, _, htop.append hts, hcode⟩

theorem sound_close (hs : c.Suits s) (hcode : t.code = []) (ht : Runs c t final) :
    Sound (ε := ε) c final (Machine.close s t) := by
  obtain ⟨a, ha, hr, ts, hts, hleads⟩ := ht
  rw [hcode, leads_nil] at hleads
  subst hleads
  have henclosed := ha.enclosed
  unfold Machine.close
  cases hlabels : t.labels with
  | nil =>
    rw [hlabels] at henclosed
    rw [henclosed.ends_eq] at hts
    exact sound_leave [] hs ha.arity hr (by simpa using hts)
  | cons l ls =>
    rw [hlabels] at henclosed
    obtain ⟨outer, labels, below, hbelow, hafter, houter⟩ := henclosed.exists_outer
    exact .next hs ⟨⟨a.locals, a.results, labels, outer⟩, ⟨ha.locals, houter, ha.arity⟩, hr, _,
      hts.append hbelow, hafter⟩

theorem sound_branch {k : Nat} {ts rest : List ValType} (hs : c.Suits s)
    (ha : a.Describes c t.labels t.locals t.arity) (hr : Returns c t.callers a.results final)
    (hk : a.labels[k]? = some ts) (hstack : HaveTypes t.stack (ts.reverse ++ rest)) :
    Sound (ε := ε) c final (Machine.branch s t k) := by
  unfold Machine.branch
  rcases ha.enclosed.drop hk with
    ⟨hdrop, rfl⟩ | ⟨l, outer, labels, ls, below, hdrop, hbelow, harity, htarget, houter⟩
  · rw [hdrop]
    exact sound_leave rest hs ha.arity hr hstack
  · rw [hdrop]
    have htop := (hstack.take_drop (n := l.arity) (by simp [harity])).1
    exact .next hs ⟨⟨a.locals, a.results, labels, outer⟩, ⟨ha.locals, houter, ha.arity⟩, hr, _,
      htop.append hbelow, htarget⟩

theorem sound_proceed (hs : c.Suits s) (ht : Runs c t final) :
    Sound c final (Machine.proceed p s t) := by
  unfold Machine.proceed
  split
  · exact .ended hs (by simp)
  · exact .next hs ht

/-- A defined function begins with its arguments on the stack of its caller, the last one on top. -/
theorem sound_enter (hp : Types c p) {f : Nat} {type : FuncType} {locals args : List Operand}
    {is : List Instr} (hf : p.functions[f]? = some (.defined type locals is)) (hs : c.Suits s)
    (hargs : HaveTypes args type.params.reverse) {callers : List Frame}
    (hr : Returns c callers type.results final) (depth spent : Nat) :
    Sound c final (Machine.enter p s args type locals is callers depth spent) := by
  obtain ⟨ts, hlocals, hbody⟩ := hp.bodies hf
  unfold Machine.enter
  split
  · exact .ended hs (by simp)
  refine sound_proceed hs ⟨⟨(type.params ++ ts).toArray, type.results, [type.results],
    type.results⟩, ⟨?_, .function, rfl⟩, hr, [], .nil, ?_⟩
  · exact (hargs.of_reverse.append hlocals).typedAt
  · simp only [body] at hbody
    split at hbody
    · rename_i e he
      exact ⟨e, he, hbody⟩
    · cases hbody

theorem Types.type_eq (hp : Types c p) {f : Nat} {type : FuncType} {function : Function}
    (hf : c.functions[f]? = some type) (hfunction : p.functions[f]? = some function) :
    function.type = type := by
  have h := hp.functions f
  rw [hf, hfunction] at h
  exact Option.some.inj h

theorem suits_callImport {caller : Caller} {index : Nat} {args : List Operand} {s' : Store σ}
    {answer : Except ε (List Operand)} (hs : c.Suits s)
    (h : Machine.callImport p caller index args s = (s', answer)) : c.Suits s' := by
  cases h
  exact hs

theorem Types.haveTypes_callImport (hp : Types c p) {f index : Nat} {type : FuncType}
    (hf : p.functions[f]? = some (.imported type index)) {caller : Caller}
    {args results : List Operand} {s' : Store σ} (hargs : HaveTypes args type.params.reverse)
    (h : Machine.callImport p caller index args s = (s', .ok results)) :
    HaveTypes results type.results.reverse := by
  cases hcall : p.call caller index args.reverse s.memories s.host with
  | mk host answer =>
    simp only [Machine.callImport, hcall, Prod.mk.injEq] at h
    obtain ⟨-, h⟩ := h
    cases answer with
    | error e => cases h
    | ok values =>
      cases h
      exact (hp.imports hf hargs.of_reverse (congrArg Prod.snd hcall)).reverse

theorem sound_call (hp : Types c p) {f : Nat} {type : FuncType} {rest : List ValType}
    (hf : c.functions[f]? = some type) (hs : c.Suits s)
    (ha : a.Describes c t.labels t.locals t.arity) (hr : Returns c t.callers a.results final)
    (hstack : HaveTypes t.stack (type.params.reverse ++ rest))
    (hcode : Leads (a.context c) t.code (type.results.reverse ++ rest) a.ends) :
    Sound c final (Machine.call p s t f) := by
  obtain ⟨htop, hbelow⟩ := hstack.take_drop (n := type.params.length) (by simp)
  unfold Machine.call
  cases hfunction : p.functions[f]? with
  | none => exact .ended hs (by simp)
  | some function =>
    cases function with
    | defined type' locals is =>
      obtain rfl : type' = type := hp.type_eq hf hfunction
      exact sound_enter hp hfunction hs htop
        (.cons ⟨a, rfl, ha, rest, hbelow, hcode⟩ hr) (t.depth + 1) t.spent
    | imported type' index =>
      obtain rfl : type' = type := hp.type_eq hf hfunction
      dsimp only
      split
      · rename_i hcall
        exact sound_next (suits_callImport hs hcall) ha hr
          ((hp.haveTypes_callImport hfunction htop hcall).append hbelow) hcode
      · rename_i hcall
        exact .ended (suits_callImport hs hcall) (by simp)

/-- A call in the place of the running function, whose results must be those of the called one. -/
theorem sound_tailCall (hp : Types c p) {f : Nat} {type : FuncType} {rest : List ValType}
    (hf : c.functions[f]? = some type) (hresults : type.results = a.results) (hs : c.Suits s)
    (harity : t.arity = a.results.length) (hr : Returns c t.callers a.results final)
    (hstack : HaveTypes t.stack (type.params.reverse ++ rest)) :
    Sound c final (Machine.tailCall p s t f) := by
  have htop := (hstack.take_drop (n := type.params.length) (by simp)).1
  unfold Machine.tailCall
  cases hfunction : p.functions[f]? with
  | none => exact .ended hs (by simp)
  | some function =>
    cases function with
    | defined type' locals is =>
      obtain rfl : type' = type := hp.type_eq hf hfunction
      exact sound_enter hp hfunction hs htop (hresults ▸ hr) t.depth t.spent
    | imported type' index =>
      obtain rfl : type' = type := hp.type_eq hf hfunction
      dsimp only
      split
      · rename_i hcall
        have htyped := hp.haveTypes_callImport hfunction htop hcall
        refine sound_leave [] (suits_callImport hs hcall) harity hr ?_
        rw [List.append_nil, ← hresults]
        exact htyped
      · rename_i hcall
        exact .ended (suits_callImport hs hcall) (by simp)

theorem sound_of_exchanges {ps rs rest : List ValType} {r : Step σ ε}
    (h : r.Exchanges s t ps rs) (hs : c.Suits s) (ha : a.Describes c t.labels t.locals t.arity)
    (hr : Returns c t.callers a.results final) (hstack : HaveTypes t.stack (ps.reverse ++ rest))
    (hcode : Leads (a.context c) t.code (rs.reverse ++ rest) a.ends) : Sound c final r := by
  cases h with
  | next host globals typed =>
    refine .next ?_ ⟨a, ha, hr, _, typed rest hstack, hcode⟩
    unfold Context.Suits
    rw [globals]
    exact hs
  | trapped kind => exact .ended hs (by simp)
  | stuck => exact .ended hs (by simp)

/-- A function that an element of a table refers to has the type it is called at. -/
theorem Types.type_of_indirect (hp : Types c p) {table typeIndex index f : Nat} {type : FuncType}
    (htype : c.types[typeIndex]? = some type)
    (h : Machine.indirect p s table typeIndex index = .ok f) : c.functions[f]? = some type := by
  revert h
  fun_cases Machine.indirect p s table typeIndex index <;> intro h <;> cases h
  rename_i hf
  rw [← hp.functions, hf, hp.types, htype]

/-- A block begins with its parameters on a stack of its own. A jump to it and its end go on above what
lies below them. -/
theorem sound_block {jump rest : List ValType} {type : FuncType} {is target : List Instr}
    {vs : List Operand} (hs : c.Suits s) (ha : a.Describes c t.labels t.locals t.arity)
    (hr : Returns c t.callers a.results final)
    (hstack : HaveTypes vs (type.params.reverse ++ rest))
    (htarget : Leads (a.context c) target (jump.reverse ++ rest) a.ends)
    (hafter : Leads (a.context c) t.code (type.results.reverse ++ rest) a.ends)
    (hbody : Leads ((a.context c).enter jump) is type.params.reverse type.results) :
    Sound (ε := ε) c final (.next s { t with
      code := is
      stack := vs.take type.params.length
      labels := ⟨jump.length, target, t.code, vs.drop type.params.length⟩ :: t.labels }) := by
  obtain ⟨htop, hbelow⟩ := hstack.take_drop (n := type.params.length) (by simp)
  exact .next hs ⟨⟨a.locals, a.results, jump :: a.labels, type.results⟩,
    ⟨ha.locals, .block hbelow rfl htarget hafter ha.enclosed, ha.arity⟩, hr, _, htop, hbody⟩

theorem Context.Suits.hasType (hs : c.Suits s) {x : Nat} {g : GlobalType} {v : Operand}
    (hx : c.globals[x]? = some g) (hv : s.globals[x]? = some v) : v.HasType g.type :=
  hs x v g.type hv (by simp [hx])

theorem Context.Suits.set (hs : c.Suits s) {x : Nat} {g : GlobalType} {v : Operand}
    (hx : c.globals[x]? = some g) (hv : v.HasType g.type) :
    c.Suits { s with globals := s.globals.setIfInBounds x v } :=
  TypedAt.set hs (by simp [hx]) hv

theorem sound_localSet {x : Nat} {type : ValType} {v : Operand} {vs : List Operand}
    {ts : List ValType} (hs : c.Suits s) (ha : a.Describes c t.labels t.locals t.arity)
    (hr : Returns c t.callers a.results final) (hx : a.locals[x]? = some type) (hv : v.HasType type)
    (hstack : HaveTypes vs ts) (hcode : Leads (a.context c) t.code ts a.ends) :
    Sound (ε := ε) c final
      (.next s { t with stack := vs, locals := t.locals.setIfInBounds x v }) :=
  .next hs ⟨a, ⟨ha.locals.set hx hv, ha.enclosed, ha.arity⟩, hr, ts, hstack, hcode⟩

/-- Carrying out an instruction of typed code leads to a typed state. -/
theorem sound_execute (hp : Types c p) {i : Instr} {ts : List ValType} (hs : c.Suits s)
    (ha : a.Describes c t.labels t.locals t.arity) (hr : Returns c t.callers a.results final)
    (hstack : HaveTypes t.stack ts) (hcode : Leads (a.context c) (i :: t.code) ts a.ends) :
    Sound c final (Machine.execute p s t i) := by
  obtain ⟨u, hu, hrest⟩ := exists_instr_of_leads_cons hcode
  by_cases hi : i.isStraight
  · obtain ⟨e, v, happly⟩ := exists_of_instr_straight hi hu
    obtain ⟨rest, rfl, rfl⟩ := Stack.apply_known.1 happly
    exact sound_of_exchanges (Machine.exchanges_execute p s t hi e v) hs ha hr hstack (hrest _ rfl)
  cases i <;> try exact absurd rfl hi
  case unreachable => exact .ended hs (by simp)
  case block type is =>
    obtain ⟨rest, rfl, rfl, hbody⟩ := exists_of_instr_block hu
    exact sound_block hs ha hr hstack (hrest _ rfl) (hrest _ rfl) hbody
  case loop type is =>
    obtain ⟨rest, rfl, rfl, hbody⟩ := exists_of_instr_loop hu
    -- A jump to a loop comes back to the loop itself.
    cases sound_block (ε := ε) hs ha hr hstack hcode (hrest _ rfl) hbody with
    | next hs ht => exact sound_proceed hs ht
  case cond type yes no =>
    obtain ⟨rest, rfl, rfl, hyes, hno⟩ := exists_of_instr_cond hu
    obtain ⟨b, vs, hvs, hstack⟩ := hstack.exists_i32
    simp only [Machine.execute, hvs]
    refine sound_block hs ha hr hstack (hrest _ rfl) (hrest _ rfl) ?_
    split
    · exact hno
    · exact hyes
  case br k =>
    obtain ⟨us, rest, hk, rfl⟩ := exists_of_instr_br hu
    exact sound_branch hs ha hr hk hstack
  case brIf k =>
    obtain ⟨us, rest, hk, rfl, rfl⟩ := exists_of_instr_brIf hu
    obtain ⟨b, vs, hvs, hstack⟩ := hstack.exists_i32
    simp only [Machine.execute, hvs]
    split
    · exact sound_next hs ha hr hstack (hrest _ rfl)
    · exact sound_branch (t := { t with stack := vs }) hs ha hr hk hstack
  case brTable ks k =>
    obtain ⟨us, rfl, hall⟩ := exists_of_instr_brTable hu
    obtain ⟨b, vs, hvs, hstack⟩ := hstack.exists_i32
    simp only [Machine.execute, hvs]
    have hmem : ks[b.toNat]?.getD k = k ∨ ks[b.toNat]?.getD k ∈ ks := by
      cases hb : ks[b.toNat]? with
      | none => exact .inl rfl
      | some l => exact .inr (List.mem_of_getElem? hb)
    obtain ⟨us, rest, hk, rfl⟩ := hall _ hmem
    exact sound_branch (t := { t with stack := vs }) hs ha hr hk hstack
  case ret =>
    obtain ⟨rest, rfl⟩ := exists_of_instr_ret hu
    exact sound_leave rest hs ha.arity hr hstack
  case call f =>
    obtain ⟨type, rest, hf, rfl, rfl⟩ := exists_of_instr_call hu
    exact sound_call hp hf hs ha hr hstack (hrest _ rfl)
  case callIndirect table k =>
    obtain ⟨type, rest, htype, rfl, rfl⟩ := exists_of_instr_callIndirect hu
    obtain ⟨b, vs, hvs, hstack⟩ := hstack.exists_i32
    simp only [Machine.execute, hvs]
    split
    · rename_i f hf
      exact sound_call (t := { t with stack := vs }) hp (hp.type_of_indirect htype hf) hs ha hr
        hstack (hrest _ rfl)
    · exact .ended hs (by simp)
  case returnCall f =>
    obtain ⟨type, rest, hf, hresults, rfl⟩ := exists_of_instr_returnCall hu
    exact sound_tailCall hp hf hresults hs ha.arity hr hstack
  case returnCallIndirect table k =>
    obtain ⟨type, rest, htype, hresults, rfl⟩ := exists_of_instr_returnCallIndirect hu
    obtain ⟨b, vs, hvs, hstack⟩ := hstack.exists_i32
    simp only [Machine.execute, hvs]
    split
    · rename_i f hf
      exact sound_tailCall (t := { t with stack := vs }) hp (hp.type_of_indirect htype hf)
        hresults hs ha.arity hr hstack
    · exact .ended hs (by simp)
  case localGet x =>
    obtain ⟨type, hx, rfl⟩ := exists_of_instr_localGet hu
    simp only [Machine.execute]
    split
    · rename_i v hv
      exact sound_next hs ha hr (.cons (ha.locals x v type hv hx) hstack) (hrest _ rfl)
    · exact .ended hs (by simp)
  case localSet x =>
    obtain ⟨type, us, hx, rfl, rfl⟩ := exists_of_instr_localSet hu
    obtain ⟨v, vs, hv, hstack, hvs⟩ := List.forall₂_cons_right_iff.1 hstack
    simp only [Machine.execute, hvs]
    exact sound_localSet hs ha hr hx hv hstack (hrest _ rfl)
  case localTee x =>
    obtain ⟨type, us, hx, rfl, rfl⟩ := exists_of_instr_localTee hu
    obtain ⟨v, vs, hv, -, hvs⟩ := List.forall₂_cons_right_iff.1 hstack
    simp only [Machine.execute, hvs]
    exact sound_localSet hs ha hr hx hv (hvs ▸ hstack) (hrest _ rfl)
  case globalGet x =>
    obtain ⟨g, hx, rfl⟩ := exists_of_instr_globalGet hu
    simp only [Machine.execute]
    split
    · rename_i v hv
      exact sound_next hs ha hr (.cons (hs.hasType hx hv) hstack) (hrest _ rfl)
    · exact .ended hs (by simp)
  case globalSet x =>
    obtain ⟨g, us, hx, rfl, rfl⟩ := exists_of_instr_globalSet hu
    obtain ⟨v, vs, hv, hstack, hvs⟩ := List.forall₂_cons_right_iff.1 hstack
    simp only [Machine.execute, hvs]
    exact sound_next (hs.set hx hv) ha hr hstack (hrest _ rfl)

theorem sound_step (hp : Types c p) (hs : c.Suits s) (ht : Runs c t final) :
    Sound c final (Machine.step p s t) := by
  unfold Machine.step
  cases hcode : t.code with
  | nil => exact sound_close hs hcode ht
  | cons i code =>
    obtain ⟨a, ha, hr, ts, hstack, hleads⟩ := ht
    rw [hcode] at hleads
    -- The count of the fuel is part of neither the variables nor the stack.
    dsimp only
    split
    · exact sound_execute (t := { t with code, spent := t.spent + i.cost }) hp
        (s := { s with spent := t.spent + i.cost }) hs ha hr hstack hleads
    · exact sound_execute (t := { t with code, spent := t.spent + i.cost }) hp hs ha hr hstack
        hleads

/-- A run leaves the global variables as their types say, and what it gives back has the right types. -/
theorem sound_run (hp : Types c p) (hs : c.Suits s) (ht : Runs c t final) (n : Nat) :
    c.Suits (Machine.run p n s t).2 ∧
      ∀ results, (Machine.run p n s t).1 = .returned results → HaveTypes results final.reverse := by
  induction n generalizing s t with
  | zero => exact ⟨hs, by simp [Machine.run]⟩
  | succ n ih =>
    rw [Machine.run]
    have hstep := sound_step hp hs ht
    generalize Machine.step p s t = r at hstep ⊢
    cases hstep with
    | next hs ht => exact ih hs ht
    | returned hs typed =>
      refine ⟨hs, fun results h => ?_⟩
      cases h
      exact typed
    | ended hs fails => exact ⟨hs, fun results h => absurd h (fails results)⟩

theorem trapped_of_enter {args : List Operand} {type : FuncType} {locals : List Operand}
    {is : List Instr} {callers : List Frame} {depth spent : Nat} {ending : Ending ε} {s' : Store σ}
    (h : Machine.enter p s args type locals is callers depth spent = .ended ending s') :
    ∃ kind, ending = .trapped kind := by
  unfold Machine.enter at h
  split at h
  · cases h
    exact ⟨_, rfl⟩
  · unfold Machine.proceed at h
    split at h <;> cases h
    exact ⟨_, rfl⟩

/-- A call from outside with arguments of the parameters' types does likewise. -/
theorem sound_invoke (hp : Types c p) (hs : c.Suits s) {f : Nat} {type : FuncType}
    (hf : c.functions[f]? = some type) {args : List Operand} (hargs : HaveTypes args type.params) :
    c.Suits (Machine.invoke p s f args).2 ∧
      ∀ results, (Machine.invoke p s f args).1 = .returned results →
        HaveTypes results type.results := by
  have hargs' : HaveTypes args.reverse type.params.reverse := hargs.reverse
  unfold Machine.invoke
  cases hfunction : p.functions[f]? with
  | none => exact ⟨hs, by simp⟩
  | some function =>
    cases function with
    | imported type' index =>
      obtain rfl : type' = type := hp.type_eq hf hfunction
      dsimp only
      split
      · rename_i values hcall
        refine ⟨suits_callImport hs hcall, fun results h => ?_⟩
        cases h
        exact (hp.haveTypes_callImport hfunction hargs' hcall).of_reverse
      · rename_i hcall
        exact ⟨suits_callImport hs hcall, by simp⟩
    | defined type' locals is =>
      obtain rfl : type' = type := hp.type_eq hf hfunction
      have hentered := sound_enter hp hfunction hs hargs' (.nil _) 0 s.spent
      dsimp only
      cases henter : Machine.enter p s args.reverse type' locals is [] 0 s.spent with
      | ended ending s' =>
        obtain ⟨kind, rfl⟩ := trapped_of_enter henter
        rw [henter] at hentered
        cases hentered with
        | ended hs => exact ⟨hs, by simp⟩
      | next s' t =>
        rw [henter] at hentered
        cases hentered with
        | next hs ht =>
          obtain ⟨hs', hresults⟩ := sound_run hp hs ht maxSteps
          dsimp only
          split
          · rename_i values s' hrun
            rw [hrun] at hs' hresults
            refine ⟨hs', fun results h => ?_⟩
            cases h
            exact (hresults values rfl).of_reverse
          · rename_i hother
            exact ⟨hs', fun results h => (hother results _ (Prod.ext h rfl)).elim⟩

end GuestHarness.Wasm.Typing
