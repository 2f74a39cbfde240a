import GuestHarness.Proofs.Wasm.Typed

/-! What the typing of an instruction says where the stack is known: which operands are on top of it,
and what is there afterwards. -/
namespace GuestHarness.Wasm.Typing

variable {c : Context} {ts : List ValType} {u : Stack}

theorem exists_of_instr_block {type : FuncType} {is : List Instr}
    (h : instr c (.block type is) (.known ts) = some u) :
    ∃ rest, ts = type.params.reverse ++ rest ∧ u = .known (type.results.reverse ++ rest) ∧
      Leads (c.enter type.results) is type.params.reverse type.results := by
  simp only [instr, Option.bind_eq_bind, Option.bind_eq_some_iff, Stack.popAll_known,
    Option.ite_none_right_eq_some, Option.some.injEq, Stack.ofTypes_eq_known] at h
  obtain ⟨_, ⟨rest, rfl, rfl⟩, e, he, hholds, rfl⟩ := h
  exact ⟨rest, rfl, Stack.pushAll_known _ _, e, he, hholds⟩

theorem exists_of_instr_loop {type : FuncType} {is : List Instr}
    (h : instr c (.loop type is) (.known ts) = some u) :
    ∃ rest, ts = type.params.reverse ++ rest ∧ u = .known (type.results.reverse ++ rest) ∧
      Leads (c.enter type.params) is type.params.reverse type.results := by
  simp only [instr, Option.bind_eq_bind, Option.bind_eq_some_iff, Stack.popAll_known,
    Option.ite_none_right_eq_some, Option.some.injEq, Stack.ofTypes_eq_known] at h
  obtain ⟨_, ⟨rest, rfl, rfl⟩, e, he, hholds, rfl⟩ := h
  exact ⟨rest, rfl, Stack.pushAll_known _ _, e, he, hholds⟩

theorem exists_of_instr_cond {type : FuncType} {yes no : List Instr}
    (h : instr c (.cond type yes no) (.known ts) = some u) :
    ∃ rest, ts = .i32 :: (type.params.reverse ++ rest) ∧
      u = .known (type.results.reverse ++ rest) ∧
      Leads (c.enter type.results) yes type.params.reverse type.results ∧
      Leads (c.enter type.results) no type.params.reverse type.results := by
  simp only [instr, Option.bind_eq_bind, Option.bind_eq_some_iff, Stack.pop_known,
    Option.ite_none_right_eq_some, Option.some.injEq, Stack.ofTypes_eq_known,
    Bool.and_eq_true] at h
  obtain ⟨_, ⟨us, rfl, rfl⟩, _, hpop, e, he, f, hf, ⟨heholds, hfholds⟩, rfl⟩ := h
  obtain ⟨rest, rfl, rfl⟩ := Stack.popAll_known.1 hpop
  exact ⟨rest, rfl, Stack.pushAll_known _ _, ⟨e, he, heholds⟩, f, hf, hfholds⟩

theorem exists_of_instr_br {k : Nat} (h : instr c (.br k) (.known ts) = some u) :
    ∃ us rest, c.labels[k]? = some us ∧ ts = us.reverse ++ rest := by
  replace h : plain c (.br k) (.known ts) = some u := h
  unfold plain at h
  simp only [Option.bind_eq_bind, Option.bind_eq_some_iff, Stack.popAll_known] at h
  obtain ⟨us, hus, _, ⟨rest, rfl, -⟩, -⟩ := h
  exact ⟨us, rest, hus, rfl⟩

theorem exists_of_instr_brIf {k : Nat} (h : instr c (.brIf k) (.known ts) = some u) :
    ∃ us rest, c.labels[k]? = some us ∧ ts = .i32 :: (us.reverse ++ rest) ∧
      u = .known (us.reverse ++ rest) := by
  replace h : plain c (.brIf k) (.known ts) = some u := h
  unfold plain at h
  simp only [Option.bind_eq_bind, Option.bind_eq_some_iff, Stack.pop_known] at h
  obtain ⟨us, hus, _, ⟨vs, rfl, rfl⟩, happly⟩ := h
  obtain ⟨rest, rfl, rfl⟩ := Stack.apply_known.1 happly
  exact ⟨us, rest, hus, rfl, rfl⟩

/-- Wherever the jump goes, its target takes along what is on top of the stack. -/
theorem exists_of_instr_brTable {ks : List Nat} {k : Nat}
    (h : instr c (.brTable ks k) (.known ts) = some u) :
    ∃ vs, ts = .i32 :: vs ∧ ∀ l, l = k ∨ l ∈ ks →
      ∃ us rest, c.labels[l]? = some us ∧ vs = us.reverse ++ rest := by
  replace h : plain c (.brTable ks k) (.known ts) = some u := h
  unfold plain at h
  simp only [Option.bind_eq_bind, Option.bind_eq_some_iff, Stack.pop_known,
    Option.ite_none_right_eq_some, Bool.and_eq_true, List.all_eq_true] at h
  obtain ⟨_, -, _, ⟨vs, rfl, rfl⟩, ⟨hall, hlast⟩, -⟩ := h
  refine ⟨vs, rfl, fun l hl => ?_⟩
  have hfits := hl.elim (fun h => h ▸ hlast) (hall l)
  split at hfits
  · rename_i us hus
    rw [Bool.and_eq_true, Option.isSome_iff_exists] at hfits
    obtain ⟨-, _, hpop⟩ := hfits
    obtain ⟨rest, hrest, -⟩ := Stack.popAll_known.1 hpop
    exact ⟨us, rest, hus, hrest⟩
  · cases hfits

theorem exists_of_instr_ret (h : instr c .ret (.known ts) = some u) :
    ∃ rest, ts = c.results.reverse ++ rest := by
  replace h : plain c .ret (.known ts) = some u := h
  unfold plain at h
  simp only [Option.bind_eq_bind, Option.bind_eq_some_iff, Stack.popAll_known] at h
  obtain ⟨_, ⟨rest, rfl, -⟩, -⟩ := h
  exact ⟨rest, rfl⟩

theorem exists_of_instr_call {f : Nat} (h : instr c (.call f) (.known ts) = some u) :
    ∃ type rest, c.functions[f]? = some type ∧ ts = type.params.reverse ++ rest ∧
      u = .known (type.results.reverse ++ rest) := by
  replace h : plain c (.call f) (.known ts) = some u := h
  unfold plain at h
  simp only [Option.bind_eq_bind, Option.bind_eq_some_iff, Stack.apply_known] at h
  obtain ⟨type, htype, rest, rfl, rfl⟩ := h
  exact ⟨type, rest, htype, rfl, rfl⟩

theorem exists_of_instr_callIndirect {table k : Nat}
    (h : instr c (.callIndirect table k) (.known ts) = some u) :
    ∃ type rest, c.types[k]? = some type ∧ ts = .i32 :: (type.params.reverse ++ rest) ∧
      u = .known (type.results.reverse ++ rest) := by
  replace h : plain c (.callIndirect table k) (.known ts) = some u := h
  unfold plain at h
  simp only [Option.bind_eq_bind, Option.bind_eq_some_iff] at h
  obtain ⟨type, htype, _, -, h⟩ := h
  split at h
  · cases h
  simp only [Option.bind_eq_some_iff, Stack.pop_known] at h
  obtain ⟨_, ⟨vs, rfl, rfl⟩, happly⟩ := h
  obtain ⟨rest, rfl, rfl⟩ := Stack.apply_known.1 happly
  exact ⟨type, rest, htype, rfl, rfl⟩

theorem exists_of_instr_returnCall {f : Nat} (h : instr c (.returnCall f) (.known ts) = some u) :
    ∃ type rest, c.functions[f]? = some type ∧ type.results = c.results ∧
      ts = type.params.reverse ++ rest := by
  replace h : plain c (.returnCall f) (.known ts) = some u := h
  unfold plain at h
  simp only [Option.bind_eq_bind, Option.bind_eq_some_iff] at h
  obtain ⟨type, htype, h⟩ := h
  split at h
  · cases h
  rename_i hresults
  simp only [Option.bind_eq_some_iff, Stack.popAll_known] at h
  obtain ⟨_, ⟨rest, rfl, -⟩, -⟩ := h
  exact ⟨type, rest, htype, not_not.1 hresults, rfl⟩

theorem exists_of_instr_returnCallIndirect {table k : Nat}
    (h : instr c (.returnCallIndirect table k) (.known ts) = some u) :
    ∃ type rest, c.types[k]? = some type ∧ type.results = c.results ∧
      ts = .i32 :: (type.params.reverse ++ rest) := by
  replace h : plain c (.returnCallIndirect table k) (.known ts) = some u := h
  unfold plain at h
  simp only [Option.bind_eq_bind, Option.bind_eq_some_iff] at h
  obtain ⟨type, htype, _, -, h⟩ := h
  split at h
  · cases h
  rename_i hresults
  simp only [Bool.or_eq_true, decide_eq_true_eq, not_or, not_not] at hresults
  simp only [Option.bind_eq_some_iff, Stack.pop_known] at h
  obtain ⟨_, ⟨vs, rfl, rfl⟩, _, hpop, -⟩ := h
  obtain ⟨rest, rfl, -⟩ := Stack.popAll_known.1 hpop
  exact ⟨type, rest, htype, hresults.2, rfl⟩

theorem exists_of_instr_localGet {x : Nat} (h : instr c (.localGet x) (.known ts) = some u) :
    ∃ type, c.locals[x]? = some type ∧ u = .known (type :: ts) := by
  replace h : plain c (.localGet x) (.known ts) = some u := h
  unfold plain at h
  simp only [Option.bind_eq_bind, Option.bind_eq_some_iff, Option.pure_def,
    Option.some.injEq] at h
  obtain ⟨type, hx, rfl⟩ := h
  exact ⟨type, hx, rfl⟩

theorem exists_of_instr_localSet {x : Nat} (h : instr c (.localSet x) (.known ts) = some u) :
    ∃ type us, c.locals[x]? = some type ∧ ts = type :: us ∧ u = .known us := by
  replace h : plain c (.localSet x) (.known ts) = some u := h
  unfold plain at h
  simp only [Option.bind_eq_bind, Option.bind_eq_some_iff, Stack.pop_known] at h
  obtain ⟨type, hx, us, rfl, rfl⟩ := h
  exact ⟨type, us, hx, rfl, rfl⟩

theorem exists_of_instr_localTee {x : Nat} (h : instr c (.localTee x) (.known ts) = some u) :
    ∃ type us, c.locals[x]? = some type ∧ ts = type :: us ∧ u = .known (type :: us) := by
  replace h : plain c (.localTee x) (.known ts) = some u := h
  unfold plain at h
  simp only [Option.bind_eq_bind, Option.bind_eq_some_iff, Stack.apply_known] at h
  obtain ⟨type, hx, us, rfl, rfl⟩ := h
  exact ⟨type, us, hx, rfl, rfl⟩

theorem exists_of_instr_globalGet {x : Nat} (h : instr c (.globalGet x) (.known ts) = some u) :
    ∃ g, c.globals[x]? = some g ∧ u = .known (g.type :: ts) := by
  replace h : plain c (.globalGet x) (.known ts) = some u := h
  unfold plain at h
  simp only [Option.bind_eq_bind, Option.bind_eq_some_iff, Option.pure_def,
    Option.some.injEq] at h
  obtain ⟨g, hx, rfl⟩ := h
  exact ⟨g, hx, rfl⟩

theorem exists_of_instr_globalSet {x : Nat} (h : instr c (.globalSet x) (.known ts) = some u) :
    ∃ g us, c.globals[x]? = some g ∧ ts = g.type :: us ∧ u = .known us := by
  replace h : plain c (.globalSet x) (.known ts) = some u := h
  unfold plain at h
  simp only [Option.bind_eq_bind, Option.bind_eq_some_iff, Stack.pop_known,
    Option.ite_none_right_eq_some] at h
  obtain ⟨g, hx, -, us, rfl, rfl⟩ := h
  exact ⟨g, us, hx, rfl, rfl⟩

theorem exists_of_instr_drop
    (h : instr c .drop (.known ts) = some u) : ∃ v, (Stack.known ts).apply [v] [] = some u := by
  replace h : plain c .drop (.known ts) = some u := h
  unfold plain at h
  simp only [Option.map_eq_some_iff] at h
  obtain ⟨⟨w, s⟩, hpop, rfl⟩ := h
  obtain ⟨v, us, rfl, -, rfl⟩ := Stack.popAny_known.1 hpop
  exact ⟨v, Stack.apply_known.2 ⟨us, rfl, rfl⟩⟩

theorem exists_of_instr_select {type : Option ValType}
    (h : instr c (.select type) (.known ts) = some u) :
    ∃ v, (Stack.known ts).apply [v, v, .i32] [v] = some u := by
  cases type with
  | some v =>
    replace h : plain c (.select (some v)) (.known ts) = some u := h
    unfold plain at h
    simp only [Option.bind_eq_bind, Option.bind_eq_some_iff, Stack.pop_known] at h
    obtain ⟨_, ⟨us, rfl, rfl⟩, happly⟩ := h
    obtain ⟨rest, rfl, rfl⟩ := Stack.apply_known.1 happly
    exact ⟨v, Stack.apply_known.2 ⟨rest, rfl, rfl⟩⟩
  | none =>
    replace h : plain c (.select none) (.known ts) = some u := h
    unfold plain at h
    simp only [Option.bind_eq_bind, Option.bind_eq_some_iff, Stack.pop_known,
      Option.ite_none_right_eq_some, Option.some.injEq] at h
    obtain ⟨_, ⟨us, rfl, rfl⟩, ⟨_, _⟩, hv, ⟨_, _⟩, hw, hsame, rfl⟩ := h
    obtain ⟨v, us, rfl, rfl, rfl⟩ := Stack.popAny_known.1 hv
    obtain ⟨w, us, rfl, rfl, rfl⟩ := Stack.popAny_known.1 hw
    simp only [Bool.and_eq_true, Bool.or_eq_true, decide_eq_true_eq, reduceCtorEq, false_or,
      Option.some.injEq] at hsame
    obtain ⟨-, rfl⟩ := hsame
    exact ⟨v, Stack.apply_known.2 ⟨us, rfl, rfl⟩⟩

theorem exists_of_instr_refIsNull 
    (h : instr c .refIsNull (.known ts) = some u) :
    ∃ e, (Stack.known ts).apply [.ref e] [.i32] = some u := by
  replace h : plain c .refIsNull (.known ts) = some u := h
  unfold plain at h
  simp only [Option.bind_eq_bind, Option.bind_eq_some_iff,
    Option.ite_none_right_eq_some, Option.some.injEq] at h
  obtain ⟨⟨_, _⟩, hpop, href, rfl⟩ := h
  obtain ⟨v, us, rfl, rfl, rfl⟩ := Stack.popAny_known.1 hpop
  cases v with
  | ref e => exact ⟨e, Stack.apply_known.2 ⟨us, rfl, rfl⟩⟩
  | num | vector => simp [ValType.isRef] at href

theorem apply_of_instr_vector {op : VectorOp} {s u : Stack} (h : instr c (.vector op) s = some u) :
    s.apply op.operands op.results = some u := by
  replace h : plain c (.vector op) s = some u := h
  unfold plain at h
  dsimp only at h
  split at h
  · exact h
  · split at h
    · exact h
    · cases h

theorem instr_of_isStraight {i : Instr} (hi : i.isStraight) (s : Stack) :
    instr c i s = plain c i s := by
  cases i <;> first
    | rfl
    | cases hi

theorem exists_of_instr_straight {i : Instr} (hi : i.isStraight)
    (h : instr c i (.known ts) = some u) :
    ∃ e v, (Stack.known ts).apply (i.exchange e v).1 (i.exchange e v).2 = some u := by
  have hplain := instr_of_isStraight (c := c) hi (.known ts)
  cases i <;> simp only [Instr.isStraight, Bool.false_eq_true] at hi
  case drop => exact ⟨.func, exists_of_instr_drop h⟩
  case select => exact ⟨.func, exists_of_instr_select h⟩
  case refIsNull => exact (exists_of_instr_refIsNull h).imp fun _ he => ⟨.i32, he⟩
  case vector => exact ⟨.func, .i32, apply_of_instr_vector h⟩
  all_goals
    rw [hplain] at h
    unfold plain at h
    simp only [Instr.exchange, Option.bind_eq_bind, Option.bind_eq_some_iff,
      Option.ite_none_right_eq_some, Stack.apply_nil, exists_const] at h ⊢
  case tableCopy | tableInit =>
    obtain ⟨_, -, _, -, h⟩ := h
    split at h
    · cases h
    · exact h
  all_goals first
    | exact h
    | exact h.2
    | exact h.choose_spec.2
    | exact ⟨_, h.choose_spec.2⟩

end GuestHarness.Wasm.Typing
