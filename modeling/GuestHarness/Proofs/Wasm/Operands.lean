import Mathlib.Data.List.Forall2
import GuestHarness.Wasm.Machine
import GuestHarness.Wasm.Typing.Stack

/-! Operands and their types: of single ones, of stacks, and of variables. Of a reference only that it
is one counts, so that tables and references need no types of their own. -/
namespace GuestHarness.Wasm

inductive Operand.HasType : Operand → ValType → Prop
  | i32 (b : UInt32) : HasType (.i32 b) .i32
  | i64 (b : UInt64) : HasType (.i64 b) .i64
  | f32 (b : UInt32) : HasType (.f32 b) .f32
  | f64 (b : UInt64) : HasType (.f64 b) .f64
  | vector (low high : UInt64) : HasType (.vector low high) .vector
  | ref (target : Option Nat) (t : RefType) : HasType (.ref target) (.ref t)

/-- The operands of a stack have these types, the top first. -/
abbrev HaveTypes : List Operand → List ValType → Prop := List.Forall₂ Operand.HasType

/-- What is found at a place has the type that is found there. -/
def TypedAt (vs : Array Operand) (ts : Array ValType) : Prop :=
  ∀ (x : Nat) (v : Operand) (t : ValType), vs[x]? = some v → ts[x]? = some t → v.HasType t

namespace Operand.HasType

theorem ofLiteral (l : Literal) : (Operand.ofLiteral l).HasType l.type := by
  cases l <;> constructor

theorem zero (t : ValType) : (Operand.zero t).HasType t := by
  cases t with
  | num t => cases t <;> constructor
  | vector => constructor
  | ref t => constructor

theorem ofBool (b : Bool) : (Operand.ofBool b).HasType .i32 := .i32 _

theorem ofValue (v : Value) : (Operand.ofValue v).HasType (.num v.type) := by
  cases v <;> constructor

theorem ofWidth (w : Width) (bits : UInt64) : (Machine.ofWidth w bits).HasType w.int := by
  cases w <;> constructor

end Operand.HasType

namespace HaveTypes

variable {vs : List Operand} {ts us : List ValType}

/-- The operands on top of a stack, of which only the number is told. -/
theorem take_drop {n : Nat} (h : HaveTypes vs (ts ++ us)) (hn : n = ts.length) :
    HaveTypes (vs.take n) ts ∧ HaveTypes (vs.drop n) us := by
  subst hn
  exact ⟨by simpa using List.forall₂_take ts.length h, by simpa using List.forall₂_drop ts.length h⟩

theorem exists_i32 (h : HaveTypes vs (.i32 :: ts)) :
    ∃ b ws, vs = .i32 b :: ws ∧ HaveTypes ws ts := by
  obtain ⟨v, ws, hv, hws, rfl⟩ := List.forall₂_cons_right_iff.1 h
  cases hv
  exact ⟨_, ws, rfl, hws⟩

theorem append {ws : List Operand} (h : HaveTypes vs ts) (h' : HaveTypes ws us) :
    HaveTypes (vs ++ ws) (ts ++ us) := List.rel_append h h'

theorem reverse (h : HaveTypes vs ts) : HaveTypes vs.reverse ts.reverse :=
  List.forall₂_reverse_iff.2 h

theorem of_reverse (h : HaveTypes vs ts.reverse) : HaveTypes vs.reverse ts := by
  simpa using h.reverse

theorem ofValues (values : List Value) :
    HaveTypes (values.map .ofValue) (values.map fun v => .num v.type) := by
  induction values with
  | nil => exact .nil
  | cons v values ih => exact .cons (.ofValue v) ih

theorem typedAt (h : HaveTypes vs ts) : TypedAt vs.toArray ts.toArray := by
  intro x v t hv ht
  rw [List.getElem?_toArray] at hv ht
  exact List.forall₂_zip h (List.mem_of_getElem? (List.getElem?_zip_eq_some.2 ⟨hv, ht⟩))

end HaveTypes

theorem TypedAt.set {vs : Array Operand} {ts : Array ValType} (h : TypedAt vs ts) {x : Nat}
    {v : Operand} {t : ValType} (ht : ts[x]? = some t) (hv : v.HasType t) :
    TypedAt (vs.setIfInBounds x v) ts := by
  intro y w u hw hu
  rw [Array.getElem?_setIfInBounds] at hw
  split at hw
  · rename_i hxy
    subst hxy
    rw [ht] at hu
    cases hu
    split at hw
    · cases hw
      exact hv
    · cases hw
  · exact h y w u hw hu

namespace Typing.Stack

/-- The stack at a point that is reached: all of its operands are known, the top first. -/
def known (ts : List ValType) : Stack := ⟨ts.map some, false⟩

theorem pop_known {ts : List ValType} {t : ValType} {s : Stack} :
    (known ts).pop t = some s ↔ ∃ us, ts = t :: us ∧ s = known us := by
  cases ts with
  | nil => simp [pop, popAny, known]
  | cons u us =>
    simp only [pop, popAny, known, List.map_cons, Option.bind_eq_bind, Option.bind_some]
    constructor
    · intro h
      split at h
      · rename_i hu
        cases h
        simp at hu
        exact ⟨us, by rw [hu], rfl⟩
      · cases h
    · rintro ⟨us', h, rfl⟩
      cases h
      simp

theorem popAny_known {ts : List ValType} {t : Option ValType} {s : Stack} :
    (known ts).popAny = some (t, s) ↔ ∃ u us, ts = u :: us ∧ t = some u ∧ s = known us := by
  cases ts with
  | nil => simp [popAny, known]
  | cons u us =>
    simp only [popAny, known, List.map_cons, Option.some.injEq, Prod.mk.injEq]
    constructor
    · rintro ⟨rfl, rfl⟩
      exact ⟨u, us, rfl, rfl, rfl⟩
    · rintro ⟨u', us', h, rfl, rfl⟩
      cases h
      exact ⟨rfl, rfl⟩

theorem foldlM_pop_known {ts us : List ValType} {s : Stack} :
    us.foldlM pop (known ts) = some s ↔ ∃ rest, ts = us ++ rest ∧ s = known rest := by
  induction us generalizing ts with
  | nil => simp [eq_comm]
  | cons u us ih =>
    simp only [List.foldlM_cons, Option.bind_eq_bind, Option.bind_eq_some_iff, pop_known]
    constructor
    · rintro ⟨_, ⟨vs, rfl, rfl⟩, h⟩
      obtain ⟨rest, rfl, rfl⟩ := ih.1 h
      exact ⟨rest, rfl, rfl⟩
    · rintro ⟨rest, rfl, rfl⟩
      exact ⟨_, ⟨us ++ rest, rfl, rfl⟩, ih.2 ⟨rest, rfl, rfl⟩⟩

theorem popAll_known {ts us : List ValType} {s : Stack} :
    (known ts).popAll us = some s ↔ ∃ rest, ts = us.reverse ++ rest ∧ s = known rest :=
  foldlM_pop_known

theorem push_known (ts : List ValType) (t : ValType) : (known ts).push t = known (t :: ts) := rfl

theorem pushAll_known (ts us : List ValType) : (known ts).pushAll us = known (us.reverse ++ ts) := by
  induction us generalizing ts with
  | nil => rfl
  | cons u us ih =>
    simpa [pushAll, List.foldl_cons, push_known] using ih (u :: ts)

theorem apply_known {ts ps rs : List ValType} {s : Stack} :
    (known ts).apply ps rs = some s ↔
      ∃ rest, ts = ps.reverse ++ rest ∧ s = known (rs.reverse ++ rest) := by
  simp only [apply, Option.map_eq_some_iff, popAll_known]
  constructor
  · rintro ⟨_, ⟨rest, rfl, rfl⟩, rfl⟩
    exact ⟨rest, rfl, pushAll_known rest rs⟩
  · rintro ⟨rest, rfl, rfl⟩
    exact ⟨known rest, ⟨rest, rfl, rfl⟩, pushAll_known rest rs⟩

theorem apply_nil (s : Stack) : s.apply [] [] = some s := rfl

theorem holds_known {ts us : List ValType} : (known ts).holds us = true ↔ ts = us.reverse := by
  unfold holds
  cases h : (known ts).popAll us with
  | none =>
    refine iff_of_false (by simp) fun ht => ?_
    rw [popAll_known.2 ⟨[], by simpa using ht, rfl⟩] at h
    cases h
  | some s =>
    obtain ⟨rest, rfl, rfl⟩ := popAll_known.1 h
    simp [known]

theorem ofTypes_eq_known (ts : List ValType) : ofTypes ts = known ts.reverse := by
  simp [ofTypes, known]

end Typing.Stack

namespace Numeric

theorem hasType_truncated {target : Width} {signed saturating : Bool} {x : Whole} {v : Operand}
    (h : truncated target signed saturating x = .ok v) : v.HasType target.int := by
  simp only [truncated] at h
  split at h
  · cases h
  · cases target <;> (cases h; constructor)

theorem hasType_converted {target : Width} {signed : Bool} {x v : Operand}
    (h : converted target signed x = .ok v) : v.HasType target.float := by
  revert h
  fun_cases converted target signed x <;> intro h <;> cases h <;> constructor

theorem haveTypes_of_map {r : Except Halt Operand} {vs ws : List Operand} {t : ValType}
    {ts : List ValType} (h : r.map (· :: vs) = .ok ws) (hr : ∀ v, r = .ok v → v.HasType t)
    (hvs : HaveTypes vs ts) : HaveTypes ws (t :: ts) := by
  cases r with
  | error e => cases h
  | ok v =>
    cases h
    exact .cons (hr v rfl) hvs

/-- An operator that goes on leaves its result in the place of its operands. -/
theorem haveTypes_apply {op : NumericOp} {vs ws : List Operand} {ts : List ValType}
    (h : apply op vs = .ok ws) (hvs : HaveTypes vs (op.type.1.reverse ++ ts)) :
    HaveTypes ws (op.type.2 :: ts) := by
  revert h
  fun_cases apply op vs <;> intro h <;>
    simp only [NumericOp.type, List.reverse_cons, List.reverse_nil, List.nil_append,
      List.cons_append, List.forall₂_cons] at hvs
  case case20 | case21 => exact haveTypes_of_map h (fun _ => hasType_truncated) hvs.2
  case case22 => exact haveTypes_of_map h (fun _ => hasType_converted) hvs.2
  all_goals cases h
  all_goals first
    | exact .cons (by constructor) hvs.2.2
    | exact .cons (by constructor) hvs.2

end Numeric
end GuestHarness.Wasm
