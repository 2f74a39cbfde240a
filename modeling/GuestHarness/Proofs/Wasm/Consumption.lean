import GuestHarness.Proofs.Wasm.States

/-! The count of the fuel along a run. The count of a thread is never behind that of the store, what the
store learns of it never falls, and a run that stops for want of fuel leaves none. -/
namespace GuestHarness.Wasm

variable {σ ε : Type}

/-- What is left of the fuel, as far as the store knows. -/
def Program.fuelLeft (p : Program σ ε) (s : Store σ) : Option Nat := p.fuel.map (· - s.spent)

theorem Program.fuelLeft_of_exhausted {p : Program σ ε} {s : Store σ}
    (h : p.exhausted s.spent = true) : p.fuelLeft s = some 0 := by
  unfold exhausted at h
  unfold fuelLeft
  cases hfuel : p.fuel with
  | none =>
    rw [hfuel] at h
    cases h
  | some n =>
    rw [hfuel] at h
    rw [Option.map_some, Nat.sub_eq_zero_of_le (of_decide_eq_true h)]

namespace Numeric

theorem binary32_ne_outOfFuel (op : IntBinary) (x y : UInt32) :
    binary32 op x y ≠ .error .outOfFuel := by
  fun_cases binary32 op x y <;> simp

theorem binary64_ne_outOfFuel (op : IntBinary) (x y : UInt64) :
    binary64 op x y ≠ .error .outOfFuel := by
  fun_cases binary64 op x y <;> simp

theorem truncated_ne_outOfFuel (target : Width) (signed saturating : Bool) (x : Whole) :
    truncated target signed saturating x ≠ .error (.trap .outOfFuel) := by
  have htruncate (lo hi : Int) : truncateTo lo hi saturating x ≠ .error .outOfFuel := by
    fun_cases truncateTo lo hi saturating x <;> simp
  unfold truncated
  obtain ⟨lo, hi⟩ := integerRange target signed
  dsimp only
  cases hresult : truncateTo lo hi saturating x with
  | error kind =>
    rintro heq
    cases heq
    exact htruncate lo hi hresult
  | ok n => cases target <;> simp

theorem converted_ne_outOfFuel (target : Width) (signed : Bool) (x : Operand) :
    converted target signed x ≠ .error (.trap .outOfFuel) := by
  fun_cases converted target signed x <;> simp

/-- Operators on numbers do not stop for want of fuel. -/
theorem ne_outOfFuel_of_apply {op : NumericOp} {stack : List Operand} {kind : TrapKind}
    (h : apply op stack = .error (.trap kind)) : kind ≠ .outOfFuel := by
  have hmap {r : Except Halt Operand} {f : Operand → List Operand}
      (hr : r ≠ .error (.trap .outOfFuel)) : r.map f ≠ .error (.trap .outOfFuel) := by
    cases r with
    | error e => simpa [Except.map] using hr
    | ok v => simp [Except.map]
  rintro rfl
  revert h
  fun_cases apply op stack
  case case2 hresult => exact fun heq => binary32_ne_outOfFuel _ _ _ (by cases heq; exact hresult)
  case case4 hresult => exact fun heq => binary64_ne_outOfFuel _ _ _ (by cases heq; exact hresult)
  all_goals first
    | exact hmap (truncated_ne_outOfFuel _ _ _ _)
    | exact hmap (converted_ne_outOfFuel _ _ _)
    | exact fun heq => by cases heq

end Numeric

/-- The store's count is at least `least` after the step, that of a thread which goes on is not behind it,
and a step that stops for want of fuel leaves none. -/
inductive Step.Counts (p : Program σ ε) (least : Nat) : Step σ ε → Prop
  | next {s : Store σ} {t : Thread} (stored : least ≤ s.spent) (ahead : s.spent ≤ t.spent) :
      Counts p least (.next s t)
  | ended {ending : Ending ε} {s : Store σ} (stored : least ≤ s.spent)
      (dry : ending = .trapped .outOfFuel → p.exhausted s.spent = true) :
      Counts p least (.ended ending s)

namespace Step.Counts

variable {p : Program σ ε} {s : Store σ}

theorem mono {least least' : Nat} {r : Step σ ε} (h : r.Counts p least) (hle : least' ≤ least) :
    r.Counts p least' := by
  cases h with
  | next stored ahead => exact .next (Nat.le_trans hle stored) ahead
  | ended stored dry => exact .ended (Nat.le_trans hle stored) dry

theorem stuck : (Step.stuck s : Step σ ε).Counts p s.spent := .ended (Nat.le_refl _) (by simp)

theorem trap {kind : TrapKind} (h : kind ≠ .outOfFuel) : (Step.trap kind s : Step σ ε).Counts p s.spent :=
  .ended (Nat.le_refl _) fun heq => absurd (Ending.trapped.inj heq) h

end Step.Counts

namespace Machine

section

variable {p : Program σ ε} {s : Store σ} {t : Thread}

theorem spent_of_callImport {caller : Caller} {index : Nat} {args : List Operand} {s' : Store σ}
    {answer : Except ε (List Operand)} (h : callImport p caller index args s = (s', answer)) :
    s'.spent = s.spent := by
  cases h
  rfl

theorem ne_outOfFuel_of_indirect {table type index : Nat} {kind : TrapKind}
    (h : indirect p s table type index = .error kind) : kind ≠ .outOfFuel := by
  revert h
  fun_cases indirect p s table type index <;> rintro ⟨⟩ <;> simp

/-- Entering a function costs one unit. -/
theorem counts_enter {args : List Operand} {type : FuncType} {locals : List Operand}
    {body : List Instr} {callers : List Frame} {depth spent : Nat} (h : s.spent ≤ spent) :
    (enter p s args type locals body callers depth spent).Counts p s.spent := by
  fun_cases enter p s args type locals body callers depth spent
  · exact .trap (by simp)
  · fun_cases proceed p s _
    · next hspent => exact .ended (Nat.le_succ_of_le h) fun _ => hspent
    · exact .next (Nat.le_refl _) (Nat.le_succ_of_le h)

variable (h : s.spent ≤ t.spent)
include h

theorem counts_leave : (leave s t : Step σ ε).Counts p s.spent := by
  fun_cases leave (ε := ε) s t
  · exact .ended h (by simp)
  · exact .next h (Nat.le_refl _)

theorem counts_close : (close s t : Step σ ε).Counts p s.spent := by
  fun_cases close (ε := ε) s t
  · exact counts_leave h
  · exact .next (Nat.le_refl _) h

theorem counts_branch (k : Nat) : (branch s t k : Step σ ε).Counts p s.spent := by
  fun_cases branch (ε := ε) s t k
  · exact counts_leave h
  · exact .next (Nat.le_refl _) h

/-- Where the fuel is asked for in vain, what the thread has spent is written back. -/
theorem counts_proceed : (proceed p s t).Counts p s.spent := by
  fun_cases proceed p s t
  · next hspent => exact .ended h fun _ => hspent
  · exact .next (Nat.le_refl _) h

theorem counts_call (f : Nat) : (call p s t f).Counts p s.spent := by
  fun_cases call p s t f
  · exact .stuck
  · exact counts_enter h
  · next hcall =>
    have hspent := spent_of_callImport hcall
    exact .next (Nat.le_of_eq hspent.symm) (Nat.le_trans (Nat.le_of_eq hspent) h)
  · next hcall => exact .ended (Nat.le_of_eq (spent_of_callImport hcall).symm) (by simp)

theorem counts_tailCall (f : Nat) : (tailCall p s t f).Counts p s.spent := by
  fun_cases tailCall p s t f
  · exact .stuck
  · exact counts_enter h
  · next hcall =>
    have hspent := spent_of_callImport hcall
    rw [← hspent]
    exact counts_leave (Nat.le_trans (Nat.le_of_eq hspent) h)
  · next hcall => exact .ended (Nat.le_of_eq (spent_of_callImport hcall).symm) (by simp)

theorem counts_memoryStep (i : Instr) : (memoryStep p s t i).Counts p s.spent := by
  fun_cases memoryStep p s t i
  all_goals first
    | exact .stuck
    | exact .trap (by simp)
    | exact .next (Nat.le_refl _) h

theorem counts_tableStep (i : Instr) : (tableStep s t i : Step σ ε).Counts p s.spent := by
  fun_cases tableStep (ε := ε) s t i
  all_goals first
    | exact .stuck
    | exact .trap (by simp)
    | exact .next (Nat.le_refl _) h

theorem counts_atomic (op : AtomicOp) (arg : MemArg) : (atomic p s t op arg).Counts p s.spent := by
  fun_cases atomic p s t op arg
  -- Only a compare-and-exchange decides whether it writes.
  case case12 =>
    rename_i s' _
    have hspent : s'.spent = s.spent := by
      dsimp only [s']
      split <;> rfl
    exact .next (Nat.le_of_eq hspent.symm) (Nat.le_trans (Nat.le_of_eq hspent) h)
  all_goals first
    | exact .stuck
    | exact .trap (by simp)
    | exact .next (Nat.le_refl _) h

theorem counts_execute (i : Instr) : (execute p s t i).Counts p s.spent := by
  fun_cases execute p s t i
  all_goals first
    | exact .stuck
    | exact .next (Nat.le_refl _) h
    | exact counts_proceed (by exact h)
    | exact counts_branch (by exact h) _
    | exact counts_leave (by exact h)
    | exact counts_call (by exact h) _
    | exact counts_tailCall (by exact h) _
    | exact counts_memoryStep h _
    | exact counts_tableStep h _
    | exact counts_atomic h _ _
    | exact .trap (Numeric.ne_outOfFuel_of_apply ‹_›)
    | exact .trap (ne_outOfFuel_of_indirect ‹_›)
    | exact .trap (by simp)

/-- An instruction that writes back does so before it is carried out. -/
theorem counts_step : (step p s t).Counts p s.spent := by
  unfold step
  cases t.code with
  | nil => exact counts_close h
  | cons i code =>
    dsimp only
    have hspent : s.spent ≤ t.spent + i.cost := Nat.le_add_right_of_le h
    split
    · exact (counts_execute (s := { s with spent := t.spent + i.cost })
        (t := { t with code, spent := t.spent + i.cost }) (Nat.le_refl _) i).mono hspent
    · exact counts_execute (t := { t with code, spent := t.spent + i.cost }) hspent i

/-- In a run the store's count does not fall, and a run that stops for want of fuel leaves none. -/
theorem spent_run (n : Nat) : s.spent ≤ (run p n s t).2.spent ∧
    ((run p n s t).1 = .trapped .outOfFuel → p.exhausted (run p n s t).2.spent = true) := by
  induction n generalizing s t with
  | zero => exact ⟨Nat.le_refl _, by simp [run]⟩
  | succ n ih =>
    have hcounts : (step p s t).Counts p s.spent := counts_step h
    rw [run]
    cases hstep : step p s t with
    | next s' t' =>
      rw [hstep] at hcounts
      cases hcounts with
      | next stored ahead =>
        obtain ⟨hgrows, hdry⟩ := ih ahead
        exact ⟨Nat.le_trans stored hgrows, hdry⟩
    | ended ending s' =>
      rw [hstep] at hcounts
      cases hcounts with
      | ended stored dry => exact ⟨stored, dry⟩

end

/-- So it is with a call from outside. -/
theorem spent_invoke (p : Program σ ε) (s : Store σ) (f : Nat) (args : List Operand) :
    s.spent ≤ (invoke p s f args).2.spent ∧
      ((invoke p s f args).1 = .trapped .outOfFuel →
        p.exhausted (invoke p s f args).2.spent = true) := by
  have hentered (type : FuncType) (locals : List Operand) (body : List Instr) :
      (enter p s args.reverse type locals body [] 0 s.spent).Counts p s.spent :=
    counts_enter (Nat.le_refl _)
  fun_cases invoke p s f args
  case case1 => exact ⟨Nat.le_refl _, by simp⟩
  case case2 hcall | case3 hcall => exact ⟨Nat.le_of_eq (spent_of_callImport hcall).symm, by simp⟩
  case case4 type locals body _ s' t henter results s'' hrun =>
    cases henter ▸ hentered type locals body with
    | next stored ahead =>
      have hgrows := (spent_run (p := p) ahead maxSteps).1
      rw [hrun] at hgrows
      exact ⟨Nat.le_trans stored hgrows, by simp⟩
  case case5 type locals body _ s' t henter _ =>
    cases henter ▸ hentered type locals body with
    | next stored ahead =>
      obtain ⟨hgrows, hdry⟩ := spent_run (p := p) ahead maxSteps
      exact ⟨Nat.le_trans stored hgrows, hdry⟩
  case case6 type locals body _ ending s' henter =>
    cases henter ▸ hentered type locals body with
    | ended stored dry => exact ⟨stored, dry⟩

/-- Only the guest's own functions cost anything. -/
theorem spent_invoke_of_not_defined {p : Program σ ε} {f : Nat}
    (h : ∀ type locals body, p.functions[f]? ≠ some (.defined type locals body)) (s : Store σ)
    (args : List Operand) : (invoke p s f args).2.spent = s.spent := by
  fun_cases invoke p s f args
  case case1 => rfl
  case case2 hcall | case3 hcall => exact spent_of_callImport hcall
  all_goals exact absurd ‹_› (h _ _ _)

/-- Segments are copied free of charge. -/
theorem Prepares.fuelLeft {p : Program σ ε} {s s' : Store σ} (h : Prepares s s') :
    p.fuelLeft s' = p.fuelLeft s := by
  obtain ⟨memories, tables, rfl⟩ := h
  rfl

theorem prepares_of_copied {p : Program σ ε} {m : Module} {s s' : Store σ}
    (h : copied p m s = .ok s') : Prepares s s' := by
  obtain ⟨s₁, helements, hdatas⟩ := foldlM_of_copied h
  exact (prepares_foldlM prepares_placeElements helements).trans
    (prepares_foldlM prepares_placeData hdatas)

end Machine
end GuestHarness.Wasm
