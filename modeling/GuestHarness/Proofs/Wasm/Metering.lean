import GuestHarness.Proofs.Wasm.ImportCalls

/-! Runs with more fuel. Fuel decides nothing but where a run stops: with a larger supply, or without
metering, each step is the same, except that a run which stopped for want of fuel goes on. -/
namespace GuestHarness.Wasm

variable {σ ε : Type}

/-- A supply of fuel lasts at least as long as another one; without metering it always lasts. -/
def Lasts (fuel fuel' : Option Nat) : Prop := ∀ n ∈ fuel', ∃ k ∈ fuel, k ≤ n

/-- After the same has been spent of both, no more is left of the smaller supply. -/
theorem Lasts.sub {fuel fuel' : Option Nat} (h : Lasts fuel fuel') (spent : Nat) :
    Lasts (fuel.map (· - spent)) (fuel'.map (· - spent)) := by
  intro left hleft
  obtain ⟨n, hn, rfl⟩ := Option.map_eq_some_iff.1 hleft
  obtain ⟨k, hk, hkn⟩ := h n hn
  exact ⟨k - spent, Option.map_eq_some_iff.2 ⟨k, hk, rfl⟩, Nat.sub_le_sub_right hkn spent⟩

/-- The program with another supply of fuel. -/
def Program.withFuel (p : Program σ ε) (fuel : Option Nat) : Program σ ε := { p with fuel }

/-- What exhausts a supply exhausts one that does not last longer. -/
theorem Program.exhausted_of_withFuel {p : Program σ ε} {fuel : Option Nat} (h : Lasts p.fuel fuel)
    {spent : Nat} (hspent : (p.withFuel fuel).exhausted spent = true) : p.exhausted spent = true := by
  unfold exhausted withFuel at *
  cases fuel with
  | none => cases hspent
  | some n =>
    obtain ⟨k, hk, hkn⟩ := h n rfl
    rw [Option.mem_def] at hk
    rw [hk]
    dsimp only at hspent ⊢
    simp only [decide_eq_true_eq] at hspent ⊢
    omega

/-- The first step is the second one, unless it stops for want of fuel. -/
def Step.Stints (r r' : Step σ ε) : Prop := r' = r ∨ ∃ s, r = .trap .outOfFuel s

namespace Machine

section

variable {p : Program σ ε} {fuel : Option Nat} (h : Lasts p.fuel fuel) (s : Store σ) (t : Thread)
include h

theorem stints_proceed : (proceed p s t).Stints (proceed (p.withFuel fuel) s t) := by
  unfold proceed
  cases hspent : p.exhausted t.spent with
  | true => exact .inr ⟨_, rfl⟩
  | false =>
    have hmore : (p.withFuel fuel).exhausted t.spent = false := by
      by_contra hne
      simp [Program.exhausted_of_withFuel h (by simpa using hne)] at hspent
    rw [hmore]
    exact .inl rfl

theorem stints_enter (args : List Operand) (type : FuncType) (locals : List Operand)
    (body : List Instr) (callers : List Frame) (depth spent : Nat) :
    (enter p s args type locals body callers depth spent).Stints
      (enter (p.withFuel fuel) s args type locals body callers depth spent) := by
  unfold enter
  split
  · exact .inl rfl
  · exact stints_proceed h s _

theorem stints_call (f : Nat) : (call p s t f).Stints (call (p.withFuel fuel) s t f) := by
  have hfunctions : (p.withFuel fuel).functions = p.functions := rfl
  unfold call
  rw [hfunctions]
  cases p.functions[f]? with
  | none => exact .inl rfl
  | some function =>
    cases function with
    | imported type index => exact .inl rfl
    | defined type locals body => exact stints_enter h s ..

theorem stints_tailCall (f : Nat) :
    (tailCall p s t f).Stints (tailCall (p.withFuel fuel) s t f) := by
  have hfunctions : (p.withFuel fuel).functions = p.functions := rfl
  unfold tailCall
  rw [hfunctions]
  cases p.functions[f]? with
  | none => exact .inl rfl
  | some function =>
    cases function with
    | imported type index => exact .inl rfl
    | defined type locals body => exact stints_enter h s ..

/-- Only loops and calls ask for fuel. -/
theorem stints_execute (i : Instr) :
    (execute p s t i).Stints (execute (p.withFuel fuel) s t i) := by
  have hindirect (table type index : Nat) : indirect (p.withFuel fuel) s table type index =
      indirect p s table type index := rfl
  cases i with
  | loop type body => exact stints_proceed h s _
  | call f => exact stints_call h s t f
  | returnCall f => exact stints_tailCall h s t f
  | callIndirect table type =>
    simp only [execute, hindirect]
    split
    · split
      · exact stints_call h s _ _
      · exact .inl rfl
    · exact .inl rfl
  | returnCallIndirect table type =>
    simp only [execute, hindirect]
    split
    · split
      · exact stints_tailCall h s _ _
      · exact .inl rfl
    · exact .inl rfl
  | _ => exact .inl rfl

theorem stints_step : (step p s t).Stints (step (p.withFuel fuel) s t) := by
  unfold step
  cases t.code with
  | nil => exact .inl rfl
  | cons i code => exact stints_execute h _ _ i

/-- With more fuel a run makes the calls it made and comes to the same, unless it stopped for want of
fuel; then it may go on to further calls. -/
theorem run_withFuel (n : Nat) :
    callsOfRun p n s t <+: callsOfRun (p.withFuel fuel) n s t ∧
      ((run p n s t).1 ≠ .trapped .outOfFuel → run (p.withFuel fuel) n s t = run p n s t) := by
  induction n generalizing s t with
  | zero => exact ⟨List.prefix_rfl, fun _ => rfl⟩
  | succ n ih =>
    have hnext : nextCall? (p.withFuel fuel) s t = nextCall? p s t := rfl
    simp only [run, callsOfRun, hnext]
    obtain hstep | ⟨s', hstep⟩ := stints_step h s t
    · rw [hstep]
      cases step p s t with
      | next s' t' =>
        obtain ⟨hcalls, hsame⟩ := ih s' t'
        exact ⟨(List.prefix_append_right_inj _).2 hcalls, hsame⟩
      | ended ending s' => exact ⟨List.prefix_rfl, fun _ => rfl⟩
    · rw [hstep]
      exact ⟨by simp [Step.trap], fun hdry => absurd rfl hdry⟩

theorem invoke_withFuel (f : Nat) (args : List Operand) :
    callsOfInvoke p s f args <+: callsOfInvoke (p.withFuel fuel) s f args ∧
      ((invoke p s f args).1 ≠ .trapped .outOfFuel →
        invoke (p.withFuel fuel) s f args = invoke p s f args) := by
  have hfunctions : (p.withFuel fuel).functions = p.functions := rfl
  unfold invoke callsOfInvoke
  rw [hfunctions]
  cases p.functions[f]? with
  | none => exact ⟨List.prefix_rfl, fun _ => rfl⟩
  | some function =>
    cases function with
    | imported type index => exact ⟨List.prefix_rfl, fun _ => rfl⟩
    | defined type locals body =>
      dsimp only
      obtain hentered | ⟨s', hentered⟩ := stints_enter h s args.reverse type locals body [] 0 s.spent
      · rw [hentered]
        cases enter p s args.reverse type locals body [] 0 s.spent with
        | ended ending s' => exact ⟨List.prefix_rfl, fun _ => rfl⟩
        | next s' t =>
          obtain ⟨hcalls, hsame⟩ := run_withFuel h s' t maxSteps
          refine ⟨hcalls, fun hfueled => ?_⟩
          dsimp only at hfueled ⊢
          rw [hsame fun hdry => hfueled ?_]
          generalize run p maxSteps s' t = result at hdry
          obtain ⟨ending, s''⟩ := result
          cases hdry
          rfl
      · rw [hentered]
        refine ⟨?_, fun hfueled => absurd rfl hfueled⟩
        exact List.nil_prefix

theorem start_withFuel (m : Module) :
    callsOfStart p m s <+: callsOfStart (p.withFuel fuel) m s ∧
      ((start p m s).2 ≠ .error (.trapped .outOfFuel) →
        start (p.withFuel fuel) m s = start p m s) := by
  unfold start callsOfStart
  cases m.start with
  | none => exact ⟨List.prefix_rfl, fun _ => rfl⟩
  | some f =>
    obtain ⟨hcalls, hsame⟩ := invoke_withFuel h s f []
    refine ⟨hcalls, fun hfueled => ?_⟩
    dsimp only at hfueled ⊢
    rw [hsame fun hdry => hfueled ?_]
    generalize invoke p s f [] = result at hdry
    obtain ⟨ending, s'⟩ := result
    cases hdry
    rfl

/-- So it is with making a module ready, where only the start function needs fuel. -/
theorem setup_withFuel (m : Module) :
    callsOfSetup p m s <+: callsOfSetup (p.withFuel fuel) m s ∧
      ((setup p m s).2 ≠ .error (.trapped .outOfFuel) →
        setup (p.withFuel fuel) m s = setup p m s) := by
  have hcap : (p.withFuel fuel).cap = p.cap := rfl
  have hplace : placeData (p.withFuel fuel) = placeData p := rfl
  unfold setup callsOfSetup
  simp only [hcap, hplace]
  split
  · exact ⟨List.prefix_rfl, fun _ => rfl⟩
  · cases m.elements.foldlM placeElements s with
    | error kind => exact ⟨List.prefix_rfl, fun _ => rfl⟩
    | ok s₁ =>
      dsimp only
      cases m.datas.foldlM (placeData p) s₁ with
      | error kind => exact ⟨List.prefix_rfl, fun _ => rfl⟩
      | ok s₂ => exact start_withFuel h s₂ m

end

end Machine
end GuestHarness.Wasm
