import GuestHarness.Proofs.Wasm.ImportCalls
import GuestHarness.Proofs.Wasm.Preservation

/-! Typed code calls each imported function with arguments of its parameters' types. -/
namespace GuestHarness.Wasm

variable {σ ε : Type}

/-- The program made this call of a function that it imports: at the function's type, and with the
answer that the function gives. -/
def Program.Makes (p : Program σ ε) (call : ImportCall ε) : Prop :=
  ∃ (f : Nat) (type : FuncType) (host : σ),
    p.functions[f]? = some (.imported type call.index) ∧ HaveTypes call.args type.params ∧
      call.answer = (p.call call.caller call.index call.args call.memories host).2

namespace Typing

variable {c : Context} {p : Program σ ε} {s : Store σ} {t : Thread} {final : List ValType}
  {call : ImportCall ε}

theorem makes_of_called? (hp : Types c p) {f : Nat} {type : FuncType}
    (hf : c.functions[f]? = some type) {stack : List Operand} {rest : List ValType}
    (hstack : HaveTypes stack (type.params.reverse ++ rest))
    (h : Machine.called? p s stack f = some call) : p.Makes call := by
  unfold Machine.called? at h
  split at h
  · rename_i type' index hfunction
    cases h
    obtain rfl : type' = type := hp.type_eq hf hfunction
    have htop := (hstack.take_drop (n := type'.params.length) (by simp)).1
    exact ⟨f, type', s.host, hfunction, htop.of_reverse, rfl⟩
  · cases h

theorem makes_of_calledIndirectly? (hp : Types c p) {table k : Nat} {type : FuncType}
    (htype : c.types[k]? = some type) {stack : List Operand} {rest : List ValType}
    (hstack : HaveTypes stack (.i32 :: (type.params.reverse ++ rest)))
    (h : Machine.calledIndirectly? p s stack table k = some call) : p.Makes call := by
  obtain ⟨b, vs, rfl, hvs⟩ := hstack.exists_i32
  simp only [Machine.calledIndirectly?] at h
  split at h
  · rename_i f hf
    exact makes_of_called? hp (hp.type_of_indirect htype hf) hvs h
  · cases h

theorem makes_of_nextCall? (hp : Types c p) (ht : Runs c t final)
    (h : Machine.nextCall? p s t = some call) : p.Makes call := by
  obtain ⟨a, -, -, ts, hstack, hleads⟩ := ht
  unfold Machine.nextCall? at h
  cases hcode : t.code with
  | nil =>
    rw [hcode] at h
    cases h
  | cons i code =>
    rw [hcode] at h hleads
    obtain ⟨u, hu, -⟩ := exists_instr_of_leads_cons hleads
    change Machine.callBy? p s t.stack i = some call at h
    unfold Machine.callBy? at h
    split at h
    · obtain ⟨type, rest, hf, rfl, -⟩ := exists_of_instr_call hu
      exact makes_of_called? hp hf hstack h
    · obtain ⟨type, rest, hf, -, rfl⟩ := exists_of_instr_returnCall hu
      exact makes_of_called? hp hf hstack h
    · obtain ⟨type, rest, htype, rfl, -⟩ := exists_of_instr_callIndirect hu
      exact makes_of_calledIndirectly? hp htype hstack h
    · obtain ⟨type, rest, htype, -, rfl⟩ := exists_of_instr_returnCallIndirect hu
      exact makes_of_calledIndirectly? hp htype hstack h
    · cases h

theorem makes_of_mem_callsOfRun (hp : Types c p) (hs : c.Suits s) (ht : Runs c t final) {n : Nat}
    (h : call ∈ Machine.callsOfRun p n s t) : p.Makes call := by
  induction n generalizing s t with
  | zero => cases h
  | succ n ih =>
    rw [Machine.callsOfRun, List.mem_append] at h
    rcases h with h | h
    · exact makes_of_nextCall? hp ht (Option.mem_toList.1 h)
    · have hstep := sound_step hp hs ht
      generalize Machine.step p s t = r at hstep h
      cases hstep with
      | next hs ht => exact ih hs ht h
      | returned | ended => cases h

theorem makes_of_mem_callsOfInvoke (hp : Types c p) (hs : c.Suits s) {f : Nat} {type : FuncType}
    (hf : c.functions[f]? = some type) {args : List Operand} (hargs : HaveTypes args type.params)
    (h : call ∈ Machine.callsOfInvoke p s f args) : p.Makes call := by
  unfold Machine.callsOfInvoke at h
  split at h
  · cases h
  · rename_i type' index hfunction
    obtain rfl : type' = type := hp.type_eq hf hfunction
    cases List.mem_singleton.1 h
    exact ⟨f, type', s.host, hfunction, hargs, rfl⟩
  · rename_i type' locals is hfunction
    obtain rfl : type' = type := hp.type_eq hf hfunction
    have hentered := sound_enter hp hfunction hs hargs.reverse (.nil _) 0 s.spent
    generalize Machine.enter p s args.reverse type' locals is [] 0 s.spent = r at hentered h
    cases hentered with
    | next hs ht => exact makes_of_mem_callsOfRun hp hs ht h
    | returned | ended => cases h

theorem Context.Suits.of_prepares {s' : Store σ} (h : Machine.Prepares s s') (hs : c.Suits s) :
    c.Suits s' := by
  obtain ⟨_, _, rfl⟩ := h
  exact hs

theorem sound_start (hp : Types c p) (hs : c.Suits s) {m : Module}
    (hstart : ∀ f, m.start = some f → c.functions[f]? = some ⟨[], []⟩) :
    c.Suits (Machine.start p m s).1 ∧ ∀ call ∈ Machine.callsOfStart p m s, p.Makes call := by
  unfold Machine.callsOfStart
  cases hm : m.start with
  | none =>
    rw [Machine.start, hm]
    exact ⟨hs, by simp⟩
  | some f =>
    rw [Machine.store_start p s hm]
    exact ⟨(sound_invoke hp hs (hstart f hm) .nil).1,
      fun call h => makes_of_mem_callsOfInvoke hp hs (hstart f hm) .nil h⟩

/-- Making a module ready keeps the variables typed, and its start function calls at the right types. -/
theorem sound_setup (hp : Types c p) (hs : c.Suits s) {m : Module}
    (hstart : ∀ f, m.start = some f → c.functions[f]? = some ⟨[], []⟩) :
    c.Suits (Machine.setup p m s).1 ∧ ∀ call ∈ Machine.callsOfSetup p m s, p.Makes call := by
  obtain ⟨s', hprepares, ⟨e, hsetup, -, hcalls⟩ | ⟨hsetup, hcalls⟩⟩ := Machine.setup_cases p s m
  all_goals rw [hsetup, hcalls]
  · exact ⟨hs.of_prepares hprepares, by simp⟩
  · exact sound_start hp (hs.of_prepares hprepares) hstart

end Typing
end GuestHarness.Wasm
