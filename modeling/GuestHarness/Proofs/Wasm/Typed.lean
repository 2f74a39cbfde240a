import GuestHarness.Wasm.Typing.Instruction
import GuestHarness.Proofs.Wasm.Exchange

/-! Typed states of the machine: what is left of each function fits the operands it will find, up to the
results of the function that was called from outside. -/
namespace GuestHarness.Wasm.Typing

/-- The instructions lead from operands of types `ts`, the top first, to these results. -/
def Leads (c : Context) (is : List Instr) (ts results : List ValType) : Prop :=
  ∃ s, instrs c is (.known ts) = some s ∧ s.holds results = true

theorem leads_nil {c : Context} {ts results : List ValType} :
    Leads c [] ts results ↔ ts = results.reverse := by
  simp [Leads, instrs, Stack.holds_known]

/-- The first instruction leads to a stack that suits the rest. If the stack is known, so is that the
rest leads on from it. -/
theorem exists_instr_of_leads_cons {c : Context} {i : Instr} {is : List Instr}
    {ts results : List ValType} (h : Leads c (i :: is) ts results) :
    ∃ s, instr c i (.known ts) = some s ∧
      ∀ us, s = .known us → Leads c is us results := by
  obtain ⟨e, he, hholds⟩ := h
  simp only [instrs, Option.bind_eq_bind, Option.bind_eq_some_iff] at he
  obtain ⟨s, hs, he⟩ := he
  exact ⟨s, hs, fun us hus => ⟨e, hus ▸ he, hholds⟩⟩

/-- The context within a function, in the blocks that jumps to take these types along. -/
def Context.within (c : Context) (locals : Array ValType) (results : List ValType)
    (labels : List (List ValType)) : Context :=
  { c with locals, labels, results }

/-- The types in a running function: of its variables, of its results, of what jumps to the enclosing
blocks take along, and of what the innermost block is to end with. -/
structure Scope where
  locals : Array ValType
  results : List ValType
  labels : List (List ValType)
  ends : List ValType

def Scope.context (c : Context) (a : Scope) : Context := c.within a.locals a.results a.labels

/-- The enclosing blocks go on from what they are left with. The outermost one is the function. -/
inductive Enclosed (c : Context) (locals : Array ValType) (results : List ValType) :
    List (List ValType) → List Label → List ValType → Prop
  | function : Enclosed c locals results [results] [] results
  | block {ts : List ValType} {labels : List (List ValType)} {l : Label} {ls : List Label}
      {below ends outer : List ValType} (hbelow : HaveTypes l.below below)
      (harity : l.arity = ts.length)
      (htarget : Leads (c.within locals results labels) l.target (ts.reverse ++ below) outer)
      (hafter : Leads (c.within locals results labels) l.after (ends.reverse ++ below) outer)
      (houter : Enclosed c locals results labels ls outer) :
      Enclosed c locals results (ts :: labels) (l :: ls) ends

/-- A running function, but for its code and its stack, is as its scope says. -/
structure Scope.Describes (c : Context) (a : Scope) (labels : List Label) (locals : Array Operand)
    (arity : Nat) : Prop where
  locals : TypedAt locals a.locals
  enclosed : Enclosed c a.locals a.results a.labels labels a.ends
  arity : arity = a.results.length

/-- A waiting function goes on when it is given operands of some types, and gives back results. -/
def Resumes (c : Context) (f : Frame) (given results : List ValType) : Prop :=
  ∃ a : Scope, a.results = results ∧ a.Describes c f.labels f.locals f.arity ∧
    ∃ ts, HaveTypes f.stack ts ∧ Leads (a.context c) f.code (given.reverse ++ ts) a.ends

/-- The waiting functions, given some results by the running one, come to give back others. -/
inductive Returns (c : Context) : List Frame → List ValType → List ValType → Prop
  | nil (results : List ValType) : Returns c [] results results
  | cons {f : Frame} {fs : List Frame} {given results final : List ValType}
      (resumes : Resumes c f given results) (returns : Returns c fs results final) :
      Returns c (f :: fs) given final

/-- The thread comes to give back results of these types, if it comes to an end. -/
def Runs (c : Context) (t : Thread) (final : List ValType) : Prop :=
  ∃ a : Scope, a.Describes c t.labels t.locals t.arity ∧ Returns c t.callers a.results final ∧
    ∃ ts, HaveTypes t.stack ts ∧ Leads (a.context c) t.code ts a.ends

/-- The global variables hold what their types say. -/
def Context.Suits {σ : Type} (c : Context) (s : Store σ) : Prop :=
  TypedAt s.globals (c.globals.map GlobalType.type)

/-- The step leads to a typed state, or to results of the right types. -/
inductive Sound {σ ε : Type} (c : Context) (final : List ValType) : Step σ ε → Prop
  | next {s : Store σ} {t : Thread} (suits : c.Suits s) (runs : Runs c t final) :
      Sound c final (.next s t)
  | returned {s : Store σ} {results : List Operand} (suits : c.Suits s)
      (typed : HaveTypes results final.reverse) : Sound c final (.ended (.returned results) s)
  | ended {s : Store σ} {ending : Ending ε} (suits : c.Suits s)
      (fails : ∀ results, ending ≠ .returned results) : Sound c final (.ended ending s)

/-- The functions of a program have the types they are known by. The defined ones are typed, and the
imported ones answer with results of their types. -/
structure Types {σ ε : Type} (c : Context) (p : Program σ ε) : Prop where
  types : p.types = c.types
  functions (f : Nat) : p.functions[f]?.map Function.type = c.functions[f]?
  bodies {f : Nat} {type : FuncType} {locals : List Operand} {is : List Instr}
    (defined : p.functions[f]? = some (.defined type locals is)) :
    ∃ ts, HaveTypes locals ts ∧ body c type ts is = true
  imports {f : Nat} {type : FuncType} {index : Nat}
    (imported : p.functions[f]? = some (.imported type index)) {caller : Caller}
    {args results : List Operand} {memories : Array Memory} {host : σ}
    (typed : HaveTypes args type.params)
    (answered : (p.call caller index args memories host).2 = .ok results) :
    HaveTypes results type.results

end GuestHarness.Wasm.Typing
