import GuestHarness.Proofs.Wasm.Operands

/-! What accesses to memories and tables do to a thread: operands on its stack make way for others. All
else that later proofs ask about such a step is read off from this. -/
namespace GuestHarness.Wasm

/-- The store that a step leads to. -/
def Step.store {σ ε : Type} : Step σ ε → Store σ
  | .next s _ => s
  | .ended _ s => s

/-- The step changes nothing of the thread but the stack, where operands of some types make way for
operands of others, and nothing of the store that is the host's or a global variable. -/
inductive Step.Exchanges {σ ε : Type} (s : Store σ) (t : Thread) (ps rs : List ValType) :
    Step σ ε → Prop
  | next {s' : Store σ} {stack : List Operand} (host : s'.host = s.host)
      (globals : s'.globals = s.globals)
      (typed : ∀ ts, HaveTypes t.stack (ps.reverse ++ ts) → HaveTypes stack (rs.reverse ++ ts)) :
      Exchanges s t ps rs (.next s' { t with stack })
  | trapped (kind : TrapKind) : Exchanges s t ps rs (.ended (.trapped kind) s)
  | stuck : Exchanges s t ps rs (.ended .stuck s)

theorem Step.Exchanges.host_store {σ ε : Type} {s : Store σ} {t : Thread} {ps rs : List ValType}
    {r : Step σ ε} (h : r.Exchanges s t ps rs) : r.store.host = s.host := by
  cases h with
  | next host => exact host
  | trapped | stuck => rfl

/-- Whether an instruction has to do with the stack, with memories and with tables only. -/
def Instr.isStraight : Instr → Bool
  | nop | fence | drop | select _ | literal _ | refNull _ | refIsNull | refFunc _ | numeric _
  | vector _ | atomic .. | load .. | store .. | memorySize _ | memoryGrow _ | memoryFill _
  | memoryCopy .. | memoryInit .. | dataDrop _ | tableGet _ | tableSet _ | tableSize _ | tableGrow _
  | tableFill _ | tableCopy .. | tableInit .. | elemDrop _ => true
  | _ => false

/-- The operands and the results of such an instruction, when `e` is the type of the references and `v`
that of the other operands whose type it leaves open. -/
def Instr.exchange (e : RefType) (v : ValType) : Instr → List ValType × List ValType
  | drop => ([v], [])
  | select _ => ([v, v, .i32], [v])
  | literal l => ([], [l.type])
  | refNull t => ([], [.ref t])
  | refIsNull => ([.ref e], [.i32])
  | refFunc _ => ([], [.funcref])
  | numeric op => (op.type.1, [op.type.2])
  | vector op => (op.operands, op.results)
  | atomic op _ => op.type
  | load op _ => ([.i32], [.num op.type])
  | store op _ => ([.i32, .num op.type], [])
  | memorySize _ | tableSize _ => ([], [.i32])
  | memoryGrow _ => ([.i32], [.i32])
  | memoryFill _ | memoryCopy .. | memoryInit .. | tableCopy .. | tableInit .. =>
    ([.i32, .i32, .i32], [])
  | tableGet _ => ([.i32], [.ref e])
  | tableSet _ => ([.i32, .ref e], [])
  | tableGrow _ => ([.ref e, .i32], [.i32])
  | tableFill _ => ([.i32, .ref e, .i32], [])
  | _ => ([], [])

theorem LoadOp.hasType_operand (op : LoadOp) (w : UInt64) :
    (op.operand w).HasType (.num op.type) := by
  simp only [operand]
  cases op.type <;> constructor

namespace Machine

variable {σ ε : Type} (p : Program σ ε) (s : Store σ) (t : Thread)

theorem exchanges_memoryStep (i : Instr) (e : RefType) (v : ValType) :
    (memoryStep p s t i).Exchanges s t (i.exchange e v).1 (i.exchange e v).2 := by
  fun_cases memoryStep p s t i
  all_goals first | exact .trapped _ | exact .stuck | skip
  all_goals
    refine .next rfl rfl fun ts hts => ?_
    simp_all [Instr.exchange, Operand.HasType.i32, LoadOp.hasType_operand]

theorem exchanges_tableStep (i : Instr) (e : RefType) (v : ValType) :
    (tableStep s t i : Step σ ε).Exchanges s t (i.exchange e v).1 (i.exchange e v).2 := by
  fun_cases tableStep (ε := ε) s t i
  all_goals first | exact .trapped _ | exact .stuck | skip
  all_goals
    refine .next rfl rfl fun ts hts => ?_
    simp_all [Instr.exchange, Operand.HasType.i32, Operand.HasType.ref]

/-- The address of an atomic access is its first operand. -/
theorem haveTypes_below_address {op : AtomicOp} {vs stack : List Operand} {base : Operand}
    {ts : List ValType} (hdrop : vs.drop (op.type.1.length - 1) = base :: stack)
    (h : HaveTypes vs (op.type.1.reverse ++ ts)) : HaveTypes stack ts := by
  obtain ⟨rest, hrest⟩ : ∃ rest, op.type.1 = .i32 :: rest := by
    cases op <;> exact ⟨_, rfl⟩
  rw [hrest] at h hdrop
  rw [List.reverse_cons, List.append_assoc] at h
  have hbelow := (h.take_drop (n := rest.length) (by simp)).2
  simp only [List.length_cons, Nat.add_sub_cancel] at hdrop
  rw [hdrop] at hbelow
  cases hbelow with
  | cons _ hstack => exact hstack

theorem exchanges_atomic (op : AtomicOp) (arg : MemArg) :
    (atomic p s t op arg).Exchanges s t op.type.1 op.type.2 := by
  fun_cases atomic p s t op arg
  all_goals first | exact .trapped _ | exact .stuck | skip
  -- Only a compare-and-exchange decides whether it writes.
  case case12 =>
    rename_i s' _
    refine .next ?_ ?_ fun ts hts =>
      .cons (.ofWidth _ _) (haveTypes_below_address ‹_› hts)
    all_goals
      dsimp only [s']
      split <;> rfl
  all_goals
    refine .next rfl rfl fun ts hts => ?_
    have hstack := haveTypes_below_address ‹_› hts
    first
      | exact hstack
      | exact .cons (.i32 _) hstack
      | exact .cons (.ofWidth _ _) hstack

theorem exchanges_execute {i : Instr} (hi : i.isStraight) (e : RefType) (v : ValType) :
    (execute p s t i).Exchanges s t (i.exchange e v).1 (i.exchange e v).2 := by
  fun_cases execute p s t i <;> simp only [Instr.isStraight, Bool.false_eq_true] at hi
  all_goals first
    | exact .trapped _
    | exact .stuck
    | exact exchanges_memoryStep p s t _ e v
    | exact exchanges_tableStep s t _ e v
    | exact exchanges_atomic p s t _ _
    | refine .next rfl rfl fun ts hts => ?_
  case case1 happly => exact Numeric.haveTypes_apply happly hts
  all_goals simp_all [Instr.exchange, Operand.HasType.ofLiteral, Operand.HasType.ref,
    Operand.HasType.ofBool]
  split <;> simp [hts]

end Machine
end GuestHarness.Wasm
