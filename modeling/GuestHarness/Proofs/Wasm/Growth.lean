import GuestHarness.Proofs.Wasm.States

/-! How linear memories change while guest code runs. Each keeps what it was declared with, never shrinks,
and becomes no larger than every bound admits; nothing but an instruction to grow changes its size. -/
namespace GuestHarness.Wasm

/-- Every bound of the memory admits this number of pages. -/
def Memory.admits (m : Memory) (cap : Option Nat) (n : Nat) : Bool :=
  n ≤ maxPages && atMost m.maximum n && atMost cap n

/-- What running does to a memory. -/
structure Memory.Extends (cap : Option Nat) (m m' : Memory) : Prop where
  maximum : m'.maximum = m.maximum
  shared : m'.shared = m.shared
  pages : m.pages ≤ m'.pages
  bounded : m'.pages = m.pages ∨ m.admits cap m'.pages = true

namespace Memory

variable {cap : Option Nat} {m m' m'' : Memory}

namespace Extends

theorem refl (m : Memory) : Memory.Extends cap m m := ⟨rfl, rfl, Nat.le_refl _, .inl rfl⟩

theorem trans (h : m.Extends cap m') (h' : m'.Extends cap m'') : m.Extends cap m'' where
  maximum := h'.maximum.trans h.maximum
  shared := h'.shared.trans h.shared
  pages := Nat.le_trans h.pages h'.pages
  bounded := by
    obtain hsame | hadmits := h'.bounded
    · rw [hsame]
      exact h.bounded
    · rw [admits, h.maximum] at hadmits
      exact .inr hadmits

/-- The bytes are nothing to a memory's size. -/
theorem withData (m : Memory) (data : ByteArray) : m.Extends cap { m with data } :=
  ⟨rfl, rfl, Nat.le_refl _, .inl rfl⟩

theorem reserve (m : Memory) (n : Nat) : m.Extends cap (m.reserve n) := by
  unfold Memory.reserve
  split
  · exact .refl m
  · exact .withData m _

theorem write (m : Memory) (a : Nat) (bs : ByteArray) : m.Extends cap (m.write a bs) :=
  (reserve m _).trans (.withData _ _)

theorem fill (m : Memory) (a n : Nat) (v : UInt8) : m.Extends cap (m.fill a n v) :=
  (reserve m _).trans (.withData _ _)

theorem setWord (m : Memory) (a n : Nat) (w : UInt64) : m.Extends cap (m.setWord a n w) :=
  (reserve m _).trans (.withData _ _)

end Extends

/-- A memory grows by just what is asked for, if every bound admits it. -/
theorem grownPages?_eq_some_iff {delta pages : Nat} : m.grownPages? cap delta = some pages ↔
    pages = m.pages + delta ∧ (delta = 0 ∨ m.admits cap pages = true) := by
  unfold grownPages? admits
  split
  · next h =>
    subst h
    simp only [Option.some.injEq, Nat.add_zero, true_or, and_true]
    exact eq_comm
  · next h =>
    split
    · next hadmits =>
      simp only [Option.some.injEq, h, false_or]
      exact ⟨fun hpages => ⟨hpages.symm, hpages ▸ hadmits⟩, fun hpages => hpages.1.symm⟩
    · next hadmits =>
      simp only [h, false_or, reduceCtorEq, false_iff, not_and]
      rintro rfl
      exact hadmits

/-- Within its bounds a memory grows exactly if they admit what it would become. -/
theorem grownPages?_of_admits (h : m.admits cap m.pages = true) {delta : Nat} :
    m.grownPages? cap delta =
      if m.admits cap (m.pages + delta) then some (m.pages + delta) else none := by
  unfold grownPages?
  split
  · next hdelta => rw [hdelta, Nat.add_zero, if_pos h]
  · rfl

theorem Extends.grown {delta pages : Nat} (h : m.grownPages? cap delta = some pages) :
    m.Extends cap { m with pages } := by
  obtain ⟨hpages, rfl | hadmits⟩ := grownPages?_eq_some_iff.1 h
  · exact ⟨rfl, rfl, Nat.le_of_eq hpages.symm, .inl hpages⟩
  · exact ⟨rfl, rfl, Nat.le.intro hpages.symm, .inr hadmits⟩

end Memory

/-- No memory has gone, and each extends what it was. -/
def MemoriesKept (cap : Option Nat) (ms ms' : Array Memory) : Prop :=
  ∀ (a : Nat) (m : Memory), ms[a]? = some m → ∃ m', ms'[a]? = some m' ∧ m.Extends cap m'

namespace MemoriesKept

variable {cap : Option Nat} {ms ms' ms'' : Array Memory}

theorem refl (ms : Array Memory) : MemoriesKept cap ms ms := fun _ m hm => ⟨m, hm, .refl m⟩

theorem trans (h : MemoriesKept cap ms ms') (h' : MemoriesKept cap ms' ms'') :
    MemoriesKept cap ms ms'' := by
  intro a m hm
  obtain ⟨m', hm', hextends⟩ := h a m hm
  obtain ⟨m'', hm'', hextends'⟩ := h' a m' hm'
  exact ⟨m'', hm'', hextends.trans hextends'⟩

theorem append (ms more : Array Memory) : MemoriesKept cap ms (ms ++ more) := by
  intro a m hm
  have ha : a < ms.size := (Array.getElem?_eq_some_iff.1 hm).1
  exact ⟨m, by rw [Array.getElem?_append_left ha, hm], .refl m⟩

instance : Trans (MemoriesKept cap) (MemoriesKept cap) (MemoriesKept cap) := ⟨trans⟩

end MemoriesKept

/-- The memories are the same as before, but that each may extend what it was. -/
structure MemoriesExtend (cap : Option Nat) (ms ms' : Array Memory) : Prop where
  size : ms'.size = ms.size
  kept : MemoriesKept cap ms ms'

namespace MemoriesExtend

variable {cap : Option Nat} {ms ms' ms'' : Array Memory}

theorem refl (ms : Array Memory) : MemoriesExtend cap ms ms := ⟨rfl, .refl ms⟩

theorem of_eq (h : ms' = ms) : MemoriesExtend cap ms ms' := by
  rw [h]
  exact refl ms

theorem trans (h : MemoriesExtend cap ms ms') (h' : MemoriesExtend cap ms' ms'') :
    MemoriesExtend cap ms ms'' :=
  ⟨h'.size.trans h.size, h.kept.trans h'.kept⟩

instance : Trans (MemoriesExtend cap) (MemoriesExtend cap) (MemoriesExtend cap) := ⟨trans⟩

/-- One memory is changed to an extension of it. -/
theorem modify {a : Nat} {f : Memory → Memory} (h : ∀ m, ms[a]? = some m → m.Extends cap (f m)) :
    MemoriesExtend cap ms (ms.modify a f) where
  size := Array.size_modify
  kept b m hm := by
    rw [Array.getElem?_modify]
    by_cases hab : a = b
    · subst hab
      exact ⟨f m, by simp [hm], h m hm⟩
    · exact ⟨m, by simp [hab, hm], .refl m⟩

end MemoriesExtend

namespace Machine

variable {σ ε : Type} (p : Program σ ε) (s : Store σ) (t : Thread)

variable {p s} in
theorem memories_of_callImport {caller : Caller} {index : Nat} {args : List Operand} {s' : Store σ}
    {answer : Except ε (List Operand)} (h : callImport p caller index args s = (s', answer)) :
    s'.memories = s.memories := by
  rw [(callImport_eq h).1]

theorem memories_call (f : Nat) : (call p s t f).store.memories = s.memories := by
  fun_cases call p s t f
  · rfl
  · exact (spends_enter p s ..).memories
  · exact memories_of_callImport ‹_›
  · exact memories_of_callImport ‹_›

theorem memories_tailCall (f : Nat) : (tailCall p s t f).store.memories = s.memories := by
  fun_cases tailCall p s t f
  · rfl
  · exact (spends_enter p s ..).memories
  · rw [(spends_leave ..).memories]
    exact memories_of_callImport ‹_›
  · exact memories_of_callImport ‹_›

theorem memories_tableStep (i : Instr) :
    (tableStep s t i : Step σ ε).store.memories = s.memories := by
  fun_cases tableStep (ε := ε) s t i <;> rfl

/-- Of the accesses to memories, an instruction to grow changes a size, and writes change bytes only. -/
theorem extend_memoryStep (i : Instr) :
    MemoriesExtend p.cap s.memories (memoryStep p s t i).store.memories := by
  fun_cases memoryStep p s t i
  case case6 => exact .modify fun m _ => .setWord m ..
  case case13 hgrown =>
    refine .modify (f := fun m => { m with pages := _ }) fun m hm => ?_
    simp only [hm, Option.map_some, Option.some.injEq, Prod.mk.injEq] at hgrown
    exact .grown hgrown.2
  case case17 => exact .modify fun m _ => .fill m ..
  case case18 | case23 => exact .modify fun m _ => .write m ..
  all_goals exact .refl _

theorem extend_atomic (op : AtomicOp) (arg : MemArg) :
    MemoriesExtend p.cap s.memories (atomic p s t op arg).store.memories := by
  fun_cases atomic p s t op arg
  all_goals
    simp only [Step.store, Step.trap, Step.stuck, updateMemory]
    with_reducible first
      | exact .refl _
      | exact .modify fun m _ => .setWord m ..
      | skip
  next changed _ =>
    unfold changed
    split
    · exact .modify fun m _ => .setWord m ..
    · exact .refl _

theorem extend_execute (i : Instr) :
    MemoriesExtend p.cap s.memories (execute p s t i).store.memories := by
  fun_cases execute p s t i
  all_goals first
    | exact .refl _
    | exact .of_eq (spends_proceed p s _).memories
    | exact .of_eq (spends_branch s _ _).memories
    | exact .of_eq (spends_leave s _).memories
    | exact .of_eq (memories_call p s _ _)
    | exact .of_eq (memories_tailCall p s _ _)
    | exact extend_memoryStep p s t _
    | exact .of_eq (memories_tableStep s _ _)
    | exact extend_atomic p s t _ _

/-- One step extends the memories. -/
theorem extend_step : MemoriesExtend p.cap s.memories (step p s t).store.memories := by
  unfold step
  cases t.code with
  | nil => exact .of_eq (spends_close s t).memories
  | cons i code =>
    dsimp only
    have h (s' : Store σ) (hs : s'.memories = s.memories) :
        MemoriesExtend p.cap s.memories
          (execute p s' { t with code, spent := t.spent + i.cost } i).store.memories := by
      rw [← hs]
      exact extend_execute p s' _ i
    split
    · exact h _ rfl
    · exact h s rfl

/-- An instruction to grow gives the old size and grows the memory if every bound admits it, and else
gives -1 and changes nothing. -/
theorem step_memoryGrow {code : List Instr} {stack : List Operand} {x a : Nat} {delta : UInt32}
    {m : Memory} (hcode : t.code = .memoryGrow x :: code) (hstack : t.stack = .i32 delta :: stack)
    (ha : address? p x = some a) (hm : s.memories[a]? = some m)
    (hadmits : m.admits p.cap m.pages = true) :
    step p s t =
      if m.admits p.cap (m.pages + delta.toNat) then
        .next (updateMemory s a fun grown => { grown with pages := m.pages + delta.toNat })
          { t with code, stack := .i32 (.ofNat m.pages) :: stack, spent := t.spent + 1 }
      else
        .next s { t with code, stack := .i32 0xFFFFFFFF :: stack, spent := t.spent + 1 } := by
  have hexecute : step p s t =
      memoryStep p s { t with code, spent := t.spent + 1 } (.memoryGrow x) := by
    rw [step, hcode]
    rfl
  have hgrown : (s.memories[a]?.map fun m => (m.pages, m.grownPages? p.cap delta.toNat)) =
      some (m.pages,
        if m.admits p.cap (m.pages + delta.toNat) then some (m.pages + delta.toNat) else none) := by
    rw [hm, Option.map_some, Memory.grownPages?_of_admits hadmits]
  rw [hexecute]
  unfold memoryStep
  dsimp only
  rw [hstack]
  dsimp only
  rw [ha]
  dsimp only
  rw [hgrown]
  cases m.admits p.cap (m.pages + delta.toNat) <;> simp only [Bool.false_eq_true, if_true, if_false]

end Machine
end GuestHarness.Wasm
