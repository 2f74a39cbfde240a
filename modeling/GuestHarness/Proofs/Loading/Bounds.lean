import GuestHarness.Proofs.Loading.Memories

/-! What a host can rely on about linear memories: their sizes stay within what was declared and what the
settings allow, no size ever falls, and a range that was once within a memory can be read from then on. -/
namespace GuestHarness
open Wasm (Memory Store Thread MemoriesKept Instr Operand)

/-- What comes of reading a range of the memory at an address, whoever reads it. -/
inductive Reads (ms : Array Memory) (a : Nat) (d : Descriptor) : Except Fault Unit → Prop
  | bytes {m : Memory} (memory : ms[a]? = some m) : Reads ms a d ((m.readBytes d).map fun _ => ())
  | named {i : Instance} {name : String} (memories : i.store.memories = ms)
    (address : (Instance.exportedMemory? i.module i.program.memories name <|>
      i.registry.find? name) = some a) :
    Reads ms a d ((i.readMemory name d).map fun _ => ())
  | logged {registry : Registry} {exported? : String → Option Nat} {caller : Wasm.Caller}
    {source : MemorySource} (address : Logger.source registry exported? caller source = .ok a) :
    Reads ms a d ((Logger.read registry exported? caller source d ms).map fun _ => ())

namespace Reads

/-- The range was found within the memory, whether or not it holds text. -/
def accepted : Except Fault Unit → Bool
  | .ok _ | .error (.decode ..) => true
  | .error _ => false

/-- The range was found not to lie within the memory. -/
def outOfBounds : Except Fault Unit → Bool
  | .error (.memoryBounds ..) => true
  | _ => false

/-- What an outcome says of the size of the memory that was read. -/
def Bears (d : Descriptor) (size : Nat) (r : Except Fault Unit) : Prop :=
  (accepted r = true → d.stop ≤ size) ∧ (outOfBounds r = true → size < d.stop)

theorem bears_readBytes (m : Memory) (d : Descriptor) :
    Bears d m.size ((m.readBytes d).map fun _ => ()) := by
  rw [Memory.readBytes_eq]
  split
  · next h => exact ⟨fun _ => h, nofun⟩
  · next h => exact ⟨nofun, fun _ => Nat.lt_of_not_le h⟩

theorem bears_readText (m : Memory) (d : Descriptor) :
    Bears d m.size ((m.readText d).map fun _ => ()) := by
  have hbytes := bears_readBytes m d
  unfold Memory.readText
  cases hread : m.readBytes d with
  | error e =>
    rw [hread] at hbytes
    exact hbytes
  | ok bytes =>
    have hstop : d.stop ≤ m.size := ((m.readBytes_eq_ok_iff d).1 hread).1
    dsimp only
    split
    · exact ⟨fun _ => hstop, nofun⟩
    · exact ⟨fun _ => hstop, nofun⟩

variable {ms ms' : Array Memory} {a : Nat} {d : Descriptor} {r r' : Except Fault Unit}

/-- Whoever reads, the outcome bears on the size of the memory, and nothing else tells a range that is
accepted from one that is not. -/
theorem bears (h : Reads ms a d r) : Bears d (ms[a]?.getD default).size r := by
  cases h with
  | bytes memory =>
    rw [memory]
    exact bears_readBytes _ d
  | @named i name memories address =>
    subst memories
    have hmemory : i.memory? name = i.store.memories[a]? := by
      unfold Instance.memory?
      rw [address]
      rfl
    unfold Instance.readMemory
    rw [hmemory]
    cases i.store.memories[a]? with
    | none => exact ⟨nofun, nofun⟩
    | some m => exact bears_readBytes m d
  | @logged registry exported? caller source address =>
    unfold Logger.read
    rw [address]
    exact bears_readText _ d

/-- What one reader finds within the memory, no later one finds beyond it. -/
theorem outOfBounds_of_accepted {cap : Option Nat} (hkept : MemoriesKept cap ms ms')
    (h : Reads ms a d r) (h' : Reads ms' a d r') (hr : accepted r = true) :
    outOfBounds r' = false := by
  have hsize : (ms[a]?.getD default).size ≤ (ms'[a]?.getD default).size := by
    cases hm : ms[a]? with
    | none => exact Nat.le_trans (Nat.le_of_eq (Nat.zero_mul _)) (Nat.zero_le _)
    | some m =>
      obtain ⟨m', hm', hextends⟩ := hkept a m hm
      rw [hm']
      exact Nat.mul_le_mul_right _ hextends.pages
  have hstop := h.bears.1 hr
  have hbeyond := h'.bears.2
  cases ho : outOfBounds r' with
  | false => rfl
  | true =>
    have := hbeyond ho
    omega

end Reads

/-- What is known of the memories while a module is made an instance and requests are answered. -/
structure Loader.BoundsMemories (l : Loader) (c : Compiled) (t : ImportTable) (rs : List Request) :
    Prop where
  /-- All steps of the guest are steps of the same program. -/
  program (i : Instance) (hi : (l.instantiate c t).outcome = .ok i) : i.program = l.program c t
  /-- Every memory has a type that it was declared with, and a number of whole pages that the type and
  the settings allow. -/
  sizes (ms : Array Memory) (hms : ms ∈ l.memoriesDuring c t rs) (a : Nat) (m : Memory)
    (hm : ms[a]? = some m) : ∃ type, (t.memoryTypes ++ c.module.memories)[a]? = some type ∧
      m.maximum = type.limits.maximum ∧ Wasm.pageSize ∣ m.size ∧
      type.limits.minimum * Wasm.pageSize ≤ m.size ∧ m.size ≤ l.settings.maxMemoryBytes ∧
      ∀ n, type.limits.maximum = some n → m.size ≤ n * Wasm.pageSize
  /-- No memory goes or becomes smaller. -/
  kept : (l.memoriesDuring c t rs).Pairwise fun ms ms' => ∀ (a : Nat) (m : Memory),
    ms[a]? = some m → ∃ m', ms'[a]? = some m' ∧ m.size ≤ m'.size
  /-- A range that was accepted is not out of bounds later. -/
  reads : (l.memoriesDuring c t rs).Pairwise fun ms ms' => ∀ a d r r', Reads ms a d r →
    Reads ms' a d r' → Reads.accepted r = true → Reads.outOfBounds r' = false
  /-- An instruction to grow does so if every bound admits it, and else changes nothing. -/
  grows (s : Store (Array Occurrence)) (th : Thread) (hstate : (s, th) ∈ l.statesDuring c t rs)
    (x a : Nat) (delta : UInt32) (m : Memory) (code : List Instr) (stack : List Operand)
    (hcode : th.code = .memoryGrow x :: code) (hstack : th.stack = .i32 delta :: stack)
    (ha : (l.program c t).memories[x]? = some a) (hm : s.memories[a]? = some m) :
    s.memories ∈ l.memoriesDuring c t rs ∧ Wasm.Machine.step (l.program c t) s th =
      if m.admits l.cap (m.pages + delta.toNat) then
        .next (Wasm.Machine.updateMemory s a fun grown => { grown with pages := m.pages + delta.toNat })
          { th with code, stack := .i32 (.ofNat m.pages) :: stack, spent := th.spent + 1 }
      else
        .next s { th with code, stack := .i32 0xFFFFFFFF :: stack, spent := th.spent + 1 }

namespace Loader

variable {l : Loader} {c : Compiled} {t : ImportTable} {rs : List Request}

theorem within_of_mem_memoriesDuring (valid : Wasm.Typing.module c.module = true)
    {ms : Array Memory} (h : ms ∈ l.memoriesDuring c t rs) :
    Wasm.MemoriesWithin l.cap (t.memoryTypes ++ c.module.memories) ms := by
  obtain h | h := List.mem_append.1 h
  · split at h
    · exact (ImportTable.within_of_mem_memoriesOfLinking h).append
    · cases h
  · exact within_of_mem_memoriesOfRunning valid h

/-- A memory within its bounds, in bytes. -/
theorem sizes_of_within {type : Wasm.MemoryType} {m : Memory} (h : m.Within l.cap type) :
    Wasm.pageSize ∣ m.size ∧ type.limits.minimum * Wasm.pageSize ≤ m.size ∧
      m.size ≤ l.settings.maxMemoryBytes ∧
      ∀ n, type.limits.maximum = some n → m.size ≤ n * Wasm.pageSize := by
  have hadmitted := h.admitted
  unfold Memory.admits at hadmitted
  rw [h.maximum] at hadmitted
  simp only [Bool.and_eq_true] at hadmitted
  obtain ⟨⟨-, hmaximum⟩, hcap⟩ := hadmitted
  refine ⟨Nat.dvd_mul_left .., Nat.mul_le_mul_right _ h.minimum,
    Nat.mul_le_mul_right _ (of_decide_eq_true hcap), fun n hn => Nat.mul_le_mul_right _ ?_⟩
  rw [hn] at hmaximum
  exact of_decide_eq_true hmaximum

end Loader

/-- A guest that grows a memory of the host's, beside one of its own. -/
def growGuest : Wasm.Module where
  types := #[⟨[.num .i32], [.num .i32]⟩]
  imports := [⟨memoryModule, memoryName, .memory ⟨⟨1, some 3⟩, false⟩⟩]
  functions := [0]
  memories := [⟨⟨0, none⟩, false⟩]
  exports := [⟨"grow", .func, 0⟩]
  codes := [⟨[], [.localGet 0, .memoryGrow 0]⟩]

end GuestHarness
