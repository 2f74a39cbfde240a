import GuestHarness.Proofs.Wasm.Growth
import GuestHarness.Wasm.Typing.Module

/-! The bounds of linear memories: a memory that is made of a possible type is within the bounds of the
type and of the cap, and stays within them as it extends. -/
namespace GuestHarness.Wasm

variable {cap : Option Nat} {type : MemoryType} {types types' : List MemoryType} {m m' : Memory}
  {ms ms' : Array Memory}

/-- There can be a memory of the type, and the cap lets it be made. -/
def MemoryType.possible (cap : Option Nat) (type : MemoryType) : Bool :=
  type.limits.within maxPages && atMost cap type.limits.minimum

/-- The types of a valid module's memories are in order. -/
theorem Typing.memoryType_of_mem {module : Module} (valid : Typing.module module = true)
    (h : type ∈ module.memories) : Typing.memoryType type = true := by
  unfold Typing.module at valid
  split at valid
  · cases valid
  · simp only [Bool.and_eq_true, List.all_eq_true] at valid
    obtain ⟨⟨⟨⟨⟨⟨⟨⟨⟨⟨⟨-, hmemories⟩, -⟩, -⟩, -⟩, -⟩, -⟩, -⟩, -⟩, -⟩, -⟩, -⟩ := valid
    exact hmemories type h

/-- The memory is one of the type and keeps within all bounds. -/
structure Memory.Within (cap : Option Nat) (type : MemoryType) (m : Memory) : Prop where
  maximum : m.maximum = type.limits.maximum
  minimum : type.limits.minimum ≤ m.pages
  admitted : m.admits cap m.pages = true

theorem Memory.Within.new (h : type.possible cap = true) : (Memory.new type).Within cap type := by
  obtain ⟨hwithin, hcap⟩ := Bool.and_eq_true_iff.1 h
  refine ⟨rfl, Nat.le_refl _, ?_⟩
  unfold Limits.within at hwithin
  unfold admits Memory.new
  cases hmax : type.limits.maximum <;> simp_all [atMost]

theorem Memory.Within.extends (h : m.Within cap type) (h' : m.Extends cap m') :
    m'.Within cap type where
  maximum := h'.maximum.trans h.maximum
  minimum := Nat.le_trans h.minimum h'.pages
  admitted := by
    have hsame : m'.admits cap m'.pages = m.admits cap m'.pages := by
      unfold admits
      rw [h'.maximum]
    rw [hsame]
    obtain hpages | hadmits := h'.bounded
    · rw [hpages]
      exact h.admitted
    · exact hadmits

/-- Each memory is within the bounds of its type, by their places. -/
def MemoriesWithin (cap : Option Nat) (types : List MemoryType) (ms : Array Memory) : Prop :=
  ∀ (a : Nat) (m : Memory), ms[a]? = some m → ∃ type, types[a]? = some type ∧ m.Within cap type

theorem MemoriesWithin.append (h : MemoriesWithin cap types ms) :
    MemoriesWithin cap (types ++ types') ms := by
  intro a m hm
  obtain ⟨type, htype, hwithin⟩ := h a m hm
  refine ⟨type, ?_, hwithin⟩
  rw [List.getElem?_append_left (List.getElem?_eq_some_iff.1 htype).1]
  exact htype

theorem MemoriesWithin.extend (h : MemoriesWithin cap types ms) (h' : MemoriesExtend cap ms ms') :
    MemoriesWithin cap types ms' := by
  intro a m' hm'
  have ha : a < ms.size := h'.size ▸ (Array.getElem?_eq_some_iff.1 hm').1
  obtain ⟨type, htype, hwithin⟩ := h a ms[a] (Array.getElem?_eq_getElem ha)
  obtain ⟨m'', hm'', hextends⟩ := h'.kept a ms[a] (Array.getElem?_eq_getElem ha)
  cases hm'.symm.trans hm''
  exact ⟨type, htype, hwithin.extends hextends⟩

/-- The memories are those of these types, as they are made. -/
structure MemoriesNew (cap : Option Nat) (types : List MemoryType) (ms : Array Memory) : Prop where
  eq : ms = (types.map Memory.new).toArray
  possible : ∀ type ∈ types, type.possible cap = true

theorem MemoriesNew.append (h : MemoriesNew cap types ms)
    (hpossible : ∀ type ∈ types', type.possible cap = true) :
    MemoriesNew cap (types ++ types') (ms ++ (types'.map Memory.new).toArray) where
  eq := by rw [h.eq, List.map_append, List.append_toArray]
  possible := List.forall_mem_append.2 ⟨h.possible, hpossible⟩

theorem MemoriesNew.within (h : MemoriesNew cap types ms) : MemoriesWithin cap types ms := by
  intro a m hm
  rw [h.eq, List.getElem?_toArray, List.getElem?_map, Option.map_eq_some_iff] at hm
  obtain ⟨type, htype, rfl⟩ := hm
  exact ⟨type, htype, .new (h.possible type (List.mem_of_getElem? htype))⟩

end GuestHarness.Wasm
