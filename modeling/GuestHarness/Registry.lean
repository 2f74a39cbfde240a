/-! The memories that a host owns, found by one name that joins module and name with a point. Keys
that join to the same name share a place, and the one registered last has it. -/
namespace GuestHarness

/-- The name under which diagnostics show an import. -/
def qualifiedName (module name : String) : String := module ++ "." ++ name

/-- Names with the addresses of memories. -/
structure Registry where
  entries : List (String × Nat) := []
  deriving Repr, Inhabited

namespace Registry

variable (r : Registry)

def find? (name : String) : Option Nat := r.entries.lookup name

/-- Adds a name, in the place of its earlier address if it has one. -/
def insert (name : String) (address : Nat) : Registry :=
  ⟨(name, address) :: r.entries.filter fun e => e.1 ≠ name⟩

def size : Nat := r.entries.length

def names : List String := r.entries.map Prod.fst

@[simp] theorem find?_insert_self (name : String) (address : Nat) :
    (r.insert name address).find? name = some address := by
  simp [insert, find?]

theorem lookup_filter_ne {name other : String} (h : other ≠ name) (es : List (String × Nat)) :
    (es.filter fun e => e.1 ≠ name).lookup other = es.lookup other := by
  induction es with
  | nil => rfl
  | cons e es ih =>
    obtain ⟨key, address⟩ := e
    by_cases hk : key = name
    · subst hk
      have hne : (other == key) = false := by simpa using h
      simpa [List.filter_cons, List.lookup_cons, hne] using ih
    · simp only [ne_eq, hk, not_false_eq_true, decide_true, List.filter_cons_of_pos, List.lookup_cons, ih]

theorem find?_insert_of_ne {name other : String} (address : Nat) (h : other ≠ name) :
    (r.insert name address).find? other = r.find? other := by
  have hne : (other == name) = false := by simpa using h
  simp only [insert, find?, List.lookup_cons, hne]
  exact lookup_filter_ne h r.entries

@[simp] theorem names_insert (name : String) (address : Nat) :
    (r.insert name address).names = name :: r.names.filter (· ≠ name) := by
  simp [insert, names, List.filter_map, Function.comp_def]

end Registry
end GuestHarness
