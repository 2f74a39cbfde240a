import Mathlib.Data.List.Nodup
import GuestHarness.Proofs.Wasm.Validity

/-! What a valid module exports: under each name one thing at most, and of a type that the module knows. -/
namespace GuestHarness.Wasm

/-- Under the name, a function of the type is exported. -/
def Module.ExportsFunction (m : Module) (name : String) (type : FuncType) : Prop :=
  ∃ e ∈ m.exports, e.name = name ∧ m.exportType? e = some (.func type)

namespace Typing

variable {m : Module} {functions : Array FuncType} {name : String}

/-- Each export has a type, and no two have the same name. -/
theorem exports_of_module (h : Typing.module m = true) :
    (∀ e ∈ m.exports, (m.exportType? e).isSome) ∧ (m.exports.map Export.name).Nodup := by
  unfold Typing.module at h
  split at h
  · cases h
  · simp only [Bool.and_eq_true, List.all_eq_true, decide_eq_true_eq] at h
    obtain ⟨⟨⟨⟨⟨⟨⟨⟨-, hexports⟩, hnames⟩, -⟩, -⟩, -⟩, -⟩, -⟩, -⟩ := h
    exact ⟨hexports, hnames⟩

/-- The export of a kind under a name is the only one that has the name. -/
theorem export?_eq_some_iff (hnames : (m.exports.map Export.name).Nodup) {kind : ExportKind}
    {index : Nat} :
    m.export? kind name = some index ↔ ⟨name, kind, index⟩ ∈ m.exports := by
  unfold Module.export?
  rw [Option.map_eq_some_iff]
  constructor
  · rintro ⟨e, he, rfl⟩
    have hmem := List.mem_of_find?_eq_some he
    have hfound := List.find?_some he
    simp only [Bool.and_eq_true, decide_eq_true_eq] at hfound
    obtain ⟨rfl, rfl⟩ := hfound
    exact hmem
  · intro hmem
    have hsome : (m.exports.find? fun e => e.name = name && e.kind = kind).isSome := by
      rw [List.find?_isSome]
      exact ⟨_, hmem, by simp⟩
    obtain ⟨e, he⟩ := Option.isSome_iff_exists.1 hsome
    have hfound := List.find?_some he
    simp only [Bool.and_eq_true, decide_eq_true_eq] at hfound
    have hsame : e = ⟨name, kind, index⟩ :=
      List.inj_on_of_nodup_map hnames (List.mem_of_find?_eq_some he) hmem hfound.1
    exact ⟨e, he, by rw [hsame]⟩

theorem Valid.type_of_functionTypes (h : Valid m functions) {index : Nat} {type : FuncType}
    (htype : m.functionTypes[index]?.join = some type) : functions[index]? = some type := by
  simp only [Module.functionTypes, List.getElem?_toArray, List.getElem?_map] at htype
  rw [h.space, List.getElem?_toArray, List.getElem?_map]
  have hlisted := Option.join_eq_some_iff.1 htype
  obtain ⟨known, hknown, hsome⟩ := Option.map_eq_some_iff.1 hlisted
  rw [hknown, Option.map_some, Module.functionType, hsome, Option.getD_some]

theorem exportType?_eq_func_iff {e : Export} {type : FuncType} :
    m.exportType? e = some (.func type) ↔
      e.kind = .func ∧ m.functionTypes[e.index]?.join = some type := by
  obtain ⟨name, kind, index⟩ := e
  unfold Module.exportType?
  cases kind <;> simp

/-- The functions that a valid module exports are found by their names, with their types. -/
theorem exportsFunction_iff (hm : Typing.module m = true) (h : Valid m functions) {type : FuncType} :
    m.ExportsFunction name type ↔
      ∃ index, m.export? .func name = some index ∧ functions[index]? = some type := by
  obtain ⟨htypes, hnames⟩ := exports_of_module hm
  constructor
  · rintro ⟨⟨_, kind, index⟩, he, rfl, htype⟩
    obtain ⟨hkind, hknown⟩ := exportType?_eq_func_iff.1 htype
    cases hkind
    exact ⟨index, (export?_eq_some_iff hnames).2 he, h.type_of_functionTypes hknown⟩
  · rintro ⟨index, hindex, htype⟩
    have he := (export?_eq_some_iff hnames).1 hindex
    obtain ⟨other, hother⟩ := Option.isSome_iff_exists.1 (htypes _ he)
    have hfunc : ∃ type', m.functionTypes[index]?.join = some type' ∧ .func type' = other := by
      simpa [Module.exportType?] using hother
    obtain ⟨type', hknown, rfl⟩ := hfunc
    rw [h.type_of_functionTypes hknown, Option.some_inj] at htype
    exact ⟨_, he, rfl, htype ▸ hother⟩

end Typing
end GuestHarness.Wasm
