import GuestHarness.FileTree
import GuestHarness.Proofs.Json.Numerals
import Mathlib.Data.List.TakeWhile

/-! Paths and the files they lead to. The last name of a path is what is left of it without the idle parts
at its end, and its extension is what follows the last point of this name. A directory in front of a path
changes neither, and a path that leads to a file has no idle parts at its end. -/
namespace GuestHarness

namespace Path

variable {path name ext : String}

theorem fileName?_eq_some_iff : fileName? path = some name ↔
    name ≠ ".." ∧ isIdle name = false ∧
      ∃ front back, parts path = front ++ name :: back ∧ ∀ part ∈ back, isIdle part = true := by
  have hlast : ((parts path).filter (!isIdle ·)).getLast? = some name ↔ isIdle name = false ∧
      ∃ front back, parts path = front ++ name :: back ∧ ∀ part ∈ back, isIdle part = true := by
    simp only [List.getLast?_filter, List.find?_eq_some_iff_append, Bool.not_eq_true', Bool.not_not]
    refine and_congr_right fun _ => ⟨?_, ?_⟩
    · rintro ⟨back, front, hparts, hback⟩
      refine ⟨front.reverse, back.reverse, ?_, fun part hpart => hback part (List.mem_reverse.1 hpart)⟩
      rw [← List.reverse_reverse (parts path), hparts]
      simp
    · rintro ⟨front, back, hparts, hback⟩
      refine ⟨back.reverse, front.reverse, ?_, fun part hpart => hback part (List.mem_reverse.1 hpart)⟩
      simp [hparts]
  rw [← hlast]
  unfold fileName?
  split
  · next hdots => simp [hdots, eq_comm]
  · next hdots =>
    refine ⟨fun h => ⟨?_, h⟩, fun h => h.2⟩
    rintro rfl
    exact hdots h

/-- What stands before the last point of a text, and what follows it. -/
theorem reverse_eq_of_dropWhile {cs stem : List Char} {c : Char}
    (h : cs.reverse.dropWhile (· ≠ '.') = '.' :: c :: stem) :
    cs = (c :: stem).reverse ++ '.' :: (cs.reverse.takeWhile (· ≠ '.')).reverse := by
  have hreversed := List.takeWhile_append_dropWhile (p := (· ≠ '.')) (l := cs.reverse)
  rw [h] at hreversed
  rw [← List.reverse_inj, List.reverse_append, List.reverse_cons, List.reverse_reverse,
    List.reverse_reverse, List.append_assoc]
  exact hreversed.symm

/-- The extension is what follows the last point, if that does not begin the name. -/
theorem extension?_eq_some_iff : extension? path = some ext ↔
    ∃ stem, fileName? path = some (stem ++ "." ++ ext) ∧ stem ≠ "" ∧ '.' ∉ ext.toList := by
  unfold extension?
  cases hname : fileName? path with
  | none => simp
  | some name =>
    simp only [Option.bind_eq_bind, Option.bind_some, Option.some.injEq]
    constructor
    · intro h
      split at h
      · next c cs hrest =>
        cases h
        refine ⟨String.ofList (c :: cs).reverse, ?_, by simp, ?_⟩
        · rw [← String.toList_inj]
          simpa using reverse_eq_of_dropWhile hrest
        · rw [String.toList_ofList, List.mem_reverse]
          intro hpoint
          simpa using List.mem_takeWhile_imp hpoint
      · cases h
    · rintro ⟨stem, rfl, hstem, hext⟩
      obtain ⟨c, cs, hcs⟩ := List.exists_cons_of_ne_nil
        (List.reverse_eq_nil_iff.not.2 (mt String.toList_eq_nil_iff.1 hstem))
      have hreversed : (stem ++ "." ++ ext).toList.reverse = ext.toList.reverse ++ '.' :: c :: cs := by
        simp [hcs]
      have hfree : ∀ d ∈ ext.toList.reverse, decide (d ≠ '.') = true := by
        intro d hd
        rw [decide_eq_true_eq]
        rintro rfl
        exact hext (List.mem_reverse.1 hd)
      rw [hreversed, Json.dropWhile_of_lacks hfree (.cons (by decide) _),
        Json.takeWhile_of_lacks hfree (.cons (by decide) _)]
      simp

/-- The last name of a path is a stem and an extension; idle parts may follow it. -/
def HasExtension (path ext : String) : Prop :=
  ∃ front stem back, parts path = front ++ (stem ++ "." ++ ext) :: back ∧ stem ≠ "" ∧
    ∀ part ∈ back, isIdle part = true

theorem extension?_wasm_iff : extension? path = some "wasm" ↔ HasExtension path "wasm" := by
  rw [extension?_eq_some_iff]
  constructor
  · rintro ⟨stem, hname, hstem, -⟩
    obtain ⟨-, -, front, back, hparts, hback⟩ := fileName?_eq_some_iff.1 hname
    exact ⟨front, stem, back, hparts, hstem, hback⟩
  · rintro ⟨front, stem, back, hparts, hstem, hback⟩
    have hne {word : String} (hshort : word.length < 5) : stem ++ "." ++ "wasm" ≠ word := by
      rintro rfl
      rw [String.append_assoc, String.length_append] at hshort
      exact absurd hshort (Nat.not_lt.2 (Nat.le_add_left 5 _))
    have hidle : isIdle (stem ++ "." ++ "wasm") = false := by
      rw [isIdle, decide_eq_false (hne (by decide)), decide_eq_false (hne (by decide))]
      rfl
    exact ⟨stem, fileName?_eq_some_iff.2 ⟨hne (by decide), hidle, front, back, hparts, hback⟩, hstem,
      by decide⟩

/-- A path written after a directory. -/
def below (dir path : String) : String :=
  if dir = "" then path
  else if dir.toList.getLast? = some '/' then dir ++ path
  else dir ++ "/" ++ path

theorem join_eq (dir path : String) :
    join dir path = if isAbsolute path then path else below dir path := by
  unfold join below
  by_cases habsolute : isAbsolute path = true
  · simp [habsolute]
  · simp [habsolute]

theorem prefix_below (dir path : String) : dir.toList <+: (below dir path).toList := by
  unfold below
  split
  · next hempty => rw [hempty]; exact List.nil_prefix
  · split
    · rw [String.toList_append]
      exact List.prefix_append _ _
    · rw [String.append_assoc, String.toList_append]
      exact List.prefix_append _ _

theorem suffix_below (dir path : String) : path.toList <:+ (below dir path).toList := by
  unfold below
  split
  · exact List.suffix_rfl
  · split <;> rw [String.toList_append] <;> exact List.suffix_append _ _

theorem below_ne {dir : String} (h : dir ≠ "") (path : String) : below dir path ≠ path := by
  have hpos : 0 < dir.toList.length := List.length_pos_iff.2 (mt String.toList_eq_nil_iff.1 h)
  intro hsame
  have hlength := congrArg (fun s : String => s.toList.length) hsame
  unfold below at hlength
  rw [if_neg h] at hlength
  split at hlength
  · simp only [String.toList_append, List.length_append] at hlength
    omega
  · simp only [String.toList_append, List.length_append] at hlength
    omega

theorem parts_append (dir path : String) : parts (dir ++ "/" ++ path) = parts dir ++ parts path := by
  have hslash : (dir ++ "/" ++ path).toList = dir.toList ++ '/' :: path.toList := by simp
  rw [parts, hslash, List.splitOn_append_cons_self, List.map_append]
  rfl

theorem parts_ne_nil (path : String) : parts path ≠ [] := by
  simp [parts, List.splitOn_ne_nil]

/-- A directory in front leaves the last part of a path as it is. -/
theorem getLast?_parts_below (dir path : String) :
    (parts (below dir path)).getLast? = (parts path).getLast? := by
  have hslash (dir : String) : (parts (dir ++ "/" ++ path)).getLast? = (parts path).getLast? := by
    rw [parts_append, List.getLast?_append_of_ne_nil _ (parts_ne_nil path)]
  unfold below
  split
  · rfl
  · split
    · next hlast =>
      obtain ⟨front, hfront⟩ := List.getLast?_eq_some_iff.1 hlast
      have hdir : dir = String.ofList front ++ "/" := by
        rw [← String.toList_inj, hfront]
        simp
      rw [hdir]
      exact hslash _
    · exact hslash dir

theorem suffix_intercalate {α : Type} (separator : List α) {last : List α} {ls : List (List α)}
    (h : ls.getLast? = some last) : last <:+ separator.intercalate ls := by
  induction ls with
  | nil => cases h
  | cons l ls ih =>
    cases ls with
    | nil =>
      obtain rfl : l = last := Option.some.inj h
      simp
    | cons l' ls' =>
      rw [List.getLast?_cons_cons] at h
      rw [List.intercalate_cons_cons]
      exact (ih h).trans (List.suffix_append _ _)

/-- A path ends in its last part. -/
theorem suffix_of_getLast?_parts {last : String} (h : (parts path).getLast? = some last) :
    last.toList <:+ path.toList := by
  rw [parts, List.getLast?_map, Option.map_eq_some_iff] at h
  obtain ⟨cs, hcs, rfl⟩ := h
  have hsuffix := suffix_intercalate ['/'] hcs
  rwa [List.intercalate_splitOn, ← String.toList_ofList (l := cs)] at hsuffix

end Path

namespace FileTree

variable {t : FileTree} {path : String}

/-- What a file is found by does not end in an idle part. -/
theorem not_idle_of_follow {place parts : List String} {bytes : List UInt8}
    (h : t.follow place parts = .ok (.file bytes)) :
    ∀ last ∈ parts.getLast?, Path.isIdle last = false := by
  induction parts generalizing place with
  | nil => simp
  | cons part parts ih =>
    have hcons (hpart : parts = [] → Path.isIdle part = false)
        (hparts : ∀ last ∈ parts.getLast?, Path.isIdle last = false) :
        ∀ last ∈ (part :: parts).getLast?, Path.isIdle last = false := by
      cases parts with
      | nil => simpa using hpart
      | cons q qs => rwa [List.getLast?_cons_cons]
    unfold follow at h
    split at h
    · cases h
    · cases h
    · next hnode =>
      split at h
      · refine hcons ?_ (ih h)
        -- An idle part at the end leads to the directory where it stands.
        rintro rfl
        simp [follow, hnode] at h
      · next hidle =>
        have hpart : Path.isIdle part = false := Bool.eq_false_iff.2 hidle
        split at h <;> exact hcons (fun _ => hpart) (ih h)

theorem not_idle_of_isFile (h : t.isFile path = true) :
    ∀ last ∈ (Path.parts path).getLast?, Path.isIdle last = false := by
  unfold isFile lookup at h
  split at h
  · next bytes hbytes =>
    split at hbytes
    · cases hbytes
    · exact not_idle_of_follow hbytes
  · cases h

end FileTree

end GuestHarness
