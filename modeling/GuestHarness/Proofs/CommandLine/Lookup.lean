import GuestHarness.CommandLine.Lookup
import GuestHarness.Proofs.Files.Paths

/-! Where the file of a module is looked for: at the path that is given, and else under its name in the
build directory. With one exception: an absolute path is never looked for there, but beside itself. -/
namespace GuestHarness

namespace CommandLine
open GuestHarness.Path

variable {isFile : String → Bool} {module buildDir name path : String}

/-- The name of a module's file: the extension is added if it is not there. -/
inductive Named (module : String) : String → Prop
  | itself (h : HasExtension module "wasm") : Named module module
  | extended (h : ¬HasExtension module "wasm") : Named module (module ++ ".wasm")

theorem named_iff : Named module name ↔ name = moduleFileName module := by
  unfold moduleFileName
  split
  · next h =>
    have hhas := extension?_wasm_iff.1 h
    constructor
    · intro hname
      cases hname with
      | itself => rfl
      | extended hlacks => exact absurd hhas hlacks
    · rintro rfl
      exact .itself hhas
  · next h =>
    have hlacks := mt extension?_wasm_iff.2 h
    constructor
    · intro hname
      cases hname with
      | itself hhas => exact absurd hhas hlacks
      | extended => rfl
    · rintro rfl
      exact .extended hlacks

/-- A name is absolute as it was given. -/
theorem isAbsolute_moduleFileName (module : String) :
    isAbsolute (moduleFileName module) = isAbsolute module := by
  unfold moduleFileName
  split
  · rfl
  · rw [isAbsolute, isAbsolute, String.toList_append]
    cases module.toList with
    | nil => rfl
    | cons c cs => rfl

/-- The place in the build directory, but for absolute names. -/
theorem candidate_eq (buildDir module : String) : candidate buildDir module =
    if isAbsolute module then moduleFileName module else below buildDir (moduleFileName module) := by
  rw [candidate, join_eq, isAbsolute_moduleFileName]

theorem candidate_eq_below (h : isAbsolute module = true → buildDir = "") :
    candidate buildDir module = below buildDir (moduleFileName module) := by
  rw [candidate_eq]
  split
  · next habsolute => rw [h habsolute, below, if_pos rfl]
  · rfl

theorem resolveAmong_eq_ok_iff : (resolveAmong isFile module buildDir).outcome = .ok path ↔
    isFile path = true ∧
      (path = module ∨ isFile module = false ∧ path = candidate buildDir module) := by
  rw [resolveAmong_outcome]
  split
  · next hfile =>
    rw [Except.ok.injEq]
    constructor
    · rintro rfl
      exact ⟨hfile, .inl rfl⟩
    · rintro ⟨-, rfl | ⟨hmissing, -⟩⟩
      · rfl
      · rw [hfile] at hmissing
        cases hmissing
  · next hmissing =>
    have hmissing' : isFile module = false := Bool.eq_false_iff.2 hmissing
    split
    · next hfile =>
      rw [Except.ok.injEq]
      constructor
      · rintro rfl
        exact ⟨hfile, .inr ⟨hmissing', rfl⟩⟩
      · rintro ⟨hpath, rfl | ⟨-, rfl⟩⟩
        · exact absurd hpath hmissing
        · rfl
    · next hnone =>
      refine iff_of_false (fun h => by cases h) ?_
      rintro ⟨hpath, rfl | ⟨-, rfl⟩⟩
      · exact hmissing hpath
      · exact hnone hpath

theorem resolveAmong_fails_iff : (∃ e, (resolveAmong isFile module buildDir).outcome = .error e) ↔
    isFile module = false ∧ isFile (candidate buildDir module) = false := by
  rw [resolveAmong_outcome]
  split
  · next hfile => simp [hfile]
  · next hmissing =>
    split
    · next hfile => simp [hfile]
    · next hnone => simp [hmissing, hnone]

/-- What is asked of looking for a module's file: a path that is a file stands for itself, any other is the
name of a file in the build directory, and if that is not there either nothing is found. -/
structure LooksUp (isFile : String → Bool) (module buildDir : String) : Prop where
  itself : (resolveAmong isFile module buildDir).outcome = .ok module ↔ isFile module = true
  built : ∀ path, isFile module = false → (resolveAmong isFile module buildDir).outcome = .ok path →
    isFile path = true ∧ buildDir.toList <+: path.toList ∧
      ∃ name, Named module name ∧ path = below buildDir name
  fails : (∃ e, (resolveAmong isFile module buildDir).outcome = .error e) ↔
    isFile module = false ∧ ∀ name, Named module name → isFile (below buildDir name) = false

/-- An absolute path leads nowhere itself, and there is a file where its extension leads, or at its name in
the build directory. -/
structure Strays (isFile : String → Bool) (module buildDir : String) : Prop where
  absolute : isAbsolute module = true
  directory : buildDir ≠ ""
  missing : isFile module = false
  found : ∃ name, Named module name ∧ (isFile name = true ∨ isFile (below buildDir name) = true)

/-- From an absolute path nothing in the build directory is found. -/
theorem Strays.not_looksUp (h : Strays isFile module buildDir) : ¬LooksUp isFile module buildDir := by
  intro hlooks
  obtain ⟨name, hname, hfound⟩ := h.found
  have hcandidate : candidate buildDir module = name := by
    rw [candidate_eq, if_pos h.absolute, named_iff.1 hname]
  cases hfile : isFile name with
  | true =>
    have hpicked := resolveAmong_eq_ok_iff.2 ⟨hfile, .inr ⟨h.missing, hcandidate.symm⟩⟩
    obtain ⟨-, -, name', hname', hbelow⟩ := hlooks.built name h.missing hpicked
    rw [named_iff.1 hname', ← named_iff.1 hname] at hbelow
    exact below_ne h.directory name hbelow.symm
  | false =>
    obtain ⟨-, hnone⟩ := hlooks.fails.1 (resolveAmong_fails_iff.2 ⟨h.missing, hcandidate ▸ hfile⟩)
    rw [hfile, hnone name hname] at hfound
    simp at hfound

/-- Where a path does not stray, the place in the build directory is the one that is looked at, or it makes
no difference. -/
theorem candidate_of_not_strays (h : ¬Strays isFile module buildDir) (hmissing : isFile module = false) :
    candidate buildDir module = below buildDir (moduleFileName module) ∨
      isFile (candidate buildDir module) = false ∧
        isFile (below buildDir (moduleFileName module)) = false := by
  by_cases hdir : isAbsolute module = true → buildDir = ""
  · exact .inl (candidate_eq_below hdir)
  · rw [Classical.not_imp] at hdir
    obtain ⟨habsolute, hdirectory⟩ := hdir
    rw [candidate_eq, if_pos habsolute]
    have hnot (hfound : isFile (moduleFileName module) = true ∨
        isFile (below buildDir (moduleFileName module)) = true) : False :=
      h ⟨habsolute, hdirectory, hmissing, _, named_iff.2 rfl, hfound⟩
    exact .inr ⟨Bool.eq_false_iff.2 fun hfile => hnot (.inl hfile),
      Bool.eq_false_iff.2 fun hfile => hnot (.inr hfile)⟩

theorem looksUp_of_not_strays (h : ¬Strays isFile module buildDir) :
    LooksUp isFile module buildDir where
  itself := by
    rw [resolveAmong_eq_ok_iff]
    simp
  built path hmissing hpath := by
    obtain ⟨hfile, rfl | ⟨-, rfl⟩⟩ := resolveAmong_eq_ok_iff.1 hpath
    · rw [hmissing] at hfile
      cases hfile
    · obtain hbelow | ⟨hnone, -⟩ := candidate_of_not_strays h hmissing
      · rw [hbelow] at hfile ⊢
        exact ⟨hfile, prefix_below _ _, _, named_iff.2 rfl, rfl⟩
      · rw [hnone] at hfile
        cases hfile
  fails := by
    simp only [resolveAmong_fails_iff, named_iff, forall_eq]
    refine and_congr_right fun hmissing => ?_
    obtain hbelow | ⟨hnone, hnone'⟩ := candidate_of_not_strays h hmissing
    · rw [hbelow]
    · exact iff_of_true hnone hnone'

/-- From a path that strays a file is found at most where its extension leads. -/
theorem Strays.resolved_iff (h : Strays isFile module buildDir) :
    (resolveAmong isFile module buildDir).outcome = .ok path ↔
      Named module path ∧ isFile path = true := by
  rw [resolveAmong_eq_ok_iff, named_iff, candidate_eq, if_pos h.absolute]
  constructor
  · rintro ⟨hfile, rfl | ⟨-, rfl⟩⟩
    · rw [h.missing] at hfile
      cases hfile
    · exact ⟨rfl, hfile⟩
  · rintro ⟨rfl, hfile⟩
    exact ⟨hfile, .inr ⟨h.missing, rfl⟩⟩

/-- A name that does not end in an idle part ends in the extension, also where none was added. -/
theorem Named.wasm_suffix (h : Named module name)
    (hidle : ∀ last ∈ (parts name).getLast?, isIdle last = false) : ".wasm".toList <:+ name.toList := by
  cases h with
  | itself hextension =>
    obtain ⟨front, stem, back, hparts, -, hback⟩ := hextension
    have hnil : back = [] := by
      by_contra hne
      obtain ⟨rest, last, rfl⟩ := (List.eq_nil_or_concat' back).resolve_left hne
      have hlast : (parts module).getLast? = some last :=
        List.getLast?_eq_some_iff.2 ⟨front ++ (stem ++ "." ++ "wasm") :: rest, by simp [hparts]⟩
      have hidle' := hidle last hlast
      rw [hback last (by simp)] at hidle'
      cases hidle'
    have hlast : (parts module).getLast? = some (stem ++ "." ++ "wasm") := by simp [hparts, hnil]
    refine List.IsSuffix.trans ?_ (suffix_of_getLast?_parts hlast)
    rw [String.append_assoc, String.toList_append]
    exact List.suffix_append _ _
  | extended =>
    rw [String.toList_append]
    exact List.suffix_append _ _

/-- What is found in a tree of files, other than the path itself, has the extension. -/
theorem wasm_suffix_of_resolved {files : FileTree} (hmissing : files.isFile module = false)
    (resolved : (resolveModule files module buildDir).outcome = .ok path) :
    ".wasm".toList <:+ path.toList := by
  obtain ⟨hfile, rfl | ⟨-, rfl⟩⟩ := resolveAmong_eq_ok_iff.1 resolved
  · rw [hmissing] at hfile
    cases hfile
  · have hidle := FileTree.not_idle_of_isFile hfile
    have hnamed : Named module (moduleFileName module) := named_iff.2 rfl
    obtain hname | hbelow : candidate buildDir module = moduleFileName module ∨
        candidate buildDir module = below buildDir (moduleFileName module) := by
      rw [candidate_eq]
      exact ite_eq_or_eq _ _ _
    · rw [hname] at hidle ⊢
      exact hnamed.wasm_suffix hidle
    · rw [hbelow] at hidle ⊢
      rw [getLast?_parts_below] at hidle
      exact (hnamed.wasm_suffix hidle).trans (suffix_below _ _)

/-- Whichever paths are files, a module is looked for as itself and else by its name with the extension in
the build directory, if and only if it does not stray: with an absolute path the build directory is left
out. What is found in a tree of files, other than the path itself, has the extension. -/
theorem modules_are_looked_up_iff (isFile : String → Bool) (module buildDir : String) :
    (LooksUp isFile module buildDir ↔ ¬Strays isFile module buildDir) ∧
      (Strays isFile module buildDir → ∀ path,
        (resolveAmong isFile module buildDir).outcome = .ok path ↔
          Named module path ∧ isFile path = true) ∧
      ∀ (files : FileTree) (path : String), files.isFile module = false →
        (resolveModule files module buildDir).outcome = .ok path → ".wasm".toList <:+ path.toList :=
  ⟨⟨fun hlooks hstrays => hstrays.not_looksUp hlooks, looksUp_of_not_strays⟩,
    fun hstrays _ => hstrays.resolved_iff, fun _ _ => wasm_suffix_of_resolved⟩

/-- A name in the build directory, written without the extension and with it. -/
theorem modules_are_looked_up_iff_named :
    let files := FileTree.ofList [("build/guest.wasm", [])]
    LooksUp files.isFile "guest" "build" ∧
      (resolveModule files "guest" "build").outcome = .ok "build/guest.wasm" ∧
      (resolveModule files "guest.wasm" "build").outcome = .ok "build/guest.wasm" ∧
      ".wasm".toList <:+ "build/guest.wasm".toList := by
  intro files
  have hrelative : ¬Strays files.isFile "guest" "build" := fun h => absurd h.absolute (by decide)
  have hfile : files.isFile "build/guest.wasm" = true := by decide +kernel
  have hmissing : files.isFile "guest" = false := by decide +kernel
  have hmissing' : files.isFile "guest.wasm" = false := by decide +kernel
  have hcandidate : candidate "build" "guest" = "build/guest.wasm" := by decide +kernel
  have hcandidate' : candidate "build" "guest.wasm" = "build/guest.wasm" := by decide +kernel
  have resolved : (resolveModule files "guest" "build").outcome = .ok "build/guest.wasm" :=
    resolveAmong_eq_ok_iff.2 ⟨hfile, .inr ⟨hmissing, hcandidate.symm⟩⟩
  obtain ⟨hlooks, -, hextension⟩ := modules_are_looked_up_iff files.isFile "guest" "build"
  exact ⟨hlooks.2 hrelative, resolved,
    resolveAmong_eq_ok_iff.2 ⟨hfile, .inr ⟨hmissing', hcandidate'.symm⟩⟩,
    hextension files _ hmissing resolved⟩

/-- A path from the root leaves the build directory out: the module that is there is not found, and one
beside the path is. -/
theorem absolute_path_leaves_build_directory :
    let files := FileTree.ofList [("gwe_build/guest.wasm", [])]
    let others := FileTree.ofList [("/elsewhere/guest.wasm", [])]
    ¬LooksUp files.isFile "/guest" "gwe_build" ∧
      files.isFile (below "gwe_build" "/guest.wasm") = true ∧
      (resolveModule files "/guest" "gwe_build").outcome =
        .error { message := "Module not found: /guest (also tried /guest.wasm)" } ∧
      ¬LooksUp others.isFile "/elsewhere/guest" "gwe_build" ∧
      (resolveModule others "/elsewhere/guest" "gwe_build").outcome = .ok "/elsewhere/guest.wasm" := by
  intro files others
  have hbuilt : files.isFile (below "gwe_build" "/guest.wasm") = true := by decide +kernel
  have hmissing : files.isFile "/guest" = false := by decide +kernel
  have hname : Named "/guest" "/guest.wasm" := named_iff.2 (by decide +kernel)
  have hbeside : others.isFile "/elsewhere/guest.wasm" = true := by decide +kernel
  have hmissing' : others.isFile "/elsewhere/guest" = false := by decide +kernel
  have hname' : Named "/elsewhere/guest" "/elsewhere/guest.wasm" := named_iff.2 (by decide +kernel)
  have hstrays : Strays files.isFile "/guest" "gwe_build" :=
    ⟨by decide, by decide, hmissing, _, hname, .inr hbuilt⟩
  have hstrays' : Strays others.isFile "/elsewhere/guest" "gwe_build" :=
    ⟨by decide, by decide, hmissing', _, hname', .inl hbeside⟩
  exact ⟨hstrays.not_looksUp, hbuilt, by decide +kernel, hstrays'.not_looksUp,
    hstrays'.resolved_iff.2 ⟨hname', hbeside⟩⟩

end CommandLine
end GuestHarness
