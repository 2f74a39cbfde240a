import GuestHarness.Proofs.Calls.Introspection
import GuestHarness.Proofs.Decimal.Digits
import GuestHarness.Proofs.Import.Offences

/-! Texts of signatures and of kinds of items tell them apart: no two of them have one text. What a guest
declares and what its host offers are named by such texts when they do not fit, and the texts differ but
in one case: a shared memory beside an unshared one with the same bounds. -/
namespace GuestHarness

namespace Signature

variable {ts ts' : List ValueType} {rest rest' : List Char} {s s' : Signature}

/-- What follows the parenthesis that opens a list of types. -/
def opened (ts : List ValueType) : List Char :=
  (String.intercalate ", " (ts.map ValueType.name)).toList ++ [')']

/-- What follows the first type of a list. -/
def continued : List ValueType → List Char
  | [] => [')']
  | t :: ts => ',' :: ' ' :: opened (t :: ts)

theorem toList_typesText (ts : List ValueType) : (typesText ts).toList = '(' :: opened ts := by
  simp [typesText, opened]

theorem opened_cons (t : ValueType) (ts : List ValueType) :
    opened (t :: ts) = t.name.toList ++ continued ts := by
  cases ts with
  | nil => simp [opened, continued]
  | cons u us => simp [opened, continued]

theorem length_name (t : ValueType) : t.name.toList.length = 3 := by
  cases t <;> rfl

/-- The text of a list of types ends where it is closed, and tells the list. -/
theorem opened_append_inj (h : opened ts ++ rest = opened ts' ++ rest') : ts = ts' ∧ rest = rest' := by
  induction ts generalizing ts' with
  | nil =>
    cases ts' with
    | nil => exact ⟨rfl, (List.append_right_inj _).1 h⟩
    | cons t' ts' =>
      rw [opened_cons] at h
      cases t' <;> cases h
  | cons t ts ih =>
    cases ts' with
    | nil =>
      rw [opened_cons] at h
      cases t <;> cases h
    | cons t' ts' =>
      rw [opened_cons, opened_cons, List.append_assoc, List.append_assoc] at h
      obtain ⟨hname, hcontinued⟩ := List.append_inj h ((length_name t).trans (length_name t').symm)
      obtain rfl := ValueType.name_injective (String.toList_inj.1 hname)
      cases ts with
      | nil =>
        cases ts' with
        | nil => exact ⟨rfl, (List.append_right_inj _).1 hcontinued⟩
        | cons u' us' => cases hcontinued
      | cons u us =>
        cases ts' with
        | nil => cases hcontinued
        | cons u' us' =>
          have hopened : opened (u :: us) ++ rest = opened (u' :: us') ++ rest' := by
            simpa [continued] using hcontinued
          obtain ⟨hlist, hrest⟩ := ih hopened
          rw [hlist]
          exact ⟨rfl, hrest⟩

/-- What follows the parameters. -/
def returned : List ValueType → List Char
  | [] => []
  | t :: ts => ' ' :: '-' :: '>' :: ' ' :: '(' :: opened (t :: ts)

theorem toList_text (s : Signature) : s.text.toList = '(' :: (opened s.params ++ returned s.results) := by
  unfold text
  cases s.results with
  | nil => simp [toList_typesText, returned]
  | cons t ts => simp [toList_typesText, returned]

theorem text_injective (h : s.text = s'.text) : s = s' := by
  rw [← String.toList_inj, toList_text, toList_text, List.cons.injEq] at h
  obtain ⟨hparams, hreturned⟩ := opened_append_inj h.2
  have hresults : s.results = s'.results := by
    generalize s.results = ts at hreturned
    generalize s'.results = ts' at hreturned
    cases ts with
    | nil =>
      cases ts' with
      | nil => rfl
      | cons t' ts' => cases hreturned
    | cons t ts =>
      cases ts' with
      | nil => cases hreturned
      | cons t' ts' =>
        have hopened : opened (t :: ts) ++ [] = opened (t' :: ts') ++ [] := by
          simpa [returned] using hreturned
        exact (opened_append_inj hopened).1
  cases s
  cases s'
  rw [Signature.mk.injEq]
  exact ⟨hparams, hresults⟩

theorem not_mem_text (s : Signature) : 'u' ∉ s.text.toList := by
  have hopened (ts : List ValueType) : 'u' ∉ opened ts := by
    induction ts with
    | nil => decide
    | cons t ts ih =>
      have hname : 'u' ∉ t.name.toList := by cases t <;> decide
      have hcontinued : 'u' ∉ continued ts := by
        cases ts with
        | nil => decide
        | cons u us =>
          simp only [continued, List.mem_cons, not_or]
          exact ⟨by decide, by decide, ih⟩
      rw [opened_cons, List.mem_append, not_or]
      exact ⟨hname, hcontinued⟩
  have hreturned (ts : List ValueType) : 'u' ∉ returned ts := by
    cases ts with
    | nil => decide
    | cons t ts =>
      simp only [returned, List.mem_cons, not_or]
      exact ⟨by decide, by decide, by decide, by decide, by decide, hopened (t :: ts)⟩
  rw [toList_text]
  simp [hopened, hreturned]

end Signature

namespace ItemKind
open Decimal (isDigit)
open Json (Lacks)

variable {k k' : ItemKind} {m m' : ℕ} {top top' : Option ℕ}

/-- A number ends where its digits end. -/
theorem toDigits_append_inj {rest rest' : List Char} (hrest : Lacks isDigit rest)
    (hrest' : Lacks isDigit rest') (h : Nat.toDigits 10 m ++ rest = Nat.toDigits 10 m' ++ rest') :
    m = m' ∧ rest = rest' := by
  have htaken := congrArg (List.takeWhile isDigit) h
  have hleft := congrArg (List.dropWhile isDigit) h
  rw [Json.takeWhile_of_lacks Json.isDigit_of_mem_toDigits hrest,
    Json.takeWhile_of_lacks Json.isDigit_of_mem_toDigits hrest'] at htaken
  rw [Json.dropWhile_of_lacks Json.isDigit_of_mem_toDigits hrest,
    Json.dropWhile_of_lacks Json.isDigit_of_mem_toDigits hrest'] at hleft
  refine ⟨?_, hleft⟩
  rw [← Decimal.digitsValue_toDigits m, htaken, Decimal.digitsValue_toDigits]

/-- What follows the two points in the text of a memory. -/
def upTo : Option ℕ → List Char
  | none => [' ', 'p', 'a', 'g', 'e', 's']
  | some n => Nat.toDigits 10 n ++ [' ', 'p', 'a', 'g', 'e', 's']

theorem upTo_injective (h : upTo top = upTo top') : top = top' := by
  have hlength (n : ℕ) : (upTo none).length ≠ (upTo (some n)).length := by
    have hpos := Nat.length_toDigits_pos (b := 10) (n := n)
    simp only [upTo, List.length_append]
    omega
  cases top with
  | none =>
    cases top' with
    | none => rfl
    | some n' => exact absurd (congrArg List.length h) (hlength n')
  | some n =>
    cases top' with
    | none => exact absurd (congrArg List.length h).symm (hlength n)
    | some n' =>
      obtain ⟨hn, -⟩ := toDigits_append_inj (.cons (by decide) _) (.cons (by decide) _) h
      exact congrArg some hn

theorem toList_describe_memory (m : ℕ) (top : Option ℕ) : (memory m top).describe.toList =
    "memory ".toList ++ (Nat.toDigits 10 m ++ '.' :: '.' :: upTo top) := by
  cases top <;> simp [describe, upTo] <;> rfl

theorem memory_of_describe (h : (memory m top).describe = (memory m' top').describe) :
    memory m top = memory m' top' := by
  rw [← String.toList_inj, toList_describe_memory, toList_describe_memory] at h
  obtain ⟨rfl, hpoints⟩ := toDigits_append_inj (.cons (by decide) _) (.cons (by decide) _)
    ((List.append_right_inj _).1 h)
  rw [upTo_injective (List.cons.inj (List.cons.inj hpoints).2).2]

theorem toList_describe_function (s : Signature) :
    (function s).describe.toList = "func ".toList ++ s.text.toList := by
  simp only [describe, String.toList_append]
  rfl

theorem toList_describe_unsupported (type : String) :
    (unsupportedFunction type).describe.toList =
      "func ".toList ++ (type.toList ++ " (unsupported)".toList) := by
  simp only [describe, String.toList_append, List.append_assoc]
  rfl

/-- No signature is called unsupported. -/
theorem describe_function_ne (s : Signature) (type : String) :
    (function s).describe ≠ (unsupportedFunction type).describe := by
  intro h
  rw [← String.toList_inj, toList_describe_function, toList_describe_unsupported] at h
  have hword : 'u' ∈ s.text.toList := by
    rw [(List.append_right_inj _).1 h]
    exact List.mem_append_right _ (by decide)
  exact Signature.not_mem_text s hword

/-- The initial of the text. -/
def initial : ItemKind → Char
  | function _ | unsupportedFunction _ => 'f'
  | memory .. => 'm'
  | table => 't'
  | global => 'g'

theorem head?_describe (k : ItemKind) : k.describe.toList.head? = some k.initial := by
  cases k with
  | function s => rw [toList_describe_function]; rfl
  | unsupportedFunction type => rw [toList_describe_unsupported]; rfl
  | memory m top => rw [toList_describe_memory]; rfl
  | table | global => rfl

/-- A kind can be told from its text, whatever text stands for the type of a function that exchanges more
than numbers. -/
theorem describe_injective (h : k.describe = k'.describe) : k = k' := by
  have hinitial : k.initial = k'.initial := by
    rw [← Option.some.injEq, ← head?_describe, ← head?_describe, h]
  cases k with
  | function s =>
    cases k' with
    | function s' =>
      rw [← String.toList_inj, toList_describe_function, toList_describe_function] at h
      have htext := String.toList_inj.1 ((List.append_right_inj _).1 h)
      exact congrArg function (Signature.text_injective htext)
    | unsupportedFunction type' => exact absurd h (describe_function_ne s type')
    | memory | table | global => simp [initial] at hinitial
  | unsupportedFunction type =>
    cases k' with
    | function s' => exact absurd h.symm (describe_function_ne s' type)
    | unsupportedFunction type' =>
      rw [← String.toList_inj, toList_describe_unsupported, toList_describe_unsupported] at h
      have htype := List.append_cancel_right ((List.append_right_inj _).1 h)
      exact congrArg unsupportedFunction (String.toList_inj.1 htype)
    | memory | table | global => simp [initial] at hinitial
  | memory m top =>
    cases k' with
    | memory m' top' => exact memory_of_describe h
    | function | unsupportedFunction | table | global => simp [initial] at hinitial
  | table =>
    cases k' with
    | table => rfl
    | function | unsupportedFunction | memory | global => simp [initial] at hinitial
  | global =>
    cases k' with
    | global => rfl
    | function | unsupportedFunction | memory | table => simp [initial] at hinitial

end ItemKind

namespace Offer

variable {pages : MemoryPages} {memory : Wasm.MemoryType} {o : Offer} {type : Wasm.ExternType}

/-- A memory fits where an unshared one with just its bounds is declared. -/
theorem satisfies_of_limits (hunshared : memory.shared = false) (hlimits : memory.limits = pages.limits) :
    (Offer.memory pages).satisfies (.memory memory) = true := by
  simp only [satisfies, hunshared, hlimits]
  cases pages.limits.maximum <;> simp

/-- What an offer does not fit is of the same kind only if it is a shared memory with the bounds of the
memory that is offered. -/
theorem ofType_eq_kind_iff (unsatisfied : o.satisfies type = false) : ItemKind.ofType type = o.kind ↔
    ∃ memory pages, type = .memory memory ∧ o = .memory pages ∧ memory.shared = true ∧
      memory.limits = pages.limits := by
  constructor
  · intro h
    cases o with
    | memory pages =>
      cases type with
      | memory memory =>
        obtain ⟨hminimum, hmaximum⟩ := ItemKind.memory.inj h
        have hlimits : memory.limits = pages.limits := by
          rw [Wasm.Limits.mk.injEq]
          exact ⟨hminimum, hmaximum⟩
        refine ⟨memory, pages, rfl, rfl, ?_, hlimits⟩
        cases hshared : memory.shared with
        | true => rfl
        | false =>
          rw [satisfies_of_limits hshared hlimits] at unsatisfied
          cases unsatisfied
      | func f =>
        unfold ItemKind.ofType at h
        cases hsignature : f.signature? <;> simp [hsignature, kind] at h
      | table | global => cases h
    | logger l sink =>
      have htype : type = .func (.ofSignature l.signature) := ItemKind.ofType_eq_function_iff.1 h
      rw [htype, satisfies, Wasm.FuncType.signature?_ofSignature] at unsatisfied
      simp at unsatisfied
  · rintro ⟨memory, pages, rfl, rfl, -, hlimits⟩
    rw [kind, ItemKind.ofType, hlimits]

end Offer

namespace ImportTable

variable {t : ImportTable} {m : Wasm.Module} {i : Wasm.Import}

/-- The module declares a shared memory at a key where the table has a memory with the same bounds. -/
def DiffersInSharing (t : ImportTable) (m : Wasm.Module) (i : Wasm.Import) : Prop :=
  ∃ memory entry pages, m.importType? i = some (.memory memory) ∧
    t.find? i.module i.name = some entry ∧ entry.offer = .memory pages ∧ memory.shared = true ∧
    memory.limits = pages.limits

theorem exists_of_incompatible {declared provided : ItemKind}
    (h : t.objection? m i = some (.incompatible declared provided)) :
    ∃ entry type, t.find? i.module i.name = some entry ∧ m.importType? i = some type ∧
      entry.offer.satisfies type = false ∧ declared = .ofType type ∧ provided = entry.offer.kind := by
  unfold objection? at h
  split at h
  · cases h
  · next entry hentry =>
    split at h
    · cases h
    · next type htype =>
      split at h
      · split at h
        · split at h <;> cases h
        · cases h
      · next hunsatisfied =>
        cases h
        exact ⟨entry, type, hentry, htype, Bool.eq_false_iff.2 hunsatisfied, rfl, rfl⟩

theorem describe_eq_iff {declared provided : ItemKind}
    (h : t.objection? m i = some (.incompatible declared provided)) :
    declared.describe = provided.describe ↔ t.DiffersInSharing m i := by
  obtain ⟨entry, type, hentry, htype, hunsatisfied, rfl, rfl⟩ := exists_of_incompatible h
  have hkinds : (ItemKind.ofType type).describe = entry.offer.kind.describe ↔
      ItemKind.ofType type = entry.offer.kind :=
    ⟨ItemKind.describe_injective, congrArg ItemKind.describe⟩
  rw [hkinds, Offer.ofType_eq_kind_iff hunsatisfied]
  constructor
  · rintro ⟨memory, pages, rfl, hoffer, hshared, hlimits⟩
    exact ⟨memory, entry, pages, htype, hentry, hoffer, hshared, hlimits⟩
  · rintro ⟨memory, entry', pages, htype', hentry', hoffer, hshared, hlimits⟩
    cases htype.symm.trans htype'
    cases hentry.symm.trans hentry'
    exact ⟨memory, pages, rfl, hoffer, hshared, hlimits⟩

end ImportTable

/-- A check that fails names the first import to which something is objected. If the types do not fit, the
text of what the module declares and the text of what the host provides are different, but for a shared
memory beside a memory of the host with the same bounds: then they are the same. -/
theorem incompatible_types_look_alike_iff {t : ImportTable} {m : Wasm.Module} {name : String}
    {e : Fault} (failed : t.check m name = .error e) :
    ∃ i o, (∃ before after, m.imports = before ++ i :: after ∧
        ∀ j ∈ before, t.objection? m j = none) ∧
      t.objection? m i = some o ∧ e = .link name (o.message (qualifiedName i.module i.name)) ∧
      ∀ declared provided, o = .incompatible declared provided →
        (declared.describe = provided.describe ↔ t.DiffersInSharing m i) := by
  obtain ⟨i, o, hfirst, ho, he⟩ := ImportTable.check_eq_error_iff.1 failed
  refine ⟨i, o, hfirst, ho, he, fun declared provided hincompatible => ?_⟩
  rw [hincompatible] at ho
  exact ImportTable.describe_eq_iff ho

/-- A guest that imports a memory of two pages. -/
def roomyGuest : Wasm.Module where
  imports := [⟨memoryModule, memoryName, .memory ⟨⟨2, none⟩, false⟩⟩]

/-- A memory of one page is not enough for it, and the texts say so. -/
theorem incompatible_types_look_alike_iff_roomyGuest :
    let t := ImportTable.stringLogger (.recorder 0)
    let cause := "incompatible import type for `js.mem`: module declares memory 2.. pages, " ++
      "host provides memory 1.. pages"
    t.check roomyGuest "guest" = .error (.link "guest" cause) ∧
      ∃ i o, t.objection? roomyGuest i = some o ∧
        Fault.link "guest" cause = .link "guest" (o.message (qualifiedName i.module i.name)) ∧
        ∀ declared provided, o = .incompatible declared provided →
          declared.describe ≠ provided.describe := by
  intro t cause
  have failed : t.check roomyGuest "guest" = .error (.link "guest" cause) := by decide +kernel
  obtain ⟨i, o, ⟨before, after, himports, -⟩, ho, he, halike⟩ :=
    incompatible_types_look_alike_iff failed
  refine ⟨failed, i, o, ho, he, fun declared provided hincompatible hsame => ?_⟩
  have hi : i ∈ roomyGuest.imports := by simp [himports]
  obtain rfl := List.mem_singleton.1 hi
  obtain ⟨memory, -, -, htype, -, -, hshared, -⟩ := (halike declared provided hincompatible).1 hsame
  cases htype
  cases hshared

/-- An import of a shared memory. -/
def sharedMemory : Wasm.Import := ⟨memoryModule, memoryName, .memory ⟨⟨1, some 2⟩, true⟩⟩

/-- A guest that imports it. -/
def sharingGuest : Wasm.Module where
  imports := [sharedMemory]

/-- An unshared memory with the same bounds does not fit, and the cause does not tell why. -/
theorem shared_memory_looks_unshared :
    let t := ImportTable.empty.insert memoryModule memoryName (.memory ⟨1, some 2⟩)
    Wasm.Typing.module sharingGuest = true ∧
      t.objection? sharingGuest sharedMemory =
        some (.incompatible (.memory 1 (some 2)) (.memory 1 (some 2))) ∧
      t.check sharingGuest "guest" = .error (.link "guest"
        ("incompatible import type for `js.mem`: module declares memory 1..2 pages, " ++
          "host provides memory 1..2 pages")) := by
  decide +kernel

end GuestHarness
