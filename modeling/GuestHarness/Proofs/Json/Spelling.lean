import GuestHarness.Proofs.Json.Numerals

/-! The spellings of a document, with blanks where a writer may put them. Both writers spell the
document they are given, and the reader finds the document in any spelling of it. -/
namespace GuestHarness
namespace Json
open Decimal (isDigit)

section

variable {rest : List Char}

/-- Control characters are written with four digits that denote them. -/
theorem unit?_of_control : ∀ n < 0x20,
    List.replicate (4 - (Nat.toDigits 16 n).length) '0' ++ Nat.toDigits 16 n =
        ['0', '0', Nat.digitChar (n / 16), Nat.digitChar (n % 16)] ∧
      unit? '0' '0' (Nat.digitChar (n / 16)) (Nat.digitChar (n % 16)) = some n := by
  decide

theorem pushUnit_of_control {acc : List Char} {c : Char} (h : c.toNat < 0x20) :
    Scan.pushUnit ⟨some acc, none⟩ c.toNat = ⟨some (c :: acc), none⟩ := by
  have hlow : isLowSurrogate c.toNat = false := by
    simp only [isLowSurrogate, Bool.and_eq_false_iff, decide_eq_false_iff_not]
    omega
  have hhigh : isHighSurrogate c.toNat = false := by
    simp only [isHighSurrogate, Bool.and_eq_false_iff, decide_eq_false_iff_not]
    omega
  simp [Scan.pushUnit, hlow, hhigh, Scan.push, Scan.settle]

/-- An escape is read as the character that it stands for. -/
theorem readString_escapeChar (c : Char) (acc : List Char) :
    readString ⟨some acc, none⟩ (escapeChar c ++ rest) =
      readString ⟨some (c :: acc), none⟩ rest := by
  unfold escapeChar
  split
  all_goals try rfl
  next hquote hslash _ _ _ _ _ =>
  split
  · next hcontrol =>
    obtain ⟨hwritten, hunit⟩ := unit?_of_control c.toNat hcontrol
    simp only [unitEscape, List.cons_append, hwritten, List.nil_append, readString, hunit,
      pushUnit_of_control hcontrol]
  · next hplain =>
    rw [List.singleton_append, readString]
    · rw [if_neg hplain]
      rfl
    · exact hquote
    · intros
      exact hslash ‹_›
    · intros
      exact hslash ‹_›

theorem writeText_append (s : String) (rest : List Char) :
    writeText s ++ rest = '"' :: (s.toList.flatMap escapeChar ++ '"' :: rest) := by
  simp [writeText]

theorem readString_writeText (s : String) :
    readString {} (s.toList.flatMap escapeChar ++ '"' :: rest) = some (some s, rest) := by
  have hscan (cs acc : List Char) :
      readString ⟨some acc, none⟩ (cs.flatMap escapeChar ++ '"' :: rest) =
        some (some (String.ofList (acc.reverse ++ cs)), rest) := by
    induction cs generalizing acc with
    | nil => simp [readString, Scan.finish, Scan.settle]
    | cons c cs ih =>
      rw [List.flatMap_cons, List.append_assoc, readString_escapeChar, ih]
      simp
  simpa using hscan s.toList []

end

def Blanks (cs : List Char) : Prop := ∀ c ∈ cs, isSpace c = true

mutual

/-- The text spells the value. Blanks may stand inside brackets and braces, and after a comma or a colon. -/
inductive Spells : Json → List Char → Prop
  | null : Spells .null ['n', 'u', 'l', 'l']
  | isTrue : Spells (.bool true) ['t', 'r', 'u', 'e']
  | isFalse : Spells (.bool false) ['f', 'a', 'l', 's', 'e']
  | number {n : String} (h : IsNumeral n.toList) : Spells (.number n) n.toList
  | text (s : String) : Spells (.text s) (writeText s)
  | emptyArray : Spells (.array []) ['[', ']']
  | emptyObject : Spells (.object []) ['\x7b', '\x7d']
  | array {items : List Json} {b cs : List Char} (hb : Blanks b) (h : SpellsItems items cs) :
      Spells (.array items) ('[' :: (b ++ (cs ++ [']'])))
  | object {members : List (JsonText × Json)} {b cs : List Char} (hb : Blanks b)
      (h : SpellsMembers members cs) : Spells (.object members) ('\x7b' :: (b ++ (cs ++ ['\x7d'])))

/-- At least one value, and commas between them. -/
inductive SpellsItems : List Json → List Char → Prop
  | last {v : Json} {cs b : List Char} (h : Spells v cs) (hb : Blanks b) : SpellsItems [v] (cs ++ b)
  | more {v : Json} {vs : List Json} {cs b ds : List Char} (h : Spells v cs) (hb : Blanks b)
      (hs : SpellsItems vs ds) : SpellsItems (v :: vs) (cs ++ ',' :: (b ++ ds))

/-- At least one member, and commas between them. -/
inductive SpellsMembers : List (JsonText × Json) → List Char → Prop
  | last {k : String} {v : Json} {a cs b : List Char} (ha : Blanks a) (h : Spells v cs)
      (hb : Blanks b) : SpellsMembers [(some k, v)] (writeText k ++ ':' :: (a ++ (cs ++ b)))
  | more {k : String} {v : Json} {ms : List (JsonText × Json)} {a cs b ds : List Char}
      (ha : Blanks a) (h : Spells v cs) (hb : Blanks b) (hs : SpellsMembers ms ds) :
      SpellsMembers ((some k, v) :: ms) (writeText k ++ ':' :: (a ++ (cs ++ ',' :: (b ++ ds))))

end

/-- A value begins neither with a blank nor with a closing bracket. -/
theorem Spells.head {v : Json} {cs : List Char} (h : Spells v cs) :
    ∃ c ds, cs = c :: ds ∧ isSpace c = false ∧ c ≠ ']' := by
  cases h with
  | number h =>
    obtain ⟨c, ds, hcs, hc⟩ := h.head
    refine ⟨c, ds, hcs, ?_, ?_⟩
    · obtain hc | rfl := hc
      · cases hspace : isSpace c with
        | false => rfl
        | true =>
          simp only [isSpace, Bool.or_eq_true, beq_iff_eq] at hspace
          obtain ((rfl | rfl) | rfl) | rfl := hspace <;> cases hc
      · rfl
    · rintro rfl
      obtain hc | hc := hc <;> cases hc
  | _ => exact ⟨_, _, rfl, rfl, by decide⟩

theorem readValue_of_numeral {c : Char} (h : isDigit c = true ∨ c = '-') (fuel : Nat) (cs : List Char) :
    readValue (fuel + 1) (c :: cs) =
      (readNumeral (c :: cs)).map fun (n, rest) => (.number n, rest) := by
  have hfirst {c' : Char} {ds : List Char} (heq : c :: cs = c' :: ds) :
      isDigit c' = true ∨ c' = '-' := (List.cons.inj heq).1 ▸ h
  unfold readValue
  split
  · next heq => exact absurd (hfirst heq) (by decide)
  · next heq => exact absurd (hfirst heq) (by decide)
  · next heq => exact absurd (hfirst heq) (by decide)
  · next heq => exact absurd (hfirst heq) (by decide)
  · next heq => exact absurd (hfirst heq) (by decide)
  · next heq => exact absurd (hfirst heq) (by decide)
  · rfl

section

variable {rest : List Char}

theorem skipSpace_append {b cs : List Char} (hb : Blanks b) (h : Lacks isSpace cs) :
    skipSpace (b ++ cs) = cs :=
  dropWhile_of_lacks hb h

theorem blanks_nil : Blanks [] := by simp [Blanks]

/-- Blanks, and what follows them, do not go on with a numeral. -/
theorem lacks_goesOn_append {b : List Char} (hb : Blanks b) (h : Lacks goesOn rest) :
    Lacks goesOn (b ++ rest) := by
  cases b with
  | nil => exact h
  | cons c b =>
    have hspace := hb c List.mem_cons_self
    simp only [isSpace, Bool.or_eq_true, beq_iff_eq] at hspace
    obtain ((rfl | rfl) | rfl) | rfl := hspace <;> exact .cons rfl _

theorem Spells.lacks {v : Json} {cs : List Char} (h : Spells v cs) : Lacks isSpace (cs ++ rest) := by
  obtain ⟨c, ds, rfl, hc, -⟩ := h.head
  exact .cons hc _

theorem SpellsItems.head {vs : List Json} {cs : List Char} (h : SpellsItems vs cs) :
    ∃ c ds, cs = c :: ds ∧ isSpace c = false ∧ c ≠ ']' := by
  cases h with
  | last h hb =>
    obtain ⟨c, ds, rfl, hc⟩ := h.head
    exact ⟨c, _, rfl, hc⟩
  | more h hb hs =>
    obtain ⟨c, ds, rfl, hc⟩ := h.head
    exact ⟨c, _, rfl, hc⟩

theorem SpellsMembers.head {ms : List (JsonText × Json)} {cs : List Char} (h : SpellsMembers ms cs) :
    ∃ ds, cs = '"' :: ds := by
  cases h <;> exact ⟨_, rfl⟩

theorem SpellsItems.lacks {vs : List Json} {cs : List Char} (h : SpellsItems vs cs) :
    Lacks isSpace (cs ++ rest) := by
  obtain ⟨c, ds, rfl, hc, -⟩ := h.head
  exact .cons hc _

theorem SpellsMembers.lacks {ms : List (JsonText × Json)} {cs : List Char} (h : SpellsMembers ms cs) :
    Lacks isSpace (cs ++ rest) := by
  obtain ⟨ds, rfl⟩ := h.head
  exact .cons rfl _

/-- After the last item the list ends. -/
theorem readItems_last {v : Json} {b cs : List Char} {fuel : Nat} (hb : Blanks b)
    (hread : readValue fuel cs = some (v, b ++ ']' :: rest)) :
    readItems (fuel + 1) cs = some ([v], rest) := by
  have hskip : skipSpace (b ++ ']' :: rest) = ']' :: rest :=
    skipSpace_append hb (.cons rfl _)
  simp only [readItems, hread, hskip]

/-- After a comma the list goes on. -/
theorem readItems_more {v : Json} {vs : List Json} {b cs ds : List Char} {fuel : Nat} (hb : Blanks b)
    (hds : Lacks isSpace ds) (hread : readValue fuel cs = some (v, ',' :: (b ++ ds)))
    (hmore : readItems fuel ds = some (vs, rest)) :
    readItems (fuel + 1) cs = some (v :: vs, rest) := by
  have hskip : skipSpace (',' :: (b ++ ds)) = ',' :: (b ++ ds) := rfl
  simp only [readItems, hread, hskip, skipSpace_append hb hds, hmore, Option.map_some]

theorem readMembers_last {k : String} {v : Json} {a b cs : List Char} {fuel : Nat} (ha : Blanks a)
    (hcs : Lacks isSpace cs) (hb : Blanks b)
    (hread : readValue fuel cs = some (v, b ++ '\x7d' :: rest)) :
    readMembers (fuel + 1) (writeText k ++ ':' :: (a ++ cs)) = some ([(some k, v)], rest) := by
  have hcolon : skipSpace (':' :: (a ++ cs)) = ':' :: (a ++ cs) := rfl
  have hskip : skipSpace (b ++ '\x7d' :: rest) = '\x7d' :: rest :=
    skipSpace_append hb (.cons rfl _)
  rw [writeText_append]
  simp only [readMembers, readString_writeText, hcolon, skipSpace_append ha hcs, hread, hskip]

theorem readMembers_more {k : String} {v : Json} {ms : List (JsonText × Json)} {a b cs ds : List Char}
    {fuel : Nat} (ha : Blanks a) (hcs : Lacks isSpace cs) (hb : Blanks b) (hds : Lacks isSpace ds)
    (hread : readValue fuel cs = some (v, ',' :: (b ++ ds)))
    (hmore : readMembers fuel ds = some (ms, rest)) :
    readMembers (fuel + 1) (writeText k ++ ':' :: (a ++ cs)) = some ((some k, v) :: ms, rest) := by
  have hcolon : skipSpace (':' :: (a ++ cs)) = ':' :: (a ++ cs) := rfl
  have hcomma : skipSpace (',' :: (b ++ ds)) = ',' :: (b ++ ds) := rfl
  rw [writeText_append]
  simp only [readMembers, readString_writeText, hcolon, skipSpace_append ha hcs, hread, hcomma,
    skipSpace_append hb hds, hmore, Option.map_some]

/-- What follows the opening bracket and is not the closing one are items. -/
theorem readValue_of_items {items : List Json} {b cs : List Char} {fuel : Nat} (hb : Blanks b)
    (h : SpellsItems items cs) (hread : readItems fuel (cs ++ ']' :: rest) = some (items, rest)) :
    readValue (fuel + 1) ('[' :: (b ++ (cs ++ ']' :: rest))) = some (.array items, rest) := by
  have hskip : skipSpace (b ++ (cs ++ ']' :: rest)) = cs ++ ']' :: rest :=
    skipSpace_append hb h.lacks
  obtain ⟨c, ds, rfl, -, hclosing⟩ := h.head
  rw [List.cons_append] at hskip hread ⊢
  unfold readValue
  simp only [hskip]
  split
  · next heq => exact absurd (List.cons.inj heq).1 hclosing
  · rw [hread]
    rfl

theorem readValue_of_members {members : List (JsonText × Json)} {b cs : List Char} {fuel : Nat}
    (hb : Blanks b) (h : SpellsMembers members cs)
    (hread : readMembers fuel (cs ++ '\x7d' :: rest) = some (members, rest)) :
    readValue (fuel + 1) ('\x7b' :: (b ++ (cs ++ '\x7d' :: rest))) = some (.object members, rest) := by
  have hskip : skipSpace (b ++ (cs ++ '\x7d' :: rest)) = cs ++ '\x7d' :: rest :=
    skipSpace_append hb h.lacks
  obtain ⟨ds, rfl⟩ := h.head
  rw [List.cons_append] at hskip hread ⊢
  unfold readValue
  simp only [hskip]
  split
  · next heq => cases (List.cons.inj heq).1
  · rw [hread]
    rfl

-- By recursion on the spelling. Each level of nesting takes two steps of the fuel and at least two
-- characters, and each further item one step and a comma, so twice the length is enough.
mutual

/-- A value is read from any spelling of it, and what follows stays. -/
theorem readValue_append {v : Json} {cs : List Char} (h : Spells v cs) {fuel : Nat}
    (hfuel : 2 * cs.length ≤ fuel + 1) {rest : List Char} (hrest : Lacks goesOn rest) :
    readValue fuel (cs ++ rest) = some (v, rest) := by
  obtain ⟨fuel, rfl⟩ : ∃ n, fuel = n + 1 := by
    obtain ⟨c, ds, rfl, -⟩ := h.head
    exact ⟨fuel - 1, by rw [List.length_cons] at hfuel; omega⟩
  cases h with
  | null => rfl
  | isTrue => rfl
  | isFalse => rfl
  | number h =>
    have hread := readNumeral_append h hrest
    obtain ⟨c, ds, hcs, hc⟩ := h.head
    rw [hcs] at hread ⊢
    rw [List.cons_append] at hread ⊢
    rw [readValue_of_numeral hc, hread, ← hcs]
    simp
  | text s =>
    rw [writeText_append]
    simp only [readValue, readString_writeText, Option.map_some]
    rfl
  | emptyArray => rfl
  | emptyObject => rfl
  | array hb h =>
    rename_i items b cs
    simp only [List.length_cons, List.length_append] at hfuel
    have htext : '[' :: (b ++ (cs ++ [']'])) ++ rest = '[' :: (b ++ (cs ++ ']' :: rest)) := by simp
    rw [htext]
    exact readValue_of_items hb h (readItems_append h (by omega))
  | object hb h =>
    rename_i members b cs
    simp only [List.length_cons, List.length_append] at hfuel
    have htext : '\x7b' :: (b ++ (cs ++ ['\x7d'])) ++ rest =
        '\x7b' :: (b ++ (cs ++ '\x7d' :: rest)) := by simp
    rw [htext]
    exact readValue_of_members hb h (readMembers_append h (by omega))

theorem readItems_append {vs : List Json} {cs : List Char} (h : SpellsItems vs cs) {fuel : Nat}
    (hfuel : 2 * cs.length ≤ fuel) {rest : List Char} :
    readItems fuel (cs ++ ']' :: rest) = some (vs, rest) := by
  obtain ⟨fuel, rfl⟩ : ∃ n, fuel = n + 1 := by
    obtain ⟨c, ds, rfl, -⟩ := h.head
    exact ⟨fuel - 1, by rw [List.length_cons] at hfuel; omega⟩
  cases h with
  | last h hb =>
    rename_i v cs b
    rw [List.length_append] at hfuel
    rw [List.append_assoc]
    exact readItems_last hb (readValue_append h (by omega)
      (lacks_goesOn_append hb (.cons rfl _)))
  | more h hb hs =>
    rename_i v vs cs b ds
    rw [List.length_append, List.length_cons, List.length_append] at hfuel
    have htext : cs ++ ',' :: (b ++ ds) ++ ']' :: rest = cs ++ ',' :: (b ++ (ds ++ ']' :: rest)) := by
      simp
    rw [htext]
    exact readItems_more hb hs.lacks
      (readValue_append h (by omega) (.cons rfl _))
      (readItems_append hs (by omega))

theorem readMembers_append {ms : List (JsonText × Json)} {cs : List Char} (h : SpellsMembers ms cs)
    {fuel : Nat} (hfuel : 2 * cs.length ≤ fuel) {rest : List Char} :
    readMembers fuel (cs ++ '\x7d' :: rest) = some (ms, rest) := by
  obtain ⟨fuel, rfl⟩ : ∃ n, fuel = n + 1 := by
    obtain ⟨ds, rfl⟩ := h.head
    exact ⟨fuel - 1, by rw [List.length_cons] at hfuel; omega⟩
  cases h with
  | last ha h hb =>
    rename_i k v a cs b
    simp only [List.length_append, List.length_cons] at hfuel
    have htext : writeText k ++ ':' :: (a ++ (cs ++ b)) ++ '\x7d' :: rest =
        writeText k ++ ':' :: (a ++ (cs ++ (b ++ '\x7d' :: rest))) := by simp
    rw [htext]
    exact readMembers_last ha h.lacks hb (readValue_append h (by omega)
      (lacks_goesOn_append hb (.cons rfl _)))
  | more ha h hb hs =>
    rename_i k v ms a cs b ds
    simp only [List.length_append, List.length_cons] at hfuel
    have htext : writeText k ++ ':' :: (a ++ (cs ++ ',' :: (b ++ ds))) ++ '\x7d' :: rest =
        writeText k ++ ':' :: (a ++ (cs ++ ',' :: (b ++ (ds ++ '\x7d' :: rest)))) := by simp
    rw [htext]
    exact readMembers_more ha h.lacks hb hs.lacks
      (readValue_append h (by omega) (.cons rfl _))
      (readMembers_append hs (by omega))

end

end

/-- A spelling of a document, with blanks after it, is read as that document. -/
theorem parse?_of_spells {v : Json} {cs b : List Char} (h : Spells v cs) (hb : Blanks b) :
    parse? (String.ofList (cs ++ b)) = some v := by
  have hfirst : skipSpace (cs ++ b) = cs ++ b := skipSpace_append blanks_nil h.lacks
  have hlast : skipSpace b = [] := by simpa using skipSpace_append hb (.nil isSpace)
  have hread : readValue (2 * (cs ++ b).length + 1) (cs ++ b) = some (v, b) := by
    refine readValue_append h ?_ ?_
    · rw [List.length_append]
      omega
    · simpa using lacks_goesOn_append hb (.nil goesOn)
  simp only [parse?, String.toList_ofList, hfirst, hread, hlast, if_true]

/-- A document that has a written form: its strings have texts, and its numbers are numerals. -/
inductive WellFormed : Json → Prop
  | null : WellFormed .null
  | bool (b : Bool) : WellFormed (.bool b)
  | number {n : String} (h : IsNumeral n.toList) : WellFormed (.number n)
  | text (s : String) : WellFormed (.text s)
  | array {items : List Json} (h : ∀ v ∈ items, WellFormed v) : WellFormed (.array items)
  | object {members : List (String × Json)} (h : ∀ m ∈ members, WellFormed m.2) :
      WellFormed (.record members)

theorem blanks_newline (depth : Nat) : Blanks (newline depth) := by
  intro c hc
  obtain rfl | hc := List.mem_cons.1 hc
  · rfl
  · rw [List.eq_of_mem_replicate hc]
    rfl

section

variable {depth : Nat}

theorem spellsItems_writePretty {v : Json} {vs : List Json} {b : List Char} (hb : Blanks b)
    (h : ∀ w ∈ v :: vs, Spells w (writePretty depth w)) :
    SpellsItems (v :: vs) (writePretty depth v ++ (writePrettyItems depth vs ++ b)) := by
  induction vs generalizing v with
  | nil => exact .last (h v List.mem_cons_self) hb
  | cons w ws ih =>
    have hmore := SpellsItems.more (h v List.mem_cons_self) (blanks_newline depth)
      (ih fun x hx => h x (List.mem_cons_of_mem _ hx))
    simpa [writePrettyItems] using hmore

theorem spellsMembers_writePretty {m : String × Json} {ms : List (String × Json)} {b : List Char}
    (hb : Blanks b) (h : ∀ m' ∈ m :: ms, Spells m'.2 (writePretty depth m'.2)) :
    SpellsMembers ((m :: ms).map fun m' => (some m'.1, m'.2))
      (writeText m.1 ++ ':' :: ' ' :: (writePretty depth m.2 ++
        (writePrettyMembers depth (ms.map fun m' => (some m'.1, m'.2)) ++ b))) := by
  have hblank : Blanks [' '] := by simp [Blanks, isSpace]
  induction ms generalizing m with
  | nil => exact .last hblank (h m List.mem_cons_self) hb
  | cons w ws ih =>
    have hmore := SpellsMembers.more (k := m.1) hblank (h m List.mem_cons_self) (blanks_newline depth)
      (ih fun x hx => h x (List.mem_cons_of_mem _ hx))
    simpa [writePrettyMembers, writeJsonText] using hmore

end

/-- The indented form of a document spells it. -/
theorem spells_writePretty {v : Json} (h : WellFormed v) (depth : Nat) :
    Spells v (writePretty depth v) := by
  induction h generalizing depth with
  | null => exact .null
  | bool b => cases b with
    | false => exact .isFalse
    | true => exact .isTrue
  | number h => exact .number h
  | text s => exact .text s
  | array h ih =>
    rename_i items
    cases items with
    | nil => exact .emptyArray
    | cons v vs =>
      have hitems := spellsItems_writePretty (blanks_newline depth) fun w hw => ih w hw (depth + 1)
      simpa [writePretty] using Spells.array (blanks_newline (depth + 1)) hitems
  | object h ih =>
    rename_i members
    cases members with
    | nil => exact .emptyObject
    | cons m ms =>
      have hmembers := spellsMembers_writePretty (blanks_newline depth) fun w hw => ih w hw (depth + 1)
      simpa [record, writePretty, writeJsonText] using
        Spells.object (blanks_newline (depth + 1)) hmembers

/-- Reading the indented form of a document gives the document back. -/
theorem parse?_pretty {v : Json} (h : WellFormed v) {b : List Char} (hb : Blanks b) :
    parse? (v.pretty ++ String.ofList b) = some v := by
  have htext : v.pretty ++ String.ofList b = String.ofList (writePretty 0 v ++ b) := by
    simp [pretty]
  rw [htext]
  exact parse?_of_spells (spells_writePretty h 0) hb

theorem wellFormed_integer (n : Int) : WellFormed (integer n) := .number (isNumeral_integerText n)

theorem wellFormed_ofFloat (F : Decimal.BinaryFormat) (bits : Nat) : WellFormed (ofFloat F bits) := by
  unfold ofFloat
  split
  · exact .null
  · exact .number (isNumeral_finiteText F _ bits)

theorem wellFormed_optional {α : Type} {f : α → Json} (h : ∀ a, WellFormed (f a)) (a : Option α) :
    WellFormed (optional f a) := by
  cases a with
  | none => exact .null
  | some a => exact h a

end Json

theorem Value.wellFormed_toJson (v : Value) : Json.WellFormed v.toJson := by
  have hcontent : Json.WellFormed v.contentJson := by
    cases v with
    | i32 n | i64 n => exact Json.wellFormed_integer _
    | f32 b | f64 b => exact Json.wellFormed_ofFloat _ _
  refine .object fun m hm => ?_
  obtain rfl | rfl : m = _ ∨ m = _ := by simpa using hm
  · exact .text _
  · exact hcontent

theorem Emission.wellFormed_toJson (e : Emission) : Json.WellFormed e.toJson := by
  cases e with
  | integer n =>
    refine .object fun m hm => ?_
    obtain rfl | rfl : m = _ ∨ m = _ := by simpa using hm
    · exact .text _
    · exact Json.wellFormed_integer _
  | text s =>
    refine .object fun m hm => ?_
    obtain rfl | rfl : m = _ ∨ m = _ := by simpa using hm
    · exact .text _
    · exact .text _

end GuestHarness
