import GuestHarness.Json.Codec
import Mathlib.Data.List.Basic

/-! Pairs that are written as objects. It does not matter in which order the two members come, which
others stand among them, or whether the pair is an array instead; and a content that comes before its
tag is kept until then without loss. -/
namespace GuestHarness
namespace Json
open Decimal

section

variable {first second : String} {a b : Json} {members : List (JsonText × Json)}

/-- Each of two keys once, in any order, with members of other keys anywhere among them. -/
def HoldsPair (first second : String) (a b : Json) (members : List (JsonText × Json)) : Prop :=
  ∃ others, members.Perm ((some first, a) :: (some second, b) :: others) ∧
    ∀ m ∈ others, ∃ key, m.1 = some key ∧ key ≠ first ∧ key ≠ second

theorem membersAt_eq (key : String) (members : List (JsonText × Json)) :
    membersAt key members = (members.filter fun m => m.1 = some key).map Prod.snd := by
  induction members with
  | nil => rfl
  | cons m members ih =>
    rw [membersAt] at ih ⊢
    by_cases h : m.1 = some key <;> simp [h, ih]

theorem membersAt_cons (key key' : String) (v : Json) (members : List (JsonText × Json)) :
    membersAt key ((some key', v) :: members) =
      if key' = key then v :: membersAt key members else membersAt key members := by
  by_cases h : key' = key <;> simp [membersAt, h]

theorem length_membersAt (key : String) (members : List (JsonText × Json)) :
    (membersAt key members).length = (members.map Prod.fst).count (some key) := by
  rw [membersAt_eq, List.length_map, List.count, List.countP_map, List.countP_eq_length_filter]
  exact congrArg List.length (List.filter_congr fun m _ => (beq_eq_decide _ _).symm)

/-- A key that occurs once is the key of one member. -/
theorem filter_of_membersAt {key : String} (h : membersAt key members = [a]) :
    (members.filter fun m => m.1 = some key) = [(some key, a)] := by
  rw [membersAt_eq] at h
  obtain ⟨m, hfilter, rfl⟩ := List.map_eq_singleton_iff.1 h
  have hm : m ∈ members.filter fun m => m.1 = some key := hfilter ▸ List.mem_singleton_self m
  have hkey : m.1 = some key := by simpa using (List.mem_filter.1 hm).2
  rw [hfilter, ← hkey]

theorem membersAt_of_others {key : String} (h : ∀ m ∈ members, m.1 ≠ some key) :
    membersAt key members = [] := by
  rw [membersAt_eq, List.map_eq_nil_iff, List.filter_eq_nil_iff]
  exact fun m hm => by simpa using h m hm

theorem holdsPair_of_membersAt (hne : first ≠ second) (hnamed : ∀ m ∈ members, m.1.isSome)
    (hfirst : membersAt first members = [a]) (hsecond : membersAt second members = [b]) :
    HoldsPair first second a b members := by
  let rest := members.filter fun m => !decide (m.1 = some first)
  have hrest : (rest.filter fun m => m.1 = some second) = [(some second, b)] := by
    rw [← filter_of_membersAt hsecond, List.filter_filter]
    refine List.filter_congr fun m _ => ?_
    by_cases h : m.1 = some second <;> simp [h, hne.symm]
  have hsplit := List.filter_append_perm (fun m => decide (m.1 = some first)) members
  have hsplit' := List.filter_append_perm (fun m => decide (m.1 = some second)) rest
  rw [filter_of_membersAt hfirst] at hsplit
  rw [hrest] at hsplit'
  refine ⟨rest.filter fun m => !decide (m.1 = some second),
    hsplit.symm.trans (hsplit'.symm.cons _), fun m hm => ?_⟩
  obtain ⟨hm, hnotSecond⟩ := List.mem_filter.1 hm
  obtain ⟨hm, hnotFirst⟩ := List.mem_filter.1 hm
  obtain ⟨key, hkey⟩ := Option.isSome_iff_exists.1 (hnamed m hm)
  exact ⟨key, hkey, by simpa [hkey] using hnotFirst, by simpa [hkey] using hnotSecond⟩

theorem HoldsPair.membersAt (h : HoldsPair first second a b members) (hne : first ≠ second) :
    membersAt first members = [a] ∧ membersAt second members = [b] := by
  obtain ⟨others, hperm, hothers⟩ := h
  have hnone (key : String) (hkey : key = first ∨ key = second) : Json.membersAt key others = [] := by
    refine membersAt_of_others fun m hm hname => ?_
    obtain ⟨key', hkey', hnotFirst, hnotSecond⟩ := hothers m hm
    obtain rfl := Option.some.inj (hkey'.symm.trans hname)
    exact hkey.elim hnotFirst hnotSecond
  constructor
  · refine List.perm_singleton.1 ((hperm.filterMap _).trans (.of_eq ?_))
    simpa [hne.symm, Json.membersAt] using hnone first (.inl rfl)
  · refine List.perm_singleton.1 ((hperm.filterMap _).trans (.of_eq ?_))
    simpa [hne, Json.membersAt] using hnone second (.inr rfl)

theorem HoldsPair.named (h : HoldsPair first second a b members) : ∀ m ∈ members, m.1.isSome := by
  obtain ⟨others, hperm, hothers⟩ := h
  intro m hm
  obtain rfl | hm := List.mem_cons.1 (hperm.mem_iff.1 hm)
  · rfl
  obtain rfl | hm := List.mem_cons.1 hm
  · rfl
  obtain ⟨key, hkey, -⟩ := hothers m hm
  rw [hkey]
  rfl

/-- An object is taken apart once its keys are known to have texts. -/
theorem pair?_object (first second : String) (members : List (JsonText × Json)) :
    pair? first second (.object members) = if members.any (·.1.isNone) then none
      else match membersAt first members, membersAt second members with
        | [a], [b] => some (a, b)
        | _, _ => none := rfl

theorem any_isNone_eq_false_iff :
    (members.any (·.1.isNone)) = false ↔ ∀ m ∈ members, m.1.isSome := by
  simp [List.any_eq_false, Option.isSome_iff_ne_none]

/-- A document is a pair if it is an array of two, or an object that holds the pair. -/
theorem pair?_eq_some_iff (hne : first ≠ second) {j : Json} : pair? first second j = some (a, b) ↔
    j = .array [a, b] ∨ ∃ members, j = .object members ∧ HoldsPair first second a b members := by
  constructor
  · intro h
    unfold pair? at h
    split at h
    · cases h
      exact .inl rfl
    · next members =>
      split at h
      · cases h
      · next hnamed =>
        split at h
        · next hfirst hsecond =>
          cases h
          exact .inr ⟨members, rfl, holdsPair_of_membersAt hne
            (any_isNone_eq_false_iff.1 (Bool.eq_false_iff.2 hnamed)) hfirst hsecond⟩
        · cases h
    · cases h
  · rintro (rfl | ⟨members, rfl, h⟩)
    · rfl
    · obtain ⟨hfirst, hsecond⟩ := h.membersAt hne
      rw [pair?_object, any_isNone_eq_false_iff.2 h.named, hfirst, hsecond]
      rfl

/-- A key that is missing or repeated spoils an object. -/
theorem pair?_of_count_ne_one (h : (members.map Prod.fst).count (some first) ≠ 1 ∨
    (members.map Prod.fst).count (some second) ≠ 1) : pair? first second (.object members) = none := by
  rw [pair?_object]
  split
  · rfl
  · split
    · next hfirst hsecond =>
      rw [← length_membersAt, ← length_membersAt, hfirst, hsecond] at h
      simp at h
    · rfl

/-- What is read from pairs does not depend on the order of the two members nor on others among them,
and each of the two is needed once. -/
structure ReadsPairs {α : Type} (first second : String) (decode? : Json → Option α) : Prop where
  order (a b : Json) (members : List (JsonText × Json)) (h : HoldsPair first second a b members) :
    decode? (.object members) = decode? (.array [a, b])
  once (members : List (JsonText × Json)) (h : (members.map Prod.fst).count (some first) ≠ 1 ∨
    (members.map Prod.fst).count (some second) ≠ 1) : decode? (.object members) = none

theorem readsPairs_of_bind {α : Type} {decode? : Json → Option α} (hne : first ≠ second)
    (f : Json × Json → Option α) (h : ∀ j, decode? j = (pair? first second j).bind f) :
    ReadsPairs first second decode? where
  order a b members hmembers := by
    rw [h, h, (pair?_eq_some_iff hne).2 (.inr ⟨members, rfl, hmembers⟩),
      (pair?_eq_some_iff hne).2 (.inl rfl)]
  once members hcount := by rw [h, pair?_of_count_ne_one hcount, Option.bind_none]

end

/-- A value that is kept before it is known what it is read as. Its numeral is a number already; nothing
is read from what is neither number nor text. -/
inductive Kept where
  | number (n : Number)
  | text (s : String)
  | other

namespace Kept

def of? : Json → Option Kept
  | .number s => (Number.ofNumeral? s).map number
  | .string s => s.map text
  | _ => some other

def int? (lo hi : Int) : Kept → Option Int
  | number (.integer n) => if lo ≤ n ∧ n ≤ hi then some n else none
  | _ => none

def float? (F : BinaryFormat) : Kept → Option Nat
  | number (.integer n) => some (F.withSign (n < 0) (F.round n.natAbs 1))
  | number (.real bits) => some (if F = binary64 then bits else narrow F bits)
  | _ => none

def text? : Kept → Option String
  | text s => some s
  | _ => none

theorem intIn?_eq (lo hi : Int) (j : Json) : intIn? lo hi j = (of? j).bind (int? lo hi) := by
  cases j with
  | number s =>
    rw [intIn?, of?, Option.bind_map]
    rcases Number.ofNumeral? s with - | (n | bits) <;> rfl
  | string s => cases s <;> rfl
  | null | bool | array | object => rfl

theorem float?_eq (F : BinaryFormat) (j : Json) : Json.float? F j = (of? j).bind (float? F) := by
  cases j with
  | number s =>
    rw [Json.float?, of?, Option.bind_map]
    rcases Number.ofNumeral? s with - | (n | bits) <;> rfl
  | string s => cases s <;> rfl
  | null | bool | array | object => rfl

theorem text?_eq (j : Json) : Json.text? j = (of? j).bind text? := by
  cases j with
  | number s =>
    rw [of?, Option.bind_map]
    cases Number.ofNumeral? s <;> rfl
  | string s => cases s <;> rfl
  | null | bool | array | object => rfl

end Kept

/-- Data of which a tag says what the content is read as. The content is read at once if the tag is
known, and is kept and read from there if not; both ways agree. -/
structure Tagged (τ α : Type) where
  tagKey : String
  contentKey : String
  distinct : tagKey ≠ contentKey
  tag? : Json → Option τ
  content? : τ → Json → Option α
  kept? : τ → Kept → Option α
  agree (t : τ) (j : Json) : content? t j = (Kept.of? j).bind (kept? t)

/-- What is known while the members of an object are taken one after the other. -/
inductive Intake (τ α : Type) where
  | nothing
  | tag (t : τ)
  | content (k : Kept)
  | both (a : α)

namespace Tagged

variable {τ α : Type} (T : Tagged τ α)

def decode? (j : Json) : Option α :=
  (pair? T.tagKey T.contentKey j).bind fun p => (T.tag? p.1).bind fun t => T.content? t p.2

/-- Takes a member; neither key may come twice. -/
def take? : Intake τ α → JsonText × Json → Option (Intake τ α)
  | _, (none, _) => none
  | s, (some key, v) =>
    if key = T.tagKey then
      match s with
      | .nothing => (T.tag? v).map .tag
      | .content k => (T.tag? v).bind fun t => (T.kept? t k).map .both
      | _ => none
    else if key = T.contentKey then
      match s with
      | .nothing => (Kept.of? v).map .content
      | .tag t => (T.content? t v).map .both
      | _ => none
    else some s

def whole? : Intake τ α → Option α
  | .both a => some a
  | _ => none

/-- Takes all members in order, and needs to know both parts in the end. -/
def takeAll? (members : List (JsonText × Json)) : Option α :=
  (members.foldlM T.take? .nothing).bind whole?

/-- The only item of a list. -/
def only? : List Json → Option Json
  | [a] => some a
  | _ => none

theorem only?_cons (v : Json) (vs : List Json) : only? (v :: vs) = if vs = [] then some v else none := by
  cases vs <;> rfl

/-- What the tags and contents to come make of what is known: just the missing ones may come. -/
def complete? : Intake τ α → List Json → List Json → Option α
  | .nothing, tags, contents =>
    (only? tags).bind fun tag => (only? contents).bind fun content =>
      (T.tag? tag).bind fun t => T.content? t content
  | .tag t, tags, contents => if tags = [] then (only? contents).bind (T.content? t) else none
  | .content k, tags, contents =>
    if contents = [] then (only? tags).bind fun tag => (T.tag? tag).bind fun t => T.kept? t k else none
  | .both a, tags, contents => if tags = [] ∧ contents = [] then some a else none

theorem complete?_tag (s : Intake τ α) (v : Json) (tags contents : List Json) :
    T.complete? s (v :: tags) contents =
      (T.take? s (some T.tagKey, v)).bind fun s => T.complete? s tags contents := by
  simp only [take?, if_true]
  cases s with
  | nothing =>
    simp only [complete?, only?_cons, Option.bind_map, Function.comp_def]
    by_cases htags : tags = []
    · simp only [htags, if_true, Option.bind_some]
      exact Option.bind_comm _ _
    · simp only [htags, if_false, Option.bind_none, Option.bind_fun_none]
  | content k =>
    simp only [complete?, only?_cons, Option.bind_assoc, Option.bind_map, Function.comp_def]
    by_cases htags : tags = []
    · by_cases hcontents : contents = [] <;> simp [htags, hcontents]
    · by_cases hcontents : contents = [] <;> simp [htags, hcontents]
  | tag t => rfl
  | both a => rfl

theorem complete?_content (s : Intake τ α) (v : Json) (tags contents : List Json) :
    T.complete? s tags (v :: contents) =
      (T.take? s (some T.contentKey, v)).bind fun s => T.complete? s tags contents := by
  simp only [take?, if_neg T.distinct.symm, if_true]
  cases s with
  | nothing =>
    simp only [complete?, only?_cons, Option.bind_map, Function.comp_def]
    by_cases hcontents : contents = []
    · simp only [hcontents, if_true, Option.bind_some, T.agree]
      cases Kept.of? v with
      | none => simp only [Option.bind_none, Option.bind_fun_none]
      | some k => rfl
    · simp only [hcontents, if_false, Option.bind_none, Option.bind_fun_none]
  | tag t =>
    simp only [complete?, only?_cons, Option.bind_map, Function.comp_def]
    by_cases htags : tags = []
    · by_cases hcontents : contents = [] <;> simp [htags, hcontents]
    · simp [htags]
  | content k => simp [complete?]
  | both a => simp [complete?]

/-- Taken one after the other, the members come to what they come to as a whole. -/
theorem foldlM_take? (s : Intake τ α) (members : List (JsonText × Json)) :
    (members.foldlM T.take? s).bind whole? = if members.any (·.1.isNone) then none
      else T.complete? s (membersAt T.tagKey members) (membersAt T.contentKey members) := by
  induction members generalizing s with
  | nil => cases s <;> rfl
  | cons m members ih =>
    obtain ⟨_ | key, v⟩ := m
    · rfl
    have hrest : ((((some key, v) :: members).foldlM T.take? s).bind whole?) =
        (T.take? s (some key, v)).bind fun s => if members.any (·.1.isNone) then none
          else T.complete? s (membersAt T.tagKey members) (membersAt T.contentKey members) := by
      rw [List.foldlM_cons]
      simp only [← ih]
      exact Option.bind_assoc _ _ _
    have hany : ((some key, v) :: members).any (·.1.isNone) = members.any (·.1.isNone) := rfl
    rw [hrest, hany]
    cases members.any (·.1.isNone) with
    | true => simp only [if_true, Option.bind_fun_none]
    | false =>
    simp only [Bool.false_eq_true, if_false]
    by_cases htag : key = T.tagKey
    · subst htag
      rw [membersAt_cons, membersAt_cons, if_pos rfl, if_neg T.distinct, complete?_tag]
    by_cases hcontent : key = T.contentKey
    · subst hcontent
      rw [membersAt_cons, membersAt_cons, if_pos rfl, if_neg T.distinct.symm, complete?_content]
    · rw [membersAt_cons, membersAt_cons, if_neg htag, if_neg hcontent]
      simp only [take?, if_neg htag, if_neg hcontent, Option.bind_some]

theorem takeAll?_eq (members : List (JsonText × Json)) :
    T.takeAll? members = T.decode? (.object members) := by
  rw [takeAll?, foldlM_take?, decode?, pair?_object]
  cases members.any (·.1.isNone) with
  | true => rfl
  | false =>
    generalize membersAt T.tagKey members = tags
    generalize membersAt T.contentKey members = contents
    rcases tags with _ | ⟨tag, _ | ⟨tag', tags⟩⟩ <;>
      rcases contents with _ | ⟨content, _ | ⟨content', contents⟩⟩ <;> rfl

theorem readsPairs_decode? : ReadsPairs T.tagKey T.contentKey T.decode? :=
  readsPairs_of_bind T.distinct _ fun _ => rfl

end Tagged

end Json

open Json Decimal

/-- A value of each type from what was kept. -/
def Value.ofKept? : ValueType → Kept → Option Value
  | .i32, k => (k.int? (-twoTo 31) (twoTo 31 - 1)).map fun n => .i32 (Int32.ofInt n)
  | .i64, k => (k.int? (-twoTo 63) (twoTo 63 - 1)).map fun n => .i64 (Int64.ofInt n)
  | .f32, k => (k.float? binary32).map fun b => .f32 (.ofNat b)
  | .f64, k => (k.float? binary64).map fun b => .f64 (.ofNat b)

def Value.tagged : Tagged ValueType Value where
  tagKey := "type"
  contentKey := "value"
  distinct := by decide
  tag? := ValueType.ofJson?
  content? := Value.ofContent?
  kept? := Value.ofKept?
  agree t j := by
    cases t with
    | i32 | i64 =>
      rw [Value.ofContent?, Kept.intIn?_eq, Option.map_bind]
      rfl
    | f32 | f64 =>
      rw [Value.ofContent?, Kept.float?_eq, Option.map_bind]
      rfl

def Emission.ofKept? (kind : String) (k : Kept) : Option Emission :=
  if kind = "integer" then
    (k.int? (-twoTo 63) (twoTo 63 - 1)).map fun n => .integer (Int64.ofInt n)
  else if kind = "text" then k.text?.map .text
  else none

def Emission.tagged : Tagged String Emission where
  tagKey := "kind"
  contentKey := "value"
  distinct := by decide
  tag? := name?
  content? := Emission.ofContent?
  kept? := Emission.ofKept?
  agree kind j := by
    unfold Emission.ofContent? Emission.ofKept?
    split
    · rw [Kept.intIn?_eq, Option.map_bind]
      rfl
    · split
      · rw [Kept.text?_eq, Option.map_bind]
        rfl
      · rw [Option.bind_fun_none]

theorem Value.decode?_tagged (j : Json) : Value.tagged.decode? j = Value.ofJson? j := rfl

theorem Emission.decode?_tagged (j : Json) : Emission.tagged.decode? j = Emission.ofJson? j := rfl

/-- Values, emissions and signatures are read alike whether their two parts come as members in one order
or the other, with any other members anywhere among them, or as an array; and not at all if one of the
two is missing or repeated. Taking the members one after the other, with a content that comes first kept
until its tag is known, comes to the same. -/
theorem pairs_are_read_in_any_order :
    ReadsPairs "type" "value" Value.ofJson? ∧ ReadsPairs "kind" "value" Emission.ofJson? ∧
      ReadsPairs "params" "results" Signature.ofJson? ∧
      (∀ members, Value.tagged.takeAll? members = Value.ofJson? (.object members)) ∧
      ∀ members, Emission.tagged.takeAll? members = Emission.ofJson? (.object members) :=
  ⟨Value.tagged.readsPairs_decode?, Emission.tagged.readsPairs_decode?,
    readsPairs_of_bind (by decide) _ fun _ => rfl,
    fun members => (Value.tagged.takeAll?_eq members).trans (Value.decode?_tagged _),
    fun members => (Emission.tagged.takeAll?_eq members).trans (Emission.decode?_tagged _)⟩

/-- Minus zero comes before its tag, and beside it a number too large for any type. -/
theorem pairs_are_read_in_any_order_minusZero :
    let members : List (JsonText × Json) := [(some "note", .array [.number "1e999"]),
      (some "value", .number "-0"), (some "note", .null), (some "type", .text "f64")]
    HoldsPair "type" "value" (.text "f64") (.number "-0") members ∧
      Value.ofJson? (.object members) = some (.f64 0x8000000000000000) ∧
      Value.tagged.takeAll? members = some (.f64 0x8000000000000000) ∧
      Value.ofJson? (.object ((some "type", .text "f64") :: members)) = none := by
  intro members
  have hholds : HoldsPair "type" "value" (.text "f64") (.number "-0") members :=
    holdsPair_of_membersAt (by decide) (by simp [members]) (by simp [members, membersAt])
      (by simp [members, membersAt])
  have hread : Value.ofJson? (.array [.text "f64", .number "-0"]) = some (.f64 0x8000000000000000) := by
    decide +kernel
  obtain ⟨hvalues, -, -, htaken, -⟩ := pairs_are_read_in_any_order
  have hobject : Value.ofJson? (.object members) = some (.f64 0x8000000000000000) :=
    (hvalues.order _ _ members hholds).trans hread
  exact ⟨hholds, hobject, (htaken members).trans hobject, hvalues.once _ (.inl (by simp [members]))⟩

end GuestHarness
