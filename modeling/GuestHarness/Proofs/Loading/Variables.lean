import GuestHarness.Loader.Settings
import GuestHarness.Proofs.Value.Integers

/-! The variables that settings of a loader are taken from. Each setting depends on its own variable
only, and what cannot be read leaves the default. Fuel is as asked for, with one exception: of the
numerals of zero only the text `0` switches metering off, and the others leave it on with nothing to
spend. -/
namespace GuestHarness
open Decimal

section

variable {c : Char} {text : String} {k : ℤ}

/-- What stands before the letters has no lower case. -/
theorem toLower_of_lt (h : c.toNat < 65) : c.toLower = c := by
  unfold Char.toLower
  split
  · next hupper =>
    have hletter : 65 ≤ c.toNat := hupper.1
    omega
  · rfl

theorem toNat_lt_of_toLower (h : c.toLower.toNat < 65) : c.toNat < 65 := by
  by_contra hletter
  unfold Char.toLower at h
  split at h
  · next hupper =>
    have hhigh : c.toNat ≤ 90 := hupper.2
    have hsum : (c.val + ('a'.val - 'A'.val)).toNat = c.toNat + 32 := by
      rw [UInt32.toNat_add, Nat.mod_eq_of_lt]
      · rfl
      · change c.toNat + 32 < 2 ^ 32
        omega
    have hlow : (c.val + ('a'.val - 'A'.val)).toNat < 65 := h
    omega
  · exact hletter h

theorem toNat_lt_of_isDigit (h : isDigit c = true) : c.toNat < 65 := by
  simp only [isDigit, Bool.and_eq_true, decide_eq_true_eq] at h
  have hnine : c.toNat ≤ 57 := h.2
  omega

/-- A text of an integer has no letters. -/
theorem Decimal.Denotes.toNat_lt {cs : List Char} (h : Denotes cs k) : ∀ c ∈ cs, c.toNat < 65 := by
  have hdigits {ds : List Char} (h : IsDigits ds) : ∀ c ∈ ds, c.toNat < 65 := fun c hc =>
    toNat_lt_of_isDigit (h.digits c hc)
  cases h with
  | unsigned h => exact hdigits h
  | plus h | minus h => exact List.forall_mem_cons.2 ⟨by decide, hdigits h⟩

theorem lowerCased_of_lt (h : ∀ c ∈ text.toList, c.toNat < 65) : lowerCased text = text := by
  have hsame : text.toList.map Char.toLower = text.toList :=
    (List.map_congr_left fun c hc => toLower_of_lt (h c hc)).trans (List.map_id' _)
  rw [lowerCased, hsame, String.ofList_toList]

/-- Texts of integers are the same in lower case, and no other text becomes one. -/
theorem denotes_lowerCased_iff :
    Denotes (lowerCased text).toList k ↔ lowerCased text = text ∧ Denotes text.toList k := by
  constructor
  · intro h
    have hlow : ∀ c ∈ text.toList, c.toNat < 65 := fun c hc =>
      toNat_lt_of_toLower (h.toNat_lt _ (by
        rw [lowerCased, String.toList_ofList]
        exact List.mem_map_of_mem hc))
    have hsame := lowerCased_of_lt hlow
    exact ⟨hsame, hsame ▸ h⟩
  · rintro ⟨hsame, h⟩
    rwa [hsame]

end

namespace Loader
open Settings (isOff)

/-- A text of a natural number below a bound: digits, with a plus sign in front of them or without. -/
structure IsNatural (bound : ℕ) (text : String) (n : ℕ) : Prop where
  denotes : Denotes text.toList n
  unsigned : text.toList.head? ≠ some '-'
  below : n < bound

section

variable {s : Settings} {text : String} {bound n : ℕ}

theorem naturalBelow?_toList_eq_some_iff :
    naturalBelow? bound text.toList = some n ↔ IsNatural bound text n := by
  rw [naturalBelow?_eq_some_iff]
  exact ⟨fun ⟨hunsigned, hdenotes, hbelow⟩ => ⟨hdenotes, hunsigned, hbelow⟩,
    fun h => ⟨h.unsigned, h.denotes, h.below⟩⟩

theorem naturalBelow?_toList_eq_none_iff :
    naturalBelow? bound text.toList = none ↔ ∀ n, ¬IsNatural bound text n := by
  simp only [Option.eq_none_iff_forall_ne_some, ne_eq, naturalBelow?_toList_eq_some_iff]

theorem IsNatural.unique {m : ℕ} (hn : IsNatural bound text n) (hm : IsNatural bound text m) : n = m :=
  Int.natCast_inj.1 (hn.denotes.unique hm.denotes)

theorem IsNatural.lowerCased_eq (h : IsNatural bound text n) : lowerCased text = text :=
  lowerCased_of_lt h.denotes.toNat_lt

theorem isNatural_lowerCased_iff :
    IsNatural bound (lowerCased text) n ↔ IsNatural bound text n := by
  constructor
  · intro h
    obtain ⟨hsame, -⟩ := denotes_lowerCased_iff.1 h.denotes
    exact hsame ▸ h
  · intro h
    rwa [h.lowerCased_eq]

theorem isNatural_zero : IsNatural UInt64.size "0" 0 :=
  naturalBelow?_toList_eq_some_iff.1 (by decide +kernel)

theorem isOff_iff {word : String} : isOff word = true ↔ word = "0" ∨ word ∈ ["off", "false"] := by
  simp [isOff, or_assoc]

theorem not_mem_of_isNatural (h : IsNatural bound text n) : text ∉ ["off", "false"] := by
  intro hword
  have hletter : ∀ word ∈ ["off", "false"], 'f' ∈ word.toList := by decide
  exact absurd (h.denotes.toNat_lt 'f' (hletter text hword)) (by decide)

/-- Of the words that switch something off only `0` is a numeral. -/
theorem isOff_lowerCased_iff (h : IsNatural bound text n) :
    isOff (lowerCased text) = true ↔ text = "0" := by
  rw [h.lowerCased_eq, isOff_iff]
  exact or_iff_left (not_mem_of_isNatural h)

namespace Settings

theorem setMemory_of_natural (h : IsNatural UInt32.size text n) :
    s.setMemory (some text) = { s with maxMemoryPages := .ofNat n } := by
  simp only [setMemory, naturalBelow?_toList_eq_some_iff.2 h]

theorem setMemory_of_unreadable (h : ∀ n, ¬IsNatural UInt32.size text n) :
    s.setMemory (some text) = s := by
  simp only [setMemory, naturalBelow?_toList_eq_none_iff.2 h]

theorem setFuel_of_off (h : isOff (lowerCased text) = true) :
    s.setFuel (some text) = { s with fuelEnabled := false } := by
  simp only [setFuel, if_pos h]

theorem setFuel_of_natural (h : IsNatural UInt64.size text n) (hzero : text ≠ "0") :
    s.setFuel (some text) = s.withFuel true (.ofNat n) := by
  have hread := naturalBelow?_toList_eq_some_iff.2 (isNatural_lowerCased_iff.2 h)
  simp only [setFuel, if_neg (mt (isOff_lowerCased_iff h).1 hzero), hread]

theorem setFuel_of_unreadable (hword : ¬isOff (lowerCased text) = true)
    (h : ∀ n, ¬IsNatural UInt64.size text n) : s.setFuel (some text) = s := by
  have hread := naturalBelow?_toList_eq_none_iff.2 fun n => mt isNatural_lowerCased_iff.1 (h n)
  simp only [setFuel, if_neg hword, hread]

theorem setMemory_eq (s : Settings) (value : Option String) :
    s.setMemory value = { s with maxMemoryPages := (s.setMemory value).maxMemoryPages } := by
  unfold setMemory
  split
  · rfl
  · split <;> rfl

theorem setFuel_withPages (s : Settings) (pages : UInt32) (value : Option String) :
    setFuel { s with maxMemoryPages := pages } value =
      { s.setFuel value with maxMemoryPages := pages } := by
  unfold setFuel
  split
  · rfl
  · split
    · rfl
    · split <;> rfl

theorem setFuel_eq (s : Settings) (value : Option String) : s.setFuel value =
    { s with
      fuelEnabled := (s.setFuel value).fuelEnabled
      fuelAmount := (s.setFuel value).fuelAmount } := by
  unfold setFuel
  split
  · rfl
  · split
    · rfl
    · split <;> rfl

/-- Each variable is read on its own. -/
theorem ofEnvironment_eq (env : Environment) : ofEnvironment env =
    { maxMemoryPages := (setMemory {} (env "WASMHOST_MAX_MEMORY_PAGES")).maxMemoryPages
      fuelEnabled := (setFuel {} (env "WASMHOST_FUEL")).fuelEnabled
      fuelAmount := (setFuel {} (env "WASMHOST_FUEL")).fuelAmount
      cacheModules := (setCache {} (env "WASMHOST_CACHE")).cacheModules } := by
  have hset : ofEnvironment env = setCache
      { setFuel {} (env "WASMHOST_FUEL") with
        maxMemoryPages := (setMemory {} (env "WASMHOST_MAX_MEMORY_PAGES")).maxMemoryPages }
      (env "WASMHOST_CACHE") := by
    rw [← setFuel_withPages, ← setMemory_eq]
    rfl
  rw [hset, setFuel_eq]
  cases env "WASMHOST_CACHE" <;> rfl

end Settings

end

/-- The pages are what the variable says, if it is a number of 32 bits, or else as by default. -/
structure PagesFollow (value : Option String) (s : Settings) : Prop where
  given : ∀ text n, value = some text → IsNatural UInt32.size text n → s.maxMemoryPages.toNat = n
  otherwise : (∀ text, value = some text → ∀ n, ¬IsNatural UInt32.size text n) →
    s.maxMemoryPages = ({} : Settings).maxMemoryPages

/-- Fuel is metered with the amount that the variable says; a word for off or a number that is zero turns
metering off, and anything else leaves it as by default. -/
structure FuelFollows (value : Option String) (s : Settings) : Prop where
  off : ∀ text, value = some text →
    lowerCased text ∈ ["off", "false"] ∨ IsNatural UInt64.size text 0 →
      s.fuelEnabled = false ∧ s.fuelAmount = ({} : Settings).fuelAmount
  given : ∀ text n, value = some text → IsNatural UInt64.size text n → 0 < n →
    s.fuelEnabled = true ∧ s.fuelAmount.toNat = n
  otherwise : (∀ text, value = some text →
      lowerCased text ∉ ["off", "false"] ∧ ∀ n, ¬IsNatural UInt64.size text n) →
    s.fuelEnabled = ({} : Settings).fuelEnabled ∧ s.fuelAmount = ({} : Settings).fuelAmount

/-- Modules are kept unless the variable is a word for off. -/
def CacheFollows (value : Option String) (s : Settings) : Prop :=
  s.cacheModules = false ↔ ∃ text, value = some text ∧ lowerCased text ∈ ["false", "0", "off"]

/-- A numeral of zero that is not just `0`. -/
def OtherZero (value : Option String) : Prop :=
  ∃ text, value = some text ∧ IsNatural UInt64.size text 0 ∧ text ≠ "0"

/-- Environments that agree on a variable agree on what it sets. -/
structure ReadApart (env env' : Environment) (s s' : Settings) : Prop where
  pages : env "WASMHOST_MAX_MEMORY_PAGES" = env' "WASMHOST_MAX_MEMORY_PAGES" →
    s.maxMemoryPages = s'.maxMemoryPages
  fuel : env "WASMHOST_FUEL" = env' "WASMHOST_FUEL" →
    s.fuelEnabled = s'.fuelEnabled ∧ s.fuelAmount = s'.fuelAmount
  cache : env "WASMHOST_CACHE" = env' "WASMHOST_CACHE" → s.cacheModules = s'.cacheModules
  /-- No variable has a say in this one. -/
  debugInfo : s.debugInfo = s'.debugInfo

section

variable {value : Option String}

theorem pagesFollow : PagesFollow value (Settings.setMemory {} value) where
  given text n hvalue hn := by
    rw [hvalue, Settings.setMemory_of_natural hn]
    exact UInt32.toNat_ofNat_of_lt' hn.below
  otherwise hnone := by
    cases value with
    | none => rfl
    | some text => rw [Settings.setMemory_of_unreadable (hnone text rfl)]

theorem cacheFollows : CacheFollows value (Settings.setCache {} value) := by
  unfold CacheFollows
  cases value with
  | none => simp [Settings.setCache]
  | some text =>
    have hoff : isOff (lowerCased text) = true ↔ lowerCased text ∈ ["false", "0", "off"] := by
      simp [isOff, or_comm, or_left_comm]
    simp only [Settings.setCache, Bool.not_eq_false', hoff, Option.some.injEq, exists_eq_left']

theorem OtherZero.starved (h : OtherZero value) :
    (Settings.setFuel {} value).fuelEnabled = true ∧ (Settings.setFuel {} value).fuelAmount = 0 := by
  obtain ⟨text, rfl, hzero, hne⟩ := h
  rw [Settings.setFuel_of_natural hzero hne]
  exact ⟨rfl, rfl⟩

theorem fuelFollows_of_not_otherZero (h : ¬OtherZero value) :
    FuelFollows value (Settings.setFuel {} value) where
  off text hvalue hoff := by
    have hword : isOff (lowerCased text) = true := by
      obtain hword | hzero := hoff
      · exact isOff_iff.2 (.inr hword)
      · by_contra hnot
        exact h ⟨text, hvalue, hzero, mt (isOff_lowerCased_iff hzero).2 hnot⟩
    rw [hvalue, Settings.setFuel_of_off hword]
    exact ⟨rfl, rfl⟩
  given text n hvalue hn hpos := by
    have hne : text ≠ "0" := by
      rintro rfl
      exact hpos.ne (isNatural_zero.unique hn)
    rw [hvalue, Settings.setFuel_of_natural hn hne]
    exact ⟨rfl, UInt64.toNat_ofNat_of_lt' hn.below⟩
  otherwise hnone := by
    cases value with
    | none => exact ⟨rfl, rfl⟩
    | some text =>
      obtain ⟨hword, hnatural⟩ := hnone text rfl
      have hzero : lowerCased text ≠ "0" := fun hsame =>
        hnatural 0 (isNatural_lowerCased_iff.1 (hsame ▸ isNatural_zero))
      have hnot : ¬isOff (lowerCased text) = true := mt isOff_iff.1 (not_or.2 ⟨hzero, hword⟩)
      rw [Settings.setFuel_of_unreadable hnot hnatural]
      exact ⟨rfl, rfl⟩

theorem fuelFollows_iff : FuelFollows value (Settings.setFuel {} value) ↔ ¬OtherZero value := by
  refine ⟨fun h hother => ?_, fuelFollows_of_not_otherZero⟩
  obtain ⟨henabled, -⟩ := hother.starved
  obtain ⟨text, hvalue, hzero, -⟩ := hother
  obtain ⟨hdisabled, -⟩ := h.off text hvalue (.inr hzero)
  rw [henabled] at hdisabled
  cases hdisabled

end

section

variable {env : Environment}

theorem fuelFollows_ofEnvironment_iff :
    FuelFollows (env "WASMHOST_FUEL") (Settings.ofEnvironment env) ↔
      ¬OtherZero (env "WASMHOST_FUEL") := by
  rw [← fuelFollows_iff, Settings.ofEnvironment_eq]
  exact ⟨fun h => ⟨h.off, h.given, h.otherwise⟩, fun h => ⟨h.off, h.given, h.otherwise⟩⟩

theorem OtherZero.initialFuel (h : OtherZero (env "WASMHOST_FUEL")) :
    (Settings.ofEnvironment env).initialFuel = some 0 := by
  obtain ⟨henabled, hamount⟩ := h.starved
  rw [Settings.ofEnvironment_eq, Settings.initialFuel]
  dsimp only
  rw [if_pos henabled, hamount]

end

/-- Pages and the cache are as their variables say in every environment, and no variable bears on another
setting than its own. Fuel is as its variable says if and only if this is not a numeral of zero other than
`0`; such a numeral makes every new instance start with nothing to spend. -/
theorem settings_follow_variables_iff (env : Environment) :
    let s := Settings.ofEnvironment env
    PagesFollow (env "WASMHOST_MAX_MEMORY_PAGES") s ∧ CacheFollows (env "WASMHOST_CACHE") s ∧
      (FuelFollows (env "WASMHOST_FUEL") s ↔ ¬OtherZero (env "WASMHOST_FUEL")) ∧
      (OtherZero (env "WASMHOST_FUEL") → s.initialFuel = some 0) ∧
      ∀ env', ReadApart env env' s (Settings.ofEnvironment env') := by
  intro s
  have hs : s = _ := Settings.ofEnvironment_eq env
  refine ⟨?_, ?_, fuelFollows_ofEnvironment_iff, OtherZero.initialFuel, fun env' => ?_⟩
  · rw [hs]
    exact ⟨pagesFollow.given, pagesFollow.otherwise⟩
  · rw [hs]
    exact cacheFollows
  · rw [hs, Settings.ofEnvironment_eq env']
    refine ⟨fun h => ?_, fun h => ?_, fun h => ?_, rfl⟩
    · rw [h]
    · rw [h]
      exact ⟨rfl, rfl⟩
    · rw [h]

/-- A number with a sign and a zero in front of it, and two words in capital letters. -/
theorem settings_follow_variables_iff_capitals :
    let env : Environment := .ofList [("WASMHOST_MAX_MEMORY_PAGES", "+0512"),
      ("WASMHOST_FUEL", "OFF"), ("WASMHOST_CACHE", "False")]
    let s := Settings.ofEnvironment env
    IsNatural UInt32.size "+0512" 512 ∧ ¬OtherZero (env "WASMHOST_FUEL") ∧
      s.maxMemoryPages.toNat = 512 ∧ s.fuelEnabled = false ∧ s.cacheModules = false := by
  intro env s
  have hpages : IsNatural UInt32.size "+0512" 512 := naturalBelow?_toList_eq_some_iff.1 (by decide +kernel)
  have hother : ¬OtherZero (env "WASMHOST_FUEL") := by
    rintro ⟨text, htext, hzero, -⟩
    cases htext
    have hread := naturalBelow?_toList_eq_some_iff.2 hzero
    revert hread
    decide +kernel
  obtain ⟨hmemory, hcache, hfuel, -, -⟩ := settings_follow_variables_iff env
  have hoff := (hfuel.2 hother).off "OFF" rfl (.inl (by decide))
  exact ⟨hpages, hother, hmemory.given "+0512" 512 rfl hpages, hoff.1,
    hcache.2 ⟨"False", rfl, by decide⟩⟩

/-- Two zeros do not switch metering off. -/
theorem zeros_starve_guests :
    let env : Environment := .ofList [("WASMHOST_FUEL", "00")]
    let s := Settings.ofEnvironment env
    IsNatural UInt64.size "00" 0 ∧ ¬FuelFollows (env "WASMHOST_FUEL") s ∧ s.initialFuel = some 0 := by
  intro env s
  have hzero : IsNatural UInt64.size "00" 0 := naturalBelow?_toList_eq_some_iff.1 (by decide +kernel)
  have hother : OtherZero (env "WASMHOST_FUEL") := ⟨"00", rfl, hzero, by decide⟩
  exact ⟨hzero, fun h => fuelFollows_ofEnvironment_iff.1 h hother, hother.initialFuel⟩

end Loader
end GuestHarness
