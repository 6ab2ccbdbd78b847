import Tabular.Name

/-!
# Words in small letters

The letters of a word are those of ASCII, so that each has one small letter, whatever stands beside
it. The name of a database or table is a word in small letters: it stays as it is when it is put
into small letters again, and it can stand at the front of a file name.
-/

namespace Tabular

namespace Text

theorem toNat_le_of_isWordChar {c : Char} (h : isWordChar c) : c.toNat < 0x80 := by
  simp only [isWordChar, wordChars, CharClass.has_cons, CharClass.has_nil, Bool.or_false,
    Bool.or_eq_true, Bool.and_eq_true, decide_eq_true_eq] at h
  omega

theorem small_of_lt {c : Char} (h : c.toNat < 0x80) :
    small c = if 0x41 ≤ c.toNat && c.toNat ≤ 0x5A then Char.ofNat (c.toNat + 0x20) else c := by
  rw [small, if_pos h]

theorem toNat_ofNat_of_lt {n : Nat} (h : n < 0xD800) : (Char.ofNat n).toNat = n := by
  have hv : n.isValidChar := .inl h
  rw [Char.ofNat, dif_pos hv]
  rfl

theorem isWordChar_small {c : Char} (h : isWordChar c) : isWordChar (small c) := by
  rw [small_of_lt (toNat_le_of_isWordChar h)]
  split
  · next hc =>
    simp only [Bool.and_eq_true, decide_eq_true_eq] at hc
    have hn := toNat_ofNat_of_lt (n := c.toNat + 0x20) (by omega)
    simp only [isWordChar, wordChars, CharClass.has_cons, CharClass.has_nil, Bool.or_false,
      Bool.or_eq_true, Bool.and_eq_true, decide_eq_true_eq, hn]
    omega
  · exact h

theorem small_small {c : Char} (h : isWordChar c) : small (small c) = small c := by
  have hs := small_of_lt (toNat_le_of_isWordChar h)
  rw [small_of_lt (toNat_le_of_isWordChar (isWordChar_small h)), hs]
  by_cases hc : 0x41 ≤ c.toNat ∧ c.toNat ≤ 0x5A
  · have hn := toNat_ofNat_of_lt (n := c.toNat + 0x20) (by omega)
    simp only [hc.1, hc.2, decide_true, Bool.and_true, if_true, hn]
    rw [if_neg]
    simp only [Bool.and_eq_true, decide_eq_true_eq]
    omega
  · simp [hc]

/-- A word has its letters put into small ones one by one. -/
theorem lower_eq_map_small {t : Text} (h : ∀ c ∈ t, isWordChar c) : lower t = t.map small := by
  unfold lower
  generalize [] = before
  induction t generalizing before with
  | nil => rfl
  | cons c t ih =>
    have hc := toNat_le_of_isWordChar (h c (by simp))
    have hs : c ≠ '\u03a3' := by rintro rfl; exact absurd hc (by decide)
    have hi : c ≠ '\u0130' := by rintro rfl; exact absurd hc (by decide)
    rw [lowerAfter, smallWithin, if_neg hs, if_neg hi, ih (fun d hd => h d (by simp [hd]))]
    rfl

/-- A character of ASCII that is its own small one stays when a text is put into small letters. -/
theorem mem_lower {t : Text} {c : Char} (ha : c.toNat < 0x80) (hs : small c = c) (h : c ∈ t) :
    c ∈ lower t := by
  unfold lower
  generalize ([] : Text) = before
  induction t generalizing before with
  | nil => cases h
  | cons d t ih =>
    rw [lowerAfter, List.mem_append]
    obtain rfl | h := List.mem_cons.1 h
    · left
      have hsigma : c ≠ '\u03a3' := by rintro rfl; exact absurd ha (by decide)
      have hdotted : c ≠ '\u0130' := by rintro rfl; exact absurd ha (by decide)
      rw [smallWithin, if_neg hsigma, if_neg hdotted, hs]
      exact List.mem_singleton_self c
    · exact .inr (ih h _)

/-! ## Letter case -/

/-- Texts that differ in nothing but the case of letters of ASCII. -/
def SameLetters (s t : Text) : Prop := s.map Char.toLower = t.map Char.toLower

theorem capitalLetter_iff {c : Char} :
    c.val ≥ 'A'.val ∧ c.val ≤ 'Z'.val ↔ 0x41 ≤ c.toNat ∧ c.toNat ≤ 0x5A := by
  rw [ge_iff_le, UInt32.le_iff_toNat_le, UInt32.le_iff_toNat_le]
  exact Iff.rfl

theorem toLower_eq_small {c : Char} (h : isWordChar c) : c.toLower = small c := by
  rw [small_of_lt (toNat_le_of_isWordChar h)]
  delta Char.toLower
  by_cases hc : 0x41 ≤ c.toNat ∧ c.toNat ≤ 0x5A
  · rw [dif_pos (capitalLetter_iff.2 hc), if_pos (by simpa using hc), ← Char.toNat_inj,
      toNat_ofNat_of_lt (by omega)]
    change (c.val + ('a'.val - 'A'.val)).toNat = c.val.toNat + ('a'.val - 'A'.val).toNat
    rw [UInt32.toNat_add]
    refine Nat.mod_eq_of_lt ?_
    change c.toNat + 0x20 < 2 ^ 32
    omega
  · rw [dif_neg (mt capitalLetter_iff.1 hc), if_neg (by simpa using hc)]

/-- Words that differ in the case of letters alone have the same small letters. -/
theorem SameLetters.lower_eq {s t : Text} (hs : ∀ c ∈ s, isWordChar c) (ht : ∀ c ∈ t, isWordChar c)
    (h : SameLetters s t) : lower s = lower t := by
  rw [lower_eq_map_small hs, lower_eq_map_small ht,
    ← List.map_congr_left fun c hc => toLower_eq_small (hs c hc),
    ← List.map_congr_left fun c hc => toLower_eq_small (ht c hc)]
  exact h

/-- The capital of a character of a word is one of the same letter. -/
theorem small_capital {c : Char} (h : isWordChar c) :
    isWordChar (capital c) ∧ small (capital c) = small c := by
  have hc := toNat_le_of_isWordChar h
  have hi : c ≠ '\u0131' := by rintro rfl; exact absurd hc (by decide)
  have hs : c ≠ '\u017f' := by rintro rfl; exact absurd hc (by decide)
  rw [capital, if_neg hi, if_neg hs]
  split
  · next hletter =>
    simp only [Bool.and_eq_true, decide_eq_true_eq] at hletter
    have hn := toNat_ofNat_of_lt (n := c.toNat - 0x20) (by omega)
    constructor
    · simp only [isWordChar, wordChars, CharClass.has_cons, CharClass.has_nil, Bool.or_false,
        Bool.or_eq_true, Bool.and_eq_true, decide_eq_true_eq, hn]
      omega
    · rw [small_of_lt (by omega), small_of_lt hc, hn, if_pos (by simp; omega),
        if_neg (by simp; omega), Nat.sub_add_cancel (by omega), Char.ofNat_toNat]
  · exact ⟨h, rfl⟩

/-- A word differs from itself in capitals in the case of letters alone. -/
theorem sameLetters_upper {t : Text} (h : ∀ c ∈ t, isWordChar c) : SameLetters t (upper t) := by
  rw [SameLetters, upper, List.map_map]
  refine List.map_congr_left fun c hc => ?_
  obtain ⟨hword, hsmall⟩ := small_capital (h c hc)
  rw [Function.comp_apply, toLower_eq_small (h c hc), toLower_eq_small hword, hsmall]

theorem capital_small {c : Char} (h : isWordChar c) : capital (small c) = capital c := by
  rw [small_of_lt (toNat_le_of_isWordChar h)]
  split
  · next hc =>
    simp only [Bool.and_eq_true, decide_eq_true_eq] at hc
    have hn := toNat_ofNat_of_lt (n := c.toNat + 0x20) (by omega)
    have hi : c ≠ '\u0131' := by rintro rfl; exact absurd hc.2 (by decide)
    have hs : c ≠ '\u017f' := by rintro rfl; exact absurd hc.2 (by decide)
    rw [capital, capital, hn, if_pos (by simp; omega), if_neg (by simp; omega), if_neg hi, if_neg hs,
      Nat.add_sub_cancel, Char.ofNat_toNat]
  · rfl

theorem upper_lower {t : Text} (h : ∀ c ∈ t, isWordChar c) : upper (lower t) = upper t := by
  rw [lower_eq_map_small h, upper, upper, List.map_map]
  exact List.map_congr_left fun c hc => capital_small (h c hc)

end Text

namespace Name

/-- A word in small letters. -/
structure IsWord (n : Text) : Prop where
  plain : isPlain n
  small : Text.lower n = n

theorem isPlain_iff {n : Text} : isPlain n ↔ n ≠ [] ∧ ∀ c ∈ n, Text.isWordChar c := by
  simp [isPlain]

theorem isKeyword_lower {n : Text} (h : isPlain n) : isKeyword (Text.lower n) = isKeyword n := by
  rw [isKeyword, isKeyword, Keyword.ofWord?, Keyword.ofWord?, Text.upper_lower (isPlain_iff.1 h).2]

/-- A plain name becomes a word in small letters. -/
theorem isWord_lower {n : Text} (h : isPlain n) : IsWord (Text.lower n) := by
  obtain ⟨hne, hw⟩ := isPlain_iff.1 h
  have hl := Text.lower_eq_map_small hw
  have hs : ∀ c ∈ n.map Text.small, Text.isWordChar c := by
    intro c hc
    obtain ⟨d, hd, rfl⟩ := List.mem_map.1 hc
    exact Text.isWordChar_small (hw d hd)
  constructor
  · rw [hl]
    exact isPlain_iff.2 ⟨by simpa using hne, hs⟩
  · rw [hl, Text.lower_eq_map_small hs, List.map_map]
    exact List.map_congr_left fun c hc => Text.small_small (hw c hc)

/-- A small letter, a digit or a low line. -/
def isSmallWordChar (c : Char) : Bool := c.isLower || c.isDigit || c == '_'

def isSmallWord (n : Text) : Bool := !n.isEmpty && n.all isSmallWordChar

theorem isSmallWordChar_iff {c : Char} : isSmallWordChar c ↔
    ((0x61 ≤ c.toNat ∧ c.toNat ≤ 0x7A) ∨ 0x30 ≤ c.toNat ∧ c.toNat ≤ 0x39) ∨ c.toNat = 0x5F := by
  have hlower : c.isLower ↔ 0x61 ≤ c.toNat ∧ c.toNat ≤ 0x7A := by
    change (decide ('a'.val ≤ c.val) && decide (c.val ≤ 'z'.val)) = true ↔ _
    rw [Bool.and_eq_true, decide_eq_true_eq, decide_eq_true_eq, UInt32.le_iff_toNat_le,
      UInt32.le_iff_toNat_le]
    exact Iff.rfl
  have hdigit : c.isDigit ↔ 0x30 ≤ c.toNat ∧ c.toNat ≤ 0x39 := by
    change (decide ('0'.val ≤ c.val) && decide (c.val ≤ '9'.val)) = true ↔ _
    rw [Bool.and_eq_true, decide_eq_true_eq, decide_eq_true_eq, UInt32.le_iff_toNat_le,
      UInt32.le_iff_toNat_le]
    exact Iff.rfl
  have heq : c = '_' ↔ c.toNat = 0x5F := by rw [← Char.toNat_inj]; rfl
  rw [isSmallWordChar, Bool.or_eq_true, Bool.or_eq_true, hlower, hdigit, beq_iff_eq, heq]

/-- The characters of a word that are their own small ones. -/
theorem isSmallWordChar_iff_small {c : Char} :
    isSmallWordChar c ↔ Text.isWordChar c ∧ Text.small c = c := by
  have hword : Text.isWordChar c ↔ isSmallWordChar c ∨ 0x41 ≤ c.toNat ∧ c.toNat ≤ 0x5A := by
    simp only [Text.isWordChar, Text.wordChars, CharClass.has_cons, CharClass.has_nil,
      Bool.or_false, Bool.or_eq_true, Bool.and_eq_true, decide_eq_true_eq, isSmallWordChar_iff]
    omega
  rw [hword]
  constructor
  · intro h
    have hn := isSmallWordChar_iff.1 h
    rw [Text.small_of_lt (by omega), if_neg (by simp; omega)]
    exact ⟨.inl h, rfl⟩
  · rintro ⟨h | hcapital, hs⟩
    · exact h
    · rw [Text.small_of_lt (by omega), if_pos (by simpa using hcapital)] at hs
      have hn := congrArg Char.toNat hs
      rw [Text.toNat_ofNat_of_lt (by omega)] at hn
      omega

/-- The words in small letters are made of small letters, digits and low lines. -/
theorem isSmallWord_iff {n : Text} : isSmallWord n ↔ IsWord n := by
  have hmap (hw : ∀ c ∈ n, Text.isWordChar c) :
      Text.lower n = n ↔ ∀ c ∈ n, Text.small c = c := by
    rw [Text.lower_eq_map_small hw]
    exact ⟨fun h c hc => List.map_inj_left.1 (h.trans (List.map_id n).symm) c hc,
      fun h => (List.map_congr_left h).trans (List.map_id n)⟩
  have hchars : (∀ c ∈ n, isSmallWordChar c) ↔
      (∀ c ∈ n, Text.isWordChar c) ∧ ∀ c ∈ n, Text.small c = c := by
    simp only [isSmallWordChar_iff_small]
    exact ⟨fun h => ⟨fun c hc => (h c hc).1, fun c hc => (h c hc).2⟩,
      fun h c hc => ⟨h.1 c hc, h.2 c hc⟩⟩
  have hn : isSmallWord n ↔ n ≠ [] ∧ ∀ c ∈ n, isSmallWordChar c := by simp [isSmallWord]
  rw [hn, hchars]
  constructor
  · rintro ⟨hne, hw, hs⟩
    exact ⟨isPlain_iff.2 ⟨hne, hw⟩, (hmap hw).2 hs⟩
  · rintro ⟨hp, hs⟩
    obtain ⟨hne, hw⟩ := isPlain_iff.1 hp
    exact ⟨hne, hw, (hmap hw).1 hs⟩

theorem isWord_of_database {n m : Text} (h : database n = .ok m) : IsWord m := by
  unfold database at h
  cases hv : validate "database" n with
  | error e => rw [hv] at h; cases h
  | ok k =>
    rw [hv] at h
    cases h
    obtain ⟨rfl, hp, -⟩ := validate_eq_ok_iff.1 hv
    exact isWord_lower hp

theorem isWord_of_table {n m : Text} (h : table n = .ok m) : IsWord m := by
  unfold table at h
  cases hv : validate "table" n with
  | error e => rw [hv] at h; cases h
  | ok k =>
    rw [hv] at h
    cases h
    obtain ⟨rfl, hp, -⟩ := validate_eq_ok_iff.1 hv
    exact isWord_lower hp

end Tabular.Name
