import Mathlib.Data.List.TakeWhile
import Tabular.Proofs.Except
import Tabular.Value

/-!
# Decimal texts

The decimal text of a natural number is made of ASCII digits and reads back as the number, so that
it is a numeral, differs from the text of every other number, and is typed as a number when it is
stored.
-/

namespace Tabular.Text

theorem isAsciiDigit_of_isDigit {c : Char} (h : c.isDigit) : isAsciiDigit c := by
  simp only [Char.isDigit, Bool.and_eq_true, decide_eq_true_eq] at h
  have h₁ : 48 ≤ c.toNat := by simpa using UInt32.le_iff_toNat_le.1 h.1
  have h₂ : c.toNat ≤ 57 := by simpa using UInt32.le_iff_toNat_le.1 h.2
  simp [isAsciiDigit, h₁, h₂]

theorem isAsciiDigit_of_mem_ofNat {n : Nat} {c : Char} (h : c ∈ ofNat n) : isAsciiDigit c :=
  isAsciiDigit_of_isDigit (Nat.isDigit_of_mem_toDigits (by decide) (by decide) h)

theorem ofNat_ne_nil (n : Nat) : ofNat n ≠ [] := Nat.toDigits_ne_nil

/-- Reading ASCII digits is the library's reading of them. -/
theorem digitsAfter_eq_ofDigitChars (t : Text) (h : ∀ c ∈ t, isAsciiDigit c) (n : Nat) :
    digitsAfter n t = Nat.ofDigitChars 10 t n := by
  induction t generalizing n with
  | nil => simp
  | cons c t ih =>
    have hc := digitValue?_of_isAsciiDigit (h c (by simp))
    rw [digitsAfter_cons, hc, ih (fun d hd => h d (by simp [hd])), Nat.ofDigitChars_cons]
    simp [Nat.mul_comm]

/-- A number reads back from its decimal text. -/
@[simp] theorem toNat_ofNat (n : Nat) : toNat (ofNat n) = n := by
  rw [toNat, digitsAfter_eq_ofDigitChars _ (fun _ => isAsciiDigit_of_mem_ofNat)]
  exact Nat.ofDigitChars_ten_toDigits

theorem ofNatWithin_eq_ok_iff {n : Nat} {t : Text} :
    ofNatWithin n = .ok t ↔ t = ofNat n ∧ (ofNat n).length ≤ digitLimit := by
  unfold ofNatWithin
  split
  · next h => simp [Nat.not_le.2 h]
  · next h => simp [Nat.not_lt.1 h, eq_comm]

/-- Leading zeros only make a text of digits longer. -/
theorem length_ofNat_toNat_le {t : Text} (hne : t ≠ []) (h : ∀ c ∈ t, isAsciiDigit c) :
    (ofNat (toNat t)).length ≤ t.length := by
  rw [ofNat, Nat.length_toDigits_le_iff (by decide) (List.length_pos_iff.2 hne), toNat]
  suffices ∀ n, digitsAfter n t < (n + 1) * 10 ^ t.length by simpa using this 0
  clear hne
  induction t with
  | nil => intro n; simp
  | cons c t ih =>
    intro n
    have hc := h c (by simp)
    have hd : (digitValue? c).getD 0 ≤ 9 := by
      rw [digitValue?_of_isAsciiDigit hc]
      simp only [isAsciiDigit, Bool.and_eq_true, decide_eq_true_eq] at hc
      simp only [Option.getD_some]
      omega
    have ht := ih (fun d hd => h d (by simp [hd])) (n * 10 + (digitValue? c).getD 0)
    calc digitsAfter (n * 10 + (digitValue? c).getD 0) t
        < (n * 10 + (digitValue? c).getD 0 + 1) * 10 ^ t.length := ht
      _ ≤ ((n + 1) * 10) * 10 ^ t.length := Nat.mul_le_mul_right _ (by omega)
      _ = (n + 1) * 10 ^ (c :: t).length := by
        rw [List.length_cons, Nat.pow_succ, Nat.mul_assoc, Nat.mul_comm 10]

end Text

namespace Numeral

theorem splitSign_of_isAsciiDigit {t : Text} (h : ∀ c ∈ t, Text.isAsciiDigit c) :
    splitSign t = (false, t) := by
  cases t with
  | nil => rfl
  | cons c t =>
    have hc := h c (by simp)
    have hp : c ≠ '+' := by rintro rfl; exact absurd hc (by decide)
    have hm : c ≠ '-' := by rintro rfl; exact absurd hc (by decide)
    unfold splitSign
    split
    · next he => exact absurd (List.cons.inj he).1 hp
    · next he => exact absurd (List.cons.inj he).1 hm
    · rfl

theorem ofText?_of_isAsciiDigit {t : Text} (hne : t ≠ []) (h : ∀ c ∈ t, Text.isAsciiDigit c) :
    ofText? t = some ⟨false, t, none⟩ := by
  have hd : ∀ c ∈ t, Text.isDecimal c := fun c hc => Text.isDecimal_of_isAsciiDigit (h c hc)
  have ht : t.takeWhile Text.isDecimal = t := List.takeWhile_eq_self_iff.2 hd
  have hr : t.dropWhile Text.isDecimal = [] := List.dropWhile_eq_nil_iff.2 hd
  simp [ofText?, splitSign_of_isAsciiDigit h, spanDigits, ht, hr, hne]

end Numeral

namespace Value

theorem ofField_of_isAsciiDigit {t : Text} (hne : t ≠ []) (h : ∀ c ∈ t, Text.isAsciiDigit c) :
    ofField t = ⟨.number, t⟩ := by
  obtain ⟨c, rest, rfl⟩ := List.exists_cons_of_ne_nil hne
  have hc := h c (by simp)
  have hk : ∀ k : Keyword, k = .NULL ∨ k = .TRUE ∨ k = .FALSE → c :: rest ≠ k.text := by
    rintro k (rfl | rfl | rfl) he <;> cases (List.cons.inj he).1 <;> exact absurd hc (by decide)
  have hn : Numeral.isNumeral (c :: rest) := by
    simp [Numeral.isNumeral, Numeral.ofText?_of_isAsciiDigit hne h]
  simp [ofField, hk, hn]

/-- An id is typed as a number by its text. -/
@[simp] theorem ofField_ofNat (n : Nat) : ofField (Text.ofNat n) = ⟨.number, Text.ofNat n⟩ :=
  ofField_of_isAsciiDigit (Text.ofNat_ne_nil n) fun _ => Text.isAsciiDigit_of_mem_ofNat

theorem ofNat_eq_ok_iff {n : Nat} {v : Value} :
    ofNat n = .ok v ↔ v = ⟨.number, Text.ofNat n⟩ ∧ (Text.ofNat n).length ≤ Text.digitLimit := by
  rw [ofNat, Except.map_eq_ok_iff]
  constructor
  · rintro ⟨t, ht, rfl⟩
    obtain ⟨rfl, hl⟩ := Text.ofNatWithin_eq_ok_iff.1 ht
    exact ⟨rfl, hl⟩
  · rintro ⟨rfl, hl⟩
    exact ⟨_, Text.ofNatWithin_eq_ok_iff.2 ⟨rfl, hl⟩, rfl⟩

end Tabular.Value
