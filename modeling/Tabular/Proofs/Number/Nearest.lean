import Mathlib.Algebra.Order.Field.Power
import Mathlib.Order.WithBot
import Mathlib.Tactic.FieldSimp
import Tabular.Proofs.Number.Ranks

/-!
# The nearest double

A fraction is rounded to the double nearest to it among all doubles of either sign, and halfway
between two to the one with an even last digit. From halfway between the largest double and the
next power of two on it goes to infinity.
-/

namespace Tabular.Binary64

/-- A number of at most 53 binary digits times a power of two that doubles have. -/
structure IsScaled (x : ℚ) (m e : ℤ) : Prop where
  digits : |m| < 2 ^ 53
  least : -1074 ≤ e
  most : e ≤ 971
  eq : x = m * 2 ^ e

/-- The finite doubles among the rational numbers. -/
def IsDouble (x : ℚ) : Prop := ∃ m e, IsScaled x m e

/-- A double whose last digit is even. -/
def IsEven (x : ℚ) : Prop := ∃ m e, Even m ∧ IsScaled x m e

/-- No double is nearer, and if another one is as near then this one is even. -/
structure IsNearest (q x : ℚ) : Prop where
  double : IsDouble x
  nearest : ∀ y, IsDouble y → |q - x| ≤ |q - y|
  even : ∀ y, IsDouble y → y ≠ x → |q - y| = |q - x| → IsEven x

/-- Halfway between the largest double and the power of two after it. -/
def limit : ℚ := 2 ^ 1024 - 2 ^ 970

/-- The magnitude of a rank. -/
def magnitude (r : Nat) : ℚ := unitsOf r / one

variable {q x y : ℚ} {m e : ℤ} {n d r : Nat}

/-! ## Signs -/

theorem IsScaled.neg (h : IsScaled x m e) : IsScaled (-x) (-m) e :=
  ⟨by rw [abs_neg]; exact h.digits, h.least, h.most, by rw [h.eq]; push_cast; ring⟩

theorem IsDouble.neg (h : IsDouble x) : IsDouble (-x) :=
  let ⟨m, e, h⟩ := h
  ⟨-m, e, h.neg⟩

theorem IsEven.neg (h : IsEven x) : IsEven (-x) :=
  let ⟨m, e, hm, h⟩ := h
  ⟨-m, e, hm.neg, h.neg⟩

theorem IsEven.isDouble (h : IsEven x) : IsDouble x :=
  let ⟨m, e, _, h⟩ := h
  ⟨m, e, h⟩

theorem isEven_zero : IsEven 0 := ⟨0, 0, .zero, by simp, by decide, by decide, by simp⟩

theorem abs_neg_sub_neg (q x : ℚ) : |-q - -x| = |q - x| := by
  rw [← abs_neg]
  ring_nf

theorem IsNearest.neg (h : IsNearest q x) : IsNearest (-q) (-x) := by
  refine ⟨h.double.neg, fun y hy => ?_, fun y hy hne htie => ?_⟩
  · rw [abs_neg_sub_neg, ← neg_neg y, abs_neg_sub_neg]
    exact h.nearest _ hy.neg
  · rw [abs_neg_sub_neg, ← neg_neg y, abs_neg_sub_neg] at htie
    exact (h.even _ hy.neg (fun he => hne (by rw [← he, neg_neg])) htie).neg

/-! ## Magnitudes -/

theorem cast_pow_two (k : Nat) : ((Nat.pow 2 k : Nat) : ℚ) = 2 ^ (k : ℤ) := by
  rw [Nat.pow_eq, zpow_natCast, Nat.cast_pow, Nat.cast_ofNat]

theorem cast_one : ((one : Nat) : ℚ) = 2 ^ (1074 : ℤ) := by
  obtain ⟨k, hk⟩ : ∃ k : Nat, 1074 = k := ⟨_, rfl⟩
  have hone : one = Nat.pow 2 k := by
    unfold one
    rw [hk]
  rw [hone, cast_pow_two, ← hk]
  rfl

theorem one_pos : (0 : ℚ) < one := by
  rw [cast_one]
  positivity

theorem strictMono_magnitude : StrictMono magnitude := fun _ _ h =>
  div_lt_div_of_pos_right (Nat.cast_lt.2 (strictMono_unitsOf h)) one_pos

theorem magnitude_nonneg (r : Nat) : 0 ≤ magnitude r :=
  div_nonneg (Nat.cast_nonneg _) one_pos.le

theorem magnitude_zero : magnitude 0 = 0 := by
  rw [magnitude, unitsOf_of_le (Nat.zero_le _), Nat.cast_zero, zero_div]

theorem magnitude_add (s m : Nat) (hlow : s = 0 ∨ span ≤ m) (hhigh : m ≤ 2 * span) :
    magnitude (s * span + m) = m * 2 ^ (s - 1074 : ℤ) := by
  rw [magnitude, unitsOf_add s m hlow hhigh, cast_one, zpow_sub₀ two_ne_zero, Nat.cast_mul,
    Nat.cast_pow, Nat.cast_ofNat, zpow_natCast, mul_div_assoc]

/-- The magnitude of a finite rank is a double, and an even one if the rank is even. -/
theorem exists_isScaled_magnitude (h : r < infiniteRank) :
    ∃ m e, (Even r → Even m) ∧ IsScaled (magnitude r) m e := by
  obtain ⟨s, m, rfl, hlow, hhigh⟩ := exists_shift r
  have hs : s ≤ 2045 := by
    have hspan := span_pos
    by_contra hs
    have : 2046 * span ≤ s * span := Nat.mul_le_mul_right _ (by omega)
    unfold infiniteRank at h
    omega
  refine ⟨m, s - 1074, fun he => ?_, ?_, by omega, by omega, ?_⟩
  · rw [← Nat.not_odd_iff_even, odd_add_iff, Nat.not_odd_iff_even] at he
    exact_mod_cast he
  · have hspan : 2 * span = 2 ^ 53 := by decide
    rw [hspan] at hhigh
    rw [abs_of_nonneg (by positivity)]
    exact_mod_cast hhigh
  · rw [magnitude_add s m hlow hhigh.le, Int.cast_natCast]

/-- Every double has a rank, an even one if it is even. -/
theorem IsScaled.exists_magnitude (h : IsScaled x m e) :
    ∃ r, r < infiniteRank ∧ |x| = magnitude r ∧ (Even m → Even r) := by
  obtain ⟨k, hk⟩ : ∃ k : Nat, e = k - 1074 := ⟨(e + 1074).toNat, by have := h.least; omega⟩
  have hmost := h.most
  have hdigits : m.natAbs < 2 * span := by
    have hspan : 2 * span = 2 ^ 53 := by decide
    have := h.digits
    rw [hspan]
    zify
    exact this
  obtain ⟨r, hlt, hr, heven⟩ := exists_unitsOf_eq hdigits k
  refine ⟨r, hlt.trans_le (Nat.mul_le_mul_right _ (by omega)), ?_,
    fun hm => heven (by simpa using hm)⟩
  rw [magnitude, hr, h.eq, abs_mul, abs_of_pos (zpow_pos (two_pos (α := ℚ)) e), hk,
    zpow_sub₀ two_ne_zero, zpow_natCast, cast_one, Nat.cast_mul, Nat.cast_pow, Nat.cast_ofNat,
    mul_div_assoc, Nat.cast_natAbs, Int.cast_abs]

/-! ## One nearest double -/

/-- Between two even doubles there is another double. -/
theorem IsEven.exists_between_of_nonneg (hx : IsEven x) (hy : IsEven y) (hnonneg : 0 ≤ x)
    (hlt : x < y) : ∃ z, IsDouble z ∧ x < z ∧ z < y := by
  obtain ⟨m, e, hm, hx⟩ := hx
  obtain ⟨k, f, hk, hy⟩ := hy
  obtain ⟨r, -, hxr, hr⟩ := hx.exists_magnitude
  obtain ⟨t, ht, hyt, hte⟩ := hy.exists_magnitude
  rw [abs_of_nonneg hnonneg] at hxr
  rw [abs_of_pos (hnonneg.trans_lt hlt)] at hyt
  rw [hxr, hyt] at hlt ⊢
  have hrt := strictMono_magnitude.lt_iff_lt.1 hlt
  have hnext : r + 1 < t := by
    have := hr hm
    have := hte hk
    grind
  obtain ⟨m, e, -, hz⟩ := exists_isScaled_magnitude (hnext.trans ht)
  exact ⟨magnitude (r + 1), ⟨m, e, hz⟩, strictMono_magnitude (Nat.lt_succ_self r),
    strictMono_magnitude hnext⟩

theorem IsEven.exists_between (hx : IsEven x) (hy : IsEven y) (hlt : x < y) :
    ∃ z, IsDouble z ∧ x < z ∧ z < y := by
  rcases le_or_gt 0 x with hx0 | hx0
  · exact hx.exists_between_of_nonneg hy hx0 hlt
  rcases lt_or_ge 0 y with hy0 | hy0
  · exact ⟨0, isEven_zero.isDouble, hx0, hy0⟩
  · obtain ⟨z, hz, hyz, hzx⟩ :=
      hy.neg.exists_between_of_nonneg hx.neg (neg_nonneg.2 hy0) (neg_lt_neg hlt)
    exact ⟨-z, hz.neg, by linarith, by linarith⟩

/-- There is at most one nearest double. -/
theorem IsNearest.eq (hx : IsNearest q x) (hy : IsNearest q y) : x = y := by
  by_contra hne
  wlog hlt : x < y generalizing x y
  · exact this hy hx (Ne.symm hne) (lt_of_le_of_ne (not_lt.1 hlt) (Ne.symm hne))
  have htie : |q - x| = |q - y| := le_antisymm (hx.nearest y hy.double) (hy.nearest x hx.double)
  obtain ⟨z, hz, hxz, hzy⟩ := (hx.even y hy.double (Ne.symm hne) htie.symm).exists_between
    (hy.even x hx.double hne htie) hlt
  have hmiddle : q - x = y - q := by
    rcases abs_eq_abs.1 htie with h | h <;> linarith
  refine absurd (hx.nearest z hz) (not_le.2 ?_)
  rw [abs_of_pos (by linarith : 0 < q - x), abs_lt]
  constructor <;> linarith

/-! ## Rounding -/

theorem lt_fullRank_iff_magnitude (hd : 0 < d) : r < fullRank (n * one) d ↔
    magnitude r + magnitude (r + 1) < 2 * (n / d) ∨
      magnitude r + magnitude (r + 1) = 2 * (n / d) ∧ Odd r := by
  have hd' : (0 : ℚ) < d := Nat.cast_pos.2 hd
  have hone := one_pos.ne'
  have hscale := mul_pos one_pos hd'
  have hleft : magnitude r + magnitude (r + 1) =
      ((unitsOf r + unitsOf (r + 1)) * d : Nat) / (one * d) := by
    rw [magnitude, magnitude]
    push_cast
    field_simp
  have hright : (2 * (n / d) : ℚ) = (2 * (n * one) : Nat) / (one * d) := by
    push_cast
    field_simp
  rw [lt_fullRank_iff hd, hleft, hright, div_lt_div_iff_of_pos_right hscale,
    div_left_inj' hscale.ne', Nat.cast_lt, Nat.cast_inj]

section Round

variable (hround : ∀ s, s < r ↔
  magnitude s + magnitude (s + 1) < 2 * q ∨ magnitude s + magnitude (s + 1) = 2 * q ∧ Odd s)

include hround

theorem nearest_magnitude (s : Nat) : |q - magnitude r| ≤ |q - magnitude s| := by
  rcases lt_trichotomy s r with h | rfl | h
  · obtain ⟨t, rfl⟩ : ∃ t, r = t + 1 := ⟨r - 1, by omega⟩
    have hst := strictMono_magnitude.monotone (Nat.le_of_lt_succ h)
    have htr := strictMono_magnitude (Nat.lt_succ_self t)
    have hmiddle : magnitude t + magnitude (t + 1) ≤ 2 * q := by
      rcases (hround t).1 (Nat.lt_succ_self t) with h | h
      · exact h.le
      · exact h.1.le
    refine (abs_le.2 ⟨?_, ?_⟩).trans (le_abs_self _) <;> linarith
  · rfl
  · have hrs := strictMono_magnitude.monotone (Nat.succ_le_of_lt h)
    have hlt := strictMono_magnitude (Nat.lt_succ_self r)
    have hmiddle : 2 * q ≤ magnitude r + magnitude (r + 1) := by
      by_contra hlt
      exact lt_irrefl r ((hround r).2 (.inl (not_le.1 hlt)))
    refine (abs_le.2 ⟨?_, ?_⟩).trans (neg_le_abs _) <;> simp only [Nat.succ_eq_add_one] at hrs <;>
      linarith

theorem even_of_tie {s : Nat} (hne : s ≠ r) (htie : |q - magnitude s| = |q - magnitude r|) :
    Even r := by
  -- The two are as far from the fraction, so it is in the middle between them, and no rank is.
  have hmiddle : magnitude s + magnitude r = 2 * q := by
    rcases abs_eq_abs.1 htie with h | h
    · exact absurd (strictMono_magnitude.injective (by linarith)) hne
    · linarith
  rcases lt_or_gt_of_ne hne with h | h
  · obtain ⟨t, rfl⟩ : ∃ t, r = t + 1 := ⟨r - 1, by omega⟩
    have hst := strictMono_magnitude.monotone (Nat.le_of_lt_succ h)
    rcases (hround t).1 (Nat.lt_succ_self t) with hlt | ⟨-, hodd⟩
    · linarith
    · exact hodd.add_one
  · have hrs := strictMono_magnitude.monotone (Nat.succ_le_of_lt h)
    by_contra hodd
    rw [Nat.not_even_iff_odd] at hodd
    have hnot := not_or.1 (mt (hround r).2 (lt_irrefl r))
    have hlt := not_lt.1 hnot.1
    refine hnot.2 ⟨le_antisymm ?_ hlt, hodd⟩
    simp only [Nat.succ_eq_add_one] at hrs
    linarith

/-- A finite rank that a fraction is rounded to is that of the nearest double. -/
theorem isNearest_magnitude (hq : 0 ≤ q) (hr : r < infiniteRank) : IsNearest q (magnitude r) := by
  obtain ⟨m, e, heven, hm⟩ := exists_isScaled_magnitude hr
  have hside {y : ℚ} : |q - (|y|)| ≤ |q - y| := by
    simpa only [abs_of_nonneg hq] using abs_abs_sub_abs_le q y
  refine ⟨⟨m, e, hm⟩, fun y ⟨_, _, hy⟩ => ?_, fun y ⟨_, _, hy⟩ hne htie => ?_⟩
  · obtain ⟨s, -, hys, -⟩ := hy.exists_magnitude
    exact (hys ▸ nearest_magnitude hround s).trans hside
  · obtain ⟨s, -, hys, -⟩ := hy.exists_magnitude
    have htie' : |q - magnitude s| = |q - magnitude r| :=
      le_antisymm (hys ▸ hside.trans_eq htie) (nearest_magnitude hround s)
    by_cases hsr : s = r
    · -- It is the other double of this rank, so the fraction is zero and they are the same.
      have hy : y = -magnitude r :=
        (eq_or_eq_neg_of_abs_eq (hys.trans (hsr ▸ rfl))).resolve_left hne
      have hzero : q = 0 := by
        rcases abs_eq_abs.1 htie with h | h
        · exact absurd (by linarith) hne
        · linarith
      have hnearest := nearest_magnitude hround 0
      rw [magnitude_zero, hzero, sub_self, abs_zero, abs_nonpos_iff, zero_sub] at hnearest
      exact absurd (by linarith) hne
    · exact ⟨m, e, heven (even_of_tie hround hsr htie'), hm⟩

end Round

/-- The limit is halfway between the last two ranks. -/
theorem magnitude_last_add : magnitude (infiniteRank - 1) + magnitude infiniteRank = 2 * limit := by
  have hlast : infiniteRank - 1 = 2045 * span + (2 * span - 1) := by decide
  have hnext : infiniteRank = 2045 * span + 2 * span := by decide
  have hspan : 2 * span = 2 ^ 53 := by decide
  have hpow : (2 : ℚ) ^ 1024 = 2 ^ 53 * 2 ^ 971 := pow_add 2 53 971
  have hhalf : (2 : ℚ) ^ 971 = 2 ^ 970 * 2 := pow_succ 2 970
  have hexp : ((2045 : Nat) - 1074 : ℤ) = (971 : Nat) := by decide
  rw [hlast, hnext, magnitude_add _ _ (.inr (by decide)) (by decide),
    magnitude_add _ _ (.inr (by decide)) le_rfl, hexp, zpow_natCast, limit, hpow, hhalf, hspan]
  push_cast
  generalize (2 : ℚ) ^ 970 = half
  ring

theorem IsDouble.abs_lt_limit (h : IsDouble x) : |x| < limit := by
  obtain ⟨m, e, h⟩ := h
  obtain ⟨r, hr, hx, -⟩ := h.exists_magnitude
  have hle := strictMono_magnitude.monotone (Nat.le_sub_one_of_lt hr)
  have hlt : magnitude (infiniteRank - 1) < magnitude infiniteRank :=
    strictMono_magnitude (by decide)
  have hlast := magnitude_last_add
  linarith

/-- A double is the nearest one to itself. -/
theorem IsDouble.isNearest (h : IsDouble x) : IsNearest x x := by
  refine ⟨h, fun y _ => by simp, fun y _ hne htie => absurd ?_ hne⟩
  rw [sub_self, abs_zero, abs_eq_zero, sub_eq_zero] at htie
  exact htie.symm

/-- Every whole number up to `2 ^ 53` is a double. -/
theorem isDouble_intCast {k : ℤ} (h : |k| ≤ 2 ^ 53) : IsDouble k := by
  rcases h.lt_or_eq with h | h
  · exact ⟨k, 0, h, by decide, by decide, by simp⟩
  · have hpower : IsDouble (2 ^ 53) := ⟨1, 53, by decide, by decide, by decide, by norm_num⟩
    rcases eq_or_eq_neg_of_abs_eq h with rfl | rfl
    · exact_mod_cast hpower
    · exact_mod_cast hpower.neg

/-- A fraction goes to infinity exactly from the limit on. -/
theorem infiniteRank_le_fullRank_iff (hd : 0 < d) :
    infiniteRank ≤ fullRank (n * one) d ↔ limit ≤ n / d := by
  have hodd : Odd (infiniteRank - 1) := by decide
  have hpos : infiniteRank - 1 + 1 = infiniteRank := Nat.sub_add_cancel (by decide)
  have hlt := lt_fullRank_iff_magnitude (n := n) (r := infiniteRank - 1) hd
  rw [hpos, magnitude_last_add] at hlt
  rw [← hpos, Nat.succ_le_iff, hlt, le_iff_lt_or_eq]
  refine or_congr (mul_lt_mul_iff_right₀ two_pos) ?_
  rw [and_iff_left hodd, mul_right_inj' two_ne_zero]

/-- Below the limit a fraction goes to the nearest double, and from there on to infinity. -/
theorem rankOf_of_lt (hd : 0 < d) (h : (n / d : ℚ) < limit) :
    rankOf (n * one) d < infiniteRank ∧ IsNearest (n / d) (magnitude (rankOf (n * one) d)) := by
  have hlt : fullRank (n * one) d < infiniteRank :=
    not_le.1 (mt (infiniteRank_le_fullRank_iff hd).1 (not_le.2 h))
  rw [rankOf_eq, Nat.min_eq_right hlt.le]
  exact ⟨hlt, isNearest_magnitude (fun _ => lt_fullRank_iff_magnitude hd)
    (div_nonneg n.cast_nonneg d.cast_nonneg) hlt⟩

theorem rankOf_of_le (hd : 0 < d) (h : limit ≤ (n / d : ℚ)) :
    rankOf (n * one) d = infiniteRank := by
  rw [rankOf_eq, Nat.min_eq_left ((infiniteRank_le_fullRank_iff hd).2 h)]

end Tabular.Binary64
