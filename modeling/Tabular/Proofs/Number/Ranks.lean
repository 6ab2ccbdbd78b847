import Mathlib.Algebra.Order.Field.Rat
import Mathlib.Tactic.Linarith
import Mathlib.Tactic.Ring
import Tabular.Number.Binary64

/-!
# The ranks of doubles

The magnitudes of doubles grow with their ranks, and those of finite ones are the whole numbers of
53 binary digits, at most, times a power of two. A fraction gets a rank above a given one exactly if
it lies above the middle between that rank and the next, or in the middle and the given rank is odd.
-/

namespace Tabular.Binary64

theorem span_pos : 0 < span := by decide

theorem even_span : Even span := ⟨2 ^ 51, by decide⟩

/-- The units of a rank, from the place of the rank among those with the same distance. -/
theorem unitsOf_add (s m : Nat) (hlow : s = 0 ∨ span ≤ m) (hhigh : m ≤ 2 * span) :
    unitsOf (s * span + m) = m * 2 ^ s := by
  have hspan := span_pos
  unfold unitsOf
  obtain rfl | hlt := hhigh.eq_or_lt
  · have hdiv : (s * span + 2 * span) / span - 1 = s + 1 := by
      rw [← Nat.add_mul, Nat.mul_div_cancel _ hspan]
      omega
    have hrest : s * span + 2 * span - (s + 1) * span = span :=
      Nat.sub_eq_of_eq_add (by ring)
    simp only [hdiv, hrest, Nat.pow_eq, Nat.pow_succ]
    ring
  · have hdiv : (s * span + m) / span - 1 = s := by
      rw [Nat.mul_comm, Nat.mul_add_div hspan]
      rcases hlow with rfl | hlow
      · have : m / span < 2 := Nat.div_lt_of_lt_mul (by omega)
        omega
      · have : m / span = 1 := Nat.div_eq_of_lt_le (by omega) (by omega)
        omega
    simp only [hdiv, Nat.add_sub_cancel_left, Nat.pow_eq]

/-- Every rank has such a place. -/
theorem exists_shift (r : Nat) : ∃ s m, r = s * span + m ∧ (s = 0 ∨ span ≤ m) ∧ m < 2 * span := by
  have hspan := span_pos
  have hmod := Nat.mod_lt r hspan
  have hr : span * (r / span) + r % span = r := Nat.div_add_mod r span
  cases hq : r / span with
  | zero => exact ⟨0, r, by simp, .inl rfl, by simp [hq] at hr; omega⟩
  | succ s =>
    refine ⟨s, span + r % span, ?_, .inr (Nat.le_add_right _ _), by omega⟩
    rw [hq] at hr
    linarith

theorem unitsOf_lt_succ (r : Nat) : unitsOf r < unitsOf (r + 1) := by
  obtain ⟨s, m, rfl, hlow, hhigh⟩ := exists_shift r
  rw [Nat.add_assoc, unitsOf_add s m hlow hhigh.le, unitsOf_add s (m + 1) (by omega) hhigh]
  exact Nat.mul_lt_mul_of_pos_right (Nat.lt_succ_self m) (by positivity)

theorem strictMono_unitsOf : StrictMono unitsOf := strictMono_nat_of_lt_succ unitsOf_lt_succ

theorem unitsOf_of_le {r : Nat} (h : r ≤ 2 * span) : unitsOf r = r := by
  simpa using unitsOf_add 0 r (.inl rfl) h

/-- A binade higher everything is twice as large. -/
theorem unitsOf_add_span {r : Nat} (h : span ≤ r) : unitsOf (r + span) = 2 * unitsOf r := by
  obtain ⟨s, m, rfl, hlow, hhigh⟩ := exists_shift r
  have hm : span ≤ m := by
    rcases hlow with rfl | hlow
    · simpa using h
    · exact hlow
  have hnext : s * span + m + span = (s + 1) * span + m := by ring
  rw [hnext, unitsOf_add s m hlow hhigh.le, unitsOf_add (s + 1) m (.inr hm) hhigh.le]
  ring

/-- A number of at most 53 binary digits times a power of two has a rank, which is even if the
number is. -/
theorem exists_unitsOf_eq {m : Nat} (hm : m < 2 * span) (k : Nat) :
    ∃ r, r < (k + 2) * span ∧ unitsOf r = m * 2 ^ k ∧ (Even m → Even r) := by
  induction k with
  | zero => exact ⟨m, by simpa using hm, by simp [unitsOf_of_le hm.le], id⟩
  | succ k ih =>
    obtain ⟨r, hlt, hr, heven⟩ := ih
    by_cases hsmall : r < span
    · have hdouble : 2 * r < 2 * span := by omega
      refine ⟨2 * r, ?_, ?_, fun _ => even_two_mul r⟩
      · calc 2 * r < 2 * span := hdouble
          _ ≤ (k + 1 + 2) * span := Nat.mul_le_mul_right _ (by omega)
      · rw [unitsOf_of_le (by omega : r ≤ 2 * span)] at hr
        rw [unitsOf_of_le hdouble.le, hr]
        ring
    · refine ⟨r + span, by nlinarith, ?_, fun h => (heven h).add even_span⟩
      rw [unitsOf_add_span (by omega), hr]
      ring

theorem odd_add_iff {s m : Nat} : Odd (s * span + m) ↔ Odd m := by
  rw [Nat.odd_add']
  simp [even_span.mul_left s]

/-! ## Rounding -/

theorem roundDiv_eq (n d : Nat) : roundDiv n d = n / d ∨ roundDiv n d = n / d + 1 := by
  unfold roundDiv
  have := Nat.mod_two_eq_zero_or_one (n / d)
  simp only
  split_ifs <;> omega

/-- A quotient is rounded up exactly past the middle, and in the middle if it is odd. -/
theorem lt_roundDiv_iff {n d : Nat} : n / d < roundDiv n d ↔
    d < 2 * (n % d) ∨ d = 2 * (n % d) ∧ Odd (n / d) := by
  rw [Nat.odd_iff]
  have := Nat.mod_two_eq_zero_or_one (n / d)
  unfold roundDiv
  simp only
  split_ifs <;> omega

/-- The rank of a fraction if there were no largest double. -/
def fullRank (n d : Nat) : Nat :=
  let shift := (n / d).log2 - 52
  shift * span + roundDiv n (d * Nat.pow 2 shift)

theorem rankOf_eq (n d : Nat) : rankOf n d = min infiniteRank (fullRank n d) := rfl

/-- The quotient of a fraction over the distance of the ranks around it has 53 binary digits, or
fewer where the distance is smallest. -/
theorem exists_fullRank_eq (n d : Nat) : ∃ s,
    (s = 0 ∨ span ≤ n / (d * 2 ^ s)) ∧ n / (d * 2 ^ s) < 2 * span ∧
      fullRank n d = s * span + roundDiv n (d * 2 ^ s) := by
  refine ⟨(n / d).log2 - 52, ?_, ?_, rfl⟩
  · by_cases hsmall : (n / d).log2 < 52
    · exact .inl (by omega)
    · have hne : n / d ≠ 0 := fun h => hsmall (by simp [h])
      have hlow : 2 ^ (52 + ((n / d).log2 - 52)) ≤ n / d :=
        (Nat.le_log2 hne).1 (by omega)
      rw [← Nat.div_div_eq_div_mul]
      refine .inr ((Nat.le_div_iff_mul_le (by positivity)).2 ?_)
      rwa [Nat.pow_add] at hlow
  · have hhigh : n / d < 2 ^ (53 + ((n / d).log2 - 52)) :=
      (Nat.lt_log2_self (n := n / d)).trans_le (Nat.pow_le_pow_right (by decide) (by omega))
    rw [← Nat.div_div_eq_div_mul]
    refine Nat.div_lt_of_lt_mul ?_
    rwa [Nat.pow_add, Nat.mul_comm] at hhigh

/-- A fraction gets a rank above a given one exactly if it lies past the middle between that rank
and the next, or in the middle and the given rank is odd. -/
theorem lt_fullRank_iff {n d r : Nat} (hd : 0 < d) : r < fullRank n d ↔
    (unitsOf r + unitsOf (r + 1)) * d < 2 * n ∨
      (unitsOf r + unitsOf (r + 1)) * d = 2 * n ∧ Odd r := by
  obtain ⟨s, hlow, hhigh, hrank⟩ := exists_fullRank_eq n d
  have hparts := Nat.div_add_mod n (d * 2 ^ s)
  have hrest : n % (d * 2 ^ s) < d * 2 ^ s := Nat.mod_lt n (by positivity)
  have hround := lt_roundDiv_iff (n := n) (d := d * 2 ^ s)
  have hnear := roundDiv_eq n (d * 2 ^ s)
  generalize n / (d * 2 ^ s) = m at *
  generalize n % (d * 2 ^ s) = rest at *
  have hbelow : unitsOf (s * span + m) * d = d * 2 ^ s * m := by
    rw [unitsOf_add s m hlow hhigh.le]
    ring
  have habove : unitsOf (s * span + m + 1) * d = d * 2 ^ s * m + d * 2 ^ s := by
    rw [Nat.add_assoc, unitsOf_add s (m + 1) (by omega) hhigh]
    ring
  rcases lt_trichotomy r (s * span + m) with h | rfl | h
  · refine iff_of_true (by omega) (.inl ?_)
    have h₁ := Nat.mul_lt_mul_of_pos_right (strictMono_unitsOf h) hd
    have h₂ := Nat.mul_le_mul_right d (strictMono_unitsOf.monotone (Nat.succ_le_of_lt h))
    rw [Nat.add_mul]
    simp only [Nat.succ_eq_add_one] at h₂
    omega
  · have hlt : s * span + m < fullRank n d ↔ m < roundDiv n (d * 2 ^ s) := by omega
    rw [hlt, hround, Nat.add_mul, hbelow, habove, odd_add_iff]
    refine or_congr ?_ (and_congr_left' ?_) <;> omega
  · have h₁ := Nat.mul_le_mul_right d (strictMono_unitsOf.monotone (Nat.succ_le_of_lt h))
    have h₂ := Nat.mul_lt_mul_of_pos_right (strictMono_unitsOf (Nat.succ_lt_succ h)) hd
    rw [Nat.add_mul]
    simp only [Nat.succ_eq_add_one] at h₁ h₂
    exact iff_of_false (by omega) (by omega)

end Tabular.Binary64
