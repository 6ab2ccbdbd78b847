import Tabular.Proofs.Number.Nearest
import Tabular.Proofs.Value.Order

/-!
# What numerals denote

A numeral spells a rational number. Without a point it denotes that number, whatever its size; with
one it denotes the double nearest to it, or an infinity where that number is past all doubles. Two
numerals are equal as values exactly if they denote the same. So the sign of zero, a plus, zeros in
front and zeros at the end of a fraction never matter, and a point matters only where the number is
no double.
-/

namespace Tabular

open Binary64 (IsDouble IsNearest limit magnitude one rankOf infiniteRank)

/-- A rational number or an infinity. -/
inductive Extended where
  | below
  | finite (q : ℚ)
  | above
  deriving DecidableEq

namespace Binary64

/-- What stands at a place. -/
def Place.rational : Place → Extended
  | below => .below
  | units n => .finite (n / one)
  | above => .above

theorem Place.rational_injective : Function.Injective rational := by
  intro p q h
  cases p with
  | below => cases q <;> first | rfl | cases h
  | above => cases q <;> first | rfl | cases h
  | units m =>
    cases q with
    | below | above => cases h
    | units n =>
      have hquotient := (div_left_inj' one_pos.ne').1 (Extended.finite.inj h)
      rw [Int.cast_injective hquotient]

theorem Place.rational_units_unitsOf (negative : Bool) (r : Nat) :
    (units (if negative then -(unitsOf r : Int) else unitsOf r)).rational =
      .finite (if negative then -magnitude r else magnitude r) := by
  rw [rational, magnitude]
  cases negative with
  | false => rw [if_neg Bool.false_ne_true, if_neg Bool.false_ne_true, Int.cast_natCast]
  | true => rw [if_pos rfl, if_pos rfl, Int.cast_neg, Int.cast_natCast, neg_div]

variable {n d : Nat}

theorem rational_place_of_lt (negative : Bool) (hd : 0 < d) (h : (n / d : ℚ) < limit) :
    ∃ x, (ofFraction negative n d).place.rational =
      .finite (if negative then -x else x) ∧ IsNearest (n / d) x := by
  obtain ⟨hlt, hnearest⟩ := rankOf_of_lt hd h
  refine ⟨_, ?_, hnearest⟩
  have hfinite : (ofFraction negative n d).isFinite := decide_eq_true hlt
  rw [place, if_pos hfinite]
  exact Place.rational_units_unitsOf _ _

theorem rational_place_of_le (negative : Bool) (hd : 0 < d) (h : limit ≤ (n / d : ℚ)) :
    (ofFraction negative n d).place.rational =
      if negative then .below else .above := by
  have hinfinite : ¬ (ofFraction negative n d).isFinite := by
    simp [isFinite, ofFraction, rankOf_of_le hd h]
  rw [place, if_neg hinfinite]
  cases negative <;> rfl

end Binary64

theorem Number.rational_place_integer (i : Int) :
    (integer i).place.rational = .finite i := by
  rw [place, Binary64.Place.rational, Int.cast_mul, Int.cast_natCast,
    mul_div_cancel_right₀ _ Binary64.one_pos.ne']

namespace Numeral

/-- The rational number that a numeral spells: its digits without the point, over a power of ten. -/
def rational (n : Numeral) : ℚ :=
  let f := n.fraction.getD []
  let q : ℚ := Text.toNat (n.whole ++ f) / 10 ^ f.length
  if n.negative then -q else q

/-- What a numeral denotes among the rational numbers and two infinities. -/
inductive Denotes (n : Numeral) : Extended → Prop
  | exact (noPoint : n.fraction = none) : Denotes n (.finite n.rational)
  | nearest {x : ℚ} (point : n.fraction.isSome) (within : |n.rational| < limit)
    (nearest : IsNearest n.rational x) : Denotes n (.finite x)
  | above (point : n.fraction.isSome) (beyond : limit ≤ n.rational) : Denotes n .above
  | below (point : n.fraction.isSome) (beyond : n.rational ≤ -limit) : Denotes n .below

/-- Nothing is lost of the number that the numeral spells. -/
def IsExact (n : Numeral) : Prop := n.fraction = none ∨ IsDouble n.rational

variable {n n₁ n₂ : Numeral} {x : Number} {y z : Extended}

theorem limit_pos : 0 < limit := (abs_nonneg _).trans_lt Binary64.isEven_zero.isDouble.abs_lt_limit

theorem rational_of_none (h : n.fraction = none) : n.rational =
    (if n.negative then -(Text.toNat n.whole : Int) else Text.toNat n.whole : Int) := by
  simp only [rational, h]
  cases n.negative <;> simp

theorem rational_of_some {f : Text} (h : n.fraction = some f) :
    let q : ℚ := Text.toNat (n.whole ++ f) / (Nat.pow 10 f.length : Nat)
    n.rational = (if n.negative then -q else q) ∧ |n.rational| = q := by
  intro q
  have hspelled : n.rational = if n.negative then -q else q := by simp [rational, h, q]
  have hnonneg : 0 ≤ q := div_nonneg (Nat.cast_nonneg _) (Nat.cast_nonneg _)
  refine ⟨hspelled, ?_⟩
  rw [hspelled]
  split
  · rw [abs_neg, abs_of_nonneg hnonneg]
  · exact abs_of_nonneg hnonneg

/-- The double of a numeral with a point is at the place of what the numeral denotes. -/
theorem denotes_place_double {f : Text} (h : n.fraction = some f) :
    n.Denotes (Binary64.ofFraction n.negative (Text.toNat (n.whole ++ f))
      (Nat.pow 10 f.length)).place.rational := by
  have hpoint : n.fraction.isSome := by simp [h]
  have hd : 0 < Nat.pow 10 f.length := Nat.pow_pos (by decide)
  obtain ⟨hspelled, habs⟩ := rational_of_some h
  rcases lt_or_ge |n.rational| limit with hwithin | hbeyond
  · obtain ⟨y, hy, hnearest⟩ := Binary64.rational_place_of_lt n.negative hd (habs ▸ hwithin)
    rw [hy]
    refine .nearest hpoint hwithin ?_
    rw [hspelled]
    cases n.negative
    · exact hnearest
    · exact hnearest.neg
  · rw [habs] at hbeyond
    rw [Binary64.rational_place_of_le n.negative hd hbeyond]
    cases hn : n.negative with
    | false => exact .above hpoint (by simpa [hspelled, hn] using hbeyond)
    | true => exact .below hpoint (by simpa [hspelled, hn] using hbeyond)

/-- A number is at the place of what its numeral denotes. -/
theorem denotes_place (h : n.number = .ok x) : n.Denotes x.place.rational := by
  unfold number at h
  cases hf : n.fraction with
  | none =>
    simp only [hf] at h
    obtain ⟨m, hm, h⟩ := Except.bind_eq_ok_iff.1 h
    cases h
    obtain rfl : m = Text.toNat n.whole := by
      unfold Text.toNatWithin at hm
      split at hm <;> cases hm
      rfl
    rw [Number.rational_place_integer, ← rational_of_none hf]
    exact .exact hf
  | some f =>
    simp only [hf] at h
    cases h
    exact denotes_place_double hf

/-- A numeral denotes one thing. -/
theorem Denotes.eq (hy : n.Denotes y) (hz : n.Denotes z) : y = z := by
  have hlimit := limit_pos
  cases hy with
  | exact hnone =>
    cases hz with
    | exact => rfl
    | nearest hpoint | above hpoint | below hpoint => simp [hnone] at hpoint
  | nearest hpoint hwithin hnearest =>
    rw [abs_lt] at hwithin
    cases hz with
    | exact hnone => simp [hnone] at hpoint
    | nearest _ _ hnearest' => rw [hnearest.eq hnearest']
    | above _ hbeyond => linarith
    | below _ hbeyond => linarith
  | above hpoint hbeyond =>
    cases hz with
    | exact hnone => simp [hnone] at hpoint
    | nearest _ hwithin => linarith [(abs_lt.1 hwithin).2]
    | above => rfl
    | below _ hbelow => linarith
  | below hpoint hbeyond =>
    cases hz with
    | exact hnone => simp [hnone] at hpoint
    | nearest _ hwithin => linarith [(abs_lt.1 hwithin).1]
    | above _ habove => linarith
    | below => rfl

/-- The form of a numeral and the number it spells tell what it denotes. -/
theorem Denotes.congr (hform : n₁.fraction.isSome = n₂.fraction.isSome)
    (hspelled : n₁.rational = n₂.rational) (h : n₁.Denotes y) : n₂.Denotes y := by
  cases h with
  | exact hnone =>
    rw [hspelled]
    exact .exact (by simpa [hnone] using hform)
  | nearest hpoint hwithin hnearest =>
    exact .nearest (hform ▸ hpoint) (hspelled ▸ hwithin) (hspelled ▸ hnearest)
  | above hpoint hbeyond => exact .above (hform ▸ hpoint) (hspelled ▸ hbeyond)
  | below hpoint hbeyond => exact .below (hform ▸ hpoint) (hspelled ▸ hbeyond)

theorem denotes_of_isDouble (h : IsDouble n.rational) : n.Denotes (.finite n.rational) := by
  cases hf : n.fraction with
  | none => exact .exact hf
  | some f => exact .nearest (by simp [hf]) h.abs_lt_limit h.isNearest

/-- A numeral is exact if and only if it denotes the number that it spells. -/
theorem isExact_iff : n.IsExact ↔ n.Denotes (.finite n.rational) := by
  constructor
  · rintro (hnone | hdouble)
    · exact .exact hnone
    · exact denotes_of_isDouble hdouble
  · rintro (hnone | ⟨-, -, hnearest⟩)
    · exact .inl hnone
    · exact .inr hnearest.double

theorem isDouble_of_small (h : n.fraction = none) (hsmall : |n.rational| ≤ 2 ^ 53) :
    IsDouble n.rational := by
  rw [rational_of_none h] at hsmall ⊢
  exact Binary64.isDouble_intCast (by exact_mod_cast hsmall)

end Numeral

namespace Value

open Condition (test)

variable {a b v : Value}

/-- Both values are found alike: whatever they are compared with by equality or order, and from
whichever side. -/
def FoundAlike (a b : Value) : Prop := ∀ v : Value, v.Legible →
  (a.equals v = b.equals v ∧ v.equals a = v.equals b) ∧
    ∀ op ≠ .like, test op a v = test op b v ∧ test op v a = test op v b

theorem legible_of_isNumeral {t : Text} (h : Numeral.isNumeral t) (hshort : ¬ Numeral.Overlong t) :
    Legible ⟨.number, t⟩ := by
  refine ⟨.inl ⟨t, ?_⟩, hshort⟩
  have hword {k : Keyword} (hk : Numeral.isNumeral k.text = false) : t ≠ k.text := by
    rintro rfl
    rw [hk] at h
    cases h
  rw [ofField, if_neg (hword (by decide)), if_neg (hword (by decide)), if_neg (hword (by decide)),
    if_pos h]

theorem ofNumeral_eq_ok_iff {t : Text} :
    ofNumeral t = .ok v ↔ v = ⟨.number, t⟩ ∧ Numeral.isNumeral t := by
  unfold ofNumeral
  cases Numeral.isNumeral t <;> simp [eq_comm]

theorem compare?_congr (ha : a.Legible) (hb : b.Legible) (hna : a.IsNumeric) (hnb : b.IsNumeric)
    (h : a.sense = b.sense) (hv : v.Legible) :
    a.compare? v = b.compare? v ∧ v.compare? a = v.compare? b := by
  cases ha.reading with
  | null hva => simp [hna.isNull] at hva
  | text _ hta => exact absurd hna hta
  | number m _ hm hsa =>
  cases hb.reading with
  | null hvb => simp [hnb.isNull] at hvb
  | text _ htb => exact absurd hnb htb
  | number n _ hn hsb =>
  have hplace : m.place = n.place := Sense.place.inj (hsa.symm.trans (h.trans hsb))
  cases hv.reading with
  | null hvv => simp [compare?, hvv]
  | number k hvk hk =>
    simp [compare?_of_numbers hna.isNull hvk.isNull hm hk,
      compare?_of_numbers hnb.isNull hvk.isNull hn hk,
      compare?_of_numbers hvk.isNull hna.isNull hk hm,
      compare?_of_numbers hvk.isNull hnb.isNull hk hn, Number.compare, hplace]
  | text hvv _ hk =>
    simp [compare?_of_numbers hna.isNull hvv hm hk, compare?_of_numbers hnb.isNull hvv hn hk,
      compare?_of_numbers hvv hna.isNull hk hm, compare?_of_numbers hvv hnb.isNull hk hn]

/-- Numbers at one place are found alike. -/
theorem foundAlike_of_sense_eq (ha : a.Legible) (hb : b.Legible) (hna : a.IsNumeric)
    (hnb : b.IsNumeric) (h : a.sense = b.sense) : FoundAlike a b := by
  intro v hv
  have hequals : a.equals v = b.equals v ∧ v.equals a = v.equals b := by
    rw [equals_eq ha hv, equals_eq hb hv, equals_eq hv ha, equals_eq hv hb, h]
    exact ⟨rfl, rfl⟩
  obtain ⟨hleft, hright⟩ := compare?_congr ha hb hna hnb h hv
  refine ⟨hequals, fun op hop => ?_⟩
  cases op with
  | eq | ne => simp only [test, hequals.1, hequals.2, and_self]
  | like => exact absurd rfl hop
  | gt | lt | ge | le => simp only [test, hleft, hright, and_self]

/-- A numeral stands for the place of its number. -/
theorem exists_denotes {t : Text} {n : Numeral} (hn : Numeral.ofText? t = some n)
    (hshort : ¬ Numeral.Overlong t) :
    ∃ p, sense ⟨.number, t⟩ = .place p ∧ n.Denotes p.rational := by
  have hread : Numeral.read t = n.number := by simp only [Numeral.read, hn]
  cases hx : n.number with
  | error fault => exact absurd ⟨n, hn, Numeral.exists_number_error_iff.1 ⟨fault, hx⟩⟩ hshort
  | ok x =>
    refine ⟨x.place, ?_, Numeral.denotes_place hx⟩
    simp [sense, isNull, number?, hread, hx, Except.map]

/-- Two numerals are equal as values exactly if they denote the same: numerals without a point what
they spell, numerals with one the nearest double or an infinity. So they are equal if they spell the
same number in the same form; where both are exact they are equal just then; and with and without a
point the same number is equal to itself just if it is a double, as every whole number up to
`2 ^ 53` is. Equal numerals are found alike. -/
theorem numerals_equal_as_they_denote {t₁ t₂ : Text} {v₁ v₂ : Value}
    (h₁ : ofNumeral t₁ = .ok v₁) (h₂ : ofNumeral t₂ = .ok v₂)
    (short₁ : ¬ Numeral.Overlong t₁) (short₂ : ¬ Numeral.Overlong t₂) :
    ∃ n₁ n₂ x₁ x₂, Numeral.ofText? t₁ = some n₁ ∧ Numeral.ofText? t₂ = some n₂ ∧
      (∀ x, n₁.Denotes x ↔ x = x₁) ∧ (∀ x, n₂.Denotes x ↔ x = x₂) ∧
      v₁.equals v₂ = .ok (decide (x₁ = x₂)) ∧
      (n₁.fraction.isSome = n₂.fraction.isSome → n₁.rational = n₂.rational →
        v₁.equals v₂ = .ok true) ∧
      (n₁.IsExact → n₂.IsExact → (v₁.equals v₂ = .ok true ↔ n₁.rational = n₂.rational)) ∧
      (n₁.fraction = none → n₂.fraction.isSome → n₁.rational = n₂.rational →
        (v₁.equals v₂ = .ok true ↔ IsDouble n₁.rational) ∧
          (|n₁.rational| ≤ 2 ^ 53 → v₁.equals v₂ = .ok true)) ∧
      (v₁.equals v₂ = .ok true → FoundAlike v₁ v₂) := by
  obtain ⟨rfl, hnum₁⟩ := ofNumeral_eq_ok_iff.1 h₁
  obtain ⟨rfl, hnum₂⟩ := ofNumeral_eq_ok_iff.1 h₂
  obtain ⟨n₁, hn₁⟩ := Option.isSome_iff_exists.1 hnum₁
  obtain ⟨n₂, hn₂⟩ := Option.isSome_iff_exists.1 hnum₂
  obtain ⟨p₁, hp₁, hd₁⟩ := exists_denotes hn₁ short₁
  obtain ⟨p₂, hp₂, hd₂⟩ := exists_denotes hn₂ short₂
  have hl₁ := legible_of_isNumeral hnum₁ short₁
  have hl₂ := legible_of_isNumeral hnum₂ short₂
  have hequals : equals ⟨.number, t₁⟩ ⟨.number, t₂⟩ =
      .ok (decide (p₁.rational = p₂.rational)) := by
    rw [equals_eq hl₁ hl₂, hp₁, hp₂]
    simp only [Sense.place.injEq, Binary64.Place.rational_injective.eq_iff]
  have htrue : equals ⟨.number, t₁⟩ ⟨.number, t₂⟩ = .ok true ↔ p₁.rational = p₂.rational := by
    rw [hequals, Except.ok.injEq, decide_eq_true_iff]
  have hexact {n : Numeral} {p : Binary64.Place} (hd : n.Denotes p.rational) (h : n.IsExact) :
      p.rational = .finite n.rational := hd.eq (Numeral.isExact_iff.1 h)
  refine ⟨n₁, n₂, p₁.rational, p₂.rational, hn₁, hn₂, fun x => ⟨fun h => h.eq hd₁, (· ▸ hd₁)⟩,
    fun x => ⟨fun h => h.eq hd₂, (· ▸ hd₂)⟩, hequals, ?form, ?exact, ?mixed, ?found⟩
  case form =>
    intro hform hspelled
    exact htrue.2 ((hd₁.congr hform hspelled).eq hd₂)
  case exact =>
    intro he₁ he₂
    rw [htrue, hexact hd₁ he₁, hexact hd₂ he₂, Extended.finite.injEq]
  case mixed =>
    intro hnone hpoint hspelled
    have hdouble : equals ⟨.number, t₁⟩ ⟨.number, t₂⟩ = .ok true ↔ IsDouble n₁.rational := by
      rw [htrue, hexact hd₁ (.inl hnone), hspelled]
      constructor
      · intro h
        have hexact₂ := Numeral.isExact_iff.2 (h ▸ hd₂)
        rcases hexact₂ with hnone₂ | hdouble
        · simp [hnone₂] at hpoint
        · exact hdouble
      · intro h
        exact (hexact hd₂ (.inr h)).symm
    exact ⟨hdouble, fun hsmall => hdouble.2 (Numeral.isDouble_of_small hnone hsmall)⟩
  case found =>
    intro h
    have hnumeric {t : Text} (h : Numeral.isNumeral t) : IsNumeric ⟨.number, t⟩ := ⟨.inl rfl, h⟩
    exact foundAlike_of_sense_eq hl₁ hl₂ (hnumeric hnum₁) (hnumeric hnum₂)
      ((equals_eq_true_iff hl₁ hl₂).1 h)

theorem numerals_equal_as_they_denote_of_sixty_five :
    FoundAlike ⟨.number, "+065".toList⟩ ⟨.number, "65.00".toList⟩ := by
  have hv₁ : ofNumeral "+065".toList = .ok ⟨.number, "+065".toList⟩ := rfl
  have hv₂ : ofNumeral "65.00".toList = .ok ⟨.number, "65.00".toList⟩ := rfl
  obtain ⟨n₁, n₂, _, _, hn₁, hn₂, -, -, -, -, -, hmixed, hfound⟩ :=
    numerals_equal_as_they_denote hv₁ hv₂ (by decide) (by decide)
  cases hn₁
  cases hn₂
  exact hfound ((hmixed rfl rfl (by decide +kernel)).2 (by decide +kernel))

/-- The first whole number that is no double is not equal to itself with a point. -/
theorem whole_number_differs_with_point : ∃ t₁ t₂ v₁ v₂ n₁ n₂,
    ofNumeral t₁ = .ok v₁ ∧ ofNumeral t₂ = .ok v₂ ∧
      Numeral.ofText? t₁ = some n₁ ∧ Numeral.ofText? t₂ = some n₂ ∧ n₁.rational = n₂.rational ∧
      v₁.equals v₂ = .ok false := by
  refine ⟨"9007199254740993".toList, "9007199254740993.0".toList, _, _, _, _, rfl, rfl, rfl, rfl,
    ?spelled, ?equals⟩
  case spelled => decide +kernel
  case equals => decide +kernel

end Value

end Tabular
