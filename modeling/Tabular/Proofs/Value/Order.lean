import Mathlib.Order.WithBot
import Mathlib.Order.Compare
import Tabular.Condition
import Tabular.Proofs.Value.Overlong

/-!
# Equality and order of values

A value stands for one of three things in a comparison: null, a place on the line of numbers, or
its text. A value that was read has a number exactly if its text is a numeral, so values with
numbers and values without never share a text: two values are equal if and only if they stand for
the same. Two numbers are ordered as their places, and the order of places is linear.
-/

namespace Tabular

namespace Binary64.Place

/-- Places among the integers with a least and a greatest element. -/
def key : Place → WithBot (WithTop Int)
  | below => ⊥
  | units n => ((n : WithTop Int) : WithBot (WithTop Int))
  | above => ((⊤ : WithTop Int) : WithBot (WithTop Int))

theorem key_injective : Function.Injective key := by
  intro p q h
  cases p <;> cases q <;> simp_all [key]

instance : LinearOrder Place := LinearOrder.lift' key key_injective

/-- The comparison of places is that of a linear order. -/
theorem compares_compare (p q : Place) : (p.compare q).Compares p q := by
  have units_lt_above (n : Int) : units n < above := WithBot.coe_lt_coe.2 (WithTop.coe_lt_top n)
  have below_lt_units (n : Int) : below < units n := WithBot.bot_lt_coe _
  cases p with
  | below =>
    cases q with
    | below => rfl
    | units n => exact below_lt_units n
    | above => exact WithBot.bot_lt_coe _
  | units m =>
    cases q with
    | below => exact below_lt_units m
    | units n =>
      have units_lt_units {i j : Int} (h : i < j) : units i < units j :=
        WithBot.coe_lt_coe.2 (WithTop.coe_lt_coe.2 h)
      rw [Place.compare]
      rcases lt_trichotomy m n with h | rfl | h
      · rw [compare_lt_iff_lt.2 h]
        exact units_lt_units h
      · rw [compare_eq_iff_eq.2 rfl]
        rfl
      · rw [compare_gt_iff_gt.2 h]
        exact units_lt_units h
    | above => exact units_lt_above m
  | above =>
    cases q with
    | below => exact WithBot.bot_lt_coe _
    | units n => exact units_lt_above n
    | above => rfl

theorem compare_swap (p q : Place) : q.compare p = (p.compare q).swap :=
  (compares_compare q p).inj (Ordering.compares_swap.2 (compares_compare p q))

theorem compare_eq_eq_iff {p q : Place} : p.compare q = .eq ↔ p = q :=
  (compares_compare p q).eq_eq

theorem isLE_compare_iff {p q : Place} : (p.compare q).isLE ↔ p ≤ q := by
  rw [Ordering.isLE_iff_ne_gt]
  exact (compares_compare p q).ne_gt

end Binary64.Place

instance (t : Text) : Decidable (Numeral.Overlong t) :=
  decidable_of_iff
    ((Numeral.ofText? t).any fun n => n.fraction.isNone && Text.digitLimit < n.whole.length)
    (by simp [Numeral.Overlong, Option.any_eq_true])

namespace Value

open Binary64 (Place)

/-- What a value stands for in comparisons. -/
inductive Sense where
  | null
  | place (p : Place)
  | text (t : Text)
  deriving DecidableEq

def sense (v : Value) : Sense :=
  if v.isNull then .null
  else match v.number? with
    | .ok (some n) => .place n.place
    | _ => .text v.text

/-- A value that a stored field or a literal in a command stands for. -/
def IsRead (v : Value) : Prop := (∃ t, v = ofField t) ∨ ∃ t, v = ofLiteral t

/-- A value that was read from a text, which is no integer of too many digits. -/
structure Legible (v : Value) : Prop where
  isRead : v.IsRead
  short : ¬ Numeral.Overlong v.text

/-- A number, or a string that is spelled like one. -/
def IsNumeric (v : Value) : Prop :=
  (v.kind = .number ∨ v.kind = .string) ∧ Numeral.isNumeral v.text

variable {a b c v : Value} {o : Ordering}

theorem IsRead.cases (h : v.IsRead) :
    v = null ∨ (∃ b, v = boolean b) ∨ (v.kind = .number ∧ Numeral.isNumeral v.text) ∨
      v.kind = .string := by
  rcases h with ⟨t, rfl⟩ | ⟨t, rfl⟩
  · unfold ofField
    split_ifs with h₁ h₂ h₃ h₄
    · exact .inl rfl
    · exact .inr (.inl ⟨true, rfl⟩)
    · exact .inr (.inl ⟨false, rfl⟩)
    · exact .inr (.inr (.inl ⟨rfl, h₄⟩))
    · exact .inr (.inr (.inr rfl))
  · unfold ofLiteral
    split
    · exact .inr (.inr (.inr rfl))
    split
    · next h => exact .inr (.inr (.inl ⟨rfl, h⟩))
    split
    · exact .inr (.inl ⟨true, rfl⟩)
    · exact .inr (.inl ⟨false, rfl⟩)
    · exact .inl rfl
    · exact .inr (.inr (.inr rfl))

theorem IsRead.isSpelled (h : v.IsRead) : v.IsSpelled := by
  rcases h with ⟨t, rfl⟩ | ⟨t, rfl⟩
  · exact isSpelled_ofField t
  · exact isSpelled_ofLiteral t

/-- The text alone tells whether a value that was read is numeric, whatever its kind. -/
theorem IsRead.isNumeric_iff (h : v.IsRead) : v.IsNumeric ↔ Numeral.isNumeral v.text := by
  obtain rfl | ⟨x, rfl⟩ | ⟨hk, ht⟩ | hk := h.cases
  · exact iff_of_false (by simp [IsNumeric, null]) (by decide)
  · cases x <;> exact iff_of_false (by simp [IsNumeric, boolean]) (by decide)
  · simp [IsNumeric, hk]
  · simp [IsNumeric, hk]

theorem IsNumeric.isNull (h : v.IsNumeric) : v.isNull = false := by
  obtain ⟨hk | hk, -⟩ := h <;> simp [Value.isNull, hk]

theorem IsRead.number?_eq (h : v.IsRead) : v.number? =
    match Numeral.ofText? v.text with
    | some n => n.number.map some
    | none => .ok none := by
  obtain rfl | ⟨x, rfl⟩ | ⟨hk, ht⟩ | hk := h.cases
  · rfl
  · cases x <;> rfl
  · obtain ⟨n, hn⟩ := Option.isSome_iff_exists.1 ht
    simp [number?, hk, Numeral.read, hn]
  · cases hn : Numeral.ofText? v.text <;> simp only [number?, hk, hn]

/-- The three ways to read a value, each with what it stands for. -/
inductive Reading (v : Value) : Prop where
  | null (hv : v.isNull = true) (hs : v.sense = .null)
  | number (n : Number) (hv : v.IsNumeric) (hn : v.number? = .ok (some n))
      (hs : v.sense = .place n.place)
  | text (hv : v.isNull = false) (hnv : ¬ v.IsNumeric) (hn : v.number? = .ok none)
      (hs : v.sense = .text v.text)

/-- A value that is not too long is read. -/
theorem Legible.reading (h : v.Legible) : v.Reading := by
  cases hv : v.isNull with
  | true => exact .null hv (by simp [sense, hv])
  | false =>
    have hnum := h.isRead.number?_eq
    cases hn : Numeral.ofText? v.text with
    | none =>
      simp only [hn] at hnum
      refine .text hv ?_ hnum (by simp [sense, hv, hnum])
      simp [h.isRead.isNumeric_iff, Numeral.isNumeral, hn]
    | some n =>
      simp only [hn] at hnum
      cases hx : n.number with
      | error fault =>
        exact absurd ⟨n, hn, Numeral.exists_number_error_iff.1 ⟨fault, hx⟩⟩ h.short
      | ok x =>
        rw [hx] at hnum
        refine .number x ?_ hnum (by simp [sense, hv, hnum, Except.map])
        simp [h.isRead.isNumeric_iff, Numeral.isNumeral, hn]

/-- A numeric value never has the text of one that is not numeric. -/
theorem text_ne_of_isNumeric (ha : a.IsRead) (hb : b.IsRead) (hna : a.IsNumeric)
    (hnb : ¬ b.IsNumeric) : a.text ≠ b.text := fun h =>
  hnb (hb.isNumeric_iff.2 (h ▸ ha.isNumeric_iff.1 hna))

theorem equals_of_numbers {m n : Option Number} (hva : a.isNull = false) (hvb : b.isNull = false)
    (hm : a.number? = .ok m) (hn : b.number? = .ok n) :
    a.equals b = .ok (match m, n with
      | some m, some n => m.compare n == .eq
      | _, _ => a.text == b.text) := by
  simp only [equals, hva, hvb, hm, hn]
  cases m <;> cases n <;> rfl

/-- Values are equal if and only if they stand for the same. -/
theorem equals_eq (ha : a.Legible) (hb : b.Legible) :
    a.equals b = .ok (decide (a.sense = b.sense)) := by
  cases ha.reading with
  | null hva hsa =>
    cases hb.reading with
    | null hvb hsb => simp [equals, hva, hvb, hsa, hsb]
    | number n hnb _ hsb => simp [equals, hva, hnb.isNull, hsa, hsb]
    | text hvb _ _ hsb => simp [equals, hva, hvb, hsa, hsb]
  | number m hna hm hsa =>
    cases hb.reading with
    | null hvb hsb => simp [equals, hna.isNull, hvb, hsa, hsb]
    | number n hnb hn hsb =>
      rw [equals_of_numbers hna.isNull hnb.isNull hm hn]
      simp only [hsa, hsb, Number.compare, Sense.place.injEq, ← Place.compare_eq_eq_iff,
        beq_eq_decide]
    | text hvb hnb hn hsb =>
      have ht := text_ne_of_isNumeric ha.isRead hb.isRead hna hnb
      simp [equals_of_numbers hna.isNull hvb hm hn, hsa, hsb, ht]
  | text hva hna hm hsa =>
    cases hb.reading with
    | null hvb hsb => simp [equals, hva, hvb, hsa, hsb]
    | number n hnb hn hsb =>
      have ht := (text_ne_of_isNumeric hb.isRead ha.isRead hnb hna).symm
      simp [equals_of_numbers hva hnb.isNull hm hn, hsa, hsb, ht]
    | text hvb hnb hn hsb =>
      simp only [equals_of_numbers hva hvb hm hn, hsa, hsb, Sense.text.injEq, beq_eq_decide]

theorem equals_eq_true_iff (ha : a.Legible) (hb : b.Legible) :
    a.equals b = .ok true ↔ a.sense = b.sense := by
  simp [equals_eq ha hb]

theorem compare?_eq_none_iff : a.compare? b = .ok none ↔ a.isNull ∨ b.isNull := by
  cases hva : a.isNull with
  | true => simp [compare?, hva]
  | false =>
    cases hvb : b.isNull with
    | true => simp [compare?, hvb]
    | false =>
      simp only [compare?, hva, hvb, Bool.or_self, Bool.false_eq_true, if_false, or_self, iff_false,
        Except.bind_eq_ok_iff, not_exists, not_and]
      intro m _ n _
      cases m <;> cases n <;> nofun

theorem compare?_of_numbers {m n : Option Number} (hva : a.isNull = false) (hvb : b.isNull = false)
    (hm : a.number? = .ok m) (hn : b.number? = .ok n) :
    a.compare? b = match m, n with
      | some m, some n => .ok (some (m.compare n))
      | none, _ => .error (ConditionFault.unordered a.text)
      | some _, none => .error (ConditionFault.unordered b.text) := by
  simp only [compare?, hva, hvb, hm, hn]
  cases m <;> cases n <;> rfl

/-- Two values have an order if and only if each stands for a place. -/
theorem compare?_eq_some_iff (ha : a.Legible) (hb : b.Legible) :
    a.compare? b = .ok (some o) ↔
      ∃ p q, a.sense = .place p ∧ b.sense = .place q ∧ p.compare q = o := by
  have hnull (h : a.isNull ∨ b.isNull) : a.compare? b ≠ .ok (some o) := fun ho => by
    rw [compare?_eq_none_iff.2 h] at ho
    cases ho
  cases ha.reading with
  | null hva hsa => simp [hsa, hnull (.inl hva)]
  | number m hna hm hsa =>
    cases hb.reading with
    | null hvb hsb => simp [hsb, hnull (.inr hvb)]
    | number n hnb hn hsb =>
      simp [compare?_of_numbers hna.isNull hnb.isNull hm hn, hsa, hsb, Number.compare]
    | text hvb hnb hn hsb =>
      simp [compare?_of_numbers hna.isNull hvb hm hn, hsb]
  | text hva hna hm hsa =>
    cases hb.reading with
    | null hvb hsb => simp [hsb, hnull (.inr hvb)]
    | number n hnb hn hsb =>
      simp [compare?_of_numbers hva hnb.isNull hm hn, hsa]
    | text hvb hnb hn hsb =>
      simp [compare?_of_numbers hva hvb hm hn, hsa]

theorem isNumeric_iff_sense (h : v.Legible) : v.IsNumeric ↔ ∃ p, v.sense = .place p := by
  cases h.reading with
  | null hv hs =>
    have hnv : ¬ v.IsNumeric := fun hnv => by simp [hnv.isNull] at hv
    simp [hs, hnv]
  | number n hv _ hs => simp [hs, hv]
  | text _ hv _ hs => simp [hs, hv]

theorem exists_compare?_eq_some_iff (ha : a.Legible) (hb : b.Legible) :
    (∃ o, a.compare? b = .ok (some o)) ↔ a.IsNumeric ∧ b.IsNumeric := by
  rw [isNumeric_iff_sense ha, isNumeric_iff_sense hb]
  constructor
  · rintro ⟨o, ho⟩
    obtain ⟨p, q, hp, hq, -⟩ := (compare?_eq_some_iff ha hb).1 ho
    exact ⟨⟨p, hp⟩, ⟨q, hq⟩⟩
  · rintro ⟨⟨p, hp⟩, ⟨q, hq⟩⟩
    exact ⟨_, (compare?_eq_some_iff ha hb).2 ⟨p, q, hp, hq, rfl⟩⟩

theorem compare?_swap (ha : a.Legible) (hb : b.Legible) (h : a.compare? b = .ok (some o)) :
    b.compare? a = .ok (some o.swap) := by
  obtain ⟨p, q, hp, hq, rfl⟩ := (compare?_eq_some_iff ha hb).1 h
  exact (compare?_eq_some_iff hb ha).2 ⟨q, p, hq, hp, Place.compare_swap p q⟩

theorem compare?_eq_iff_equals (ha : a.Legible) (hb : b.Legible)
    (h : a.compare? b = .ok (some o)) : o = .eq ↔ a.equals b = .ok true := by
  obtain ⟨p, q, hp, hq, rfl⟩ := (compare?_eq_some_iff ha hb).1 h
  rw [equals_eq_true_iff ha hb, hp, hq, Place.compare_eq_eq_iff, Sense.place.injEq]

/-- Where the order does not go down in two steps, it does not go down in one; and it stays level
only if it does so in both. -/
theorem compare?_trans (ha : a.Legible) (hb : b.Legible) (hc : c.Legible) {o₁ o₂ : Ordering}
    (h₁ : a.compare? b = .ok (some o₁)) (h₂ : b.compare? c = .ok (some o₂)) (hle₁ : o₁.isLE)
    (hle₂ : o₂.isLE) : ∃ o, a.compare? c = .ok (some o) ∧ o.isLE ∧
      (o = .eq ↔ o₁ = .eq ∧ o₂ = .eq) := by
  obtain ⟨p, q, hp, hq, rfl⟩ := (compare?_eq_some_iff ha hb).1 h₁
  obtain ⟨q', r, hq', hr, rfl⟩ := (compare?_eq_some_iff hb hc).1 h₂
  cases Sense.place.inj (hq.symm.trans hq')
  rw [Place.isLE_compare_iff] at hle₁ hle₂
  refine ⟨_, (compare?_eq_some_iff ha hc).2 ⟨p, r, hp, hr, rfl⟩,
    Place.isLE_compare_iff.2 (hle₁.trans hle₂), ?_⟩
  simp only [Place.compare_eq_eq_iff]
  constructor
  · rintro rfl
    have hpq := le_antisymm hle₁ hle₂
    exact ⟨hpq, hpq.symm⟩
  · rintro ⟨rfl, rfl⟩
    rfl

end Value

namespace Condition

open Value

variable {cell literal : Value} {o : Ordering}

/-- An ordering comparison of two numbers says what the comparator makes of their order. -/
theorem test_of_compare? {op : Comparator} (hop : op.isOrdering)
    (h : cell.compare? literal = .ok (some o)) : test op cell literal = .ok (accepts op o) := by
  cases op with
  | eq | ne | like => cases hop
  | gt | lt | ge | le =>
    simp only [test, h]
    rfl

theorem test_eq (hc : cell.Legible) (hl : literal.Legible) :
    test .eq cell literal = .ok (decide (cell.sense = literal.sense)) := by
  rw [test, equals_eq hc hl]
  rfl

theorem test_ne (cell literal : Value) :
    test .ne cell literal = (test .eq cell literal).map (! ·) := by
  rw [test, test]
  cases cell.equals literal <;> rfl

/-- Of two numbers one is before, level with or after the other, and the three comparators tell
which. -/
theorem test_trichotomy (hc : cell.Legible) (hl : literal.Legible) (hnc : cell.IsNumeric)
    (hnl : literal.IsNumeric) : ∃ holds ∈ [Comparator.lt, .eq, .gt],
      ∀ op ∈ [Comparator.lt, .eq, .gt], test op cell literal = .ok (op == holds) := by
  obtain ⟨o, ho⟩ := (exists_compare?_eq_some_iff hc hl).2 ⟨hnc, hnl⟩
  have hlt : test .lt cell literal = .ok (o == .lt) := test_of_compare? rfl ho
  have hgt : test .gt cell literal = .ok (o == .gt) := test_of_compare? rfl ho
  have heq : test .eq cell literal = .ok (o == .eq) := by
    rw [test_eq hc hl, beq_eq_decide]
    simp only [compare?_eq_iff_equals hc hl ho, equals_eq_true_iff hc hl]
  cases o with
  | lt => exact ⟨.lt, by simp, by simp [hlt, heq, hgt]⟩
  | eq => exact ⟨.eq, by simp, by simp [hlt, heq, hgt]⟩
  | gt => exact ⟨.gt, by simp, by simp [hlt, heq, hgt]⟩

/-- Not before is level or after, and not after is level or before. -/
theorem test_opposites (hc : cell.Legible) (hl : literal.Legible) (hnc : cell.IsNumeric)
    (hnl : literal.IsNumeric) :
    test .ge cell literal = (test .lt cell literal).map (! ·) ∧
      test .le cell literal = (test .gt cell literal).map (! ·) := by
  obtain ⟨o, ho⟩ := (exists_compare?_eq_some_iff hc hl).2 ⟨hnc, hnl⟩
  constructor <;> rw [test_of_compare? rfl ho, test_of_compare? rfl ho] <;> rfl

end Condition

namespace Value

open Condition (test)

/-- Equality of the values that are read is an equivalence, and where two of them are numeric
their order is linear and agrees with it; so of two numbers one is before, level with or after the
other, and the comparators that are opposites in this say the opposite. -/
theorem equality_and_order_agree {a b c : Value} (ha : a.Legible) (hb : b.Legible)
    (hc : c.Legible) :
    a.equals a = .ok true ∧
    (∃ yes, a.equals b = .ok yes ∧ b.equals a = .ok yes) ∧
    (a.equals b = .ok true → b.equals c = .ok true → a.equals c = .ok true) ∧
    (a.compare? b = .ok none ↔ a.isNull ∨ b.isNull) ∧
    ((∃ o, a.compare? b = .ok (some o)) ↔ a.IsNumeric ∧ b.IsNumeric) ∧
    (∀ o, a.compare? b = .ok (some o) →
      b.compare? a = .ok (some o.swap) ∧ (o = .eq ↔ a.equals b = .ok true)) ∧
    (∀ o₁ o₂, a.compare? b = .ok (some o₁) → b.compare? c = .ok (some o₂) → o₁.isLE → o₂.isLE →
      ∃ o, a.compare? c = .ok (some o) ∧ o.isLE ∧ (o = .eq ↔ o₁ = .eq ∧ o₂ = .eq)) ∧
    (a.IsNumeric → b.IsNumeric →
      (∃ holds ∈ [Comparator.lt, .eq, .gt],
        ∀ op ∈ [Comparator.lt, .eq, .gt], test op a b = .ok (op == holds)) ∧
      test .ge a b = (test .lt a b).map (! ·) ∧ test .le a b = (test .gt a b).map (! ·)) ∧
    (∃ yes, test .eq a b = .ok yes ∧ test .ne a b = .ok (!yes)) := by
  refine ⟨?refl, ?symm, ?trans, compare?_eq_none_iff, exists_compare?_eq_some_iff ha hb,
    fun o ho => ⟨compare?_swap ha hb ho, compare?_eq_iff_equals ha hb ho⟩,
    fun _ _ => compare?_trans ha hb hc,
    fun hna hnb => ⟨Condition.test_trichotomy ha hb hna hnb,
      Condition.test_opposites ha hb hna hnb⟩, ?opposite⟩
  case refl => rw [equals_eq_true_iff ha ha]
  case symm => exact ⟨_, equals_eq ha hb, by rw [equals_eq hb ha]; simp only [eq_comm]⟩
  case trans =>
    rw [equals_eq_true_iff ha hb, equals_eq_true_iff hb hc, equals_eq_true_iff ha hc]
    exact Eq.trans
  case opposite =>
    refine ⟨_, Condition.test_eq ha hb, ?_⟩
    rw [Condition.test_ne, Condition.test_eq ha hb]
    rfl

theorem equality_and_order_agree_of_numerals :
    (ofField ['6', '5']).Legible ∧ (ofLiteral ['\'', '6', '5', '.', '0', '\'']).Legible ∧
      (ofLiteral ['+', '6', '5']).Legible ∧
      (ofField ['6', '5']).equals (ofLiteral ['+', '6', '5']) = .ok true := by
  have ha : (ofField ['6', '5']).Legible := ⟨.inl ⟨_, rfl⟩, by decide⟩
  have hb : (ofLiteral ['\'', '6', '5', '.', '0', '\'']).Legible := ⟨.inr ⟨_, rfl⟩, by decide⟩
  have hc : (ofLiteral ['+', '6', '5']).Legible := ⟨.inr ⟨_, rfl⟩, by decide⟩
  obtain ⟨-, -, htrans, -⟩ := equality_and_order_agree ha hb hc
  exact ⟨ha, hb, hc, htrans (by decide +kernel) (by decide +kernel)⟩

end Value

end Tabular
