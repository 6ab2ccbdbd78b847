import Tabular.Proofs.Failure.Balks
import Tabular.Proofs.Table.Sound

/-!
# Integers that are too long

The only numbers in values that are not read are integers of more digits than the limit. A
comparison of two values reads both as numbers, if neither is null, and stumbles over such an
integer.
-/

namespace Tabular

namespace Numeral

/-- The text of an integer with more digits than are read. -/
def Overlong (t : Text) : Prop :=
  ∃ n, ofText? t = some n ∧ n.fraction = none ∧ Text.digitLimit < n.whole.length

theorem exists_number_error_iff {n : Numeral} :
    (∃ fault, n.number = .error fault) ↔
      n.fraction = none ∧ Text.digitLimit < n.whole.length := by
  cases hf : n.fraction with
  | some f => simp [number, hf, pure, Except.pure]
  | none =>
    by_cases hl : Text.digitLimit < n.whole.length
    · simp [number, hf, Text.toNatWithin, hl, bind, Except.bind]
    · simp [number, hf, Text.toNatWithin, hl, bind, Except.bind, pure, Except.pure]

end Numeral

namespace Value

/-- A number or string that is spelled as an integer with more digits than are read. -/
def Overlong (v : Value) : Prop :=
  (v.kind = .number ∨ v.kind = .string) ∧ Numeral.Overlong v.text

/-- A number is spelled as one. -/
def IsSpelled (v : Value) : Prop := v.kind = .number → Numeral.isNumeral v.text

/-- Comparing the values reads them as numbers, and one of them is too long for that. -/
def Stumbles (a b : Value) : Prop :=
  a.isNull = false ∧ b.isNull = false ∧ (a.Overlong ∨ b.Overlong)

variable {a b v : Value}

theorem isSpelled_ofField (t : Text) : (ofField t).IsSpelled := by
  unfold ofField IsSpelled
  split_ifs <;> simp_all [null, boolean, string]

theorem IsStored.isSpelled (h : v.IsStored) : v.IsSpelled := h.typed ▸ isSpelled_ofField v.text

theorem isSpelled_ofLiteral (t : Text) : (ofLiteral t).IsSpelled := by
  unfold ofLiteral IsSpelled
  split
  · simp
  · split
    · simp_all
    · split <;> simp [null, boolean]

theorem isSpelled_null : null.IsSpelled := nofun

/-- A missing cell is null. -/
theorem isSpelled_getD {row : Row} (h : ∀ v ∈ row, v.IsSpelled) (i : Nat) :
    (row.getD i null).IsSpelled := by
  rw [List.getD_eq_getElem?_getD]
  cases hv : row[i]? with
  | none => exact isSpelled_null
  | some v => exact h v (List.mem_of_getElem? hv)

theorem Overlong.isNull (h : v.Overlong) : v.isNull = false := by
  obtain ⟨hk | hk, -⟩ := h <;> simp [Value.isNull, hk]

/-- A value is not read as a number exactly if it is too long. -/
theorem exists_number?_error_iff (h : v.IsSpelled) :
    (∃ fault, v.number? = .error fault) ↔ v.Overlong := by
  have hmap {n : Numeral} :
      (∃ fault, n.number.map some = .error fault) ↔ ∃ fault, n.number = .error fault := by
    cases n.number <;> simp [Except.map]
  cases hk : v.kind with
  | number =>
    obtain ⟨n, hn⟩ := Option.isSome_iff_exists.1 (h hk)
    simp [number?, Overlong, Numeral.Overlong, Numeral.read, hk, hn, hmap,
      Numeral.exists_number_error_iff]
  | string =>
    cases hn : Numeral.ofText? v.text with
    | none => simp [number?, Overlong, Numeral.Overlong, hk, hn]
    | some n =>
      simp [number?, Overlong, Numeral.Overlong, hk, hn, hmap, Numeral.exists_number_error_iff]
  | boolean => simp [number?, Overlong, hk]
  | null => simp [number?, Overlong, hk]

/-- Both values are read, from left to right, before anything is done with their numbers. -/
theorem balks_reads_iff {β : Type} (ha : a.IsSpelled) (hb : b.IsSpelled)
    {f : Option Number → Option Number → Except Failure β} (hf : ∀ m n, ¬ Balks (f m n)) :
    Balks (a.number?.mapError Failure.number >>= fun m =>
      b.number?.mapError Failure.number >>= fun n => f m n) ↔ a.Overlong ∨ b.Overlong := by
  rw [← exists_number?_error_iff ha, ← exists_number?_error_iff hb, balks_bind,
    balks_mapError_number]
  have hread (m : Option Number) : Balks (b.number?.mapError Failure.number >>= f m) ↔
      ∃ fault, b.number? = .error fault :=
    (balks_bind_of_not (hf m)).trans balks_mapError_number
  cases a.number? with
  | error fault => simp
  | ok m =>
    simp only [Except.mapError_eq_ok_iff, Except.ok.injEq, exists_eq_left', hread, reduceCtorEq,
      exists_false, false_or]

theorem balks_equals_iff (ha : a.IsSpelled) (hb : b.IsSpelled) :
    Balks ((a.equals b).mapError Failure.number) ↔ a.Stumbles b := by
  cases hna : a.isNull with
  | true => simp [equals, Stumbles, hna, Except.mapError]
  | false =>
    cases hnb : b.isNull with
    | true => simp [equals, Stumbles, hnb, Except.mapError]
    | false =>
      simp only [equals, Stumbles, hna, hnb, Bool.or_self, Bool.false_eq_true, if_false, true_and,
        Except.mapError_bind]
      refine balks_reads_iff ha hb fun m n => ?_
      cases m <;> cases n <;> exact not_balks_ok _

theorem balks_compare?_iff (ha : a.IsSpelled) (hb : b.IsSpelled) :
    Balks (a.compare? b) ↔ a.Stumbles b := by
  cases hna : a.isNull with
  | true => simp [compare?, Stumbles, hna]
  | false =>
    cases hnb : b.isNull with
    | true => simp [compare?, Stumbles, hnb]
    | false =>
      simp only [compare?, Stumbles, hna, hnb, Bool.or_self, Bool.false_eq_true, if_false, true_and]
      refine balks_reads_iff ha hb fun m n => ?_
      cases m <;> cases n <;> first | exact not_balks_ok _ | exact not_balks_rejected _

end Value

end Tabular
