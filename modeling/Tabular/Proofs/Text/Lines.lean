import Mathlib.Data.List.Induction
import Tabular.Table.File

/-!
# Pieces and lines

Taking a text apart at a separator and putting it together again, and the lines of a text: what is
written line by line is read line by line, and a line added after a line break is one more line.
-/

namespace Tabular.Text

theorem pieces_cons (s c : Char) (t : Text) :
    pieces s (c :: t) = if c == s then [] :: pieces s t else (pieces s t).modifyHead (c :: ·) :=
  List.splitOn_cons_eq_if_modifyHead c t

theorem exists_pieces_eq_cons (s : Char) (t : Text) : ∃ p ps, pieces s t = p :: ps :=
  List.exists_cons_of_ne_nil (List.splitOn_ne_nil s t)

/-- A piece holds characters of the text other than the separator. -/
theorem mem_of_mem_pieces {s : Char} {t p : Text} (h : p ∈ pieces s t) {c : Char} (hc : c ∈ p) :
    c ∈ t ∧ c ≠ s := by
  induction t generalizing p with
  | nil => simp only [pieces, List.splitOn_nil, List.mem_singleton] at h; subst h; cases hc
  | cons d t ih =>
    obtain ⟨q, qs, hq⟩ := exists_pieces_eq_cons s t
    have ih' : ∀ p ∈ q :: qs, c ∈ p → c ∈ t ∧ c ≠ s := fun p hp hc => ih (hq ▸ hp) hc
    rw [pieces_cons, hq] at h
    by_cases hd : d = s
    · simp only [hd, beq_self_eq_true, if_true, List.mem_cons] at h
      rcases h with rfl | h
      · cases hc
      · have := ih' p (by simpa using h) hc
        exact ⟨by simp [this.1], this.2⟩
    · simp only [beq_iff_eq, hd, if_false, List.modifyHead_cons, List.mem_cons] at h
      rcases h with rfl | h
      · rcases List.mem_cons.1 hc with rfl | hc
        · exact ⟨by simp, hd⟩
        · have := ih' q (by simp) hc
          exact ⟨by simp [this.1], this.2⟩
      · have := ih' p (by simp [h]) hc
        exact ⟨by simp [this.1], this.2⟩

/-- There is one more piece than there are separators. -/
theorem length_pieces (s : Char) (t : Text) : (pieces s t).length = t.count s + 1 := by
  induction t with
  | nil => rfl
  | cons c t ih =>
    rw [pieces_cons, List.count_cons]
    split
    · simp [ih]
    · simp [ih]

/-- The last piece is empty if the text is empty or ends with the separator, and only then. -/
theorem getLast?_pieces_eq_nil_iff {s : Char} {t : Text} :
    (pieces s t).getLast? = some [] ↔ t = [] ∨ t.getLast? = some s := by
  induction t with
  | nil => simp [pieces]
  | cons c t ih =>
    obtain ⟨p, ps, hp⟩ := exists_pieces_eq_cons s t
    rw [pieces_cons, hp]
    rw [hp] at ih
    cases t with
    | nil =>
      simp only [pieces, List.splitOn_nil, List.cons.injEq] at hp
      obtain ⟨rfl, rfl⟩ := hp
      by_cases hc : c = s <;> simp [hc]
    | cons d t =>
      by_cases hc : c = s
      · simpa [hc] using ih
      · cases ps with
        | nil =>
          have hne : p ≠ [] := by
            rintro rfl
            have hl := length_pieces s (d :: t)
            have hj : join [s] (pieces s (d :: t)) = d :: t := List.intercalate_splitOn s
            rw [hp] at hj
            simp [join] at hj
          simpa [hc, hne] using ih
        | cons q qs => simpa [hc] using ih

theorem pieces_join {s : Char} {ts : List Text} (hne : ts ≠ []) (h : ∀ t ∈ ts, s ∉ t) :
    pieces s (join [s] ts) = ts := List.splitOn_intercalate s h hne

theorem mem_join {s : Char} {ts : List Text} {c : Char} (h : c ∈ join [s] ts) :
    c = s ∨ ∃ t ∈ ts, c ∈ t := by
  induction ts with
  | nil => simp [join] at h
  | cons t ts ih =>
    cases ts with
    | nil => exact .inr ⟨t, by simp, by simpa [join] using h⟩
    | cons u us =>
      simp only [join, List.intercalate_cons_cons, List.append_assoc, List.mem_append,
        List.mem_singleton] at h
      rcases h with h | rfl | h
      · exact .inr ⟨t, by simp, h⟩
      · exact .inl rfl
      · rcases ih h with rfl | ⟨v, hv, hc⟩
        · exact .inl rfl
        · exact .inr ⟨v, by simp [List.mem_cons.1 hv], hc⟩

end Text

namespace Table

/-- Text that ends with a line feed has the lines before it. -/
theorem lines_concat (t : Text) : lines (t ++ ['\n']) = Text.pieces '\n' t := by
  have hp : Text.pieces '\n' (t ++ ['\n']) = Text.pieces '\n' t ++ [[]] := by
    simp [Text.pieces, List.splitOn_append_cons_self]
  simp [lines, hp]

/-- Text that does not end with a line feed has all its pieces as lines. -/
theorem lines_of_getLast?_ne {t : Text} (hne : t ≠ []) (h : t.getLast? ≠ some '\n') :
    lines t = Text.pieces '\n' t := by
  have hl : (Text.pieces '\n' t).getLast? ≠ some [] := by
    rw [Ne, Text.getLast?_pieces_eq_nil_iff]
    rintro (h' | h')
    · exact hne h'
    · exact h h'
  simp [lines, hl]

@[simp] theorem lines_nil : lines [] = [] := rfl

/-- A line written after a line break is one more line. -/
theorem lines_append_line {t l : Text} (ht : t.getLast? = some '\n') (hl : '\n' ∉ l) :
    lines (t ++ (l ++ ['\n'])) = lines t ++ [l] := by
  obtain ⟨s, rfl⟩ := List.getLast?_eq_some_iff.1 ht
  have hp : Text.pieces '\n' (s ++ '\n' :: l) = Text.pieces '\n' s ++ [l] := by
    simp only [Text.pieces, List.splitOn_append_cons_self, List.splitOn_eq_singleton hl]
  rw [← List.append_assoc, lines_concat, lines_concat]
  simpa using hp

/-- A line written after anything else only makes the last line longer. -/
theorem length_lines_append_line {t l : Text} (hne : t ≠ []) (ht : t.getLast? ≠ some '\n')
    (hl : '\n' ∉ l) : (lines (t ++ (l ++ ['\n']))).length = (lines t).length := by
  rw [← List.append_assoc, lines_concat, lines_of_getLast?_ne hne ht, Text.length_pieces,
    Text.length_pieces, List.count_append, List.count_eq_zero_of_not_mem hl, Nat.add_zero]

/-- Lines written one after the other are read one after the other. -/
theorem lines_flatMap {ls : List Text} (h : ∀ l ∈ ls, '\n' ∉ l) :
    lines (ls.flatMap (· ++ ['\n'])) = ls := by
  induction ls using List.reverseRecOn with
  | nil => rfl
  | append_singleton ls l ih =>
    have hl : '\n' ∉ l := h l (by simp)
    rw [List.flatMap_append, List.flatMap_singleton]
    cases ls using List.reverseRecOn with
    | nil => simpa [lines_concat, Text.pieces] using List.splitOn_eq_singleton hl
    | append_singleton ls m =>
      rw [lines_append_line (by simp [List.flatMap_append]) hl,
        ih fun k hk => h k (List.mem_append_left _ hk)]

end Tabular.Table
