import Tabular.Proofs.Failure.Texts
import Tabular.Proofs.Text.Utf8

/-!
# Lines of bytes

Bytes without a line feed are read as a text within one line, whatever faults are in them, and a
line feed behind them is read as one.
-/

namespace Tabular

namespace Utf8

/-- The character that is read for what stands at the front. -/
def Head.read : Head → Char
  | .character code _ => Char.ofNat code
  | .faulty _ _ => replacement

/-- How many bytes it takes. -/
def Head.size : Head → Nat
  | .character _ length | .faulty _ length => length

theorem decodeLossy_cons (a : UInt8) (rest : Bytes) : decodeLossy (a :: rest) =
    (head a rest).read :: decodeLossy (rest.drop ((head a rest).size - 1)) := by
  rw [decodeLossy]
  cases head a rest <;> rfl

theorem le_low_of_isSecond {a b : UInt8} (h : isSecond a b) :
    (a.toNat = 0xE0 → 0x20 ≤ low b) ∧ (a.toNat = 0xF0 → 0x10 ≤ low b) := by
  obtain ⟨h, -⟩ := isSecond_iff.1 h
  unfold low
  constructor
  · intro ha
    simp only [ha, if_true] at h
    omega
  · intro ha
    simp only [ha, Nat.reduceEqDiff, if_false, if_true] at h
    omega

/-- Characters of more than one byte are none of ASCII. -/
theorem le_code_of_head {a : UInt8} {rest : Bytes} {code length : Nat}
    (h : head a rest = .character code length) : code = a.toNat ∨ 0x80 ≤ code := by
  unfold head at h
  split at h
  · exact .inl (Head.character.inj h).1.symm
  split at h
  · cases h
  split at h
  · right
    unfold headTwo at h
    split at h
    · cases h
    · split at h
      · obtain ⟨rfl, -⟩ := Head.character.inj h
        omega
      · cases h
  split at h
  · right
    rcases rest with _ | ⟨b, _ | ⟨c, rest⟩⟩
    · cases h
    · simp only [headThree] at h
      split at h <;> cases h
    · simp only [headThree] at h
      split at h
      · cases h
      · next hb =>
        split at h
        · obtain ⟨rfl, -⟩ := Head.character.inj h
          have := (le_low_of_isSecond (by simpa using hb)).1
          omega
        · cases h
  split at h
  · right
    rcases rest with _ | ⟨b, _ | ⟨c, _ | ⟨d, rest⟩⟩⟩
    · cases h
    · simp only [headFour] at h
      split at h <;> cases h
    · simp only [headFour] at h
      split at h
      · cases h
      · split at h <;> cases h
    · simp only [headFour] at h
      split at h
      · cases h
      · next hb =>
        split at h
        · cases h
        · split at h
          · obtain ⟨rfl, -⟩ := Head.character.inj h
            have := (le_low_of_isSecond (by simpa using hb)).2
            omega
          · cases h
  · cases h

theorem toNat_ofNat_char (n : Nat) : (Char.ofNat n).toNat = n ∨ (Char.ofNat n).toNat = 0 := by
  by_cases h : n.isValidChar
  · rw [Char.ofNat, dif_pos h]
    exact .inl rfl
  · rw [Char.ofNat, dif_neg h]
    exact .inr rfl

/-- No byte but a line feed is read as one. -/
theorem read_head_ne {a : UInt8} (h : a ≠ 10) (rest : Bytes) : (head a rest).read ≠ '\n' := by
  cases hh : head a rest with
  | faulty reason length => exact (by decide : replacement ≠ '\n')
  | character code length =>
    intro hc
    have hn : (Char.ofNat code).toNat = 10 := congrArg Char.toNat hc
    have ha : a.toNat ≠ 10 := fun ha => h (UInt8.toNat_inj.1 ha)
    have hcode := le_code_of_head hh
    have hvalue := toNat_ofNat_char code
    omega

/-- What stands at the front does not take the line feed behind a line. -/
theorem size_head_le (a : UInt8) (body : Bytes) :
    (head a (body ++ [10])).size ≤ body.length + 1 := by
  have htail : isTail 10 = false := by decide
  have hsecond : isSecond a 10 = false := by
    rw [Bool.eq_false_iff, ne_eq, isSecond_iff]
    rintro ⟨h, -⟩
    split at h <;> simp at h
    split at h <;> simp at h
  unfold head
  split
  · simp [Head.size]
  split
  · simp [Head.size]
  split
  · cases body with
    | nil => simp [headTwo, htail, Head.size]
    | cons b body =>
      simp only [headTwo, List.cons_append]
      split <;> simp [Head.size]
  split
  · rcases body with _ | ⟨b, _ | ⟨c, body⟩⟩
    · simp [headThree, hsecond, Head.size]
    · simp only [headThree, List.cons_append, List.nil_append, htail]
      split <;> simp [Head.size]
    · simp only [headThree, List.cons_append]
      split
      · simp [Head.size]
      · split <;> simp [Head.size]
  split
  · rcases body with _ | ⟨b, _ | ⟨c, _ | ⟨d, body⟩⟩⟩
    · simp [headFour, hsecond, Head.size]
    · simp only [headFour, List.cons_append, List.nil_append, htail]
      split <;> simp [Head.size]
    · simp only [headFour, List.cons_append, List.nil_append, htail]
      split
      · simp [Head.size]
      · split <;> simp [Head.size]
    · simp only [headFour, List.cons_append]
      split
      · simp [Head.size]
      · split
        · simp [Head.size]
        · split <;> simp [Head.size]
  · simp [Head.size]

/-- Bytes without a line feed are read as one line. -/
theorem oneLine_decodeLossy {body : Bytes} (h : 10 ∉ body) : (decodeLossy body).OneLine := by
  induction hn : body.length using Nat.strongRecOn generalizing body with
  | ind n ih =>
    subst hn
    cases body with
    | nil =>
      rw [decodeLossy]
      exact Text.oneLine_nil
    | cons a rest =>
      obtain ⟨ha, hr⟩ := not_or.1 (mt List.mem_cons.2 h)
      rw [decodeLossy_cons, Text.oneLine_cons]
      refine ⟨read_head_ne (Ne.symm ha) rest, ih _ ?_ (fun hm => hr (List.mem_of_mem_drop hm)) rfl⟩
      simp only [List.length_drop, List.length_cons]
      omega

/-- A line feed behind them is read behind the line. -/
theorem exists_decodeLossy_concat {body : Bytes} (h : 10 ∉ body) :
    ∃ t : Text, t.OneLine ∧ decodeLossy (body ++ [10]) = t ++ ['\n'] := by
  induction hn : body.length using Nat.strongRecOn generalizing body with
  | ind n ih =>
    subst hn
    cases body with
    | nil =>
      refine ⟨[], Text.oneLine_nil, ?_⟩
      have hhead : head 10 [] = .character 10 1 := by decide
      rw [List.nil_append, decodeLossy_cons, hhead]
      simp only [List.drop_nil, decodeLossy]
      rfl
    | cons a rest =>
      obtain ⟨ha, hr⟩ := not_or.1 (mt List.mem_cons.2 h)
      have hsize := size_head_le a rest
      have hdrop : (rest.drop ((head a (rest ++ [10])).size - 1)).length < (a :: rest).length := by
        simp only [List.length_drop, List.length_cons]
        omega
      obtain ⟨t, ht, he⟩ := ih _ hdrop (fun hm => hr (List.mem_of_mem_drop hm)) rfl
      refine ⟨(head a (rest ++ [10])).read :: t, ?_, ?_⟩
      · exact Text.oneLine_cons.2 ⟨read_head_ne (Ne.symm ha) _, ht⟩
      · rw [List.cons_append, decodeLossy_cons, List.drop_append_of_le_length (by omega), he]
        rfl

end Utf8

namespace Text

/-- A blank at the end is not kept. -/
theorem trim_concat {c : Char} (h : isBlank c) (t : Text) : trim (t ++ [c]) = trim t := by
  unfold trim trimBy
  rw [List.dropWhile_append]
  split
  · next hall => simp [List.isEmpty_iff.1 hall, h]
  · simp [h]

end Text

end Tabular
