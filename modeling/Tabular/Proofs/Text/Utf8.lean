import Mathlib.Tactic.Common
import Tabular.Proofs.Except
import Tabular.Text.Utf8

/-!
# UTF-8, read and written

Bytes that are read as a text are read the same when more bytes follow, and the bytes of a text
are read as the text.
-/

namespace Tabular.Utf8

theorem headTwo_eq_character {a : UInt8} {rest : Bytes} {code length : Nat}
    (h : headTwo a rest = .character code length) :
    1 ≤ length ∧ length - 1 ≤ rest.length ∧
      ∀ more, headTwo a (rest ++ more) = .character code length := by
  cases rest with
  | nil => cases h
  | cons b rest =>
    simp only [headTwo, List.cons_append] at h ⊢
    split at h
    · next hb =>
      obtain ⟨-, rfl⟩ := Head.character.inj h
      exact ⟨by omega, by simp, fun _ => by simpa [hb] using h⟩
    · cases h

theorem headThree_eq_character {a : UInt8} {rest : Bytes} {code length : Nat}
    (h : headThree a rest = .character code length) :
    1 ≤ length ∧ length - 1 ≤ rest.length ∧
      ∀ more, headThree a (rest ++ more) = .character code length := by
  rcases rest with _ | ⟨b, _ | ⟨c, rest⟩⟩
  · cases h
  · simp only [headThree] at h
    split at h <;> cases h
  · simp only [headThree, List.cons_append] at h ⊢
    split at h
    · cases h
    · next hb =>
      split at h
      · next hc =>
        obtain ⟨-, rfl⟩ := Head.character.inj h
        exact ⟨by omega, by simp, fun _ => by simpa [hb, hc] using h⟩
      · cases h

theorem headFour_eq_character {a : UInt8} {rest : Bytes} {code length : Nat}
    (h : headFour a rest = .character code length) :
    1 ≤ length ∧ length - 1 ≤ rest.length ∧
      ∀ more, headFour a (rest ++ more) = .character code length := by
  rcases rest with _ | ⟨b, _ | ⟨c, _ | ⟨d, rest⟩⟩⟩
  · cases h
  · simp only [headFour] at h
    split at h <;> cases h
  · simp only [headFour] at h
    split at h
    · cases h
    · split at h <;> cases h
  · simp only [headFour, List.cons_append] at h ⊢
    split at h
    · cases h
    · next hb =>
      split at h
      · cases h
      · next hc =>
        split at h
        · next hd =>
          obtain ⟨-, rfl⟩ := Head.character.inj h
          exact ⟨by omega, by simp, fun _ => by simpa [hb, hc, hd] using h⟩
        · cases h

/-- The first character needs no more bytes than those that are there. -/
theorem head_eq_character {a : UInt8} {rest : Bytes} {code length : Nat}
    (h : head a rest = .character code length) :
    1 ≤ length ∧ length - 1 ≤ rest.length ∧
      ∀ more, head a (rest ++ more) = .character code length := by
  unfold head at h ⊢
  by_cases h₁ : a.toNat < 0x80
  · simp only [h₁, if_true] at h ⊢
    obtain ⟨-, rfl⟩ := Head.character.inj h
    exact ⟨by omega, by omega, fun _ => h⟩
  by_cases h₂ : a.toNat < 0xC2
  · simp [h₁, h₂] at h
  by_cases h₃ : a.toNat < 0xE0
  · simp only [h₁, h₂, h₃, if_true, if_false] at h ⊢
    exact headTwo_eq_character h
  by_cases h₄ : a.toNat < 0xF0
  · simp only [h₁, h₂, h₃, h₄, if_true, if_false] at h ⊢
    exact headThree_eq_character h
  by_cases h₅ : a.toNat < 0xF5
  · simp only [h₁, h₂, h₃, h₄, h₅, if_true, if_false] at h ⊢
    exact headFour_eq_character h
  · simp [h₁, h₂, h₃, h₄, h₅] at h

/-- More bytes are read after those that are read. -/
theorem decodeFrom_append {p : Nat} {bytes : Bytes} {t : Text} (h : decodeFrom p bytes = .ok t)
    (more : Bytes) :
    decodeFrom p (bytes ++ more) = (decodeFrom (p + bytes.length) more).map (t ++ ·) := by
  induction p, bytes using decodeFrom.induct generalizing t with
  | case1 p =>
    rw [decodeFrom] at h
    cases h
    cases hm : decodeFrom p more <;> simp [Except.map, hm]
  | case2 p a rest reason length hh =>
    rw [decodeFrom, hh] at h
    cases h
  | case3 p a rest code length hh ih =>
    rw [decodeFrom, hh] at h
    obtain ⟨s, hs, rfl⟩ := Except.map_eq_ok_iff.1 h
    obtain ⟨hpos, hle, hmore⟩ := head_eq_character hh
    have hlen : p + length + (rest.drop (length - 1)).length = p + (a :: rest).length := by
      rw [List.length_drop, List.length_cons]
      omega
    rw [List.cons_append, decodeFrom, hmore more]
    simp only
    rw [List.drop_append_of_le_length hle, ih hs, hlen]
    cases decodeFrom (p + (a :: rest).length) more <;> rfl

theorem decode_append {bytes : Bytes} {t : Text} (h : decode bytes = .ok t) {more : Bytes}
    {s : Text} (hs : ∀ p, decodeFrom p more = .ok s) : decode (bytes ++ more) = .ok (t ++ s) := by
  rw [decode, decodeFrom_append h, hs]
  rfl

/-! ## Reading what was written -/

theorem toNat_ofNat {n : Nat} (h : n < 256) : (UInt8.ofNat n).toNat = n := by
  rw [UInt8.toNat_ofNat']
  omega

theorem isTail_ofNat (n : Nat) : isTail (UInt8.ofNat (0x80 + n % 64)) := by
  have h := toNat_ofNat (n := 0x80 + n % 64) (by omega)
  simp only [isTail, h, Bool.and_eq_true, decide_eq_true_eq]
  omega

@[simp] theorem low_ofNat (n : Nat) : low (UInt8.ofNat (0x80 + n % 64)) = n % 64 := by
  have h := toNat_ofNat (n := 0x80 + n % 64) (by omega)
  unfold low
  omega

theorem isSecond_iff {a b : UInt8} : isSecond a b ↔
    (if a.toNat = 0xE0 then 0xA0 else if a.toNat = 0xF0 then 0x90 else 0x80) ≤ b.toNat ∧
      b.toNat ≤ (if a.toNat = 0xED then 0x9F else if a.toNat = 0xF4 then 0x8F else 0xBF) := by
  have he : ∀ n : UInt8, a = n ↔ a.toNat = n.toNat := fun n => UInt8.toNat_inj.symm
  simp only [isSecond, Bool.and_eq_true, decide_eq_true_eq, he]
  rfl

theorem head_of_one {a : UInt8} (ha : a.toNat < 0x80) (rest : Bytes) :
    head a rest = .character a.toNat 1 := by
  rw [head, if_pos ha]

theorem head_of_two {a b : UInt8} (ha : 0xC2 ≤ a.toNat ∧ a.toNat < 0xE0) (hb : isTail b)
    (rest : Bytes) : head a (b :: rest) = .character ((a.toNat - 0xC0) * 64 + low b) 2 := by
  rw [head, if_neg (by omega), if_neg (by omega), if_pos ha.2, headTwo, if_pos hb]

theorem head_of_three {a b c : UInt8} (ha : 0xE0 ≤ a.toNat ∧ a.toNat < 0xF0) (hb : isSecond a b)
    (hc : isTail c) (rest : Bytes) : head a (b :: c :: rest) =
      .character (((a.toNat - 0xE0) * 64 + low b) * 64 + low c) 3 := by
  rw [head, if_neg (by omega), if_neg (by omega), if_neg (by omega), if_pos ha.2]
  simp [headThree, hb, hc]

theorem head_of_four {a b c d : UInt8} (ha : 0xF0 ≤ a.toNat ∧ a.toNat < 0xF5) (hb : isSecond a b)
    (hc : isTail c) (hd : isTail d) (rest : Bytes) : head a (b :: c :: d :: rest) =
      .character ((((a.toNat - 0xF0) * 64 + low b) * 64 + low c) * 64 + low d) 4 := by
  rw [head, if_neg (by omega), if_neg (by omega), if_neg (by omega), if_neg (by omega),
    if_pos ha.2]
  simp [headFour, hb, hc, hd]

/-- The bytes of a character stand for it. -/
theorem head_encodeChar (c : Char) (more : Bytes) :
    ∃ a rest, encodeChar c = a :: rest ∧
      head a (rest ++ more) = .character c.toNat (rest.length + 1) := by
  have hv : c.toNat < 0xD800 ∨ (0xDFFF < c.toNat ∧ c.toNat < 0x110000) := c.valid
  by_cases h₁ : c.toNat < 0x80
  · have ha := toNat_ofNat (n := c.toNat) (by omega)
    refine ⟨_, _, if_pos h₁, ?_⟩
    rw [head_of_one (by rw [ha]; exact h₁), ha]
    rfl
  by_cases h₂ : c.toNat < 0x800
  · have ha := toNat_ofNat (n := 0xC0 + c.toNat / 64) (by omega)
    refine ⟨_, _, (if_neg h₁).trans (if_pos h₂), ?_⟩
    have hcode : (0xC0 + c.toNat / 64 - 0xC0) * 64 + c.toNat % 64 = c.toNat := by omega
    rw [List.cons_append, head_of_two (by rw [ha]; omega) (isTail_ofNat _), ha, low_ofNat, hcode]
    rfl
  by_cases h₃ : c.toNat < 0x10000
  · have ha := toNat_ofNat (n := 0xE0 + c.toNat / 4096) (by omega)
    have hb := toNat_ofNat (n := 0x80 + c.toNat / 64 % 64) (by omega)
    refine ⟨_, _, (if_neg h₁).trans ((if_neg h₂).trans (if_pos h₃)), ?_⟩
    have hs : isSecond (UInt8.ofNat (0xE0 + c.toNat / 4096))
        (UInt8.ofNat (0x80 + c.toNat / 64 % 64)) := by
      rw [isSecond_iff, ha, hb]
      constructor <;> split_ifs <;> omega
    have hcode : ((0xE0 + c.toNat / 4096 - 0xE0) * 64 + c.toNat / 64 % 64) * 64 + c.toNat % 64 =
        c.toNat := by omega
    rw [List.cons_append, List.cons_append, head_of_three (by rw [ha]; omega) hs (isTail_ofNat _),
      ha, low_ofNat, low_ofNat, hcode]
    rfl
  · have ha := toNat_ofNat (n := 0xF0 + c.toNat / 262144) (by omega)
    have hb := toNat_ofNat (n := 0x80 + c.toNat / 4096 % 64) (by omega)
    refine ⟨_, _, (if_neg h₁).trans ((if_neg h₂).trans (if_neg h₃)), ?_⟩
    have hs : isSecond (UInt8.ofNat (0xF0 + c.toNat / 262144))
        (UInt8.ofNat (0x80 + c.toNat / 4096 % 64)) := by
      rw [isSecond_iff, ha, hb]
      constructor <;> split_ifs <;> omega
    have hcode : (((0xF0 + c.toNat / 262144 - 0xF0) * 64 + c.toNat / 4096 % 64) * 64 +
        c.toNat / 64 % 64) * 64 + c.toNat % 64 = c.toNat := by omega
    rw [List.cons_append, List.cons_append, List.cons_append,
      head_of_four (by rw [ha]; omega) hs (isTail_ofNat _) (isTail_ofNat _),
      ha, low_ofNat, low_ofNat, low_ofNat, hcode]
    rfl

/-- What is written is read, wherever it stands. -/
theorem decodeFrom_encode (t : Text) (p : Nat) : decodeFrom p (encode t) = .ok t := by
  induction t generalizing p with
  | nil => rw [encode_nil, decodeFrom]
  | cons c t ih =>
    obtain ⟨a, rest, he, hh⟩ := head_encodeChar c (encode t)
    have hc : Char.ofNat c.toNat = c := Char.ofNat_toNat c
    rw [encode_cons, he, List.cons_append, decodeFrom, hh]
    simp only [Nat.add_sub_cancel, List.drop_left, ih, hc]
    rfl

theorem decode_encode (t : Text) : decode (encode t) = .ok t := decodeFrom_encode t 0

end Tabular.Utf8
