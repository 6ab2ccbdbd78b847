import Tabular.Proofs.Connection.Answers
import Tabular.Proofs.Text.Lines
import Tabular.Proofs.Text.Utf8

/-!
# Framing

What a client makes of the answers that were sent: it takes the lines up to one that is nothing but
the end mark as an answer. The answers come out as they were exactly if none of them has such a line
itself.
-/

namespace Tabular

/-! ## Pieces of appended lists -/

section Pieces

variable {α : Type} [BEq α] {s : α}

theorem length_splitOn (as : List α) : (as.splitOn s).length = as.count s + 1 := by
  induction as with
  | nil => rfl
  | cons a as ih =>
    rw [List.splitOn_cons_eq_if_modifyHead, List.count_cons]
    split <;> simp [ih]

variable [LawfulBEq α]

theorem splitOn_append_of_not_mem {as : List α} (h : s ∉ as) (bs : List α) :
    (as ++ bs).splitOn s = (bs.splitOn s).modifyHead (as ++ ·) := by
  induction as with
  | nil => cases h : bs.splitOn s <;> simp [h]
  | cons a as ih =>
    obtain ⟨hne, h⟩ := not_or.1 (mt List.mem_cons.2 h)
    rw [List.cons_append, List.splitOn_cons_eq_if_modifyHead, ih h, if_neg (by simp [Ne.symm hne])]
    cases bs.splitOn s <;> rfl

end Pieces

namespace Utf8

theorem encode_injective {t u : Text} (h : encode t = encode u) : t = u := by
  have := (decode_encode t).symm.trans ((congrArg decode h).trans (decode_encode u))
  exact Except.ok.inj this

/-- No other character has the byte of a line feed in it. -/
theorem lineFeed_not_mem_encodeChar {c : Char} (h : c ≠ '\n') :
    Connection.lineFeed ∉ encodeChar c := by
  have hbyte {n : Nat} (hn : n < 256) (hne : n ≠ 10) : Connection.lineFeed ≠ UInt8.ofNat n := by
    intro he
    have := congrArg UInt8.toNat he
    rw [toNat_ofNat hn] at this
    exact hne this.symm
  have hc : c.toNat ≠ 10 := fun hc => h (Char.ext (UInt32.toNat_inj.1 hc))
  have hmax : c.toNat < 0x110000 := by
    change c.val.toNat < 0x110000
    rcases c.valid with h | h <;> omega
  intro hm
  unfold encodeChar at hm
  simp only at hm
  split at hm
  · exact hbyte (by omega) hc (List.mem_singleton.1 hm)
  split at hm
  · simp only [List.mem_cons, List.not_mem_nil, or_false] at hm
    rcases hm with hm | hm <;> exact hbyte (by omega) (by omega) hm
  split at hm
  · simp only [List.mem_cons, List.not_mem_nil, or_false] at hm
    rcases hm with hm | hm | hm <;> exact hbyte (by omega) (by omega) hm
  · simp only [List.mem_cons, List.not_mem_nil, or_false] at hm
    rcases hm with hm | hm | hm | hm <;> exact hbyte (by omega) (by omega) hm

/-- The lines of a text are encoded one by one. -/
theorem splitOn_encode (t : Text) :
    (encode t).splitOn Connection.lineFeed = (Text.pieces '\n' t).map encode := by
  induction t with
  | nil => rfl
  | cons c t ih =>
    rw [Text.pieces_cons, encode_cons]
    by_cases hc : c = '\n'
    · subst hc
      change (Connection.lineFeed :: encode t).splitOn Connection.lineFeed = _
      rw [List.splitOn_cons_eq_if_modifyHead, ih]
      rfl
    · rw [splitOn_append_of_not_mem (lineFeed_not_mem_encodeChar hc), ih]
      simp only [beq_iff_eq, hc, if_false]
      cases Text.pieces '\n' t <;> rfl

end Utf8

namespace Connection

/-- The lines of what came. What no line feed ends is no line. -/
def linesOf (out : Bytes) : List Bytes := (out.splitOn lineFeed).dropLast

/-- The answers that a client takes: the lines up to each that is nothing but the end mark. -/
def received (out : Bytes) : List Bytes :=
  ((linesOf out).splitOn [endMark]).dropLast.map (List.intercalate [lineFeed])

/-- The line that ends an answer. -/
def markLine : Text := ['\x04']

/-- Does the answer have a line that looks like its end? -/
def HasMark (response : Text) : Prop := markLine ∈ Text.pieces '\n' response

variable {r : Text} {rs : List Text}

theorem hasMark_iff : HasMark r ↔ [endMark] ∈ (Utf8.encode r).splitOn lineFeed := by
  have hmark : Utf8.encode markLine = [endMark] := by decide
  rw [HasMark, Utf8.splitOn_encode, List.mem_map]
  constructor
  · intro h
    exact ⟨_, h, hmark⟩
  · rintro ⟨l, hl, he⟩
    cases Utf8.encode_injective (he.trans hmark.symm)
    exact hl

theorem linesOf_frame (r : Text) (out : Bytes) :
    linesOf (frame r ++ out) = (Utf8.encode r).splitOn lineFeed ++ [endMark] :: linesOf out := by
  have hmark : [endMark].splitOn lineFeed = [[endMark]] := by decide
  have hsplit : (frame r ++ out).splitOn lineFeed =
      (Utf8.encode r).splitOn lineFeed ++ ([[endMark]] ++ out.splitOn lineFeed) := by
    rw [← hmark, ← List.splitOn_append_cons_self, ← List.splitOn_append_cons_self]
    simp [frame]
  rw [linesOf, hsplit, ← List.append_assoc,
    List.dropLast_append_of_ne_nil (List.splitOn_ne_nil _ _)]
  simp [linesOf]

/-- The answers that come out of one: as many as it has lines that look like its end, and one. -/
def parts (r : Text) : List Bytes :=
  (((Utf8.encode r).splitOn lineFeed).splitOn [endMark]).map (List.intercalate [lineFeed])

theorem received_frames (rs : List Text) : received (frames rs) = rs.flatMap parts := by
  induction rs with
  | nil => rfl
  | cons r rs ih =>
    rw [received, frames, List.flatMap_cons, linesOf_frame, List.splitOn_append_cons_self,
      List.dropLast_append_of_ne_nil (List.splitOn_ne_nil _ _), List.map_append, List.flatMap_cons,
      ← ih]
    rfl

theorem parts_of_not_hasMark (h : ¬ HasMark r) : parts r = [Utf8.encode r] := by
  rw [parts, List.splitOn_eq_singleton (mt hasMark_iff.2 h)]
  simp only [List.map_cons, List.map_nil, List.intercalate_splitOn]

theorem length_parts (r : Text) :
    (parts r).length = ((Utf8.encode r).splitOn lineFeed).count [endMark] + 1 := by
  rw [parts, List.length_map, length_splitOn]

theorem length_le_parts (rs : List Text) : rs.length ≤ (rs.flatMap parts).length := by
  induction rs with
  | nil => exact Nat.le_refl 0
  | cons r rs ih =>
    rw [List.flatMap_cons, List.length_append, List.length_cons, length_parts]
    omega

/-- Where no more answers come out than were sent, each has come out as one. -/
theorem not_hasMark_of_length (h : (rs.flatMap parts).length = rs.length) :
    ∀ r ∈ rs, ¬ HasMark r := by
  induction rs with
  | nil => exact nofun
  | cons r rs ih =>
    have hle := length_le_parts rs
    rw [List.flatMap_cons, List.length_append, List.length_cons, length_parts] at h
    refine List.forall_mem_cons.2 ⟨?_, ih (by omega)⟩
    rw [hasMark_iff]
    exact List.count_eq_zero.1 (by omega)

/-- A client takes the answers that were sent exactly if none has a line that looks like its end. -/
theorem received_frames_eq_iff :
    received (frames rs) = rs.map Utf8.encode ↔ ∀ r ∈ rs, ¬ HasMark r := by
  rw [received_frames]
  constructor
  · intro h
    apply not_hasMark_of_length
    rw [h, List.length_map]
  · intro h
    induction rs with
    | nil => rfl
    | cons r rs ih =>
      rw [List.flatMap_cons, parts_of_not_hasMark (h r (by simp)), List.map_cons,
        ih fun r hr => h r (by simp [hr])]
      rfl

end Connection

end Tabular
