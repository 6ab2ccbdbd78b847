import Tabular.Connection
import Tabular.Proofs.Engine.Sessions

/-!
# Answers on a connection

The input of a connection comes in pieces, each up to a line feed and the last up to the end. Every
piece gets one answer, whatever the limit of a line: reading up to the limit and passing over the
rest of a line never takes anything of the next piece.
-/

namespace Tabular.Connection

/-! ## Pieces -/

/-- Input cut after every line feed. What is left at the end is a piece if it is not empty. -/
def cut : Bytes → List Bytes
  | [] => []
  | b :: input =>
    if b = lineFeed then [b] :: cut input
    else
      match cut input with
      | [] => [[b]]
      | p :: ps => (b :: p) :: ps

/-- A piece without its line feed. -/
def content (p : Bytes) : Bytes := if isWhole p then p.dropLast else p

/-- The first piece of some input, and the rest of the input. -/
inductive Splits : Bytes → Bytes → Bytes → Prop
  | line {body : Bytes} (rest : Bytes) (plain : lineFeed ∉ body) :
    Splits (body ++ lineFeed :: rest) (body ++ [lineFeed]) rest
  | last {body : Bytes} (plain : lineFeed ∉ body) (ne : body ≠ []) : Splits body body []

variable {body input p rest : Bytes} {limit : Nat}

theorem isWhole_concat (body : Bytes) : isWhole (body ++ [lineFeed]) := by
  simp [isWhole]

theorem isWhole_eq_false (hb : lineFeed ∉ body) : isWhole body = false := by
  rw [isWhole, beq_eq_false_iff_ne]
  exact fun h => hb (List.mem_of_getLast? h)

@[simp] theorem content_concat (body : Bytes) : content (body ++ [lineFeed]) = body := by
  simp [content, isWhole_concat]

theorem content_of_not_mem (hb : lineFeed ∉ body) : content body = body := by
  simp [content, isWhole_eq_false hb]

namespace Splits

theorem exists_of_ne_nil (h : input ≠ []) : ∃ p rest, Splits input p rest := by
  by_cases hm : lineFeed ∈ input
  · obtain ⟨body, rest, rfl, hb⟩ := List.eq_append_cons_of_mem hm
    exact ⟨_, _, .line rest hb⟩
  · exact ⟨_, _, .last hm h⟩

theorem append_eq (h : Splits input p rest) : p ++ rest = input := by
  cases h with
  | line rest hb => simp
  | last hb hne => simp

theorem ne_nil (h : Splits input p rest) : p ≠ [] := by
  cases h with
  | line rest hb => simp
  | last hb hne => exact hne

theorem not_mem_content (h : Splits input p rest) : lineFeed ∉ content p := by
  cases h with
  | line rest hb => rwa [content_concat]
  | last hb hne => rwa [content_of_not_mem hb]

theorem length_lt (h : Splits input p rest) : rest.length < input.length := by
  have := List.length_pos_iff.2 h.ne_nil
  rw [← h.append_eq, List.length_append]
  omega

theorem cut_eq (h : Splits input p rest) : cut input = p :: cut rest := by
  cases h with
  | @line body rest hb =>
    induction body with
    | nil => simp [cut]
    | cons b body ih =>
      obtain ⟨hne, hb⟩ := not_or.1 (mt List.mem_cons.2 hb)
      simp [cut, Ne.symm hne, ih hb]
  | last hb hne =>
    induction input with
    | nil => exact absurd rfl hne
    | cons b body ih =>
      obtain ⟨hb', hb⟩ := not_or.1 (mt List.mem_cons.2 hb)
      by_cases hnil : body = []
      · simp [cut, hnil, Ne.symm hb']
      · simp [cut, Ne.symm hb', ih hb hnil]

end Splits

/-- Induction on input, one piece after the other. -/
theorem splits_induction {P : Bytes → Prop} (nil : P [])
    (piece : ∀ {input p rest}, Splits input p rest → P rest → P input) (input : Bytes) :
    P input := by
  induction hn : input.length using Nat.strongRecOn generalizing input with
  | ind n ih =>
    subst hn
    by_cases hne : input = []
    · exact hne ▸ nil
    · obtain ⟨p, rest, h⟩ := Splits.exists_of_ne_nil hne
      exact piece h (ih _ h.length_lt rest rfl)

/-- The pieces make up the input. -/
theorem flatten_cut (input : Bytes) : (cut input).flatten = input := by
  induction input using splits_induction with
  | nil => rfl
  | piece h ih => rw [h.cut_eq, List.flatten_cons, ih, h.append_eq]

/-- A piece has a line feed nowhere but at its end. -/
theorem ne_nil_of_mem_cut (h : p ∈ cut input) : p ≠ [] ∧ lineFeed ∉ content p := by
  induction input using splits_induction with
  | nil => cases h
  | piece hs ih =>
    rw [hs.cut_eq, List.mem_cons] at h
    obtain rfl | h := h
    · exact ⟨hs.ne_nil, hs.not_mem_content⟩
    · exact ih h

/-! ## Reading lines -/

theorem readLine_line (hb : lineFeed ∉ body) (hl : body.length < limit) (rest : Bytes) :
    readLine limit (body ++ lineFeed :: rest) = (body ++ [lineFeed], rest) := by
  induction body generalizing limit with
  | nil =>
    obtain ⟨n, rfl⟩ := Nat.exists_eq_succ_of_ne_zero (Nat.ne_of_gt hl)
    simp [readLine]
  | cons b body ih =>
    obtain ⟨hne, hb⟩ := not_or.1 (mt List.mem_cons.2 hb)
    cases limit with
    | zero => cases hl
    | succ n => simp [readLine, Ne.symm hne, ih hb (Nat.lt_of_succ_lt_succ hl)]

theorem readLine_last (hb : lineFeed ∉ body) (hl : body.length < limit) :
    readLine limit body = (body, []) := by
  induction body generalizing limit with
  | nil => cases limit <;> rfl
  | cons b body ih =>
    obtain ⟨hne, hb⟩ := not_or.1 (mt List.mem_cons.2 hb)
    cases limit with
    | zero => cases hl
    | succ n => simp [readLine, Ne.symm hne, ih hb (Nat.lt_of_succ_lt_succ hl)]

/-- As many bytes as the limit says are read where no line ends before. -/
theorem readLine_full (hb : lineFeed ∉ body) (rest : Bytes) :
    readLine body.length (body ++ rest) = (body, rest) := by
  induction body with
  | nil => rfl
  | cons b body ih =>
    obtain ⟨hne, hb⟩ := not_or.1 (mt List.mem_cons.2 hb)
    simp [readLine, Ne.symm hne, ih hb]

theorem readLine_nil (limit : Nat) : readLine limit [] = ([], []) := by
  cases limit <;> rfl

/-- A piece whose content is shorter than the limit is read as a whole. -/
theorem Splits.readLine_eq (h : Splits input p rest) (hl : (content p).length < limit) :
    readLine limit input = (p, rest) := by
  cases h with
  | line rest hb =>
    rw [content_concat] at hl
    exact readLine_line hb hl rest
  | last hb hne =>
    rw [content_of_not_mem hb] at hl
    exact readLine_last hb hl

/-- Of any other piece as much is read as the limit says. What is left of it is its own line feed at
least, or it is the last piece. -/
theorem Splits.exists_readLine (h : Splits input p rest) (hl : limit ≤ (content p).length) :
    ∃ start more, readLine limit input = (start, more) ∧ start.length = limit ∧
      lineFeed ∉ start ∧ (Splits more (p.drop limit) rest ∨ more = [] ∧ rest = []) := by
  cases h with
  | @line body rest hb =>
    rw [content_concat] at hl
    have hs : (body.take limit).length = limit := by simp [hl]
    have hm : lineFeed ∉ body.take limit := fun hm => hb (List.mem_of_mem_take hm)
    have hd : lineFeed ∉ body.drop limit := fun hm => hb (List.mem_of_mem_drop hm)
    refine ⟨body.take limit, body.drop limit ++ lineFeed :: rest, ?_, hs, hm, .inl ?_⟩
    · have := readLine_full hm (body.drop limit ++ lineFeed :: rest)
      rwa [← List.append_assoc, List.take_append_drop, hs] at this
    · rw [List.drop_append_of_le_length hl]
      exact .line rest hd
  | last hb hne =>
    rw [content_of_not_mem hb] at hl
    have hs : (input.take limit).length = limit := by simp [hl]
    have hm : lineFeed ∉ input.take limit := fun hm => hb (List.mem_of_mem_take hm)
    have hd : lineFeed ∉ input.drop limit := fun hm => hb (List.mem_of_mem_drop hm)
    refine ⟨input.take limit, input.drop limit, ?_, hs, hm, ?_⟩
    · have := readLine_full hm (input.drop limit)
      rwa [List.take_append_drop, hs] at this
    · by_cases hne : input.drop limit = []
      · exact .inr ⟨hne, rfl⟩
      · exact .inl (.last hd hne)

theorem skipLine_nil : skipLine [] = [] := by
  rw [skipLine, readLine_nil]

theorem skipLine_of_readLine {line : Bytes} (hr : readLine chunk input = (line, rest))
    (hne : line ≠ []) : skipLine input = if isWhole line then rest else skipLine rest := by
  rw [skipLine]
  split
  · next h => exact absurd (Prod.mk.inj (h.symm.trans hr)).1.symm hne
  · next h =>
    obtain ⟨rfl, rfl⟩ := Prod.mk.inj (h.symm.trans hr)
    rfl

/-- Passing over the rest of a line ends right behind its line feed. -/
theorem Splits.skipLine_eq (h : Splits input p rest) : skipLine input = rest := by
  -- On the length of the line: it ends within the next chunk, or it is shorter by one chunk.
  induction hn : input.length using Nat.strongRecOn generalizing input p with
  | ind n ih =>
    subst hn
    by_cases hl : (content p).length < chunk
    · rw [skipLine_of_readLine (h.readLine_eq hl) h.ne_nil]
      cases h with
      | line rest hb => rw [if_pos (isWhole_concat _)]
      | last hb hne => rw [isWhole_eq_false hb, skipLine_nil]; rfl
    · obtain ⟨start, more, hr, hs, hb, hmore⟩ := h.exists_readLine (Nat.le_of_not_lt hl)
      have hne : start ≠ [] := List.length_pos_iff.1 (hs ▸ by decide)
      rw [skipLine_of_readLine hr hne, isWhole_eq_false hb]
      obtain hsplit | ⟨rfl, rfl⟩ := hmore
      · exact ih _ (readLine_shorter hr hne) hsplit rfl
      · exact skipLine_nil

/-! ## Serving -/

/-- The answer to a piece of the input. The engine is not asked about one that is too long. -/
def answer (limit : Nat) (id : Text) (e : Engine) (p : Bytes) : Text × Engine :=
  if limit < (content p).length then ((tooLong limit).text, e)
  else e.handle (Utf8.decodeLossy p) (some id)

/-- The answers to pieces of the input, one after the other. -/
def answers (limit : Nat) (id : Text) (e : Engine) : List Bytes → List Text × Engine
  | [] => ([], e)
  | p :: ps =>
    let (response, e) := answer limit id e p
    let (responses, e) := answers limit id e ps
    (response :: responses, e)

/-- Answers as they are sent, one after the other. -/
def frames (responses : List Text) : Bytes := responses.flatMap frame

theorem serve_nil (limit : Nat) (id : Text) (sends : Option Nat) (e : Engine) :
    serve limit id sends [] e = ([], e) := by
  rw [serve, readLine_nil]

/-- Serving answers the first piece and goes on right behind it, if the answer can be sent. -/
theorem Splits.serve_eq (h : Splits input p rest) (limit : Nat) (id : Text) (sends : Option Nat)
    (e : Engine) :
    serve limit id sends input e =
      if sends = some 0 then ([], (answer limit id e p).2)
      else
        let (out, after) := serve limit id (sends.map (· - 1)) rest (answer limit id e p).2
        (frame (answer limit id e p).1 ++ out, after) := by
  rw [serve]
  by_cases hl : limit < (content p).length
  · obtain ⟨start, more, hr, hs, hb, hmore⟩ := h.exists_readLine (Nat.succ_le_of_lt hl)
    have hskip : skipLine more = rest := by
      obtain hsplit | ⟨rfl, rfl⟩ := hmore
      · exact hsplit.skipLine_eq
      · exact skipLine_nil
    have ha : answer limit id e p = ((tooLong limit).text, e) := if_pos hl
    have hlong : (limit < start.length && !isWhole start) = true := by
      simp [hs, isWhole_eq_false hb]
    rw [ha]
    split
    · next hr' => simp [← (Prod.mk.inj (hr'.symm.trans hr)).1] at hs
    · next hr' =>
      obtain ⟨rfl, rfl⟩ := Prod.mk.inj (hr'.symm.trans hr)
      rw [if_pos hlong, hskip]
  · have hr : readLine (limit + 1) input = (p, rest) := h.readLine_eq (by omega)
    have ha : answer limit id e p = e.handle (Utf8.decodeLossy p) (some id) := if_neg hl
    have hshort : (limit < p.length && !isWhole p) = false := by
      cases h with
      | line rest hb => simp [isWhole_concat]
      | last hb hne =>
        rw [content_of_not_mem hb] at hl
        simp [hl]
    rw [ha]
    split
    · next hr' => exact absurd (Prod.mk.inj (hr'.symm.trans hr)).1.symm h.ne_nil
    · next hr' =>
      obtain ⟨rfl, rfl⟩ := Prod.mk.inj (hr'.symm.trans hr)
      rw [hshort]
      rfl

/-- As long as answers can be sent, every piece is answered. -/
theorem serve_none (limit : Nat) (id : Text) (input : Bytes) (e : Engine) :
    serve limit id none input e =
      (frames (answers limit id e (cut input)).1, (answers limit id e (cut input)).2) := by
  induction input using splits_induction generalizing e with
  | nil => exact serve_nil limit id none e
  | piece h ih =>
    rw [h.serve_eq, h.cut_eq, if_neg nofun, Option.map_none, ih]
    rfl

/-- When an answer cannot be sent, its piece has been answered and no other one after it. -/
theorem serve_some (limit : Nat) (id : Text) (n : Nat) (input : Bytes) (e : Engine) :
    serve limit id (some n) input e =
      (frames (answers limit id e ((cut input).take n)).1,
        (answers limit id e ((cut input).take (n + 1))).2) := by
  induction input using splits_induction generalizing e n with
  | nil => simp [serve_nil, cut, answers, frames]
  | piece h ih =>
    rw [h.serve_eq, h.cut_eq]
    cases n with
    | zero => rfl
    | succ n =>
      rw [if_neg nofun, Option.map_some, Nat.add_sub_cancel, ih]
      rfl

/-! ## The whole connection -/

theorem answer_sameOpen (limit : Nat) (id : Text) (e : Engine) (p : Bytes) :
    Engine.SameOpen e (answer limit id e p).2 := by
  unfold answer
  split
  · exact .refl e
  · exact e.execute_sameOpen _ _

theorem answers_sameOpen (limit : Nat) (id : Text) (e : Engine) (ps : List Bytes) :
    Engine.SameOpen e (answers limit id e ps).2 := by
  induction ps generalizing e with
  | nil => exact .refl e
  | cons p ps ih => exact (answer_sameOpen limit id e p).trans (ih _)

/-- Once the session of a connection is closed, what is open is what was open before. -/
theorem closeSession_answers_has (limit : Nat) (e : Engine) (ps : List Bytes) (other : Text) :
    let id := e.openSession.1
    ((answers limit id e.openSession.2 ps).2.closeSession id).2.sessions.has other =
      (id != other && e.sessions.has other) := by
  intro id
  rw [Engine.closeSession_has e.openSession_ne_defaultId, answers_sameOpen, Engine.openSession_has]
  cases h : id == other <;> simp [bne, h, id]

theorem run_none (limit : Nat) (input : Bytes) (e : Engine) :
    run limit none input e =
      (frames (answers limit e.openSession.1 e.openSession.2 (cut input)).1,
        ((answers limit e.openSession.1 e.openSession.2 (cut input)).2.closeSession
          e.openSession.1).2) := by
  simp only [run, serve_none]

theorem run_some (limit n : Nat) (input : Bytes) (e : Engine) :
    run limit (some n) input e =
      (frames (answers limit e.openSession.1 e.openSession.2 ((cut input).take n)).1,
        ((answers limit e.openSession.1 e.openSession.2 ((cut input).take (n + 1))).2.closeSession
          e.openSession.1).2) := by
  simp only [run, serve_some]

/-- On a connection every piece of the input gets its answer, in order. If the answer behind the
first `n` cannot be sent, its piece is the last one that was answered. The session of the connection
is then closed, and every other one is open if it was open before. -/
theorem run_eq_answers (limit : Nat) (input : Bytes) (e : Engine) :
    let id := e.openSession.1
    let opened := e.openSession.2
    run limit none input e =
        (frames (answers limit id opened (cut input)).1,
          ((answers limit id opened (cut input)).2.closeSession id).2) ∧
      (∀ n, run limit (some n) input e =
        (frames (answers limit id opened ((cut input).take n)).1,
          ((answers limit id opened ((cut input).take (n + 1))).2.closeSession id).2)) ∧
      ∀ sends other, (run limit sends input e).2.sessions.has other =
        (id != other && e.sessions.has other) := by
  refine ⟨run_none limit input e, fun n => run_some limit n input e, fun sends other => ?_⟩
  cases sends with
  | none =>
    rw [run_none]
    exact closeSession_answers_has limit e _ other
  | some n =>
    rw [run_some]
    exact closeSession_answers_has limit e _ other

end Tabular.Connection
