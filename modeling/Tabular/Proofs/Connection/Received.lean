import Tabular.Proofs.Connection.Framing
import Tabular.Proofs.Engine.Sound
import Tabular.Proofs.Text.Lossy

/-!
# Answers as they are received

A client takes the answers of a connection as they were made, unless one of them has a line that
looks like the end of an answer. Of the answers to commands only two kinds can have one: what a
statement shows, if the only cell of a row is the end mark, and what tells of a failure with a path
or a name of a file that holds a line break.
-/

namespace Tabular

open Connection

/-! ## Lines of answers -/

namespace Connection

theorem hasMark_iff_of_oneLine {r : Text} (h : r.OneLine) : HasMark r ↔ r = markLine := by
  rw [HasMark, Text.pieces, List.splitOn_eq_singleton h, List.mem_singleton, eq_comm]

end Connection

namespace Outcome

/-- The answer has a line that looks like its end. -/
inductive Misleads (o : Outcome) : Prop
  | row {r : Result} (result : o.result = .ok r) (shown : o.label.hasRows)
    (row : [markLine] ∈ r.rowTexts) : Misleads o
  | place {f : Failure} {p : Text} (result : o.result = .error f) (place : p ∈ f.places)
    (breaks : ¬ p.OneLine) (marked : HasMark o.response) : Misleads o

theorem line_eq_markLine_iff {fields : List Text} :
    line fields = markLine ↔ fields = [markLine] := by
  have htab : '\t' ∉ markLine := by decide
  rcases fields with _ | ⟨f, _ | ⟨g, fs⟩⟩
  · simp [line, Text.join, markLine]
  · simp [line, Text.join]
  · refine iff_of_false (fun h => htab ?_) (by simp)
    rw [← h]
    simp [line, Text.join, List.intercalate_cons_cons]

theorem oneLine_line {fields : List Text} (h : ∀ f ∈ fields, f.OneLine) :
    (line fields).OneLine := by
  intro hm
  obtain he | ⟨f, hf, hm⟩ := Text.mem_join hm
  · cases he
  · exact h f hf hm

variable {o : Outcome}

theorem hasMark_shown_iff {r : Result} (h : Table.Legible r.header r.rows) :
    HasMark (Text.join ['\n'] (okTag :: line r.header :: r.rowTexts.map line)) ↔
      [markLine] ∈ r.rowTexts := by
  have htexts : ∀ fields ∈ r.rowTexts, ∀ f ∈ fields, f.OneLine := by
    intro fields hfields f hf
    obtain ⟨row, hrow, rfl⟩ := List.mem_map.1 hfields
    obtain ⟨v, hv, rfl⟩ := List.mem_map.1 hf
    exact h.rows_line row hrow v hv
  have hlines : ∀ l ∈ okTag :: line r.header :: r.rowTexts.map line, l.OneLine := by
    have htag : okTag.OneLine := by decide
    have hheader : (line r.header).OneLine := oneLine_line h.names_line
    refine List.forall_mem_cons.2 ⟨htag, List.forall_mem_cons.2 ⟨hheader, fun l hl => ?_⟩⟩
    obtain ⟨fields, hfields, rfl⟩ := List.mem_map.1 hl
    exact oneLine_line (htexts fields hfields)
  -- A header of one name is that of a column, and no column is found by the mark.
  have hheader : line r.header ≠ markLine := by
    intro he
    have hplain := h.single_plain _ (line_eq_markLine_iff.1 he)
    exact absurd hplain (by decide)
  rw [HasMark, Text.pieces_join (by simp) hlines, List.mem_cons, List.mem_cons, List.mem_map]
  constructor
  · rintro (he | he | ⟨fields, hfields, he⟩)
    · exact absurd he (by decide)
    · exact absurd he.symm hheader
    · exact line_eq_markLine_iff.1 he ▸ hfields
  · intro hrow
    exact .inr (.inr ⟨[markLine], hrow, line_eq_markLine_iff.2 rfl⟩)

/-- An answer that is told in lines has one that looks like its end exactly if it misleads. -/
theorem hasMark_response_iff
    (h : o.result.Gives (fun r => Table.Legible r.header r.rows) Failure.Tidy) :
    HasMark o.response ↔ o.Misleads := by
  cases hr : o.result with
  | ok r =>
    have hlegible := h.of_ok hr
    constructor
    · intro hmark
      simp only [response, hr] at hmark
      split at hmark
      · next hshown => exact .row hr hshown ((hasMark_shown_iff hlegible).1 hmark)
      · exact absurd ((hasMark_iff_of_oneLine (by decide)).1 hmark) (by decide)
    · rintro (⟨result, shown, row⟩ | ⟨result⟩)
      · cases hr.symm.trans result
        simp only [response, hr, if_pos shown]
        exact (hasMark_shown_iff hlegible).2 row
      · cases hr.symm.trans result
  | error f =>
    constructor
    · intro hmark
      have hbreaks : ¬ f.message.text.OneLine := by
        intro hline
        have hmessage : (failureMessage f).text.OneLine := by
          unfold failureMessage
          split
          · exact hline
          · exact Text.oneLine_append.2 ⟨by decide, hline⟩
        have hresponse : o.response = errorTag ++ [' '] ++ (failureMessage f).text := by
          simp only [response, hr]
        have htag : Text.OneLine (errorTag ++ [' ']) := by decide
        rw [hresponse, hasMark_iff_of_oneLine (Text.oneLine_append.2 ⟨htag, hmessage⟩)] at hmark
        exact absurd (congrArg List.head? hmark) (by simp [errorTag, markLine])
      obtain ⟨p, hp, hline⟩ := (h.of_error hr).exists_place hbreaks
      exact .place hr hp hline hmark
    · rintro (⟨result⟩ | ⟨-, -, -, marked⟩)
      · cases hr.symm.trans result
      · exact marked

end Outcome

/-! ## Answers to commands of one line -/

theorem Engine.Sound.outcome_gives {e : Engine} (he : e.Sound) {command id : Text}
    (hc : (Text.trim command).OneLine) (hid : id.OneLine) :
    (e.execute command (some id)).1.result.Gives (fun r => Table.Legible r.header r.rows)
      Failure.Tidy :=
  he.execute_gives (fun _ h => h) (Statement.ofCommand_gives hc) hid

namespace Connection

variable {limit : Nat} {id : Text} {e : Engine} {p : Bytes} {ps : List Bytes}

/-- What the commands in pieces of the input come to, one after the other. -/
def outcomes (limit : Nat) (id : Text) (e : Engine) : List Bytes → List Outcome
  | [] => []
  | p :: ps =>
    if limit < (content p).length then outcomes limit id e ps
    else
      let (o, e) := e.execute (Utf8.decodeLossy p) (some id)
      o :: outcomes limit id e ps

/-- A piece of the input is read as a command of one line. -/
theorem oneLine_command {input : Bytes} (h : p ∈ cut input) :
    (Text.trim (Utf8.decodeLossy p)).OneLine := by
  obtain ⟨-, hbody⟩ := ne_nil_of_mem_cut h
  unfold content at hbody
  split at hbody
  · next hwhole =>
    have hp : p.dropLast ++ [lineFeed] = p :=
      List.dropLast_append_getLast? _ (beq_iff_eq.1 hwhole)
    obtain ⟨t, ht, he⟩ := Utf8.exists_decodeLossy_concat hbody
    rw [← hp, show [lineFeed] = [10] from rfl, he, Text.trim_concat (by decide)]
    exact ht.subset fun _ => Text.mem_trimBy
  · exact (Utf8.oneLine_decodeLossy hbody).subset fun _ => Text.mem_trimBy

theorem not_hasMark_tooLong (limit : Nat) : ¬ HasMark (tooLong limit).text := by
  have hline : (tooLong limit).text.OneLine := by
    simp [tooLong, Phrase.text, Text.oneLine_ofNat]
  rw [hasMark_iff_of_oneLine hline]
  intro h
  exact absurd (congrArg List.head? h) (by simp [tooLong, Phrase.text, markLine])

/-- No answer has a line that looks like its end exactly if nothing that the commands come to
misleads. -/
theorem answers_unmarked_iff (he : e.Sound) (hid : id.OneLine)
    (hps : ∀ p ∈ ps, (Text.trim (Utf8.decodeLossy p)).OneLine) :
    (∀ r ∈ (answers limit id e ps).1, ¬ HasMark r) ↔
      ∀ o ∈ outcomes limit id e ps, ¬ o.Misleads := by
  induction ps generalizing e with
  | nil => exact iff_of_true (fun _ h => nomatch h) fun _ h => nomatch h
  | cons p ps ih =>
    obtain ⟨hp, hps⟩ := List.forall_mem_cons.1 hps
    by_cases hl : limit < (content p).length
    · simp only [answers, answer, outcomes, if_pos hl]
      rw [List.forall_mem_cons, ih he hps]
      exact and_iff_right (not_hasMark_tooLong limit)
    · simp only [answers, answer, outcomes, if_neg hl, Engine.handle]
      rw [List.forall_mem_cons, List.forall_mem_cons, ih (he.execute _ _) hps]
      exact and_congr_left' (Outcome.hasMark_response_iff (he.outcome_gives hp hid)).not

theorem oneLine_sessionId (n : Nat) : (Engine.sessionId n).OneLine := by
  unfold Engine.sessionId
  refine Text.oneLine_append.2 ⟨fun h => ?_, Text.oneLine_ofNat n⟩
  exact absurd (List.eq_of_mem_replicate h) (by decide)

/-- Whatever has happened and whatever is sent on a connection, a client that takes the lines up to
each that is nothing but the end mark takes the answers as they were made, one by one, exactly if no
command comes to something that misleads it: to rows of which one is nothing but the end mark, or to
a failure told with a path or a name of a file that holds such a line. -/
theorem received_run_iff {o : Engine.Options} (ho : o.suffix ≠ []) (disk : Disk)
    (turns : List Turn) (limit : Nat) (sends : Option Nat) (input : Bytes) :
    let e := (Engine.start o disk).takeAll turns
    let id := e.openSession.1
    let opened := e.openSession.2
    let pieces := sends.elim (cut input) (cut input).take
    received (run limit sends input e).1 = (answers limit id opened pieces).1.map Utf8.encode ↔
      ∀ outcome ∈ outcomes limit id opened pieces, ¬ outcome.Misleads := by
  intro e id opened pieces
  have he : e.Sound := (Engine.start_sound ho disk).takeAll turns
  have hopened : opened.Sound := ⟨he.catalog, he.chosen.openSession⟩
  have hpieces : ∀ p ∈ pieces, (Text.trim (Utf8.decodeLossy p)).OneLine := by
    intro p hp
    cases sends with
    | none => exact oneLine_command hp
    | some n => exact oneLine_command (List.mem_of_mem_take hp)
  have hrun : (run limit sends input e).1 = frames (answers limit id opened pieces).1 := by
    cases sends with
    | none => rw [run_none]; rfl
    | some n => rw [run_some]; rfl
  rw [hrun, received_frames_eq_iff]
  exact answers_unmarked_iff hopened (oneLine_sessionId _) hpieces

/-- A cell that is nothing but the end mark is stored and shown, and the answer that shows it comes
out as two. -/
theorem received_mark_cell :
    let o : Engine.Options := ⟨['.', 't', 'a', 'b'], false, .whole, ['1']⟩
    let e := (Engine.start o (Disk.empty ['r'])).takeAll []
    let input := Utf8.encode ("CREATE DATABASE d;\nUSE d;\nCREATE TABLE t (a);\n".toList ++
      "INSERT INTO t VALUES ('\x04');\nSELECT a FROM t;\n".toList)
    let answered := (answers 100 e.openSession.1 e.openSession.2 (cut input)).1
    answered = ["[OK]", "[OK]", "[OK]", "[OK]", "[OK]\na\n\x04"].map String.toList ∧
      received (frames answered) = ["[OK]", "[OK]", "[OK]", "[OK]", "[OK]\na", ""].map
        fun r : String => Utf8.encode r.toList := by
  decide +kernel

theorem ne_of_length_received {responses : List Text}
    (h : (received (frames responses)).length ≠ responses.length) :
    received (frames responses) ≠ responses.map Utf8.encode := by
  intro he
  rw [he, List.length_map] at h
  exact h rfl

theorem received_run_iff_of_mark_cell :
    let o : Engine.Options := ⟨['.', 't', 'a', 'b'], false, .whole, ['1']⟩
    let e := (Engine.start o (Disk.empty ['r'])).takeAll []
    let input := Utf8.encode ("CREATE DATABASE d;\nUSE d;\nCREATE TABLE t (a);\n".toList ++
      "INSERT INTO t VALUES ('\x04');\nSELECT a FROM t;\n".toList)
    o.suffix ≠ [] ∧
      ∃ outcome ∈ outcomes 100 e.openSession.1 e.openSession.2 (cut input), outcome.Misleads := by
  intro o e input
  have ho : o.suffix ≠ [] := by decide
  have hiff : received (run 100 none input e).1 =
      (answers 100 e.openSession.1 e.openSession.2 (cut input)).1.map Utf8.encode ↔
      ∀ outcome ∈ outcomes 100 e.openSession.1 e.openSession.2 (cut input), ¬ outcome.Misleads :=
    received_run_iff ho (Disk.empty ['r']) [] 100 none input
  obtain ⟨hanswers, hreceived⟩ :
      (answers 100 e.openSession.1 e.openSession.2 (cut input)).1 = _ ∧
        received (frames (answers 100 e.openSession.1 e.openSession.2 (cut input)).1) = _ :=
    received_mark_cell
  clear_value e input
  rw [run_none] at hiff
  refine ⟨ho, ?_⟩
  by_contra hnone
  refine ne_of_length_received ?_ (hiff.2 fun outcome h hm => hnone ⟨outcome, h, hm⟩)
  rw [hreceived, hanswers]
  decide

/-- So a client does not always take the answers that were made. -/
theorem mark_cell_not_received :
    let o : Engine.Options := ⟨['.', 't', 'a', 'b'], false, .whole, ['1']⟩
    let e := (Engine.start o (Disk.empty ['r'])).takeAll []
    let input := Utf8.encode ("CREATE DATABASE d;\nUSE d;\nCREATE TABLE t (a);\n".toList ++
      "INSERT INTO t VALUES ('\x04');\nSELECT a FROM t;\n".toList)
    received (run 100 none input e).1 ≠
      (answers 100 e.openSession.1 e.openSession.2 (cut input)).1.map Utf8.encode := by
  intro o e input
  obtain ⟨hanswers, hreceived⟩ :
      (answers 100 e.openSession.1 e.openSession.2 (cut input)).1 = _ ∧
        received (frames (answers 100 e.openSession.1 e.openSession.2 (cut input)).1) = _ :=
    received_mark_cell
  clear_value e input
  rw [run_none]
  apply ne_of_length_received
  rw [hreceived, hanswers]
  decide

end Connection

end Tabular
