import Tabular.Proofs.Engine.Sound
import Tabular.Proofs.Statement.LetterCase

/-!
# Answers that tell of an error

An answer to a command that fails begins with the tag for errors. It is one line, on however many
lines the command stands, unless a text with a line break is put into its message as it is. Such a
text is the id of the session, a path or name of a file, or text that stands in quotes in the
command.
-/

namespace Tabular

/-! ## Messages in answers -/

namespace Outcome

variable {o : Outcome} {f : Failure}

theorem response_of_error (h : o.result = .error f) :
    o.response = errorTag ++ [' '] ++ (failureMessage f).text := by
  simp only [response, h]

/-- The tag is one line, and so are the words for an internal error. -/
theorem oneLine_response_iff (h : o.result = .error f) :
    o.response.OneLine ↔ ∀ t ∈ f.texts, t.OneLine := by
  have hmessage : (failureMessage f).text.OneLine ↔ f.message.text.OneLine := by
    unfold failureMessage
    split
    · exact Iff.rfl
    · have hwords : Text.OneLine (Phrase.words "Internal error: ").text := by decide
      rw [Message.text_cons, Text.oneLine_append, and_iff_right hwords]
  have htag : Text.OneLine (errorTag ++ [' ']) := by decide
  rw [response_of_error h, Text.oneLine_append, and_iff_right htag, hmessage]
  exact Failure.oneLine_message_iff

end Outcome

/-! ## Texts of a command -/

namespace Statement

/-- The text stands in quotes in the command; it may be taken with the quotes. -/
def Quotes (command t : Text) : Prop :=
  ∃ ls inner, lexemes? command = some ls ∧ .string inner ∈ ls ∧
    (t = inner ∨ t = (Lexeme.string inner).text)

variable {Q : Text → Prop} {command body : Text}

/-- What is left between the blanks at the ends of a text does not begin with one. -/
theorem not_isBlank_of_trim {t rest : Text} {c : Char} (h : Text.trim t = c :: rest) :
    Text.isBlank c = false := by
  have hprefix : Text.trim t <+: t.dropWhile Text.isBlank := by
    rw [Text.trim, Text.trimBy, ← List.reverse_suffix, List.reverse_reverse]
    exact List.dropWhile_suffix _
  obtain ⟨after, hafter⟩ := hprefix
  rw [h, List.cons_append] at hafter
  have hstop := List.head?_dropWhile_not Text.isBlank t
  rwa [← hafter] at hstop

/-- A command that ends as one has a token. -/
theorem scan_body_ne_nil (h : commandBody command = .ok body) : Token.scan body ≠ .ok [] := by
  unfold commandBody at h
  dsimp only at h
  split at h
  · cases h
  split at h
  · cases h
  split at h
  · cases h
  next hne =>
  cases h
  obtain ⟨c, rest, hbody⟩ := List.exists_cons_of_ne_nil (by simpa using hne)
  rw [hbody, Token.scan, Token.scanFrom, if_neg (by simp [not_isBlank_of_trim hbody])]
  split
  · intro hnil
    cases hnil
  · intro hnil
    obtain ⟨ts, -, hts⟩ := Except.map_eq_ok_iff.1 hnil
    cases hts

/-- A command is turned down with texts within one line and quoted texts of its own, and the
statement in it is made of such texts. -/
theorem ofCommand_tells (hQ : ∀ t : Text, t.OneLine → Q t) (hquotes : ∀ t, Quotes command t → Q t) :
    (ofCommand command).Gives (Tells Q) fun e => ∀ t ∈ e.texts, Q t := by
  unfold ofCommand
  split
  · next e he =>
    change ∀ t ∈ e.texts, Q t
    rw [(commandBody_gives command).of_error he]
    exact nofun
  next body hbody =>
  refine ofText_gives hQ ?_ fun hnil => absurd hnil (scan_body_ne_nil hbody)
  cases hscan : Token.scan body with
  | error e => exact (Token.scan_quoted body).of_error hscan
  | ok ts =>
    intro k hk
    obtain hline | ⟨inner, hinner⟩ := Token.oneLine_or_string hscan hk
    · have htells := Condition.tells_of_oneLine hline
      exact ⟨hQ _ htells.text, fun v hv => hQ _ (htells.literal v hv)⟩
    · have hquoted (t : Text) (ht : t = inner ∨ t = (Lexeme.string inner).text) : Q t := by
        refine hquotes t ⟨ts.map Token.lexeme, inner, ?_, ?_, ht⟩
        · rw [lexemes?, hbody]
          exact Token.lexemes?_eq_some_iff.2 ⟨ts, hscan, rfl⟩
        · exact hinner ▸ List.mem_map_of_mem hk
      constructor
      · exact hquoted _ (.inr (by rw [hinner]))
      · intro v hv
        rw [hinner, Lexeme.literal?_string] at hv
        cases hv
        exact hquoted _ (.inl rfl)

end Statement

namespace Engine

/-- Whatever has happened, whichever session is asked for and whatever the command is, on however
many lines: an answer that tells of an error begins with the tag for errors. It is more than one line
if and only if a text with a line break is put into its message as it is, and then this text is the
id of the session, a path or name of a file, or text that stands in quotes in the command. -/
theorem error_response_broken_iff {o : Options} (ho : o.suffix ≠ []) (disk : Disk)
    (turns : List Turn) (command : Text) (key : Option Text) {f : Failure}
    (hf : (((start o disk).takeAll turns).execute command key).1.result = .error f) :
    let response := (((start o disk).takeAll turns).execute command key).1.response
    Outcome.errorTag ++ [' '] <+: response ∧
      (¬ response.OneLine ↔ ∃ t ∈ f.texts, ¬ t.OneLine ∧
        (key = some t ∨ t ∈ f.places ∨ Statement.Quotes command t)) := by
  intro response
  have hresponse : response = Outcome.errorTag ++ [' '] ++ (Outcome.failureMessage f).text :=
    Outcome.response_of_error hf
  let Q : Text → Prop := fun t => t.OneLine ∨ key = some t ∨ Statement.Quotes command t
  have hkey : Q (key.getD defaultId) := by
    cases key with
    | none => exact .inl (by decide)
    | some id => exact .inr (.inl rfl)
  have htold : f.Tells Q := ((start_sound ho disk).takeAll turns).execute_gives (fun _ => .inl)
    (Statement.ofCommand_tells (fun _ => .inl) fun _ h => .inr (.inr h)) hkey |>.of_error hf
  refine ⟨hresponse ▸ List.prefix_append _ _, ?_⟩
  rw [Outcome.oneLine_response_iff hf]
  constructor
  · intro hbroken
    obtain ⟨t, hmem, hline⟩ : ∃ t ∈ f.texts, ¬ t.OneLine := by simpa using hbroken
    refine ⟨t, hmem, hline, ?_⟩
    obtain (h | h | h) | h := htold t hmem
    · exact absurd h hline
    · exact .inl h
    · exact .inr (.inr h)
    · exact .inr (.inl h)
  · rintro ⟨t, hmem, hline, -⟩ hall
    exact hline (hall t hmem)

/-- A command on two lines, about a table that is not there. -/
theorem error_response_broken_iff_of_lines :
    let o : Options := ⟨['.', 't', 'a', 'b'], false, .whole, ['1']⟩
    let e := (start o (Disk.empty ['r'])).takeAll
      (["CREATE DATABASE d;", "USE d;"].map fun c => .happening (.event (.command c.toList none)))
    let outcome := (e.execute "SELECT *\nFROM t;".toList none).1
    o.suffix ≠ [] ∧ outcome.result = .error (.rejected (.unknownTable ['t'])) ∧
      Outcome.errorTag ++ [' '] <+: outcome.response ∧ outcome.response.OneLine := by
  intro o e outcome
  have hf : outcome.result = .error (.rejected (.unknownTable ['t'])) := by decide +kernel
  obtain ⟨htag, hbroken⟩ := error_response_broken_iff (by decide) (Disk.empty ['r']) _ _ none hf
  refine ⟨by decide, hf, htag, ?_⟩
  by_contra hline
  obtain ⟨t, ht, hbreaks, -⟩ := hbroken.1 hline
  cases List.mem_singleton.1 ht
  exact hbreaks (by decide)

/-- Quoted text with a line break is put into the message as it is, and the answer is two lines. -/
theorem quoted_break_answered :
    let e := (start ⟨['.', 't', 'a', 'b'], false, .whole, ['1']⟩ (Disk.empty ['r'])).takeAll
      (["CREATE DATABASE d;", "USE d;", "CREATE TABLE t (a);"].map
        fun c => .happening (.event (.command c.toList none)))
    let outcome := (e.execute "SELECT * FROM t WHERE a > 'x\ny';".toList none).1
    outcome.success = false ∧
      outcome.response = "[ERROR] Operator > needs a numeric operand, got x\ny".toList ∧
      ¬ outcome.response.OneLine := by
  decide +kernel

end Engine

end Tabular
