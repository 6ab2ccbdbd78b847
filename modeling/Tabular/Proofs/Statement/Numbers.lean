import Tabular.Engine
import Tabular.Proofs.Table.Sound
import Tabular.Proofs.Token.Scanned

/-!
# Numbers in a statement

The number of a statement is a sign or none, digits, and a fraction of any digit marks. It is a
numeral if the digit marks are decimal digits; then it is stored and compared as the number that it
denotes. Otherwise it is text, although no quotes stand around it.
-/

namespace Tabular

/-- All digit marks of the text are decimal digits. -/
def Text.OnlyDecimals (t : Text) : Prop := ∀ c ∈ t, isDigitMark c → isDecimal c

instance (t : Text) : Decidable t.OnlyDecimals :=
  List.decidableBAll (fun c => Text.isDigitMark c → Text.isDecimal c) t

namespace Lexeme

/-! ## How a number is spelled -/

/-- A sign, or none. -/
def IsSign (sign : Text) : Prop := sign = [] ∨ sign = ['+'] ∨ sign = ['-']

/-- Digits of ASCII, at least one. -/
structure IsWhole (ds : Text) : Prop where
  nonempty : ds ≠ []
  digits : ∀ d ∈ ds, Text.isAsciiDigit d

/-- The spelling of a number in a statement. -/
inductive IsNumberText : Text → Prop
  | whole {sign ds : Text} (hs : IsSign sign) (hd : IsWhole ds) : IsNumberText (sign ++ ds)
  | fractional {sign ds ms : Text} (hs : IsSign sign) (hd : IsWhole ds) (hne : ms ≠ [])
    (hm : ∀ m ∈ ms, Text.isDigitMark m) : IsNumberText (sign ++ (ds ++ '.' :: ms))

/-- Of a lexeme that is read, only a number has something to be said. -/
abbrev ReadsNumber (x : Except CommandFault (Lexeme × Nat)) : Prop :=
  x.Gives (fun r => ∀ n, r.1 = .number n → IsNumberText n) fun _ => True

theorem readNumber_isNumberText (position : Nat) {sign ds : Text} (rest : Text) (hs : IsSign sign)
    (hd : IsWhole ds) : ReadsNumber (readNumber position (sign ++ ds) rest) := by
  unfold readNumber
  dsimp only
  split
  · trivial
  · rintro n ⟨⟩
    unfold fraction
    split
    · next t =>
      dsimp only
      split
      · rw [List.append_nil]
        exact .whole hs hd
      · next hne =>
        rw [List.append_assoc]
        exact .fractional hs hd (by simpa using hne) (List.all_eq_true.1 List.all_takeWhile)
    · rw [List.append_nil]
      exact .whole hs hd

theorem wordLexeme_ne_number (word n : Text) : wordLexeme word ≠ .number n := by
  unfold wordLexeme
  split <;> nofun

theorem read_isNumberText (position : Nat) (c : Char) (rest : Text) :
    ReadsNumber (read position c rest) := by
  unfold read
  split
  · unfold readQuoted
    dsimp only
    split
    · trivial
    · nofun
  split
  · next hsign =>
    unfold readSigned
    dsimp only
    split
    · next hrun =>
      have hs : IsSign [c] := by
        obtain ⟨rfl | rfl, -⟩ := hsign
        · exact .inr (.inl rfl)
        · exact .inr (.inr rfl)
      have hd : IsWhole (rest.takeWhile Text.isWordChar) := by
        simp only [Bool.and_eq_true, Bool.not_eq_true', List.isEmpty_eq_false_iff] at hrun
        exact ⟨hrun.1, List.all_eq_true.1 hrun.2⟩
      exact Except.gives_map.2 (readNumber_isNumberText position _ hs hd)
    · trivial
  split
  · unfold readWord
    dsimp only
    split
    · next hrun =>
      have hd : IsWhole (c :: rest.takeWhile Text.isWordChar) :=
        ⟨List.cons_ne_nil _ _, List.all_eq_true.1 hrun⟩
      exact Except.gives_map.2 (readNumber_isNumberText position _ (.inl rfl) hd)
    · exact fun n hn => absurd hn (wordLexeme_ne_number _ n)
  · unfold readSign
    dsimp only
    split
    all_goals first
      | (split <;> first | trivial | nofun)
      | trivial
      | nofun

end Lexeme

open Lexeme

/-! ## Which numbers are numerals -/

namespace Numeral

section Spelling

variable {sign ds ms : Text}

theorem splitSign_signed (hs : IsSign sign) (hd : IsWhole ds) (rest : Text) :
    (splitSign (sign ++ (ds ++ rest))).2 = ds ++ rest := by
  obtain ⟨d, ds, rfl⟩ := List.exists_cons_of_ne_nil hd.nonempty
  have hd := hd.digits d List.mem_cons_self
  have hp : d ≠ '+' := by rintro rfl; exact absurd hd (by decide)
  have hm : d ≠ '-' := by rintro rfl; exact absurd hd (by decide)
  obtain rfl | rfl | rfl := hs
  · simp only [List.nil_append, List.cons_append]
    unfold splitSign
    split
    · next he => exact absurd (List.cons.inj he).1 hp
    · next he => exact absurd (List.cons.inj he).1 hm
    · rfl
  · rfl
  · rfl

theorem spanDigits_whole (hd : IsWhole ds) (rest : Text)
    (hrest : rest.head?.all fun c => !Text.isDecimal c) : spanDigits (ds ++ rest) = (ds, rest) := by
  have hds : ∀ c ∈ ds, Text.isDecimal c :=
    fun c hc => Text.isDecimal_of_isAsciiDigit (hd.digits c hc)
  have hend : rest.takeWhile Text.isDecimal = [] ∧ rest.dropWhile Text.isDecimal = rest := by
    cases rest with
    | nil => exact ⟨rfl, rfl⟩
    | cons c rest =>
      have hc : ¬ Text.isDecimal c := by simpa using hrest
      exact ⟨List.takeWhile_cons_of_neg hc, List.dropWhile_cons_of_neg hc⟩
  rw [spanDigits, List.takeWhile_append_of_pos hds, List.dropWhile_append_of_pos hds, hend.1,
    hend.2, List.append_nil]

theorem isNumeral_whole (hs : IsSign sign) (hd : IsWhole ds) : isNumeral (sign ++ ds) := by
  have hsplit := splitSign_signed hs hd []
  have hspan := spanDigits_whole hd [] rfl
  rw [List.append_nil] at hsplit hspan
  simp [isNumeral, ofText?, hsplit, hspan, hd.nonempty]

theorem isNumeral_fractional (hs : IsSign sign) (hd : IsWhole ds) (hne : ms ≠ []) :
    isNumeral (sign ++ (ds ++ '.' :: ms)) ↔ ∀ m ∈ ms, Text.isDecimal m := by
  have hspan := spanDigits_whole hd ('.' :: ms) rfl
  simp [isNumeral, ofText?, splitSign_signed hs hd, hspan, hd.nonempty, fraction?, hne]

end Spelling

/-- The number of a statement is a numeral if its digit marks are decimal digits. -/
theorem isNumeral_iff_onlyDecimals {n : Text} (h : IsNumberText n) :
    isNumeral n ↔ n.OnlyDecimals := by
  have hsigned {sign : Text} (hs : IsSign sign) : sign.OnlyDecimals := by
    obtain rfl | rfl | rfl := hs <;> decide
  have hwhole {ds : Text} (hd : IsWhole ds) : ds.OnlyDecimals :=
    fun c hc _ => Text.isDecimal_of_isAsciiDigit (hd.digits c hc)
  have happend (s t : Text) : (s ++ t).OnlyDecimals ↔ s.OnlyDecimals ∧ t.OnlyDecimals :=
    List.forall_mem_append
  cases h with
  | whole hs hd =>
    rw [happend]
    exact iff_of_true (isNumeral_whole hs hd) ⟨hsigned hs, hwhole hd⟩
  | @fractional sign ds ms hs hd hne hm =>
    have hpoint : Text.OnlyDecimals ('.' :: ms) ↔ ms.OnlyDecimals := by
      rw [Text.OnlyDecimals, List.forall_mem_cons]
      exact and_iff_right (by decide)
    rw [isNumeral_fractional hs hd hne, happend, happend, hpoint]
    constructor
    · exact fun h => ⟨hsigned hs, hwhole hd, fun m hmem _ => h m hmem⟩
    · exact fun h m hmem => h.2.2 m hmem (hm m hmem)

end Numeral

/-! ## What a number stands for -/

namespace Lexeme.IsNumberText

variable {n : Text}

/-- A number begins with a sign or a digit. -/
theorem exists_cons (h : IsNumberText n) :
    ∃ c t, n = c :: t ∧ (c = '+' ∨ c = '-' ∨ Text.isAsciiDigit c) := by
  have hbegins {sign ds : Text} (hs : IsSign sign) (hd : IsWhole ds) (rest : Text) :
      ∃ c t, sign ++ (ds ++ rest) = c :: t ∧ (c = '+' ∨ c = '-' ∨ Text.isAsciiDigit c) := by
    obtain rfl | rfl | rfl := hs
    · obtain ⟨d, ds, rfl⟩ := List.exists_cons_of_ne_nil hd.nonempty
      exact ⟨d, ds ++ rest, rfl, .inr (.inr (hd.digits d List.mem_cons_self))⟩
    · exact ⟨'+', ds ++ rest, rfl, .inl rfl⟩
    · exact ⟨'-', ds ++ rest, rfl, .inr (.inl rfl)⟩
  cases h with
  | whole hs hd => simpa using hbegins hs hd []
  | fractional hs hd => exact hbegins hs hd _

/-- It is no keyword and no quoted text. -/
theorem ofLiteral_eq (h : IsNumberText n) :
    Value.ofLiteral n = if Numeral.isNumeral n then ⟨.number, n⟩ else .string n := by
  obtain ⟨c, t, rfl, hc⟩ := h.exists_cons
  have hword : Keyword.ofWord? (c :: t) = none := by
    obtain rfl | rfl | hc := hc
    · exact Keyword.ofWord?_of_head (by decide) (by decide) t
    · exact Keyword.ofWord?_of_head (by decide) (by decide) t
    · exact Keyword.ofWord?_of_digit hc t
  have hquote : Value.unquote? (c :: t) = none := by
    unfold Value.unquote?
    split
    · next he =>
      cases (List.cons.inj he).1
      exact absurd hc (by decide)
    · rfl
  rw [Value.ofLiteral, hquote]
  dsimp only
  rw [hword]

theorem ofField_eq (h : IsNumberText n) :
    Value.ofField n = if Numeral.isNumeral n then ⟨.number, n⟩ else .string n := by
  obtain ⟨c, t, rfl, hc⟩ := h.exists_cons
  have hword (k : Keyword) : c :: t ≠ k.text := by
    intro he
    have hk : ∀ d, k.text.head? = some d → ¬ (d = '+' ∨ d = '-' ∨ Text.isAsciiDigit d) := by
      cases k <;> rintro d ⟨⟩ <;> decide
    exact hk c (by rw [← he, List.head?_cons]) hc
  rw [Value.ofField, if_neg (hword _), if_neg (hword _), if_neg (hword _)]

/-- It has no tab and no line break. -/
theorem fitsField (h : IsNumberText n) : n.fitsField := by
  have hsigned {sign : Text} (hs : IsSign sign) : sign.fitsField := by
    obtain rfl | rfl | rfl := hs <;> rfl
  have hmarks {t : Text} (ht : ∀ c ∈ t, Text.isDigitMark c) : t.fitsField := by
    refine List.all_eq_true.2 fun c hc => ?_
    have hmark := ht c hc
    simp only [Bool.and_eq_true, bne_iff_ne]
    refine ⟨⟨?_, ?_⟩, ?_⟩ <;> rintro rfl <;> exact absurd hmark (by decide)
  have hwhole {ds : Text} (hd : IsWhole ds) : ds.fitsField := hmarks fun c hc =>
    Text.isDigitMark_of_isDecimal (Text.isDecimal_of_isAsciiDigit (hd.digits c hc))
  have happend {s t : Text} (hs : s.fitsField) (ht : t.fitsField) : (s ++ t).fitsField := by
    rw [Text.fitsField, List.all_append, Bool.and_eq_true]
    exact ⟨hs, ht⟩
  cases h with
  | whole hs hd => exact happend (hsigned hs) (hwhole hd)
  | @fractional sign ds ms hs hd _ hm =>
    have hpoint : Text.fitsField ('.' :: ms) := happend (s := ['.']) rfl (hmarks hm)
    exact happend (hsigned hs) (happend (hwhole hd) hpoint)

end Lexeme.IsNumberText

theorem Token.isNumberText_of_scan {t n : Text} {ts : List Token} {k : Token} (h : scan t = .ok ts)
    (hk : k ∈ ts) (hn : k.lexeme = .number n) : IsNumberText n := by
  have hread := scan_gives (P := fun l => ∀ n, l = .number n → IsNumberText n) (t := t)
    fun position c rest _ => read_isNumberText position c rest
  exact hread.of_ok h k hk n hn

/-- A number of a statement is a numeral if all of its digit marks are decimal digits, and only
then. It is taken wherever a value may stand, with the text that it has: as a number, which is
stored and compared as one, if it is a numeral, and otherwise as text without a number. -/
theorem Token.number_stands_for {t n : Text} {ts : List Token} {k : Token} (h : scan t = .ok ts)
    (hk : k ∈ ts) (hn : k.lexeme = .number n) :
    let v : Value := if n.OnlyDecimals then ⟨.number, n⟩ else .string n
    (Numeral.isNumeral n ↔ n.OnlyDecimals) ∧
      (∀ rest, Statement.Reader.literal.run (k :: rest) = .ok (v, rest)) ∧
      (∀ f outer column op rest, Condition.readFrom f outer (.literal column op) (k :: rest) =
        Condition.readFrom f outer (.connective (.compare column op v)) rest) ∧
      Table.stored v = .ok v ∧
      v.number? = if n.OnlyDecimals then (Numeral.read n).map some else .ok none := by
  intro v
  have htext := isNumberText_of_scan h hk hn
  have hnumeral := Numeral.isNumeral_iff_onlyDecimals htext
  have hv : v = if Numeral.isNumeral n then ⟨.number, n⟩ else .string n := by
    simp only [v, hnumeral]
  have hliteral : k.lexeme.literal? = some v := by
    rw [hn, literal?, htext.ofLiteral_eq, hv]
  have hshown : v.text = n := by
    rw [hv]
    split <;> rfl
  refine ⟨hnumeral, Statement.Reader.run_take_of_some hliteral, ?_, ?_, ?_⟩
  · intro f outer column op rest
    rw [Condition.readFrom, hliteral]
  · rw [Table.stored_eq_ok_iff, hshown]
    exact ⟨htext.fitsField, by rw [htext.ofField_eq, hv]⟩
  · by_cases hd : n.OnlyDecimals
    · rw [if_pos hd]
      simp only [v, if_pos hd]
      rfl
    · have hnone : Numeral.ofText? n = none :=
        Option.not_isSome_iff_eq_none.1 (mt hnumeral.1 hd)
      rw [if_neg hd]
      simp only [v, if_neg hd]
      rw [Value.number?]
      dsimp only [Value.string]
      rw [hnone]

/-- A fraction of decimal digits that are not those of ASCII. -/
theorem Token.number_stands_for_of_other_script :
    let n : Text := "-1.\u0663".toList
    let k : Token := ⟨.number n, 5⟩
    scan ("a > ".toList ++ n) = .ok [⟨.identifier ['a'], 1⟩, ⟨.operator .gt, 3⟩, k] ∧
      Numeral.isNumeral n ∧
      (∀ rest, Statement.Reader.literal.run (k :: rest) = .ok (⟨.number, n⟩, rest)) ∧
      (∀ f outer column op rest, Condition.readFrom f outer (.literal column op) (k :: rest) =
        Condition.readFrom f outer (.connective (.compare column op ⟨.number, n⟩)) rest) ∧
      Table.stored ⟨.number, n⟩ = .ok ⟨.number, n⟩ ∧
      Value.number? ⟨.number, n⟩ = (Numeral.read n).map some := by
  intro n k
  have hscan : scan ("a > ".toList ++ n) =
      .ok [⟨.identifier ['a'], 1⟩, ⟨.operator .gt, 3⟩, k] := by decide +kernel
  have hd : n.OnlyDecimals := by decide +kernel
  have h := number_stands_for hscan (by simp) (rfl : k.lexeme = .number n)
  simp only [if_pos hd] at h
  exact ⟨hscan, h.1.2 hd, h.2⟩

/-- A fraction in superscript: the number is text, and a comparison by order refuses it. -/
theorem Token.superscript_number_is_text :
    let n : Text := "1.\u00b2".toList
    let e := ["CREATE DATABASE d;", "USE d;", "CREATE TABLE t (a);"].foldl
      (fun e c => (e.execute c.toList none).2)
      (Engine.start ⟨['.', 't', 'a', 'b'], false, .whole, ['1']⟩ (Disk.empty ['r']))
    scan n = .ok [⟨.number n, 1⟩] ∧ Numeral.isNumeral n = false ∧
      (Lexeme.number n).literal? = some (.string n) ∧
      (e.execute ("SELECT * FROM t WHERE a > ".toList ++ n ++ [';']) none).1.response =
        "[ERROR] Operator > needs a numeric operand, got ".toList ++ n := by
  decide +kernel

end Tabular
