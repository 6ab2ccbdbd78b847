import Tabular.Proofs.Condition.Printed
import Tabular.Proofs.Statement.Finding
import Tabular.Proofs.Statement.Naming
import Tabular.Proofs.Statement.Numbers
import Tabular.Table

/-!
# Statements written out

A statement is written with its lexemes in a row. So there is a command for every statement whose
databases and tables are named as they can be created, whose columns are named as they can be added,
and whose values are those of tokens, whatever the names are and wherever in the statement they
stand.
-/

namespace Tabular

/-! ## Names that can be given -/

namespace Name

/-- The name of a database that can be created. -/
def OfDatabase (d : Text) : Prop := ∃ n, database n = .ok d

/-- The name of a table that can be created. -/
def OfTable (t : Text) : Prop := ∃ n, table n = .ok t

/-- The name of a column that can be added. -/
def OfColumn (c : Text) : Prop := validate "column" c = .ok c

/-- A name in small letters can be given if it is a word that is no keyword. -/
theorem exists_lowered_iff {kind : String} {d : Text} :
    (∃ n, (validate kind n).map Text.lower = .ok d) ↔ IsWord d ∧ isKeyword d = false := by
  constructor
  · rintro ⟨n, h⟩
    obtain ⟨_, hn, rfl⟩ := Except.map_eq_ok_iff.1 h
    obtain ⟨rfl, hplain, hk⟩ := validate_eq_ok_iff.1 hn
    exact ⟨isWord_lower hplain, by rw [isKeyword_lower hplain, hk]⟩
  · rintro ⟨hd, hk⟩
    exact ⟨d, Except.map_eq_ok_iff.2 ⟨d, validate_self_iff.2 ⟨hd.plain, hk⟩, hd.small⟩⟩

theorem ofDatabase_iff {d : Text} : OfDatabase d ↔ IsWord d ∧ isKeyword d = false :=
  exists_lowered_iff

theorem ofTable_iff {t : Text} : OfTable t ↔ IsWord t ∧ isKeyword t = false :=
  exists_lowered_iff

end Name

/-- The columns of a table that is created have names that can be given. -/
theorem Table.ofColumn_of_create {n : Text} {columns : List Text} {t : Table}
    (h : create n columns = .ok t) : ∀ c ∈ t.columns, Name.OfColumn c := by
  have hcheck : ∀ (before columns : List Text), checkColumns before columns = .ok () →
      ∀ c ∈ columns, Name.OfColumn c := by
    intro before columns
    induction columns generalizing before with
    | nil => exact fun _ => nofun
    | cons c cs ih =>
      intro h
      obtain ⟨_, hnew, hrest⟩ := Except.bind_eq_ok_iff.1 h
      obtain ⟨m, hm, -⟩ := Except.bind_eq_ok_iff.1 hnew
      obtain ⟨rfl, hname⟩ := Name.validate_eq_ok_iff.1 hm
      exact List.forall_mem_cons.2 ⟨Name.validate_self_iff.2 hname, ih _ hrest⟩
  obtain ⟨_, hcolumns, ht⟩ := Except.bind_eq_ok_iff.1 h
  cases ht
  exact List.forall_mem_cons.2 ⟨rfl, hcheck [] columns hcolumns⟩

/-- So has a column that is added. -/
theorem Table.ofColumn_of_addColumn {t u : Table} {c : Text} (h : t.addColumn c = .ok u) :
    u.columns = t.columns ++ [c] ∧ Name.OfColumn c := by
  obtain ⟨_, hnew, hu⟩ := Except.bind_eq_ok_iff.1 h
  obtain ⟨m, hm, -⟩ := Except.bind_eq_ok_iff.1 (Except.mapError_eq_ok_iff.1 hnew)
  obtain ⟨rfl, hname⟩ := Name.validate_eq_ok_iff.1 hm
  cases hu
  exact ⟨rfl, Name.validate_self_iff.2 hname⟩

/-- A value that a token of some text stands for. -/
def Value.OfToken (v : Value) : Prop :=
  ∃ t ts k, Token.scan t = .ok ts ∧ k ∈ ts ∧ k.lexeme.literal? = some v

/-- Columns are named as they can be added, values are those of tokens, and a group has two operands
or more. -/
inductive Condition.Writable : Condition → Prop
  | compare {column : Text} {op : Comparator} {v : Value} (name : Name.OfColumn column)
    (value : v.OfToken) : Writable (.compare column op v)
  | group {op : Connective} {cs : List Condition} (several : 2 ≤ cs.length)
    (operands : ∀ c ∈ cs, Writable c) : Writable (.group op cs)

namespace Statement

/-- Databases, tables and columns are named as they can be created, values are those of tokens, and
what is asked for or assigned is something. -/
def Writable : Statement → Prop
  | use d | createDatabase d | dropDatabase d => Name.OfDatabase d
  | createTable t columns => Name.OfTable t ∧ ∀ c ∈ columns, Name.OfColumn c
  | dropTable t => Name.OfTable t
  | alterTable t _ column => Name.OfTable t ∧ Name.OfColumn column
  | insert t values => Name.OfTable t ∧ ∀ v ∈ values, v.OfToken
  | select t columns condition => Name.OfTable t ∧
    (∀ cs ∈ columns, cs ≠ [] ∧ ∀ c ∈ cs, Name.OfColumn c) ∧ ∀ c ∈ condition, c.Writable
  | update t assignments condition => Name.OfTable t ∧ assignments ≠ [] ∧
    (∀ a ∈ assignments, Name.OfColumn a.1 ∧ a.2.OfToken) ∧ ∀ c ∈ condition, c.Writable
  | delete t condition => Name.OfTable t ∧ ∀ c ∈ condition, c.Writable
  | join left right leftColumn rightColumn => Name.OfTable left ∧ Name.OfTable right ∧
    Name.OfColumn leftColumn ∧ Name.OfColumn rightColumn

/-- What a statement creates has a name that can be given. -/
def CreatesNamed : Statement → Prop
  | createDatabase d => Name.OfDatabase d
  | createTable t columns => Name.OfTable t ∧ ∀ c ∈ columns, Name.OfColumn c
  | alterTable _ .add column => Name.OfColumn column
  | _ => True

end Statement

/-! ## Lexemes in a row -/

namespace Lexeme

/-- The lexeme is read back from its own text. -/
def IsReadBack (l : Lexeme) : Prop := Token.lexemes? l.text = some [l]

theorem isReadBack_keyword (k : Keyword) : IsReadBack (.keyword k) := (isBare_keyword k).readBack

theorem isReadBack_operator (o : Operator) : IsReadBack (.operator o) :=
  (isBare_operator o).readBack

theorem isReadBack_mark (m : Mark) : IsReadBack (.mark m) := (isBare_mark m).readBack

theorem isReadBack_of_mem_scan {t : Text} {ts : List Token} {k : Token}
    (h : Token.scan t = .ok ts) (hk : k ∈ ts) : k.lexeme.IsReadBack := by
  obtain ⟨front, tiles, htiling⟩ := Token.exists_tiling h
  obtain ⟨n, hn, rfl⟩ := List.getElem_of_mem hk
  have hcut := List.forall₂_iff_get.1 htiling.cut
  have hpiece := hcut.2 n hn (by rwa [← hcut.1])
  simp only [List.get_eq_getElem] at hpiece
  cases hl : ts[n].lexeme with
  | keyword k => exact isReadBack_keyword k
  | _ =>
    rw [hl] at hpiece
    have hspelled := hpiece.spelled
    rw [IsReadBack, ← hspelled]
    exact hpiece.alone

theorem exists_scan_of_isReadBack {l : Lexeme} (h : l.IsReadBack) :
    ∃ k : Token, Token.scan l.text = .ok [k] ∧ k.lexeme = l := by
  obtain ⟨ts, hts, hl⟩ := Token.lexemes?_eq_some_iff.1 h
  obtain ⟨k, rfl, rfl⟩ := List.map_eq_singleton_iff.1 hl
  exact ⟨k, hts, rfl⟩

/-- A text that ends with characters of which none is blank. -/
theorem exists_concat_of_append (before : Text) {t : Text} (hne : t ≠ [])
    (h : ∀ c ∈ t, Text.isBlank c = false) :
    ∃ front c, before ++ t = front ++ [c] ∧ Text.isBlank c = false :=
  ⟨before ++ t.dropLast, t.getLast hne,
    by rw [List.append_assoc, List.dropLast_append_getLast], h _ (List.getLast_mem hne)⟩

theorem IsNumberText.exists_concat {n : Text} (h : IsNumberText n) :
    ∃ front c, n = front ++ [c] ∧ Text.isBlank c = false := by
  cases h with
  | whole hs hd =>
    refine exists_concat_of_append _ hd.nonempty fun c hc => ?_
    exact Text.not_isBlank_of_isWordChar (Text.isWordChar_of_isAsciiDigit (hd.digits c hc))
  | @fractional sign ds ms hs hd hne hm =>
    have hblank : ∀ m ∈ ms, Text.isBlank m = false := by
      intro m hmem
      by_contra hb
      have hmark := hm m hmem
      rw [Text.not_isDigitMark_of_isBlank (by simpa using hb)] at hmark
      cases hmark
    have hsplit : sign ++ (ds ++ '.' :: ms) = (sign ++ ds ++ ['.']) ++ ms := by simp
    rw [hsplit]
    exact exists_concat_of_append _ hne hblank

/-- No lexeme ends with a blank. -/
theorem IsReadBack.exists_concat {l : Lexeme} (h : l.IsReadBack) :
    ∃ front c, l.text = front ++ [c] ∧ Text.isBlank c = false := by
  obtain ⟨k, hscan, rfl⟩ := exists_scan_of_isReadBack h
  have hscanned := Token.scan_scanned hscan k (by simp)
  cases hl : k.lexeme with
  | keyword w => exact Statement.exists_last_of_isPlain [] w.isPlain_text
  | identifier t =>
    rw [hl] at hscanned
    exact Statement.exists_last_of_isPlain [] hscanned.1
  | number n => exact (Token.isNumberText_of_scan hscan (by simp) hl).exists_concat
  | string inner => exact ⟨'\'' :: inner, '\'', rfl, by decide⟩
  | operator o =>
    have hne : o.text ≠ [] := by cases o <;> decide
    have hall : o.text.all (!Text.isBlank ·) := by cases o <;> decide
    have hblank : ∀ c ∈ o.text, Text.isBlank c = false := by simpa using hall
    exact exists_concat_of_append [] hne hblank
  | mark m =>
    have hne : m.text ≠ [] := by cases m <;> decide
    have hall : m.text.all (!Text.isBlank ·) := by cases m <;> decide
    have hblank : ∀ c ∈ m.text, Text.isBlank c = false := by simpa using hall
    exact exists_concat_of_append [] hne hblank

theorem isReadBack_ofWord {w : Text} (h : Name.isPlain w) (hk : Name.isKeyword w = false) :
    (ofWord w).IsReadBack := by
  have hread := Token.lexemes?_word_end h
  obtain ho | ho := ofWord_of_isKeyword_eq_false hk <;> rw [ho] at hread ⊢ <;> exact hread

/-- A comparator as it is written. -/
def ofComparator : Comparator → Lexeme
  | .eq => .operator .eq
  | .ne => .operator .ne
  | .gt => .operator .gt
  | .lt => .operator .lt
  | .ge => .operator .ge
  | .le => .operator .le
  | .like => .keyword .LIKE

theorem comparator?_ofComparator (op : Comparator) : (ofComparator op).comparator? = some op := by
  cases op <;> rfl

theorem isReadBack_ofComparator (op : Comparator) : (ofComparator op).IsReadBack := by
  cases op
  case like => exact isReadBack_keyword .LIKE
  all_goals exact isReadBack_operator _

/-- The lexemes with blanks between them. -/
def spaced (ls : List Lexeme) : Text := Text.join [' '] (ls.map text)

theorem spaced_cons (l m : Lexeme) (ls : List Lexeme) :
    spaced (l :: m :: ls) = l.text ++ ' ' :: spaced (m :: ls) := by
  simp [spaced, Text.join]

theorem lexemes?_spaced {l : Lexeme} {ls : List Lexeme} (h : ∀ m ∈ l :: ls, m.IsReadBack) :
    Token.lexemes? (spaced (l :: ls)) = some (l :: ls) ∧
      ∃ front c, spaced (l :: ls) = front ++ [c] ∧ Text.isBlank c = false := by
  induction ls generalizing l with
  | nil =>
    have hl := h l List.mem_cons_self
    have htext : spaced [l] = l.text := by simp [spaced, Text.join]
    rw [htext]
    exact ⟨hl, hl.exists_concat⟩
  | cons m ls ih =>
    obtain ⟨hl, hrest⟩ := List.forall_mem_cons.1 h
    obtain ⟨hread, front, c, hend, hc⟩ := ih hrest
    rw [spaced_cons]
    refine ⟨Token.lexemes?_spaced hl hread, l.text ++ ' ' :: front, c, ?_, hc⟩
    rw [hend]
    simp

end Lexeme

/-! ## Conditions -/

namespace Condition

theorem Disjunction.mem_yield_chain {op : Connective} {p : Primary} {ps : List Primary} {l : Lexeme}
    (h : l ∈ (chain op p ps).yield) :
    (∃ q ∈ p :: ps, l ∈ q.yield) ∨ l = .keyword op.keyword := by
  induction ps generalizing p with
  | nil => exact .inl ⟨p, by simp, h⟩
  | cons q ps ih =>
    rw [yield_chain, List.mem_append, List.mem_cons] at h
    obtain h | rfl | h := h
    · exact .inl ⟨p, by simp, h⟩
    · exact .inr rfl
    · obtain ⟨r, hr, hl⟩ | rfl := ih h
      · exact .inl ⟨r, List.mem_cons_of_mem _ hr, hl⟩
      · exact .inr rfl

/-- The condition has a derivation from lexemes that are read back. -/
theorem Writable.exists_primary {c : Condition} (h : c.Writable) :
    ∃ p : Primary, p.tree = c ∧ ∀ l ∈ p.yield, l.IsReadBack := by
  induction h with
  | @compare column op v name value =>
    obtain ⟨hplain, hk⟩ := Name.validate_self_iff.1 name
    obtain ⟨t, ts, k, hscan, hmem, hv⟩ := value
    have hcolumn := Lexeme.column?_ofWord hk
    have hsign := Lexeme.comparator?_ofComparator op
    refine ⟨.comparison ⟨Lexeme.ofWord column, Lexeme.ofComparator op, k.lexeme, by simp [hcolumn],
      by simp [hsign], by simp [hv]⟩, ?_, ?_⟩
    · simp [Primary.tree, Comparison.tree, hcolumn, hsign, hv]
    · have hread := Lexeme.isReadBack_of_mem_scan hscan hmem
      simp [Primary.yield, Lexeme.isReadBack_ofWord hplain hk, Lexeme.isReadBack_ofComparator,
        hread]
  | @group op cs several _ ih =>
    have hall : ∃ ps : List Primary, ps.map Primary.tree = cs ∧
        ∀ p ∈ ps, ∀ l ∈ p.yield, l.IsReadBack := by
      clear several
      induction cs with
      | nil => exact ⟨[], rfl, nofun⟩
      | cons c cs ihcs =>
        obtain ⟨hc, hrest⟩ := List.forall_mem_cons.1 ih
        obtain ⟨p, rfl, hp⟩ := hc
        obtain ⟨ps, rfl, hps⟩ := ihcs (fun c hc => ‹∀ c ∈ _, Writable c› c (by simp [hc])) hrest
        exact ⟨p :: ps, rfl, List.forall_mem_cons.2 ⟨hp, hps⟩⟩
    obtain ⟨ps, rfl, hps⟩ := hall
    match ps with
    | p :: q :: ps =>
      refine ⟨.group (Disjunction.chain op p (q :: ps)), Disjunction.tree_chain op p (q :: ps), ?_⟩
      intro l hl
      simp only [Primary.yield, List.mem_cons, List.mem_append, List.not_mem_nil, or_false] at hl
      obtain rfl | hl | rfl := hl
      · exact Lexeme.isReadBack_mark _
      · obtain ⟨r, hr, hl⟩ | rfl := Disjunction.mem_yield_chain hl
        · exact hps r hr l hl
        · exact Lexeme.isReadBack_keyword _
      · exact Lexeme.isReadBack_mark _

end Condition

/-! ## Commands -/

namespace Statement

section Writing

variable {α : Type} {item : List Lexeme → α → Prop} {n t : Text} {v : Value}
  {condition : Option Condition}

/-- Items that can each be written are written in a series. -/
theorem exists_series {as : List α} (hne : as ≠ [])
    (h : ∀ a ∈ as, ∃ ls, item ls a ∧ ∀ l ∈ ls, l.IsReadBack) :
    ∃ ls, Series item ls as ∧ ∀ l ∈ ls, l.IsReadBack := by
  induction as with
  | nil => exact absurd rfl hne
  | cons a as ih =>
    obtain ⟨⟨ls, ha, hls⟩, hrest⟩ := List.forall_mem_cons.1 h
    cases as with
    | nil => exact ⟨ls, .one ha, hls⟩
    | cons b as =>
      obtain ⟨ms, has, hms⟩ := ih (List.cons_ne_nil b as) hrest
      refine ⟨ls ++ .mark .comma :: ms, .more ha has, fun l hl => ?_⟩
      rw [List.mem_append, List.mem_cons] at hl
      obtain hl | rfl | hl := hl
      · exact hls l hl
      · exact Lexeme.isReadBack_mark _
      · exact hms l hl

theorem exists_lowered (h : Name.IsWord n ∧ Name.isKeyword n = false) :
    ∃ l : Lexeme, l.IsReadBack ∧ ∃ t, l.name? = some t ∧ Text.lower t = n :=
  ⟨_, Lexeme.isReadBack_ofWord h.1.plain h.2, n, Lexeme.name?_ofWord h.2, h.1.small⟩

theorem exists_column (h : Name.OfColumn n) : ∃ l : Lexeme, l.IsReadBack ∧ l.name? = some n := by
  obtain ⟨hplain, hk⟩ := Name.validate_self_iff.1 h
  exact ⟨_, Lexeme.isReadBack_ofWord hplain hk, Lexeme.name?_ofWord hk⟩

theorem exists_literal (h : v.OfToken) : ∃ l : Lexeme, l.IsReadBack ∧ l.literal? = some v := by
  obtain ⟨t, ts, k, hscan, hk, hv⟩ := h
  exact ⟨_, Lexeme.isReadBack_of_mem_scan hscan hk, hv⟩

theorem exists_columns {columns : List Text} (hne : columns ≠ [])
    (h : ∀ c ∈ columns, Name.OfColumn c) :
    ∃ ls, Series IsColumn ls columns ∧ ∀ l ∈ ls, l.IsReadBack := by
  refine exists_series hne fun c hc => ?_
  obtain ⟨l, hl, hname⟩ := exists_column (h c hc)
  exact ⟨[l], ⟨l, rfl, hname⟩, by simpa using hl⟩

theorem exists_newColumns {columns : List Text} (h : ∀ c ∈ columns, Name.OfColumn c) :
    ∃ ls, NewColumns ls columns ∧ ∀ l ∈ ls, l.IsReadBack := by
  cases columns with
  | nil => exact ⟨[], .left, nofun⟩
  | cons c cs =>
    obtain ⟨ls, hs, hls⟩ := exists_columns (List.cons_ne_nil c cs) h
    refine ⟨_, .listed hs, ?_⟩
    simp only [List.mem_cons, List.mem_append, List.not_mem_nil, or_false]
    rintro l (rfl | hl | rfl)
    · exact Lexeme.isReadBack_mark _
    · exact hls l hl
    · exact Lexeme.isReadBack_mark _

theorem exists_newValues {values : List Value} (h : ∀ v ∈ values, v.OfToken) :
    ∃ ls, NewValues ls values ∧ ∀ l ∈ ls, l.IsReadBack := by
  cases values with
  | nil => exact ⟨_, .empty, by simp [Lexeme.isReadBack_mark]⟩
  | cons v vs =>
    obtain ⟨ls, hs, hls⟩ : ∃ ls, Series IsLiteral ls (v :: vs) ∧ ∀ l ∈ ls, l.IsReadBack := by
      refine exists_series (List.cons_ne_nil v vs) fun w hw => ?_
      obtain ⟨l, hl, hv⟩ := exists_literal (h w hw)
      exact ⟨[l], ⟨l, rfl, hv⟩, by simpa using hl⟩
    refine ⟨_, .listed hs, ?_⟩
    simp only [List.mem_cons, List.mem_append, List.not_mem_nil, or_false]
    rintro l (rfl | hl | rfl)
    · exact Lexeme.isReadBack_mark _
    · exact hls l hl
    · exact Lexeme.isReadBack_mark _

theorem exists_wantedColumns {columns : Option (List Text)}
    (h : ∀ cs ∈ columns, cs ≠ [] ∧ ∀ c ∈ cs, Name.OfColumn c) :
    ∃ ls, WantedColumns ls columns ∧ ∀ l ∈ ls, l.IsReadBack := by
  cases columns with
  | none => exact ⟨_, .star, by simp [Lexeme.isReadBack_mark]⟩
  | some cs =>
    obtain ⟨hne, hcs⟩ := h cs rfl
    obtain ⟨ls, hs, hls⟩ := exists_columns hne hcs
    exact ⟨ls, .listed hs, hls⟩

theorem exists_assigns {a : Text × Value} (h : Name.OfColumn a.1 ∧ a.2.OfToken) :
    ∃ ls, Assigns ls a ∧ ∀ l ∈ ls, l.IsReadBack := by
  obtain ⟨l, hl, hname⟩ := exists_column h.1
  obtain ⟨m, hm, hv⟩ := exists_literal h.2
  refine ⟨_, ⟨l, m, rfl, hname, hv⟩, ?_⟩
  simp [hl, hm, Lexeme.isReadBack_operator]

theorem exists_where (h : ∀ c ∈ condition, c.Writable) :
    ∃ ls, Where ls condition ∧ ∀ l ∈ ls, l.IsReadBack := by
  cases condition with
  | none => exact ⟨[], .left, nofun⟩
  | some c =>
    obtain ⟨p, rfl, hp⟩ := (h c rfl).exists_primary
    exact ⟨_, .given (.one (.one p)), List.forall_mem_cons.2 ⟨Lexeme.isReadBack_keyword _, hp⟩⟩

end Writing

/-- The lexemes of a statement that can be written: a keyword, and others that are read back. -/
theorem Writable.exists_form {s : Statement} (h : s.Writable) :
    ∃ k ls, Form (.keyword k :: ls) s ∧ ∀ l ∈ ls, l.IsReadBack := by
  cases s with
  | use d =>
    obtain ⟨l, hl, t, hd, rfl⟩ := exists_lowered (Name.ofDatabase_iff.1 h)
    exact ⟨_, _, .use hd, by simp [hl]⟩
  | createDatabase d =>
    obtain ⟨l, hl, t, hd, rfl⟩ := exists_lowered (Name.ofDatabase_iff.1 h)
    exact ⟨_, _, .createDatabase hd, by simp [hl, Lexeme.isReadBack_keyword]⟩
  | dropDatabase d =>
    obtain ⟨l, hl, t, hd, rfl⟩ := exists_lowered (Name.ofDatabase_iff.1 h)
    exact ⟨_, _, .dropDatabase hd, by simp [hl, Lexeme.isReadBack_keyword]⟩
  | createTable t columns =>
    obtain ⟨l, hl, t, ht, rfl⟩ := exists_lowered (Name.ofTable_iff.1 h.1)
    obtain ⟨ls, hcolumns, hls⟩ := exists_newColumns h.2
    exact ⟨_, _, .createTable ht hcolumns, by simpa [hl, Lexeme.isReadBack_keyword] using hls⟩
  | dropTable t =>
    obtain ⟨l, hl, t, ht, rfl⟩ := exists_lowered (Name.ofTable_iff.1 h)
    exact ⟨_, _, .dropTable ht, by simp [hl, Lexeme.isReadBack_keyword]⟩
  | alterTable t action column =>
    obtain ⟨l, hl, t, ht, rfl⟩ := exists_lowered (Name.ofTable_iff.1 h.1)
    obtain ⟨m, hm, hcolumn⟩ := exists_column h.2
    exact ⟨_, _, .alterTable ht (.inl rfl) hcolumn, by simp [hl, hm, Lexeme.isReadBack_keyword]⟩
  | insert t values =>
    obtain ⟨l, hl, t, ht, rfl⟩ := exists_lowered (Name.ofTable_iff.1 h.1)
    obtain ⟨ls, hvalues, hls⟩ := exists_newValues h.2
    exact ⟨_, _, .insert ht hvalues, by simpa [hl, Lexeme.isReadBack_keyword] using hls⟩
  | select t columns condition =>
    obtain ⟨l, hl, t, ht, rfl⟩ := exists_lowered (Name.ofTable_iff.1 h.1)
    obtain ⟨ks, hcolumns, hks⟩ := exists_wantedColumns h.2.1
    obtain ⟨ls, hwhere, hls⟩ := exists_where h.2.2
    refine ⟨_, _, .select hcolumns ht hwhere, ?_⟩
    simp only [List.forall_mem_append, List.forall_mem_cons]
    exact ⟨hks, Lexeme.isReadBack_keyword _, hl, hls⟩
  | update t assignments condition =>
    obtain ⟨l, hl, t, ht, rfl⟩ := exists_lowered (Name.ofTable_iff.1 h.1)
    obtain ⟨ks, hseries, hks⟩ := exists_series h.2.1 fun a ha => exists_assigns (h.2.2.1 a ha)
    obtain ⟨ls, hwhere, hls⟩ := exists_where h.2.2.2
    refine ⟨_, _, .update ht hseries hwhere, ?_⟩
    simp only [List.forall_mem_append, List.forall_mem_cons]
    exact ⟨hl, Lexeme.isReadBack_keyword _, hks, hls⟩
  | delete t condition =>
    obtain ⟨l, hl, t, ht, rfl⟩ := exists_lowered (Name.ofTable_iff.1 h.1)
    obtain ⟨ls, hwhere, hls⟩ := exists_where h.2
    exact ⟨_, _, .delete ht hwhere, by simpa [hl, Lexeme.isReadBack_keyword] using hls⟩
  | join left right leftColumn rightColumn =>
    obtain ⟨l, hl, t, ht, rfl⟩ := exists_lowered (Name.ofTable_iff.1 h.1)
    obtain ⟨r, hr, u, hu, rfl⟩ := exists_lowered (Name.ofTable_iff.1 h.2.1)
    obtain ⟨m, hm, hleft⟩ := exists_column h.2.2.1
    obtain ⟨n, hn, hright⟩ := exists_column h.2.2.2
    exact ⟨_, _, .join ht hu hleft hright, by simp [hl, hr, hm, hn, Lexeme.isReadBack_keyword]⟩

/-- A statement that can be written is read from its lexemes with blanks between them. -/
theorem Writable.exists_command {s : Statement} (h : s.Writable) :
    ∃ command, ofCommand command = .ok s := by
  obtain ⟨k, ls, hform, hls⟩ := h.exists_form
  have hall := List.forall_mem_cons.2 ⟨Lexeme.isReadBack_keyword k, hls⟩
  obtain ⟨hread, hlast⟩ := Lexeme.lexemes?_spaced hall
  have hfirst : ∃ c rest, Lexeme.spaced (.keyword k :: ls) = c :: rest ∧
      Text.isBlank c = false := by
    obtain ⟨hne, hchars⟩ := Name.isPlain_iff.1 k.isPlain_text
    obtain ⟨c, w, hw⟩ := List.exists_cons_of_ne_nil hne
    refine ⟨c, w ++ (Lexeme.spaced (.keyword k :: ls)).drop (c :: w).length, ?_,
      Text.not_isBlank_of_isWordChar (hchars c (by simp [hw]))⟩
    cases ls with
    | nil => simp [Lexeme.spaced, Text.join, Lexeme.text, hw]
    | cons m ls => simp [Lexeme.spaced_cons, Lexeme.text, hw]
  exact ⟨_, (ofCommand_eq_ok_iff_lexemes? (lexemes?_concat hfirst hlast hread)).2 hform⟩

/-! ## What commands create -/

section Created

variable {l : Lexeme} {n : Text}

/-- What a scanned lexeme names has a valid name of any kind. -/
theorem validate_of_name? (hl : l.IsScanned) (h : l.name? = some n) (kind : String) :
    Name.validate kind n = .ok n :=
  Name.validate_self_iff.2 ((Reader.name?_eq_some_iff hl).1 h).2

theorem ofColumn_of_series {ls : List Lexeme} {columns : List Text} (h : Series IsColumn ls columns)
    (hls : ∀ l ∈ ls, l.IsScanned) : ∀ c ∈ columns, Name.OfColumn c := by
  induction h with
  | one first =>
    obtain ⟨l, rfl, hl⟩ := first
    exact List.forall_mem_singleton.2 (validate_of_name? (hls l (by simp)) hl "column")
  | more first _ ih =>
    obtain ⟨l, rfl, hl⟩ := first
    exact List.forall_mem_cons.2 ⟨validate_of_name? (hls l (by simp)) hl "column",
      ih fun m hm => hls m (by simp [hm])⟩

/-- What a command creates has a name that can be given. -/
theorem createsNamed_of_ofCommand {command : Text} {s : Statement} (h : ofCommand command = .ok s) :
    s.CreatesNamed := by
  obtain ⟨ls, hls, hform⟩ := exists_form h
  cases hform with
  | createDatabase database =>
    have hname := validate_of_name? (hls _ (by simp)) database "database"
    exact ⟨_, Except.map_eq_ok_iff.2 ⟨_, hname, rfl⟩⟩
  | createTable table made =>
    have hname := validate_of_name? (hls _ (by simp)) table "table"
    refine ⟨⟨_, Except.map_eq_ok_iff.2 ⟨_, hname, rfl⟩⟩, ?_⟩
    cases made with
    | left => exact nofun
    | listed series => exact ofColumn_of_series series fun l hl => hls l (by simp [hl])
  | @alterTable _ m _ column action _ _ _ changed =>
    cases action with
    | add => exact validate_of_name? (hls m (by simp)) changed "column"
    | drop => trivial
  | _ => trivial

end Created

/-! ## Names and tokens -/

/-- A valid name alone is a text of one token, an identifier or a number. Whatever is created has a
valid name, and any such names may stand in all places of a statement for which there is a command.
Of the tokens of any text, identifiers and numbers made of digits are valid names, keywords are
turned down as keywords, and so is the text at the place of each; a word is a keyword for both
exactly if it spells one in some letter case. -/
theorem valid_names_are_tokens (kind : String) :
    (∀ n, Name.validate kind n = .ok n →
      ∃ l, Token.scan n = .ok [⟨l, 1⟩] ∧ (l = .identifier n ∨ l = .number n)) ∧
    (∀ command s, ofCommand command = .ok s → s.CreatesNamed) ∧
    (∀ n columns t, Table.create n columns = .ok t → ∀ c ∈ t.columns, Name.OfColumn c) ∧
    (∀ t c u, Table.addColumn t c = .ok u → u.columns = t.columns ++ [c] ∧ Name.OfColumn c) ∧
    (∀ s : Statement, s.Writable → ∃ command, ofCommand command = .ok s) ∧
    (∀ t ts, Token.scan t = .ok ts → ∃ front tiles, Token.Tiling 1 t ts front tiles ∧
      List.Forall₂ (fun k piece => k.lexeme.JudgedAlike kind k.text ∧
        k.lexeme.JudgedAlike kind piece) ts (tiles.map Token.Tile.piece)) ∧
    ∀ w, Name.isPlain w →
      ((∃ k, Token.scan w = .ok [⟨.keyword k, 1⟩]) ↔ ∃ k : Keyword, Text.SameLetters w k.text) ∧
      (Name.validate kind w = .error (.keywordName kind w) ↔
        ∃ k : Keyword, Text.SameLetters w k.text) := by
  refine ⟨fun n hn => ?_, fun _ _ => createsNamed_of_ofCommand,
    fun _ _ _ => Table.ofColumn_of_create, fun _ _ _ => Table.ofColumn_of_addColumn,
    fun _ => Writable.exists_command, fun t ts hts => ?_, fun w hw => ⟨?_, ?_⟩⟩
  · obtain ⟨hplain, hk⟩ := Name.validate_self_iff.1 hn
    exact ⟨_, Token.scan_word hplain, Lexeme.ofWord_of_isKeyword_eq_false hk⟩
  · obtain ⟨front, tiles, htiling⟩ := Token.exists_tiling hts
    exact ⟨front, tiles, htiling,
      htiling.cut.imp fun _ _ hcut => ⟨hcut.judgedAlike_text, hcut.judgedAlike⟩⟩
  · simp only [Token.scan_word hw, Except.ok.injEq, List.cons.injEq, Token.mk.injEq, and_true,
      Lexeme.ofWord_eq_keyword_iff hw, Keyword.ofWord?_eq_some_iff hw]
  · have hspelled : Name.isKeyword w ↔ ∃ k : Keyword, Text.SameLetters w k.text := by
      rw [Keyword.exists_ofWord?]
      exact exists_congr fun k => Keyword.ofWord?_eq_some_iff hw
    rw [← hspelled, Name.validate_of_isPlain hw]
    cases Name.isKeyword w <;> simp

/-- Names that begin with digits or have no letter at all, in a list of columns and inside the
parentheses of a condition; a table that is made with them; and a keyword in mixed letter case. -/
theorem valid_names_are_tokens_of_digits :
    let s : Statement := .select ['1', '_'] (some [['0', '0'], ['_']]) (some (.group .or
      [.compare ['2', 'x'] .eq Value.null,
        .group .and [.compare ['7'] .like Value.null, .compare ['_', '3'] .ge Value.null]]))
    let t : Table := ⟨['1', '_'], [Name.id, ['0', '0'], ['_']], [], 1⟩
    Name.validate "column" ['0', '0'] = .ok ['0', '0'] ∧
      (∃ l, Token.scan ['0', '0'] = .ok [⟨l, 1⟩] ∧
        (l = .identifier ['0', '0'] ∨ l = .number ['0', '0'])) ∧
      s.Writable ∧ (∃ command, ofCommand command = .ok s ∧ s.CreatesNamed) ∧
      Table.create ['1', '_'] [['0', '0'], ['_']] = .ok t ∧ (∀ c ∈ t.columns, Name.OfColumn c) ∧
      (Name.validate "column" ['s', 'E', 't'] = .error (.keywordName "column" ['s', 'E', 't']) ↔
        ∃ k : Keyword, Text.SameLetters ['s', 'E', 't'] k.text) := by
  intro s t
  have hvalue : Value.null.OfToken :=
    ⟨Keyword.NULL.text, [⟨.keyword .NULL, 1⟩], _, by decide +kernel, List.mem_singleton_self _, rfl⟩
  have hleft : Condition.Writable (.compare ['2', 'x'] .eq Value.null) := .compare rfl hvalue
  have hright : Condition.Writable
      (.group .and [.compare ['7'] .like Value.null, .compare ['_', '3'] .ge Value.null]) := by
    refine .group (Nat.le_refl 2) ?_
    simp only [List.mem_cons, List.not_mem_nil, or_false]
    rintro c (rfl | rfl) <;> exact .compare rfl hvalue
  have hs : s.Writable := by
    refine ⟨⟨['1', '_'], rfl⟩, ?_, ?_⟩
    · rintro _ ⟨⟩
      refine ⟨List.cons_ne_nil _ _, ?_⟩
      simp only [List.mem_cons, List.not_mem_nil, or_false]
      rintro c (rfl | rfl) <;> rfl
    · rintro _ ⟨⟩
      refine .group (Nat.le_refl 2) ?_
      simp only [List.mem_cons, List.not_mem_nil, or_false]
      rintro c (rfl | rfl)
      · exact hleft
      · exact hright
  obtain ⟨halone, hcreates, hcolumns, -, hwritten, -, hkeyword⟩ := valid_names_are_tokens "column"
  obtain ⟨command, hcommand⟩ := hwritten s hs
  have ht : Table.create ['1', '_'] [['0', '0'], ['_']] = .ok t := rfl
  exact ⟨rfl, halone _ rfl, hs, ⟨command, hcommand, hcreates command s hcommand⟩, ht,
    hcolumns _ _ t ht, (hkeyword ['s', 'E', 't'] rfl).2⟩

end Statement

end Tabular
