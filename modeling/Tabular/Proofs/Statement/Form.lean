import Tabular.Proofs.Condition.Grammar
import Tabular.Statement

/-!
# Forms of statements

The eleven statements as they are written. A name is an identifier or a number that is digits alone;
lists have commas between their items; a condition has a derivation in the grammar of conditions.
-/

namespace Tabular

/-- The name that a lexeme may stand for. -/
def Lexeme.name? : Lexeme → Option Text
  | identifier t => some t
  | number t => if t.all Text.isAsciiDigit then some t else none
  | keyword _ | string _ | operator _ | mark _ => none

/-- Is a command turned down for its form, for a name in it or for the form of its condition? -/
def Rejection.OfForm : Rejection → Prop
  | .command _ | .invalidName _ _ | .keywordName _ _ | .condition _ => True
  | _ => False

namespace Statement

/-! ## Forms -/

/-- One item or more, with commas between them. -/
inductive Series {α : Type} (item : List Lexeme → α → Prop) : List Lexeme → List α → Prop
  | one {ls : List Lexeme} {a : α} (first : item ls a) : Series item ls [a]
  | more {ls ms : List Lexeme} {a : α} {as : List α} (first : item ls a)
    (rest : Series item ms as) : Series item (ls ++ .mark .comma :: ms) (a :: as)

/-- There are no more items than lexemes. -/
theorem Series.length_le {α : Type} {item : List Lexeme → α → Prop}
    (hitem : ∀ ls a, item ls a → ls ≠ []) {ls : List Lexeme} {as : List α} (h : Series item ls as) :
    as.length ≤ ls.length := by
  induction h with
  | one first => exact List.length_pos_iff.2 (hitem _ _ first)
  | more first rest ih => simp; omega

/-- A series begins as its first item does. -/
theorem Series.head?_ne {α : Type} {item : List Lexeme → α → Prop} {l : Lexeme}
    (hitem : ∀ {ls a}, item ls a → ∀ after, (ls ++ after).head? ≠ some l) {ls : List Lexeme}
    {as : List α} (h : Series item ls as) (after : List Lexeme) : (ls ++ after).head? ≠ some l := by
  cases h with
  | one first => exact hitem first after
  | more first rest =>
    rw [List.append_assoc]
    exact hitem first _

def IsColumn (ls : List Lexeme) (name : Text) : Prop := ∃ l, ls = [l] ∧ l.name? = some name

theorem IsColumn.ne_nil {ls : List Lexeme} {n : Text} (h : IsColumn ls n) : ls ≠ [] := by
  obtain ⟨l, rfl, -⟩ := h
  simp

theorem IsColumn.head?_ne_star {ls : List Lexeme} {n : Text} (h : IsColumn ls n)
    (after : List Lexeme) : (ls ++ after).head? ≠ some (.mark .star) := by
  obtain ⟨l, rfl, hl⟩ := h
  rintro ⟨⟩
  cases hl

def IsLiteral (ls : List Lexeme) (v : Value) : Prop := ∃ l, ls = [l] ∧ l.literal? = some v

theorem IsLiteral.ne_nil {ls : List Lexeme} {v : Value} (h : IsLiteral ls v) : ls ≠ [] := by
  obtain ⟨l, rfl, -⟩ := h
  simp

theorem IsLiteral.head?_ne_closing {ls : List Lexeme} {v : Value} (h : IsLiteral ls v)
    (after : List Lexeme) : (ls ++ after).head? ≠ some (.mark .closing) := by
  obtain ⟨l, rfl, hl⟩ := h
  rintro ⟨⟩
  cases hl

def Assigns (ls : List Lexeme) (a : Text × Value) : Prop :=
  ∃ l m, ls = [l, .operator .assign, m] ∧ l.name? = some a.1 ∧ m.literal? = some a.2

theorem Assigns.ne_nil {ls : List Lexeme} {a : Text × Value} (h : Assigns ls a) : ls ≠ [] := by
  obtain ⟨l, m, rfl, -⟩ := h
  simp

/-- The columns of a new table. -/
inductive NewColumns : List Lexeme → List Text → Prop
  | left : NewColumns [] []
  | listed {ls : List Lexeme} {columns : List Text} (series : Series IsColumn ls columns) :
    NewColumns (.mark .opening :: (ls ++ [.mark .closing])) columns

/-- The values of a new row. -/
inductive NewValues : List Lexeme → List Value → Prop
  | empty : NewValues [.mark .opening, .mark .closing] []
  | listed {ls : List Lexeme} {values : List Value} (series : Series IsLiteral ls values) :
    NewValues (.mark .opening :: (ls ++ [.mark .closing])) values

/-- The columns that are asked for. -/
inductive WantedColumns : List Lexeme → Option (List Text) → Prop
  | star : WantedColumns [.mark .star] none
  | listed {ls : List Lexeme} {columns : List Text} (series : Series IsColumn ls columns) :
    WantedColumns ls (some columns)

/-- A condition that may be left out. -/
inductive Where : List Lexeme → Option Condition → Prop
  | left : Where [] none
  | given (d : Condition.Disjunction) : Where (.keyword .WHERE :: d.yield) (some d.tree)

/-- The lexemes of a statement. -/
inductive Form : List Lexeme → Statement → Prop
  | use {l : Lexeme} {d : Text} (database : l.name? = some d) :
    Form [.keyword .USE, l] (.use (Text.lower d))
  | createDatabase {l : Lexeme} {d : Text} (database : l.name? = some d) :
    Form [.keyword .CREATE, .keyword .DATABASE, l] (.createDatabase (Text.lower d))
  | dropDatabase {l : Lexeme} {d : Text} (database : l.name? = some d) :
    Form [.keyword .DROP, .keyword .DATABASE, l] (.dropDatabase (Text.lower d))
  | createTable {l : Lexeme} {t : Text} {ls : List Lexeme} {columns : List Text}
    (table : l.name? = some t) (made : NewColumns ls columns) :
    Form (.keyword .CREATE :: .keyword .TABLE :: l :: ls) (.createTable (Text.lower t) columns)
  | dropTable {l : Lexeme} {t : Text} (table : l.name? = some t) :
    Form [.keyword .DROP, .keyword .TABLE, l] (.dropTable (Text.lower t))
  | alterTable {l m : Lexeme} {t column : Text} {action : AlterAction} {ls : List Lexeme}
    (table : l.name? = some t) (word : ls = [] ∨ ls = [.keyword .COLUMN])
    (changed : m.name? = some column) :
    Form (.keyword .ALTER :: .keyword .TABLE :: l :: .keyword action.keyword :: (ls ++ [m]))
      (.alterTable (Text.lower t) action column)
  | insert {l : Lexeme} {t : Text} {ls : List Lexeme} {values : List Value}
    (table : l.name? = some t) (row : NewValues ls values) :
    Form (.keyword .INSERT :: .keyword .INTO :: l :: .keyword .VALUES :: ls)
      (.insert (Text.lower t) values)
  | select {l : Lexeme} {t : Text} {ks ls : List Lexeme} {columns : Option (List Text)}
    {condition : Option Condition} (wanted : WantedColumns ks columns) (table : l.name? = some t)
    (rows : Where ls condition) :
    Form (.keyword .SELECT :: (ks ++ .keyword .FROM :: l :: ls))
      (.select (Text.lower t) columns condition)
  | update {l : Lexeme} {t : Text} {ks ls : List Lexeme} {assignments : List (Text × Value)}
    {condition : Option Condition} (table : l.name? = some t)
    (changes : Series Assigns ks assignments) (rows : Where ls condition) :
    Form (.keyword .UPDATE :: l :: .keyword .SET :: (ks ++ ls))
      (.update (Text.lower t) assignments condition)
  | delete {l : Lexeme} {t : Text} {ls : List Lexeme} {condition : Option Condition}
    (table : l.name? = some t) (rows : Where ls condition) :
    Form (.keyword .DELETE :: .keyword .FROM :: l :: ls) (.delete (Text.lower t) condition)
  | join {l r lc rc : Lexeme} {left right leftColumn rightColumn : Text}
    (leftTable : l.name? = some left) (rightTable : r.name? = some right)
    (leftKey : lc.name? = some leftColumn) (rightKey : rc.name? = some rightColumn) :
    Form [.keyword .JOIN, l, .keyword .AND, r, .keyword .ON, lc, .keyword .AND, rc]
      (.join (Text.lower left) (Text.lower right) leftColumn rightColumn)

end Statement

end Tabular
