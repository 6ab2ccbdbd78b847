import Tabular.Condition.Reader
import Tabular.Proofs.Except
import Tabular.Proofs.Failure.Texts

/-!
# Texts in conditions

What can go wrong with a condition is told with texts of its tokens and, when it is judged, of the
cells. So a property of the tokens that texts within one line have is one of what is told: a
condition whose tokens are each within one line fails in one line, and so does its judgement of rows
whose cells are.
-/

namespace Tabular

/-- The text of the lexeme has the property, and so has that of a value that it stands for. -/
structure Lexeme.Tells (Q : Text → Prop) (l : Lexeme) : Prop where
  text : Q l.text
  literal : ∀ v, l.literal? = some v → Q v.text

/-- All tokens tell texts with the property. -/
def Token.Tell (Q : Text → Prop) (ts : List Token) : Prop := ∀ t ∈ ts, t.lexeme.Tells Q

/-- Every cell is within one line. -/
def Row.OneLine (row : Row) : Prop := ∀ v ∈ row, v.text.OneLine

namespace Condition

/-- The columns and literals have the property. -/
inductive Tells (Q : Text → Prop) : Condition → Prop
  | compare {column : Text} {op : Comparator} {literal : Value} (column_told : Q column)
    (literal_told : Q literal.text) : Tells Q (.compare column op literal)
  | group {op : Connective} {operands : List Condition} (told : ∀ c ∈ operands, Tells Q c) :
    Tells Q (.group op operands)

variable {Q : Text → Prop} {column : Text} {op : Comparator} {literal : Value} {c : Condition}
  {columns : List Text}

/-! ## Reading -/

theorem oneLine_literal? {l : Lexeme} {v : Value} (h : l.literal? = some v) (hl : l.text.OneLine) :
    v.text.OneLine := by
  have hof (t : Text) (ht : t.OneLine) : (Value.ofLiteral t).text.OneLine := by
    unfold Value.ofLiteral
    split
    · next inner hq =>
      unfold Value.unquote? at hq
      split at hq
      · split at hq
        · cases hq
          exact (ht.subset (List.subset_cons_self _ _)).subset (List.dropLast_subset _)
        · cases hq
      · cases hq
    · split
      · exact ht
      · split <;> first | decide | exact ht
  cases l with
  | keyword k => cases k <;> cases h <;> exact hof _ (by decide)
  | operator o => cases h
  | mark m => cases h
  | string inner | number t | identifier t =>
    cases h
    exact hof _ hl

theorem tells_of_oneLine {l : Lexeme} (h : l.text.OneLine) : l.Tells Text.OneLine :=
  ⟨h, fun _ hv => oneLine_literal? hv h⟩

theorem tells_grouped {op : Connective} {cs : List Condition} (h : ∀ c ∈ cs, c.Tells Q) :
    (grouped op cs).Tells Q := by
  unfold grouped
  split
  · exact h _ (by simp)
  · exact .group h

/-- The operands that a frame holds have the property. -/
def Frame.Tells (Q : Text → Prop) (f : Frame) : Prop :=
  (∀ c ∈ f.alternatives, c.Tells Q) ∧ ∀ c ∈ f.conjuncts, c.Tells Q

namespace Frame.Tells

variable {f : Frame}

theorem empty : Frame.empty.Tells Q := ⟨nofun, nofun⟩

theorem conjoin (hf : f.Tells Q) (hc : c.Tells Q) : (f.conjoin c).Tells Q :=
  ⟨hf.1, List.forall_mem_cons.2 ⟨hc, hf.2⟩⟩

theorem conjunction (hf : f.Tells Q) (hc : c.Tells Q) : (f.conjunction c).Tells Q := by
  apply tells_grouped
  intro d hd
  obtain hd | hd := List.mem_append.1 hd
  · exact hf.2 d (List.mem_reverse.1 hd)
  · exact List.mem_singleton.1 hd ▸ hc

theorem alternate (hf : f.Tells Q) (hc : c.Tells Q) : (f.alternate c).Tells Q :=
  ⟨List.forall_mem_cons.2 ⟨hf.conjunction hc, hf.1⟩, nofun⟩

theorem close (hf : f.Tells Q) (hc : c.Tells Q) : (f.close c).Tells Q := by
  apply tells_grouped
  intro d hd
  obtain hd | hd := List.mem_append.1 hd
  · exact hf.1 d (List.mem_reverse.1 hd)
  · exact List.mem_singleton.1 hd ▸ hf.conjunction hc

end Frame.Tells

def Expecting.Tells (Q : Text → Prop) : Expecting → Prop
  | .operand => True
  | .comparator column | .literal column _ => Q column
  | .connective last => last.Tells Q

/-- What reading on gives has the property, whether it is a condition or a fault. -/
theorem readFrom_gives {f : Frame} {outer : List Frame} {x : Expecting} {ts : List Token}
    (hts : Token.Tell Q ts) (hf : f.Tells Q) (houter : ∀ g ∈ outer, g.Tells Q)
    (hx : x.Tells Q) : (readFrom f outer x ts).Gives
      (fun r => r.1.Tells Q ∧ Token.Tell Q r.2) fun e => ∀ t ∈ e.texts, Q t := by
  induction ts generalizing f outer x with
  | nil =>
    cases x with
    | operand => exact nofun
    | comparator column => exact List.forall_mem_singleton.2 hx
    | literal column op => exact List.forall_mem_singleton.2 hx
    | connective last =>
      cases outer with
      | nil => exact ⟨hf.close hx, nofun⟩
      | cons g outer => exact nofun
  | cons t ts ih =>
    obtain ⟨ht, hts⟩ := List.forall_mem_cons.1 hts
    have ih {f outer x} := @ih f outer x hts
    cases x with
    | operand =>
      have htext : Q t.text := ht.text
      rw [readFrom]
      split
      · exact ih .empty (List.forall_mem_cons.2 ⟨hf, houter⟩) trivial
      · exact nofun
      · next hl => exact ih hf houter (by rwa [Token.text, hl] at htext)
      · next hl => exact ih hf houter (by rwa [Token.text, hl] at htext)
      · exact List.forall_mem_singleton.2 htext
    | comparator column =>
      rw [readFrom]
      split
      · exact ih hf houter hx
      · split
        · exact ih hf houter hx
        · exact List.forall_mem_singleton.2 hx
      · exact List.forall_mem_singleton.2 hx
    | literal column op =>
      rw [readFrom]
      split
      · next hv => exact ih hf houter (.compare hx (ht.literal _ hv))
      · exact List.forall_mem_singleton.2 hx
    | connective last =>
      rw [readFrom.eq_def]
      dsimp only
      split
      · exact ih (hf.conjoin hx) houter trivial
      · exact ih (hf.alternate hx) houter trivial
      · obtain ⟨hg, houter⟩ := List.forall_mem_cons.1 houter
        exact ih hg houter (hf.close hx)
      · exact ⟨hf.close hx, List.forall_mem_cons.2 ⟨ht, hts⟩⟩
      · exact nofun

theorem read_gives {ts : List Token} (hts : Token.Tell Q ts) : (read ts).Gives
    (fun r => r.1.Tells Q ∧ Token.Tell Q r.2) fun e => ∀ t ∈ e.texts, Q t :=
  readFrom_gives hts .empty nofun trivial

/-! ## Binding and judging -/

theorem gives_number {α : Type} (x : Except NumberFault α) :
    (x.mapError Failure.number).Gives (fun _ => True) (Failure.Tells Q) := by
  cases x with
  | error fault => exact nofun
  | ok a => trivial

/-- What goes wrong in one line goes wrong with the property. -/
theorem gives_tells (hQ : ∀ t : Text, t.OneLine → Q t) {α : Type} {P : α → Prop}
    {x : Except Failure α} (h : x.Gives P Failure.Tidy) : x.Gives P (Failure.Tells Q) :=
  h.mono (fun _ h => h) fun _ h => h.mono hQ

/-- What a condition is bound to judges every row whose cells are within one line, or tells of texts
with the property. -/
def Judges (Q : Text → Prop) (p : Predicate) : Prop :=
  ∀ row, Row.OneLine row → (p row).Gives (fun _ => True) (Failure.Tells Q)

theorem oneLine_getD {row : Row} (h : Row.OneLine row) (i : Nat) :
    (row.getD i Value.null).text.OneLine := by
  rw [List.getD_eq_getElem?_getD]
  cases hi : row[i]? with
  | none => exact (by decide : Value.null.text.OneLine)
  | some v => exact h v (List.mem_of_getElem? hi)

theorem test_gives (op : Comparator) {cell : Value} (hc : Q cell.text) (hl : Q literal.text) :
    (test op cell literal).Gives (fun _ => True) (Failure.Tells Q) := by
  have hunordered {t : Text} (ht : Q t) :
      Failure.Tells Q (.rejected (.condition (.unordered t))) :=
    Failure.tells_of_texts (List.forall_mem_singleton.2 ht)
  have hcompare : (cell.compare? literal).Gives (fun _ => True) (Failure.Tells Q) := by
    unfold Value.compare?
    split
    · trivial
    · refine (gives_number _).bind fun m _ => (gives_number _).bind fun n _ => ?_
      cases m with
      | none => exact hunordered hc
      | some m =>
        cases n with
        | none => exact hunordered hl
        | some n => trivial
  cases op with
  | eq | ne => exact gives_number _
  | like => trivial
  | gt | lt | ge | le => exact hcompare.bind fun o _ => by cases o <;> trivial

section Bind

variable (hQ : ∀ t : Text, t.OneLine → Q t)
include hQ

theorem bindCompare_gives (columns : List Text) (op : Comparator) (hc : Q column)
    (hl : Q literal.text) :
    (bindCompare columns column op literal).Gives (Judges Q) (Failure.Tells Q) := by
  have hresolve : ((Name.resolve columns column []).mapError Failure.rejected).Gives
      (fun _ => True) (Failure.Tells Q) := by
    unfold Name.resolve
    split
    · trivial
    · apply Failure.tells_of_texts
      exact List.forall_mem_cons.2 ⟨hc, List.forall_mem_singleton.2 (hQ _ Text.oneLine_nil)⟩
  have hliteral : (checkLiteral op literal).Gives (fun _ => True) (Failure.Tells Q) := by
    unfold checkLiteral
    split
    · refine (gives_number _).bind fun n _ => ?_
      cases n with
      | some n => trivial
      | none => exact Failure.tells_of_texts (List.forall_mem_singleton.2 hl)
    · trivial
  refine hresolve.bind fun i _ => hliteral.bind fun _ _ => ?_
  exact fun row hrow => test_gives op (hQ _ (oneLine_getD hrow i)) hl

omit hQ in
theorem combine_judges (op : Connective) {ps : List Predicate} (h : ∀ p ∈ ps, Judges Q p) :
    Judges Q (combine op ps) := by
  intro row hrow
  induction ps with
  | nil => cases op <;> trivial
  | cons p ps ih =>
    obtain ⟨hp, hps⟩ := List.forall_mem_cons.1 h
    cases op with
    | and =>
      refine (hp row hrow).bind fun yes _ => ?_
      cases yes with
      | true => exact ih hps
      | false => trivial
    | or =>
      refine (hp row hrow).bind fun yes _ => ?_
      cases yes with
      | true => trivial
      | false => exact ih hps

theorem bind_gives (columns : List Text) (hc : c.Tells Q) :
    (c.bind columns).Gives (Judges Q) (Failure.Tells Q) := by
  induction hc with
  | compare hc hl => exact bindCompare_gives hQ columns _ hc hl
  | @group op operands _ ih =>
    have hall : (bindAll columns operands).Gives (fun ps => ∀ p ∈ ps, Judges Q p)
        (Failure.Tells Q) := by
      induction operands with
      | nil => exact nofun
      | cons d ds ihds =>
        obtain ⟨hd, hds⟩ := List.forall_mem_cons.1 ih
        exact hd.bind fun p hp => (ihds (fun c h => ‹∀ c ∈ d :: ds, _› c (by simp [h])) hds).bind
          fun ps hps => List.forall_mem_cons.2 ⟨hp, hps⟩
    exact hall.bind fun ps hps => combine_judges op hps

theorem bindOptional_gives (columns : List Text) {condition : Option Condition}
    (hc : ∀ c ∈ condition, c.Tells Q) :
    (bindOptional columns condition).Gives (Judges Q) (Failure.Tells Q) := by
  cases condition with
  | none => exact fun _ _ => trivial
  | some c => exact bind_gives hQ columns (hc c rfl)

end Bind

end Condition

end Tabular
