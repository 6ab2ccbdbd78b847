import Tabular.Join
import Tabular.Proofs.Except

/-!
# What goes wrong with tables

An operation on tables goes wrong over a number, a name, a column, a value or a condition, and over
nothing else: it knows of no databases, sessions or files.
-/

namespace Tabular

/-- Is the command turned down for something that an operation on tables looks at? -/
def Rejection.OfTable : Rejection → Prop
  | .condition _ | .invalidName _ _ | .keywordName _ _ | .unknownColumn _ _ | .duplicateColumn _
  | .reservedColumn _ | .valueCount _ _ | .invalidValue _ => True
  | .command _ | .noDatabaseSelected | .unknownSession _ | .unknownDatabase _ | .duplicateDatabase _
  | .unknownTable _ | .duplicateTable _ | .storage _ | .malformedFile _ _ => False

def Failure.OfTable : Failure → Prop
  | .rejected cause => cause.OfTable
  | .number _ => True
  | .system _ => False

namespace Table

/-- Nothing goes wrong but what may go wrong with tables. -/
abbrev Confined {α : Type} (x : Except Failure α) : Prop := x.Gives (fun _ => True) Failure.OfTable

/-- A test that goes wrong only as operations on tables do. -/
abbrev ConfinedTest (p : Predicate) : Prop := ∀ row, Confined (p row)

variable {α β : Type}

theorem confined_bind {x : Except Failure α} {f : α → Except Failure β} (hx : Confined x)
    (hf : ∀ a, Confined (f a)) : Confined (x >>= f) := hx.bind fun a _ => hf a

theorem confined_number (x : Except NumberFault α) : Confined (x.mapError Failure.number) := by
  cases x <;> trivial

/-! ## Names -/

section Names

variable (columns : List Text) (name : Text)

theorem resolve_gives (table : Text) :
    (Name.resolve columns name table).Gives (fun _ => True) Rejection.OfTable := by
  unfold Name.resolve
  split <;> trivial

theorem confined_index (t : Table) : Confined (t.index name) :=
  Except.gives_mapError.2 (resolve_gives t.columns name t.name)

theorem checkNew_confined (action : ColumnAction) :
    (checkNew action columns name).Gives (fun _ => True) Rejection.OfTable := by
  have hvalid : (Name.validate "column" name).Gives (fun _ => True) Rejection.OfTable := by
    unfold Name.validate
    split
    · trivial
    · split <;> trivial
  refine hvalid.bind fun _ _ => ?_
  split
  · trivial
  · split <;> trivial

/-- Making a table goes wrong only over the names of its columns. -/
theorem create_confined :
    (create name columns).Gives (fun _ => True) Rejection.OfTable := by
  have hcheck (before : List Text) :
      (checkColumns before columns).Gives (fun _ => True) Rejection.OfTable := by
    induction columns generalizing before with
    | nil => trivial
    | cons c cs ih => exact (checkNew_confined before c .create).bind fun _ _ => ih _
  exact (hcheck []).bind fun _ _ => trivial

end Names

/-! ## Conditions -/

section Conditions

variable (columns : List Text) (literal : Value) (op : Comparator)

theorem confined_test (cell : Value) : Confined (Condition.test op cell literal) := by
  have hcompare : Confined (cell.compare? literal) := by
    unfold Value.compare?
    split
    · trivial
    · refine confined_bind (confined_number _) fun m =>
        confined_bind (confined_number _) fun n => ?_
      cases m <;> cases n <;> trivial
  cases op with
  | eq | ne => exact confined_number _
  | like => trivial
  | gt | lt | ge | le => exact confined_bind hcompare fun o => by cases o <;> trivial

theorem bindCompare_confined (column : Text) :
    (Condition.bindCompare columns column op literal).Gives ConfinedTest Failure.OfTable := by
  have hresolve : Confined ((Name.resolve columns column []).mapError Failure.rejected) :=
    Except.gives_mapError.2 (resolve_gives columns column [])
  have hliteral : Confined (Condition.checkLiteral op literal) := by
    unfold Condition.checkLiteral
    split
    · exact confined_bind (confined_number _) fun n => by cases n <;> trivial
    · trivial
  exact hresolve.bind fun i _ => hliteral.bind fun _ _ row => confined_test literal op _

theorem confined_combine {ps : List Predicate} (h : ∀ p ∈ ps, ConfinedTest p) (op : Connective) :
    ConfinedTest (Condition.combine op ps) := by
  intro row
  induction ps with
  | nil => cases op <;> trivial
  | cons p ps ih =>
    obtain ⟨hp, hps⟩ := List.forall_mem_cons.1 h
    cases op with
    | and =>
      refine confined_bind (hp row) fun yes => ?_
      cases yes with
      | true => exact ih hps
      | false => trivial
    | or =>
      refine confined_bind (hp row) fun yes => ?_
      cases yes with
      | true => trivial
      | false => exact ih hps

mutual

theorem bind_confined (columns : List Text) (c : Condition) :
    (c.bind columns).Gives ConfinedTest Failure.OfTable := by
  match c with
  | .compare column op literal => exact bindCompare_confined columns literal op column
  | .group op operands =>
    exact (bindAll_confined columns operands).bind fun ps hps => confined_combine hps op

theorem bindAll_confined (columns : List Text) (cs : List Condition) :
    (Condition.bindAll columns cs).Gives (fun ps => ∀ p ∈ ps, ConfinedTest p)
      Failure.OfTable := by
  match cs with
  | [] => exact nofun
  | c :: cs =>
    exact (bind_confined columns c).bind fun p hp => (bindAll_confined columns cs).bind
      fun ps hps => List.forall_mem_cons.2 ⟨hp, hps⟩

end

theorem bindOptional_confined (condition : Option Condition) :
    (Condition.bindOptional columns condition).Gives ConfinedTest Failure.OfTable := by
  cases condition with
  | none => exact fun _ => trivial
  | some c => exact bind_confined columns c

end Conditions

/-! ## Rows -/

section Rows

theorem confined_stored (v : Value) : Confined (stored v) := by
  unfold stored
  split <;> trivial

theorem confined_storedAll (vs : List Value) : Confined (storedAll vs) := by
  induction vs with
  | nil => trivial
  | cons v vs ih =>
    exact confined_bind (confined_stored v) fun _ => confined_bind ih fun _ => trivial

theorem confined_accepted {p : Predicate} (hp : ConfinedTest p) (rows : List Row) :
    Confined (accepted p rows) := by
  induction rows with
  | nil => trivial
  | cons row rows ih => exact confined_bind (hp row) fun _ => confined_bind ih fun _ => trivial

theorem confined_verdicts {p : Predicate} (hp : ConfinedTest p) (rows : List Row) :
    Confined (verdicts p rows) := by
  induction rows with
  | nil => trivial
  | cons row rows ih => exact confined_bind (hp row) fun _ => confined_bind ih fun _ => trivial

theorem confined_targets (t : Table) (before : List (Nat × Value))
    (assignments : List (Text × Value)) : Confined (t.targets before assignments) := by
  induction assignments generalizing before with
  | nil => trivial
  | cons a rest ih =>
    unfold targets
    split
    · trivial
    · refine confined_bind (confined_index a.1 t) fun i => ?_
      split
      · trivial
      · exact confined_bind (confined_stored a.2) fun _ => ih _

theorem confined_indexes (t : Table) (names : List Text) : Confined (t.indexes names) := by
  induction names with
  | nil => trivial
  | cons c cs ih =>
    exact confined_bind (confined_index c t) fun _ => confined_bind ih fun _ => trivial

theorem confined_partners (key : Value) (place : Nat) (rows : List Row) :
    Confined (Join.partners key place rows) := by
  induction rows with
  | nil => trivial
  | cons row rows ih =>
    exact confined_bind (confined_number _) fun _ => confined_bind ih fun _ => trivial

theorem confined_pairs (left : List Row) (i : Nat) (right : List Row) (j : Nat) :
    Confined (Join.pairs left i right j) := by
  induction left with
  | nil => trivial
  | cons row rows ih =>
    exact confined_bind (confined_partners ..) fun _ => confined_bind ih fun _ => trivial

end Rows

/-! ## Operations -/

section Operations

variable (t : Table) (column : Text) (condition : Option Condition)

theorem confined_addColumn : Confined (t.addColumn column) :=
  confined_bind (Except.gives_mapError.2 (checkNew_confined t.columns column .add)) fun _ => trivial

theorem confined_dropColumn : Confined (t.dropColumn column) := by
  unfold dropColumn
  split
  · trivial
  · exact confined_bind (confined_index column t) fun _ => trivial

theorem confined_insert (values : List Value) : Confined (t.insert values) := by
  unfold insert
  split
  · trivial
  · exact confined_bind (confined_storedAll values) fun _ =>
      confined_bind (confined_number _) fun _ => trivial

theorem confined_select : Confined (t.select condition) :=
  (bindOptional_confined t.columns condition).bind fun _ hp => confined_accepted hp t.rows

theorem confined_project (rows : List Row) (columns : Option (List Text)) :
    Confined (t.project rows columns) := by
  cases columns with
  | none => trivial
  | some names => exact confined_bind (confined_indexes t names) fun _ => trivial

theorem confined_update (assignments : List (Text × Value)) :
    Confined (t.update condition assignments) :=
  (confined_targets t [] assignments).bind fun _ _ =>
    (bindOptional_confined t.columns condition).bind fun _ hp =>
      (confined_verdicts hp t.rows).bind fun _ _ => trivial

theorem confined_delete : Confined (t.delete condition) := by
  refine (bindOptional_confined t.columns condition).bind fun p hp => ?_
  have hnot : ConfinedTest fun row => (p row).map (! ·) := fun row => Except.gives_map.2 (hp row)
  exact (confined_accepted hnot t.rows).bind fun _ _ => trivial

theorem confined_join (left right : Table) (leftColumn rightColumn : Text) :
    Confined (Join.join left right leftColumn rightColumn) :=
  confined_bind (confined_index leftColumn left) fun _ =>
    confined_bind (confined_index rightColumn right) fun _ =>
      confined_bind (confined_pairs ..) fun _ => trivial

end Operations

end Table

end Tabular
