import Tabular.Http
import Tabular.Proofs.Engine.Sound
import Tabular.Proofs.Statement.Grammar
import Tabular.Proofs.Table.Shown

/-!
# What is shown of databases

Whatever happened to an engine, what it shows for a selection or a join comes apart into the header and
the rows, whether it is sent in lines and fields or over HTTP.
-/

namespace Tabular

open Tabular.Action

/-- A command that selects columns names one at least, unless it selects all. -/
theorem Statement.columns_ne_nil {command t : Text} {columns : Option (List Text)}
    {condition : Option Condition}
    (h : ofCommand command = .ok (.select t columns condition)) : columns ≠ some [] := by
  obtain ⟨ls, -, hform⟩ := exists_form h
  cases hform with
  | select wanted table rows =>
    rintro rfl
    cases wanted with
    | listed series => cases series

/-- The rows of a table that a condition selects are rows of the table. -/
theorem Table.mem_of_select {t : Table} {condition : Option Condition} {rows : List Row}
    (h : t.select condition = .ok rows) : ∀ row ∈ rows, row ∈ t.rows := by
  obtain ⟨p, -, hrows⟩ := Except.bind_eq_ok_iff.1 h
  exact fun row hrow => (accepted_sublist hrows).subset hrow

/-- A table that is found by a word is sound, and its name fits into a field. -/
theorem Database.Sound.get_fits {d : Database} (hd : d.Sound) {t : Text} (ht : Name.IsWord t) :
    (d.get t).Gives (fun u => u.Sound ∧ u.name.fitsField) fun _ => True := by
  refine Except.gives_result fun u hu => ?_
  obtain ⟨hsound, hlower⟩ := hd _ u (Database.get_eq_ok_iff.1 hu)
  refine ⟨hsound, Text.fitsField_of_lower ?_⟩
  rw [hlower, ht.small]
  exact (Table.fitsField_of_isPlain ht.plain).2

theorem Catalog.ensures_table_fits {x t : Text} (hx : x.OneLine) (ht : Name.IsWord t) :
    Ensures Catalog.Sound (fun u => u.Sound ∧ u.name.fitsField) (fun _ => True)
      (Catalog.table x t) :=
  ensures_bind (Catalog.ensures_database (p := True) hx).result fun _ hd =>
    ensures_give (Except.gives_mapError.2 (hd.get_fits ht))

/-- A member of an object is found by its word. -/
theorem Http.member?_record {members : List (String × Json)} {name : String} {v : Json}
    (h : members.reverse.find? (·.1 == name) = some (name, v)) :
    Json.member? (members.map fun m => (m.1.toList, m.2)) name.toList = some v := by
  have hname : (fun m : Text × Json => m.1 == name.toList) ∘
      (fun m : String × Json => (m.1.toList, m.2)) = fun m => m.1 == name := by
    funext m
    rw [Function.comp_apply, Bool.eq_iff_iff, beq_iff_eq, beq_iff_eq, String.toList_inj]
  rw [Json.member?, ← List.map_reverse, List.find?_map, hname, h]
  rfl

namespace Engine

variable {e : Engine} {s : Statement} {command : Text} {r : Result}

/-- What a statement with rows shows of a sound engine is a header and rows as wide. -/
theorem ensures_ruled (hread : Statement.ofCommand command = .ok s) (id : Text) :
    Ensures Sound (fun r => s.label.hasRows → Table.Ruled r.header r.rows) (fun _ => True)
      (perform id s) := by
  have hs := Statement.ofCommand_named hread
  have hother (h : s.label.hasRows = false) : Ensures Sound
      (fun r => s.label.hasRows → Table.Ruled r.header r.rows) (fun _ => True) (perform id s) :=
    (ensures_perform (Q := Text.OneLine) (fun _ h => h) hs id).mono
      (fun r _ hrows => by rw [h] at hrows; cases hrows) fun _ _ => trivial
  cases s with
  | select t columns condition =>
    refine ensures_bind (ensures_selectedTable (p := True) id hs).result fun found hfound => ?_
    obtain ⟨x, table⟩ := found
    refine ensures_bind (ensures_give (Except.gives_result fun _ => Table.mem_of_select))
      fun rows hrows => ?_
    refine ensures_bind (P := fun shown => Table.Ruled shown.1 shown.2)
      (ensures_give (Except.gives_result fun shown hshown => ?_)) fun shown hshown =>
        ensures_pure fun _ => hshown
    exact Table.project_ruled hfound.toSound hrows (Statement.columns_ne_nil hread) hshown
  | join left right leftColumn rightColumn =>
    refine ensures_bind (ensures_selected (p := True) id).result fun x hx => ?_
    refine ensures_bind (ensures_onCatalog (Catalog.ensures_table_fits hx.oneLine hs.1))
      fun l hl => ?_
    refine ensures_bind (ensures_onCatalog (Catalog.ensures_table_fits hx.oneLine hs.2))
      fun r hr => ?_
    refine ensures_bind (P := fun shown => Table.Ruled shown.1 shown.2)
      (ensures_give (Except.gives_result fun shown hshown => ?_)) fun shown hshown =>
        ensures_pure fun _ => hshown
    exact Join.join_ruled hl.1 hr.1 hl.2 hr.2 hshown
  | use x | createDatabase x | dropDatabase x | createTable t columns | dropTable t
  | alterTable t action column | insert t values | update t assignments condition
  | delete t condition => exact hother rfl

/-- A command that succeeds was for an open session and held a statement, which was completed. -/
theorem exists_of_execute_ok {id : Option Text} (hok : (e.execute command id).1.result = .ok r) :
    ∃ sess s, e.session id = .ok sess ∧ Statement.ofCommand command = .ok s ∧
      (e.execute command id).1.label = s.label ∧
      ((complete (id.getD defaultId) s).run e).1 = .ok r := by
  unfold execute at hok ⊢
  cases hsess : e.session id with
  | error cause =>
    rw [hsess] at hok
    cases hok
  | ok sess =>
    cases hread : Statement.ofCommand command with
    | error cause =>
      rw [hsess, hread] at hok
      cases hok
    | ok s =>
      rw [hsess, hread] at hok
      exact ⟨sess, s, rfl, rfl, rfl, hok⟩

/-- A command that succeeds with rows in a sound engine shows a header and rows as wide. -/
theorem Sound.ruled (he : e.Sound) {id : Option Text}
    (hrows : (e.execute command id).1.label.hasRows)
    (hok : (e.execute command id).1.result = .ok r) : Table.Ruled r.header r.rows := by
  obtain ⟨sess, s, -, hread, hlabel, hrun⟩ := exists_of_execute_ok hok
  rw [hlabel] at hrows
  have hcomplete : Ensures Sound (fun r => s.label.hasRows → Table.Ruled r.header r.rows)
      (fun _ => True) (complete (id.getD defaultId) s) :=
    ensures_bind (ensures_ruled hread _) fun _ hr =>
      ensures_bind (ensures_changeSession _ fun _ _ hx => .inl hx) fun _ _ => ensures_pure hr
  exact (hcomplete e he).2.of_ok hrun hrows

/-- A posted command that succeeds is answered with its outcome in parts. -/
theorem respond_of_execute_ok {request : Http.Request} {id : Option Text}
    (hpath : Http.locate (Http.cleanPath request.path) = some .execute)
    (hmethod : Text.upper request.method = ['P', 'O', 'S', 'T'])
    (hbody : Http.command? request.body = some (command, id))
    (hok : (e.execute command id).1.result = .ok r) :
    (Http.respond request e).1 = Http.ok (Http.outcomeBody (e.execute command id).1) := by
  obtain ⟨sess, s, hsess, -⟩ := exists_of_execute_ok hok
  have hposted : (Http.Resource.execute.methods).elem (Text.upper request.method) = true := by
    rw [hmethod]
    rfl
  simp only [Http.respond, hpath, hposted, if_true, Http.answer, Http.execute, hbody]
  cases id with
  | none => rfl
  | some name =>
    simp only [hsess]

/-- The parts of an outcome with a result, over HTTP. -/
theorem exists_members_of_result {o : Outcome} (hok : o.result = .ok r) :
    ∃ members, Http.outcomeBody o = .object members ∧
      Json.member? members "response".toList = some (.string o.response) ∧
      Json.member? members "columns".toList = some (Http.texts r.header) ∧
      Json.member? members "rows".toList = some (.array (r.rowTexts.map Http.texts)) := by
  obtain ⟨label, result⟩ := o
  obtain rfl : result = .ok r := hok
  exact ⟨_, rfl, Http.member?_record rfl, Http.member?_record rfl, Http.member?_record rfl⟩

/-- Whatever happened to an engine, and from outside to its disk: what it answers to a selection or a
join comes apart at line feeds into a line that says that all is well, one that comes apart at tabs into
the header, and one for each row that comes apart into its cells, as many as the header has names. Over
HTTP the same answer is told, and the header and the cells in parts. -/
theorem shown_comes_apart {o : Options} (ho : o.suffix ≠ []) (disk : Disk) (turns : List Turn)
    (command : Text) (id : Option Text) (r : Result) :
    let e := (start o disk).takeAll turns
    let outcome := (e.execute command id).1
    outcome.label.hasRows → outcome.result = .ok r →
      (∃ header rows,
        Text.pieces '\n' (e.handle command id).1 = Outcome.okTag :: header :: rows ∧
        Text.pieces '\t' header = r.header ∧ rows.map (Text.pieces '\t') = r.rowTexts) ∧
      (∀ fields ∈ r.rowTexts, fields.length = r.header.length) ∧
      ∀ request : Http.Request, Http.locate (Http.cleanPath request.path) = some .execute →
        Text.upper request.method = ['P', 'O', 'S', 'T'] →
        Http.command? request.body = some (command, id) →
        ∃ members, (Http.respond request e).1 = ⟨200, some (.object members)⟩ ∧
          Json.member? members "response".toList = some (.string (e.handle command id).1) ∧
          Json.member? members "columns".toList = some (Http.texts r.header) ∧
          Json.member? members "rows".toList = some (.array (r.rowTexts.map Http.texts)) := by
  intro e outcome hrows hok
  have he : e.Sound := (start_sound ho disk).takeAll turns
  have hruled : Table.Ruled r.header r.rows := he.ruled hrows hok
  have hresponse : (e.handle command id).1 = (⟨outcome.label, .ok r⟩ : Outcome).response := by
    rw [← hok]
    rfl
  refine ⟨⟨Outcome.line r.header, r.rowTexts.map Outcome.line, ?_, ?_, ?_⟩, ?_, ?_⟩
  · rw [hresponse, Result.pieces_response hrows hruled]
  · exact Outcome.pieces_line hruled.header_ne hruled.names_fit
  · exact Result.map_pieces_rowTexts hruled
  · exact fun fields hfields => (Result.rowTexts_fit hruled fields hfields).1
  · intro request hpath hmethod hbody
    obtain ⟨members, hmembers, hparts⟩ := exists_members_of_result hok
    refine ⟨members, ?_, hparts⟩
    rw [respond_of_execute_ok hpath hmethod hbody hok, hmembers]
    rfl

theorem shown_of_inserted_row :
    let commands := ["CREATE DATABASE d;", "USE d;", "CREATE TABLE t (a);",
      "INSERT INTO t VALUES ('x');"]
    let e := (start ⟨['.', 't', 'a', 'b'], false, .whole, ['1']⟩ (Disk.empty ['r'])).takeAll
      (commands.map fun c => .happening (.event (.command c.toList none)))
    let select := "SELECT a, id FROM t;".toList
    let request : Http.Request :=
      ⟨"post".toList, "/execute/".toList, some (.object [("command".toList, .string select)])⟩
    (∃ header rows, Text.pieces '\n' (e.handle select none).1 = Outcome.okTag :: header :: rows ∧
      Text.pieces '\t' header = [['a'], ['i', 'd']] ∧
      rows.map (Text.pieces '\t') = [[['x'], ['1']]]) ∧
    ∃ members, (Http.respond request e).1 = ⟨200, some (.object members)⟩ ∧
      Json.member? members "columns".toList = some (Http.texts [['a'], ['i', 'd']]) ∧
      Json.member? members "rows".toList = some (.array [Http.texts [['x'], ['1']]]) := by
  intro commands e select request
  let r : Result := .found [['a'], ['i', 'd']] [[⟨.string, ['x']⟩, ⟨.number, ['1']⟩]]
  have hrows : (e.execute select none).1.label.hasRows := by decide +kernel
  have hok : (e.execute select none).1.result.toOption = some r := by decide +kernel
  obtain ⟨hpieces, -, hposted⟩ := shown_comes_apart (by decide) (Disk.empty ['r']) _ select none r
    hrows (Except.toOption_eq_some_iff.1 hok)
  obtain ⟨members, hmembers, -, hparts⟩ := hposted request (by decide +kernel) (by decide +kernel)
    (by decide +kernel)
  exact ⟨hpieces, members, hmembers, hparts⟩

end Engine

end Tabular
