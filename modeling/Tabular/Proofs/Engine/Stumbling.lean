import Tabular.Proofs.Catalog.Stumbling
import Tabular.Proofs.Engine.Sound
import Tabular.Proofs.Statement.Spelling

/-!
# Internal errors

A failed command is answered as an internal error exactly if the failure is a fault of the operating
system or of number conversion. The latter come from integers with more digits than the limit alone,
in a file that is loaded, in the next id of a table, or in a cell or a literal that is compared.
-/

namespace Tabular

/-! ## Statements about one table -/

namespace Statement

/-- Working the statement out for a table comes to an integer that is too long. -/
inductive Stumbles (old : Table) : Statement → Prop
  | insert {name : Text} {values : List Value} (count : values.length = old.columns.length - 1)
    (fit : ∀ v ∈ values, v.text.fitsField)
    (long : Text.digitLimit < (Text.ofNat old.nextId).length) :
    Stumbles old (Statement.insert name values)
  | select {name : Text} {columns : Option (List Text)} {c : Condition}
    (judged : old.StumblesOver c) : Stumbles old (Statement.select name columns (some c))
  | update {name : Text} {assignments : List (Text × Value)} {c : Condition}
    {cells : List (Nat × Value)} (targets : old.targets [] assignments = .ok cells)
    (judged : old.StumblesOver c) : Stumbles old (Statement.update name assignments (some c))
  | delete {name : Text} {c : Condition} (judged : old.StumblesOver c) :
    Stumbles old (Statement.delete name (some c))

theorem balks_edit_iff {s : Statement} {old : Table} (ht : old.Sound) (hs : s.IsSpelled) :
    Balks (s.edit old) ↔ s.Stumbles old := by
  cases s with
  | use d | createDatabase d | dropDatabase d | createTable t columns | dropTable t
  | join l r lc rc => exact iff_of_false (not_balks_ok _) nofun
  | alterTable t action column =>
    refine iff_of_false ?_ nofun
    intro h
    cases action with
    | add =>
      exact old.not_balks_addColumn column ((balks_bind_of_not fun _ => not_balks_pure _).1 h)
    | drop =>
      exact old.not_balks_dropColumn column ((balks_bind_of_not fun _ => not_balks_pure _).1 h)
  | insert t values =>
    rw [edit, balks_bind_of_not fun _ => not_balks_pure _, Table.balks_insert_iff]
    constructor
    · rintro ⟨count, fit, long⟩
      exact .insert count fit long
    · rintro ⟨count, fit, long⟩
      exact ⟨count, fit, long⟩
  | select t columns condition =>
    have hc : ∀ c ∈ condition, c.IsSpelled := hs
    have hproject (rows : List Row) : ¬ Balks (old.project rows columns >>= fun r =>
        (pure (.found r.1 r.2, .none) : Except Failure (Result × Catalog.Edit))) := by
      rw [balks_bind_of_not fun _ => not_balks_pure _]
      exact old.not_balks_project rows columns
    rw [edit, balks_bind_of_not hproject, Table.balks_select_iff ht hc]
    constructor
    · rintro ⟨c, ⟨⟩, h⟩
      exact .select h
    · intro h
      cases h with
      | select judged => exact ⟨_, rfl, judged⟩
  | update t assignments condition =>
    have hc : ∀ c ∈ condition, c.IsSpelled := hs
    rw [edit, balks_bind_of_not fun _ => not_balks_pure _, Table.balks_update_iff ht hc]
    constructor
    · rintro ⟨⟨cells, hcells⟩, c, ⟨⟩, h⟩
      exact .update hcells h
    · intro h
      cases h with
      | update targets judged => exact ⟨⟨_, targets⟩, _, rfl, judged⟩
  | delete t condition =>
    have hc : ∀ c ∈ condition, c.IsSpelled := hs
    rw [edit, balks_bind_of_not fun _ => not_balks_pure _, Table.balks_delete_iff ht hc]
    constructor
    · rintro ⟨c, ⟨⟩, h⟩
      exact .delete h
    · intro h
      cases h with
      | delete judged => exact ⟨_, rfl, judged⟩

end Statement

namespace Engine

variable {e : Engine} {id x : Text} {s : Statement}

/-! ## Statements -/

/-- A statement for a session comes to an integer that is too long: in loading the database that it
refers to, or in what it does with tables of it. -/
inductive Stumbles (e : Engine) (id : Text) : Statement → Prop
  | use {x : Text} (loading : e.catalog.StumblesLoading x) : Stumbles e id (.use x)
  | loading {s : Statement} {x : Text} (about : s.isLocal) (selected : e.selection id = some x)
    (loading : e.catalog.StumblesLoading x) : Stumbles e id s
  | working {s : Statement} {x t : Text} {d : Database} {old : Table} (about : s.table? = some t)
    (selected : e.selection id = some x) (found : e.catalog.found x = .ok d)
    (table : d.get t = .ok old) (stumbles : s.Stumbles old) : Stumbles e id s
  | joining {x left right leftColumn rightColumn : Text} {d : Database} {l r : Table}
    (selected : e.selection id = some x) (found : e.catalog.found x = .ok d)
    (left_table : d.get left = .ok l) (right_table : d.get right = .ok r)
    (stumbles : Join.Stumbles l r leftColumn rightColumn) :
    Stumbles e id (.join left right leftColumn rightColumn)

/-- Besides the statements about one table and joins, nothing that a session does with its database
stumbles but loading it. -/
theorem stumbles_iff_loading (hs : s.isLocal) (ht : s.table? = none)
    (hj : ∀ l r lc rc, s ≠ .join l r lc rc) (hsel : e.selection id = some x) :
    e.Stumbles id s ↔ e.catalog.StumblesLoading x := by
  constructor
  · intro h
    cases h with
    | use loading => cases hs
    | loading about selected loading =>
      cases hsel.symm.trans selected
      exact loading
    | working about => cases ht.symm.trans about
    | joining => exact absurd rfl (hj _ _ _ _)
  · exact .loading hs hsel

/-- Of the statements that are about no database that is selected, only one that selects a database
stumbles. -/
theorem not_stumbles_of_not_isLocal (hs : s.isLocal = false) (hu : ∀ x, s ≠ .use x) :
    ¬ e.Stumbles id s := by
  intro h
  cases h with
  | use loading => exact hu _ rfl
  | loading about => cases hs.symm.trans about
  | working about => cases hs.symm.trans (Statement.isLocal_of_table about)
  | joining => cases hs

theorem not_stumbles_of_unselected (hs : s.isLocal) (hsel : e.selection id = none) :
    ¬ e.Stumbles id s := by
  intro h
  cases h with
  | use loading => cases hs
  | loading about selected loading => cases hsel.symm.trans selected
  | working about selected => cases hsel.symm.trans selected
  | joining selected => cases hsel.symm.trans selected

/-- Carrying out what was worked out never balks. -/
theorem Sound.balks_perform_table (he : e.Sound) {t : Text} {r : Except Failure Table} {c : Catalog}
    (hs : s.table? = some t) (hsel : e.selection id = some x) (hc : c.Sound)
    (hr : ∀ old, r = .ok old → old.Sound) (hrun : (Catalog.table x t).run e.catalog = (r, c)) :
    Balks ((Engine.perform id s).run e).1 ↔ Balks (r >>= s.edit) := by
  rw [perform_table_run hs hsel hrun]
  cases hy : r >>= s.edit with
  | error f => simp [Balks]
  | ok p =>
    obtain ⟨old, hold, hedit⟩ := Except.bind_eq_ok_iff.1 hy
    have hfinish := ensures_finish (p := True) x p.1 (sound_of_edit (hr old hold) hedit)
    exact iff_of_false (not_balks_of_tame (hfinish (e.withCatalog c) ⟨hc, he.chosen⟩).2)
      (not_balks_ok p)

section Legible

variable (he : e.Sound) (hc : e.catalog.Legible)
include he hc

theorem Sound.balks_perform_table_iff {t : Text} (hs : s.IsSpelled) (ht : s.table? = some t)
    (hw : Name.IsWord t) (hsel : e.selection id = some x) :
    Balks ((Engine.perform id s).run e).1 ↔ e.Stumbles id s := by
  have hx := he.chosen id x hsel
  obtain ⟨c, hrun, -⟩ := Catalog.table_run_of_proper hc.suffixed hc.proper hx.isName t
  have hsound := Catalog.ensures_table (p := True) hx.oneLine hw.lower_oneLine e.catalog he.catalog
  rw [hrun] at hsound
  have hplain (old : Table) (hold : _ = Except.ok old) : old.Sound := (hsound.2.of_ok hold).toSound
  rw [he.balks_perform_table ht hsel hsound.1 hplain hrun, balks_bind, balks_bind,
    Catalog.balks_found_iff]
  simp only [not_balks_mapError_rejected, and_false, exists_false, or_false]
  constructor
  · rintro (h | ⟨old, hold, h⟩)
    · exact .loading (Statement.isLocal_of_table ht) hsel h
    · obtain ⟨d, hd, hget⟩ := Except.bind_eq_ok_iff.1 hold
      exact .working ht hsel hd (Except.mapError_eq_ok_iff.1 hget)
        ((Statement.balks_edit_iff (hplain old hold) hs).1 h)
  · intro h
    cases h with
    | use => cases ht
    | loading about selected loading =>
      cases hsel.symm.trans selected
      exact .inl loading
    | @working s x' t' d old about selected found table stumbles =>
      cases hsel.symm.trans selected
      cases ht.symm.trans about
      have hold : (e.catalog.found x >>= fun d => (d.get t).mapError Failure.rejected) = .ok old :=
        Except.bind_eq_ok_iff.2 ⟨d, found, Except.mapError_eq_ok_iff.2 table⟩
      exact .inr ⟨old, hold, (Statement.balks_edit_iff (hplain old hold) hs).2 stumbles⟩
    | joining => cases ht

theorem Sound.balks_perform_join_iff {left right leftColumn rightColumn : Text}
    (hw : Name.IsWord left ∧ Name.IsWord right) (hsel : e.selection id = some x) :
    Balks ((Engine.perform id (.join left right leftColumn rightColumn)).run e).1 ↔
      e.Stumbles id (.join left right leftColumn rightColumn) := by
  have hx := he.chosen id x hsel
  obtain ⟨c, hl, hb⟩ := Catalog.table_run_of_proper hc.suffixed hc.proper hx.isName left
  have hsl := Catalog.ensures_table (p := True) hx.oneLine hw.1.lower_oneLine e.catalog he.catalog
  rw [hl] at hsl
  have hproper : c.archive.disk.Proper := hb.disk ▸ hc.proper
  obtain ⟨c', hr, -⟩ := Catalog.table_run_of_proper hsl.1.suffixed hproper hx.isName right
  have hsr := Catalog.ensures_table (p := True) hx.oneLine hw.2.lower_oneLine c hsl.1
  rw [hr] at hsr
  -- Where the left table was found, the right one is looked for in the same database.
  have hfound {d : Database} (hd : e.catalog.found x = .ok d) : c.found x = .ok d :=
    Catalog.found_of_get? (by rw [hb.resident]; exact Catalog.get?_heldAfter hd)
  rw [perform_join_run hsel hl hr]
  simp only [balks_bind, not_balks_pure, and_false, exists_false, or_false,
    not_balks_mapError_rejected, Catalog.balks_found_iff]
  constructor
  · rintro (h | ⟨l, hlt, h⟩)
    · exact .loading rfl hsel h
    · obtain ⟨d, hd, hgl⟩ := Except.bind_eq_ok_iff.1 hlt
      obtain h | ⟨r, hrt, h⟩ := h
      · exact absurd (Catalog.balks_found_iff.2 h) (by rw [hfound hd]; exact not_balks_ok d)
      · obtain ⟨d', hd', hgr⟩ := Except.bind_eq_ok_iff.1 hrt
        cases (hfound hd).symm.trans hd'
        exact .joining hsel hd (Except.mapError_eq_ok_iff.1 hgl) (Except.mapError_eq_ok_iff.1 hgr)
          ((Join.balks_join_iff (hsl.2.of_ok hlt).toSound (hsr.2.of_ok hrt).toSound).1 h)
  · intro h
    cases h with
    | loading about selected loading =>
      cases hsel.symm.trans selected
      exact .inl loading
    | working about => cases about
    | @joining x' _ _ _ _ d l r selected found left_table right_table stumbles =>
      cases hsel.symm.trans selected
      have hlt : (e.catalog.found x >>= fun d => (d.get left).mapError Failure.rejected) = .ok l :=
        Except.bind_eq_ok_iff.2 ⟨d, found, Except.mapError_eq_ok_iff.2 left_table⟩
      have hrt : (c.found x >>= fun d => (d.get right).mapError Failure.rejected) = .ok r :=
        Except.bind_eq_ok_iff.2 ⟨d, hfound found, Except.mapError_eq_ok_iff.2 right_table⟩
      exact .inr ⟨l, hlt, .inr ⟨r, hrt,
        (Join.balks_join_iff (hsl.2.of_ok hlt).toSound (hsr.2.of_ok hrt).toSound).2 stumbles⟩⟩

/-- Carrying out a statement balks exactly if it stumbles. -/
theorem Sound.balks_perform_iff (hn : s.Named) (hs : s.IsSpelled) :
    Balks ((Engine.perform id s).run e).1 ↔ e.Stumbles id s := by
  have hlocal (h : s.isLocal) (hx : ∀ x, e.selection id = some x →
        (Balks ((Engine.perform id s).run e).1 ↔ e.Stumbles id s)) :
      Balks ((Engine.perform id s).run e).1 ↔ e.Stumbles id s := by
    cases hsel : e.selection id with
    | none =>
      rw [perform_unselected h hsel]
      exact iff_of_false (not_balks_rejected _) (not_stumbles_of_unselected h hsel)
    | some x => exact hx x hsel
  cases s with
  | use x =>
    obtain ⟨r, c, hrun⟩ : ∃ r c, (Catalog.use x).run e.catalog = (r, c) := ⟨_, _, rfl⟩
    have huse := hc.balks_use_iff hn
    rw [hrun] at huse
    rw [perform_use_run id hrun, balks_map, huse]
    constructor
    · exact .use
    · intro h
      cases h with
      | use loading => exact loading
      | loading about => cases about
      | working about => cases about
  | createDatabase x =>
    obtain ⟨r, c, hrun⟩ : ∃ r c, (Catalog.createDatabase x).run e.catalog = (r, c) := ⟨_, _, rfl⟩
    have hx : Name.IsWord x := hn
    have htame := (Catalog.ensures_createDatabase (p := True) hx.oneLine e.catalog he.catalog).2
    rw [hrun] at htame
    rw [perform_createDatabase_run id hrun, balks_map]
    have hnone : ¬ e.Stumbles id (.createDatabase x) := not_stumbles_of_not_isLocal rfl nofun
    exact iff_of_false (not_balks_of_tame htame) hnone
  | dropDatabase x =>
    obtain ⟨r, c, hrun⟩ : ∃ r c, (Catalog.dropDatabase x).run e.catalog = (r, c) := ⟨_, _, rfl⟩
    have hx : Name.IsWord x := hn
    have htame := (Catalog.ensures_dropDatabase (p := True) hx.oneLine e.catalog he.catalog).2
    rw [hrun] at htame
    rw [perform_dropDatabase_run id hrun, balks_map]
    have hnone : ¬ e.Stumbles id (.dropDatabase x) := not_stumbles_of_not_isLocal rfl nofun
    exact iff_of_false (not_balks_of_tame htame) hnone
  | createTable t columns =>
    refine hlocal rfl fun x hsel => ?_
    obtain ⟨r, c, hrun⟩ : ∃ r c, (Catalog.createTable x t columns).run e.catalog = (r, c) :=
      ⟨_, _, rfl⟩
    have hcreate := hc.balks_createTable_iff (he.chosen id x hsel) t columns
    rw [hrun] at hcreate
    rw [perform_createTable_run hsel hrun, balks_map, hcreate,
      stumbles_iff_loading rfl rfl (fun _ _ _ _ => Statement.noConfusion) hsel]
  | dropTable t =>
    refine hlocal rfl fun x hsel => ?_
    obtain ⟨r, c, hrun⟩ : ∃ r c, (Catalog.dropTable x t).run e.catalog = (r, c) := ⟨_, _, rfl⟩
    have hdrop := hc.balks_dropTable_iff (he.chosen id x hsel) hn
    rw [hrun] at hdrop
    rw [perform_dropTable_run hsel hrun, balks_map, hdrop,
      stumbles_iff_loading rfl rfl (fun _ _ _ _ => Statement.noConfusion) hsel]
  | join left right leftColumn rightColumn =>
    exact hlocal rfl fun x => he.balks_perform_join_iff hc hn
  | alterTable t action column => exact hlocal rfl fun x => he.balks_perform_table_iff hc hs rfl hn
  | insert t values => exact hlocal rfl fun x => he.balks_perform_table_iff hc hs rfl hn
  | select t columns condition => exact hlocal rfl fun x => he.balks_perform_table_iff hc hs rfl hn
  | update t assignments condition =>
    exact hlocal rfl fun x => he.balks_perform_table_iff hc hs rfl hn
  | delete t condition => exact hlocal rfl fun x => he.balks_perform_table_iff hc hs rfl hn

end Legible

end Engine

/-! ## Answers -/

/-- Words are told from those of an internal error by their first letters. -/
theorem Message.not_internal {l : List Char} {m : Message} (hl : 3 ≤ l.length)
    (h : l.take 3 ≠ ['I', 'n', 't']) :
    ¬ "Internal error".toList <+: Message.text (.words (String.ofList l) :: m) := by
  intro hp
  have htake := List.prefix_iff_eq_take.1 ((List.take_prefix 3 _).trans hp)
  have hint : "Internal error".toList.take 3 = ['I', 'n', 't'] :=
    congrArg (List.take 3) String.toList_ofList
  rw [hint, Message.text_cons, Phrase.text, String.toList_ofList] at htake
  exact h (htake.trans (List.take_append_of_le_length hl)).symm

/-- No rejection is put into words that could be taken for those of an internal error. -/
theorem Rejection.not_internal (cause : Rejection) :
    ¬ "Internal error".toList <+: cause.message.text := by
  cases cause with
  | command fault => cases fault <;> exact Message.not_internal (by decide) (by decide)
  | condition fault => cases fault <;> exact Message.not_internal (by decide) (by decide)
  | storage fault => cases fault <;> exact Message.not_internal (by decide) (by decide)
  | unknownColumn name table => cases table <;> exact Message.not_internal (by decide) (by decide)
  | _ => exact Message.not_internal (by decide) (by decide)

/-- An answer starts as that of an internal error exactly if the failure is not a rejection. -/
theorem Outcome.internal_iff (o : Outcome) : "[ERROR] Internal error".toList <+: o.response ↔
    ∃ f, o.result = .error f ∧ f.isRejection = false := by
  have herror : "Internal error".toList =
      ['I', 'n', 't', 'e', 'r', 'n', 'a', 'l', ' ', 'e', 'r', 'r', 'o', 'r'] := String.toList_ofList
  have hstart : "[ERROR] Internal error".toList = errorTag ++ [' '] ++ "Internal error".toList := by
    rw [herror]
    exact String.toList_ofList
  have hinternal (m : Text) : "Internal error".toList <+: "Internal error: ".toList ++ m := by
    have hcolon : "Internal error: ".toList = "Internal error".toList ++ [':', ' '] := by
      rw [herror]
      exact String.toList_ofList
    rw [hcolon, List.append_assoc]
    exact List.prefix_append _ _
  unfold response
  rw [hstart]
  cases o.result with
  | ok r =>
    refine iff_of_false ?_ nofun
    dsimp only
    split <;> simp [okTag, errorTag, Text.join, List.intercalate]
  | error f =>
    simp only [List.prefix_append_right_inj, Except.error.injEq, exists_eq_left']
    cases f with
    | rejected cause =>
      exact iff_of_false cause.not_internal (by simp [Failure.isRejection])
    | number fault => exact iff_of_true (hinternal fault.message.text) rfl
    | system fault => exact iff_of_true (hinternal fault.message.text) rfl

namespace Engine

/-- Whatever has happened, a command whose files are looked at without a fault of the disk comes to
a fault of number conversion exactly if its statement stumbles over an integer that is too long, and
is answered as an internal error exactly then or if the operating system is at fault. -/
theorem internal_error_iff_stumbles {o : Options} (ho : o.suffix ≠ []) (disk : Disk)
    (turns : List Turn) {e : Engine} (he : (start o disk).takeAll turns = e)
    (hd : e.disk.Proper) (command : Text) (id : Option Text) :
    ((∃ fault, (e.execute command id).1.result = .error (.number fault)) ↔
      ∃ sess s, e.session id = .ok sess ∧ Statement.ofCommand command = .ok s ∧
        e.Stumbles (id.getD defaultId) s) ∧
    ("[ERROR] Internal error".toList <+: (e.execute command id).1.response ↔
      (∃ fault, (e.execute command id).1.result = .error (.number fault)) ∨
        ∃ fault, (e.execute command id).1.result = .error (.system fault)) := by
  have hsound : e.Sound := he ▸ (start_sound ho disk).takeAll turns
  have hc : e.catalog.Legible := ⟨hsound.catalog, hd⟩
  constructor
  · cases hid : e.session id with
    | error cause =>
      simp only [execute, hid]
      exact iff_of_false (by simp) (by simp)
    | ok sess =>
      cases hs : Statement.ofCommand command with
      | error cause =>
        simp only [execute, hid, hs]
        exact iff_of_false (by simp) (by simp)
      | ok s =>
        obtain ⟨r, e', hrun⟩ : ∃ r e', (perform (id.getD defaultId) s).run e = (r, e') :=
          ⟨_, _, rfl⟩
        have hiff : Balks ((perform (id.getD defaultId) s).run e).1 ↔ _ :=
          hsound.balks_perform_iff hc (Statement.ofCommand_named hs)
            (Statement.ofCommand_spelled hs)
        rw [hrun] at hiff
        rw [execute_run hid hs hrun]
        simpa [Balks] using hiff
  · rw [Outcome.internal_iff]
    cases (e.execute command id).1.result with
    | ok r => simp
    | error f => cases f <;> simp [Failure.isRejection]

/-- A literal of 4301 digits is compared with a number. -/
theorem execute_overlong_literal :
    let o : Options := ⟨['.', 't', 'a', 'b'], false, .whole, ['1']⟩
    let commands : List String :=
      ["CREATE DATABASE d;", "USE d;", "CREATE TABLE t (a);", "INSERT INTO t VALUES (1);"]
    let hs : List Happening := commands.map fun c => .event (.command c.toList none)
    let e := (start o (Disk.empty ['r'])).takeAll (hs.map .happening)
    let select := "SELECT * FROM t WHERE a == ".toList ++ List.replicate 4301 '1' ++ [';']
    (e.execute select none).1.result = .error (.number (.tooManyDigits 4301)) := by
  decide +kernel

theorem internal_error_iff_stumbles_of_literal :
    let o : Options := ⟨['.', 't', 'a', 'b'], false, .whole, ['1']⟩
    let commands : List String :=
      ["CREATE DATABASE d;", "USE d;", "CREATE TABLE t (a);", "INSERT INTO t VALUES (1);"]
    let hs : List Happening := commands.map fun c => .event (.command c.toList none)
    let e := (start o (Disk.empty ['r'])).takeAll (hs.map .happening)
    let select := "SELECT * FROM t WHERE a == ".toList ++ List.replicate 4301 '1' ++ [';']
    o.suffix ≠ [] ∧ e.disk.Proper ∧ (∃ sess s, e.session none = .ok sess ∧
      Statement.ofCommand select = .ok s ∧ e.Stumbles defaultId s) ∧
      "[ERROR] Internal error".toList <+: (e.execute select none).1.response := by
  intro o commands hs e select
  have hsteady : e.Steady := by
    have h := (start_steady_of_proper (o := o) ⟨by decide, by decide, by decide⟩
      (Disk.empty_proper ['r'])).meetAll hs
    rwa [← takeAll_happenings] at h
  have hproper : e.disk.Proper := by
    have h := hsteady.sane.settled.proper
    rwa [show e.catalog.calmed.archive.disk = e.disk from
      Disk.calmed_of_unrefused (by decide +kernel)] at h
  have hiff := internal_error_iff_stumbles (o := o) (by decide) (Disk.empty ['r']) _ rfl hproper
    select none
  have hrun := execute_overlong_literal
  exact ⟨by decide, hproper, hiff.1.1 ⟨_, hrun⟩, hiff.2.2 (.inl ⟨_, hrun⟩)⟩

/-- So not every failure of a statement is a rejection where the disk refuses nothing. -/
theorem overlong_literal_not_rejected :
    let o : Options := ⟨['.', 't', 'a', 'b'], false, .whole, ['1']⟩
    let commands : List String :=
      ["CREATE DATABASE d;", "USE d;", "CREATE TABLE t (a);", "INSERT INTO t VALUES (1);"]
    let hs : List Happening := commands.map fun c => .event (.command c.toList none)
    let e := (start o (Disk.empty ['r'])).takeAll (hs.map .happening)
    let select := "SELECT * FROM t WHERE a == ".toList ++ List.replicate 4301 '1' ++ [';']
    e.disk.refusals = [] ∧ (∀ cause, (e.execute select none).1.result ≠ .error (.rejected cause)) ∧
      "[ERROR] Internal error".toList <+: (e.execute select none).1.response := by
  have hrun := execute_overlong_literal
  refine ⟨by decide +kernel, fun cause h => ?_, (Outcome.internal_iff _).2 ⟨_, hrun, rfl⟩⟩
  cases hrun.symm.trans h

end Engine

end Tabular
