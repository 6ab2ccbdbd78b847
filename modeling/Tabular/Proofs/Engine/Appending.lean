import Mathlib
import Tabular.Proofs.Engine.InStep
import Tabular.Proofs.Catalog.Written

/-!
# When appending agrees with rewriting

Over any disk, appending rows and rewriting tables answer every command in the same way. What a
restart finds is the same after every run exactly if each table that a command can put a row into
has a file that ends with a line break.
-/

namespace Tabular

namespace Engine

/-- The options with rows that are appended. -/
def Options.appending (o : Options) : Options := { o with mode := .append }

/-- The options with tables that are written in whole. -/
def Options.rewriting (o : Options) : Options := { o with mode := .whole }

variable {o : Options} {disk : Disk} {e w : Engine} {x : Text} {command : Text}

/-- New engines over one disk are alongside, where the directories are ready. -/
theorem start_alongside (ho : o.Plain) (hd : disk.Proper) {good : Text → Prop}
    (hr : ∀ y, good y → (start o disk).catalog.archive.Ready y) :
    Alongside good (start o.appending disk) (start o.rewriting disk) where
  catalog :=
    { settled := start_settled (o := o.appending) ⟨ho.1, ho.2, ho.3⟩ hd
      settled' := start_settled (o := o.rewriting) ⟨ho.1, ho.2, ho.3⟩ hd
      appends := rfl
      rewrites := rfl
      suffix := rfl
      stamp := rfl
      root := rfl
      resident := rfl
      alike := fun _ _ => .same _
      cold := fun _ _ _ => rfl
      held := fun _ _ hy => by cases hy
      ready := fun y hy _ => (hr y hy).congr rfl rfl fun _ => rfl }
  sessions := rfl
  opened := rfl
  chosen := restart_chosen (start o.appending disk)

/-! ## Restarts -/

/-- A restart and a command to use the database come to the same with both engines. -/
def ReloadsAlike (x : Text) (e w : Engine) : Prop :=
  ∀ command, Statement.ofCommand command = .ok (.use x) →
    (e.restart.execute command none).1 = (w.restart.execute command none).1 ∧
    (e.restart.execute command none).2.catalog.resident.get? x =
      (w.restart.execute command none).2.catalog.resident.get? x

theorem resident_restart_execute_use (hs : e.catalog.Settled) (hx : Disk.IsName x)
    (hc : Statement.ofCommand command = .ok (.use x)) :
    (e.restart.execute command none).2.catalog.resident.get? x =
      (e.restart.catalog.found x).toOption := by
  obtain ⟨-, hb⟩ := execute_use (restart_settled hs) hx hc rfl
  rw [hb.resident, Catalog.get?_heldAfter_self]

theorem restart_found (hs : e.catalog.Settled) (hfit : Disk.fits x) (hk : e.catalog.archive.isKept x) :
    e.restart.catalog.found x = e.catalog.archive.database x := by
  have hdisk : e.restart.catalog.archive.disk = e.catalog.archive.disk :=
    restart_disk hs.proper.root
  rw [Catalog.found_of_kept rfl hfit (by rw [Archive.isKept, hdisk]; exact hk)]
  exact Archive.database_eq_of_disk hdisk rfl

/-! ## Inserting a row -/

section Insert

variable {d : Database} {old new : Table} {row : Row} {use name : Text} {values : List Value}
  {content : Bytes}

/-- The run of using a database and inserting a row. -/
theorem afterAll_insert (hs : e.catalog.Settled) (hx : Disk.IsName x) {sess : Session}
    (hid : e.session none = .ok sess) (huse : Statement.ofCommand use = .ok (.use x))
    (hf : e.catalog.found x = .ok d) (hk : d.tables.get? (Text.lower name) = some old)
    (hc : Statement.ofCommand command = .ok (.insert name values))
    (hi : old.insert values = .ok (row, new)) {disk' : Disk} {r : OrderedMap Text Database}
    (hcarry : ∀ c, e.catalog.Becomes e.catalog.archive.disk (e.catalog.heldAfter x) c →
      ∃ c', ((Catalog.Edit.row new row).carry x).run c = (.ok (), c') ∧ c.Becomes disk' r c') :
    e.Undisturbed [.command use none, .command command none] ∧
      e.catalog.Becomes disk' r (e.afterAll [.command use none, .command command none]).catalog := by
  obtain ⟨ho, hb⟩ := execute_use hs hx huse hid
  obtain ⟨hsel, hid'⟩ := selection_execute_use hs hx huse hid hf
  have hr : (e.execute use none).2.catalog.resident.get? x = some d := by
    rw [hb.resident]
    exact Catalog.get?_heldAfter hf
  obtain ⟨ho', hb'⟩ := execute_insert (hs.of_heldAfter hb) hx hid' hsel hr hk hc hi fun c hstay =>
    hcarry c (by rw [← hb.disk, ← hb.resident]; exact hb.trans hstay)
  refine ⟨?_, hb.trans hb'⟩
  intro o hm f he
  simp only [outcomes, Engine.after, List.mem_cons, List.not_mem_nil, or_false] at hm
  rcases hm with rfl | rfl
  · rw [ho, hf] at he
    cases he
  · rw [ho'] at he
    cases he

/-- What a restart finds in an engine whose disk has another file. -/
theorem resident_of_putFile {t : Text} {r : OrderedMap Text Database} (hs : e.catalog.Settled)
    (hx : Disk.IsName x) (huse : Statement.ofCommand use = .ok (.use x))
    (hk : e.catalog.archive.isKept x) (ht : Disk.IsName (e.catalog.archive.fileName t) ∧
      Disk.fits (e.catalog.archive.fileName t))
    (hr : ∀ y, r.has y → e.catalog.archive.isKept y)
    (hb : e.catalog.Becomes (e.catalog.archive.putFile x t content).disk r w.catalog) :
    (w.restart.execute use none).2.catalog.resident.get? x =
      ((e.catalog.archive.putFile x t content).database x).toOption := by
  have hxf := hs.isName hk
  have hget : ∀ y, w.catalog.archive.disk.entries.get? [y] =
      e.catalog.archive.disk.entries.get? [y] := by
    intro y
    rw [hb.disk]
    exact OrderedMap.get?_put_other _ _ (by simp)
  have hs' : w.catalog.Settled := hb.settled hs
    (hs.proper.put _ (by simp) (by simpa using ⟨hxf, ht⟩)) fun y hy => by
      rw [← hb.disk, hget]
      exact beq_iff_eq.1 (hr y hy)
  have hk' : w.catalog.archive.isKept x := by rwa [Archive.isKept, hget]
  rw [resident_restart_execute_use hs' hx huse, restart_found hs' hxf.2 hk',
    Archive.database_eq_of_disk (a := e.catalog.archive.putFile x t content) hb.disk hb.suffix]

/-- A row that is put into a table's file in any way is found there, or not, after a restart. -/
theorem resident_of_insert (hs : e.catalog.Settled) (hx : Disk.IsName x) {sess : Session}
    (hid : e.session none = .ok sess) (huse : Statement.ofCommand use = .ok (.use x))
    (hf : e.catalog.found x = .ok d) (hk : d.tables.get? (Text.lower name) = some old)
    (hc : Statement.ofCommand command = .ok (.insert name values))
    (hi : old.insert values = .ok (row, new))
    (ht : Disk.IsName (e.catalog.archive.fileName new.name) ∧
      Disk.fits (e.catalog.archive.fileName new.name))
    (hcarry : ∀ {c}, e.catalog.Becomes e.catalog.archive.disk (e.catalog.heldAfter x) c →
      ∃ c', ((Catalog.Edit.row new row).carry x).run c = (.ok (), c') ∧
        c.Becomes (e.catalog.archive.putFile x new.name content).disk
          ((e.catalog.heldAfter x).put x (d.replace new)) c') :
    e.Undisturbed [.command use none, .command command none] ∧
      ((e.afterAll [.command use none, .command command none]).restart.execute use
          none).2.catalog.resident.get? x =
        ((e.catalog.archive.putFile x new.name content).database x).toOption := by
  obtain ⟨hn, hb⟩ := afterAll_insert hs hx hid huse hf hk hc hi fun _ => hcarry
  exact ⟨hn, resident_of_putFile hs hx huse (Catalog.kept_of_found hs hf) ht
    (fun _ => hs.isKept_of_put hf) hb⟩

end Insert

/-! ## Agreement -/

/-- If a command can put a row into a table whose file does not end with a line break, the row is
lost where it is appended, once the file is read again. -/
theorem exists_not_reloadsAlike {use : Text} {d : Database} {t : Table} (ho : o.Plain)
    (hd : disk.Proper) (hx : Disk.IsName x) (huse : Statement.ofCommand use = .ok (.use x))
    (hfree : ∀ t, (start o disk).disk.entries.get?
      [x, (start o disk).catalog.archive.temporaryName t] = none)
    (hf : (start o disk).catalog.found x = .ok d)
    (ht : (start o disk).catalog.archive.fetch x t.name = .ok t)
    (hi : (start o disk).catalog.archive.Insertable t)
    (he : ¬ (start o disk).catalog.archive.EndsFile x t) :
    ∃ vs, .restart ∉ vs ∧ (start o.rewriting disk).Undisturbed vs ∧
      ¬ ReloadsAlike x ((start o.appending disk).afterAll vs)
        ((start o.rewriting disk).afterAll vs) := by
  obtain ⟨hfits, insert, name, values, row, new, hc, hname, hins⟩ := hi
  have hs := start_settled ho hd
  have hsa := start_settled (o := o.appending) ⟨ho.1, ho.2, ho.3⟩ hd
  have hsw := start_settled (o := o.rewriting) ⟨ho.1, ho.2, ho.3⟩ hd
  have hk := Catalog.kept_of_found hs hf
  have hdb : (start o disk).catalog.archive.database x = .ok d := by
    rw [← hf, Catalog.found_of_kept rfl (hs.isName hk).2 hk]
  have hold : d.tables.get? (Text.lower name) = some t := by
    rw [hname]
    exact ((Archive.database_eq_ok ho.suffix_ne hdb).2.2.2 _ _).2 ⟨rfl, ht⟩
  obtain ⟨-, -, content, hg, -⟩ := Archive.fetch_eq_ok_iff.1 ht
  obtain ⟨hsound, hrow, -, n, hnew⟩ := Catalog.Edit.fits_insert (Archive.sound_of_fetch ht) hins
  have hnn : new.name = t.name := by rw [hnew]
  have hgn : (start o disk).catalog.archive.disk.entries.get?
      [x, (start o disk).catalog.archive.fileName new.name] = some (.file content) := hnn ▸ hg
  have hfile := hs.isName_fileName hgn
  have hwritable : (start o disk).catalog.archive.Writable x new.name :=
    ⟨⟨(hs.isName hk).2, hk⟩, hnn ▸ hfits, hfree _, hfile.2, by rw [hgn]; simp⟩
  -- The two engines make the same run, and each finds what its own file holds.
  obtain ⟨-, happend⟩ := resident_of_insert (e := start o.appending disk) hsa hx rfl huse hf hold hc
    hins hfile (Catalog.carry_append_found hsa hf rfl hgn)
  obtain ⟨hn, hrewrite⟩ := resident_of_insert (e := start o.rewriting disk) hsw hx rfl huse hf hold
    hc hins hfile (Catalog.carry_whole_found hsw hf rfl hfile.1 hwritable)
  refine ⟨_, by simp, hn, fun hsame => ?_⟩
  have hres := (hsame use huse).2
  obtain ⟨d', u, hd', hu, hun, hrows⟩ :=
    Archive.exists_database_putFile ho.suffix_ne hdb ht hnn hsound
  have hwhole : ((start o.rewriting disk).catalog.archive.putFile x new.name
      (Utf8.encode new.encode)).database x = .ok d' := hd'
  rw [happend, hrewrite, hwhole] at hres
  have hd'' := Except.toOption_eq_some_iff.1 hres
  rw [hnn] at hd'' hu
  have hlength := Archive.length_of_database_append ho.suffix_ne ht he hrow hg hd'' hu
    (hun.trans hnn)
  rw [hrows, hnew, List.length_append, List.length_singleton] at hlength
  omega

/-- New engines over disks that are read alike find the same. -/
theorem Alongside.restart_found {good : Text → Prop} (h : Alongside good e w) (hg : good x) :
    e.restart.catalog.found x = w.restart.catalog.found x := by
  have hdisk : e.restart.catalog.archive.disk = e.catalog.archive.disk :=
    restart_disk h.catalog.settled.proper.root
  have hdisk' : w.restart.catalog.archive.disk = w.catalog.archive.disk :=
    restart_disk h.catalog.settled'.proper.root
  have hroot : e.restart.catalog.archive.disk.root = w.restart.catalog.archive.disk.root := by
    rw [hdisk, hdisk', h.catalog.root]
  refine Catalog.found_congr rfl ?_ hroot fun _ => ?_
  · rw [Archive.isKept, Archive.isKept, hdisk, hdisk']
    exact (h.catalog.isKept_eq x).symm
  · refine Archive.database_eq_of_alike h.catalog.settled.plain.suffix_ne h.catalog.suffix
      hroot.symm fun f => ?_
    rw [hdisk, hdisk']
    simpa only [hg] using h.catalog.alike x [f]

theorem Alongside.reloadsAlike {good : Text → Prop} (h : Alongside good e w) (hg : good x) :
    ReloadsAlike x e w := by
  intro command hc
  have hx := (Statement.ofCommand_named hc : Name.IsWord x).isName
  have hs := h.catalog.settled
  have hs' := h.catalog.settled'
  constructor
  · rw [(execute_use (restart_settled hs) hx hc rfl).1,
      (execute_use (restart_settled hs') hx hc rfl).1, h.restart_found hg]
  · rw [resident_restart_execute_use hs hx hc, resident_restart_execute_use hs' hx hc,
      h.restart_found hg]

/-- Appending rows answers every command as rewriting tables does. What is found after a restart is
the same after every run exactly if each table of the database that a command can put a row into has
a file that ends with a line break. -/
theorem appending_agrees_iff {use : Text} {d : Database} (ho : o.Plain) (hd : disk.Proper)
    (hfree : ∀ t, disk.entries.get? [x, (start o disk).catalog.archive.temporaryName t] = none)
    (huse : Statement.ofCommand use = .ok (.use x))
    (hload : ((start o disk).execute use none).2.catalog.resident.get? x = some d) :
    (∀ vs, .restart ∉ vs → (start o.rewriting disk).Undisturbed vs →
      (start o.appending disk).outcomes vs = (start o.rewriting disk).outcomes vs) ∧
    ((∀ vs, .restart ∉ vs → (start o.rewriting disk).Undisturbed vs →
        ReloadsAlike x ((start o.appending disk).afterAll vs)
          ((start o.rewriting disk).afterAll vs)) ↔
      ∀ k t, d.tables.get? k = some t → (start o disk).catalog.archive.Insertable t →
        (start o disk).catalog.archive.EndsFile x t) := by
  have hs := start_settled (o := o) ho hd
  have hx := (Statement.ofCommand_named huse : Name.IsWord x).isName
  have hf : (start o disk).catalog.found x = .ok d := by
    rw [(execute_use hs hx huse rfl).2.resident, Catalog.get?_heldAfter_self] at hload
    exact Except.toOption_eq_some_iff.1 hload
  have hk := Catalog.kept_of_found hs hf
  have hdb : (start o disk).catalog.archive.database x = .ok d := by
    rw [← hf, Catalog.found_of_kept rfl (hs.isName hk).2 hk]
  obtain ⟨-, -, -, hget⟩ := Archive.database_eq_ok ho.suffix_ne hdb
  refine ⟨fun vs hv hn => ?_, fun hall k t ht hi => ?_, fun hall vs hv hn => ?_⟩
  · have hready : ∀ y, False → (start o disk).catalog.archive.Ready y := fun _ h => h.elim
    exact ((start_alongside ho hd hready).afterAll hv hn).1
  · by_contra he
    have hdisk : (start o disk).disk = disk := start_disk o hd.root
    obtain ⟨vs, hv, hn, hne⟩ := exists_not_reloadsAlike ho hd hx huse
      (fun t => by rw [hdisk]; exact hfree t) hf ((hget k t).1 ht).2 hi he
    exact hne (hall vs hv hn)
  · have hready : ∀ y, y = x → (start o disk).catalog.archive.Ready y := by
      rintro y rfl t ht hi
      exact hall _ t ((hget _ t).2 ⟨rfl, ht⟩) hi
    exact ((start_alongside ho hd hready).afterAll hv hn).2.reloadsAlike rfl

/-! ## A file that does not end with a line break -/

/-- A disk with one table file, written by hand. -/
def handWritten (content : Text) : Disk :=
  ((Disk.empty ['r']).put [['d']] .directory).put [['d'], ['t', '.', 't', 'a', 'b']]
    (.file (Utf8.encode content))

theorem handWritten_proper (content : Text) : (handWritten content).Proper :=
  Disk.oneFile_proper _ ⟨⟨by decide, by decide, by decide⟩, by decide⟩
    ⟨⟨by decide, by decide, by decide⟩, by decide⟩ _

/-- The row is lost where it is appended, and the table cannot be read any more. -/
theorem appended_row_lost :
    let o : Options := ⟨['.', 't', 'a', 'b'], false, .append, ['1']⟩
    let disk := handWritten "id\ta\n1\tx".toList
    let vs : List Event :=
      [.command "USE d;".toList none, .command "INSERT INTO t VALUES ('y');".toList none]
    let a := ((start o.appending disk).afterAll vs).restart.execute "USE d;".toList none
    let w := ((start o.rewriting disk).afterAll vs).restart.execute "USE d;".toList none
    ((start o.rewriting disk).outcomes vs).map (·.response) = ["[OK]".toList, "[OK]".toList] ∧
    ((start o.appending disk).outcomes vs).map (·.response) = ["[OK]".toList, "[OK]".toList] ∧
    a.1.response = ("[ERROR] Cannot load table file r/d/t.tab: ".toList ++
      "line 2 has 3 fields, header has 2".toList) ∧
    a.2.catalog.resident.get? ['d'] = none ∧
    w.1.response = "[OK]".toList ∧
    ((w.2.catalog.resident.get? ['d']).bind (·.tables.get? ['t'])).map (·.rows.length) = some 2 := by
  decide +kernel

/-- So the two ways of writing do not agree about this file. -/
theorem appending_disagrees_of_handWritten :
    let o : Options := ⟨['.', 't', 'a', 'b'], false, .append, ['1']⟩
    let disk := handWritten "id\ta\n1\tx".toList
    ¬ ∀ vs, .restart ∉ vs → (start o.rewriting disk).Undisturbed vs →
      ReloadsAlike ['d'] ((start o.appending disk).afterAll vs)
        ((start o.rewriting disk).afterAll vs) := by
  intro o disk hall
  have hplain : o.Plain := ⟨by decide, by decide, by decide⟩
  have hfree : ∀ t, disk.entries.get? [['d'], (start o disk).catalog.archive.temporaryName t] = none := by
    intro t
    simp [disk, handWritten, Disk.put, Disk.empty, Archive.temporaryName]
  have huse : Statement.ofCommand "USE d;".toList = .ok (.use ['d']) := by cbv
  have hinsert : Statement.ofCommand "INSERT INTO t VALUES ('y');".toList =
      .ok (.insert ['t'] [⟨.string, ['y']⟩]) := by cbv
  let t : Table := ⟨['t'], [['i', 'd'], ['a']], [[⟨.number, ['1']⟩, ⟨.string, ['x']⟩]], 2⟩
  have hload : (((start o disk).execute "USE d;".toList none).2.catalog.resident.get? ['d']).bind
      (·.tables.get? ['t']) = some t := by decide +kernel
  obtain ⟨d, hd, ht⟩ := Option.bind_eq_some_iff.1 hload
  have hi : (start o disk).catalog.archive.Insertable t :=
    ⟨by decide +kernel, _, _, _, [⟨.number, ['2']⟩, ⟨.string, ['y']⟩], _, hinsert, rfl, by cbv⟩
  obtain ⟨content, hg, text, htext, hl⟩ :=
    (appending_agrees_iff hplain (handWritten_proper _) hfree huse hd).2.1 hall _ t ht hi
  have hcontent : content = Utf8.encode "id\ta\n1\tx".toList := by
    have hg' : (start o disk).catalog.archive.disk.entries.get?
        [['d'], (start o disk).catalog.archive.fileName t.name] =
        some (.file (Utf8.encode "id\ta\n1\tx".toList)) := by decide +kernel
    cases hg.symm.trans hg'
    rfl
  rw [hcontent, Utf8.decode_encode] at htext
  cases htext
  revert hl
  decide

end Engine

end Tabular
