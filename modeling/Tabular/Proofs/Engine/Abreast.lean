import Tabular.Proofs.Catalog.Abreast
import Tabular.Proofs.Engine.Selections

/-!
# Commands of engines that match in a session

Two engines match in a session and a database if the session is in the same state and has no other
database selected, and their catalogs match in the database. A command of the session that names no
other database comes to the same on both.
-/

namespace Tabular

open Tabular.Action

namespace Engine

/-- Two engines that match in the session `id` and the database `x`, and whose file names end with
`suffix`. -/
structure Matches (x suffix id : Text) (e e' : Engine) : Prop where
  catalog : e.catalog.Matches x suffix e'.catalog
  session : e'.sessions.get? id = e.sessions.get? id
  selects : ∀ y, e.selection id = some y → y = x

/-- Work for the session that keeps to the database: for engines that match in them the work comes
to the same, with the property, and leaves engines that match in them. -/
abbrev KeepsTo (x suffix id : Text) {α : Type} (P : α → Prop) (w : Work α) : Prop :=
  Abreast (Matches x suffix id) (Shared P) w w

variable {α : Type} {P : α → Prop} {x suffix id t : Text} {e e' : Engine} {s : Statement}

/-! ## Sessions -/

theorem Matches.withSession (h : e.Matches x suffix id e') {f : Session → Session}
    (hf : ∀ s, (f s).database = s.database ∨ (f s).database = some x) :
    (e.withSession id f).Matches x suffix id (e'.withSession id f) where
  catalog := by
    rw [withSession_catalog, withSession_catalog]
    exact h.catalog
  session := by
    unfold Engine.withSession
    rw [h.session]
    cases hs : e.sessions.get? id with
    | none => rw [hs, h.session, hs]
    | some s => simp only [OrderedMap.get?_put_same]
  selects := by
    intro y hy
    rw [selection_withSession, if_pos rfl] at hy
    obtain ⟨s, hs, hy⟩ := Option.bind_eq_some_iff.1 hy
    obtain hsame | hx := hf s
    · exact h.selects y (by rw [selection, hs]; exact hsame.symm.trans hy)
    · exact (Option.some.inj (hx.symm.trans hy)).symm

theorem Matches.forgetting (h : e.Matches x suffix id e') (y : Text) :
    (e.forgetting y).Matches x suffix id (e'.forgetting y) where
  catalog := h.catalog
  session := by simp only [Engine.forgetting, OrderedMap.get?_map, h.session]
  selects := by
    intro z hz
    have hz : (e.reseated id (.dropDatabase y)).selection id = some z := hz
    obtain ⟨hz, -⟩ | hz := selection_reseated hz
    · exact h.selects z hz
    · cases hz

theorem keepsTo_onCatalog {w : Catalog.Work α} (hw : Catalog.KeepsTo x suffix P w) :
    KeepsTo x suffix id P (onCatalog w) :=
  abreast_within hw (fun _ _ he => he.catalog) fun _ _ _ _ hc he => ⟨hc, he.session, he.selects⟩

theorem keepsTo_changeSession {f : Session → Session}
    (hf : ∀ s, (f s).database = s.database ∨ (f s).database = some x) :
    KeepsTo x suffix id (fun _ => True) (changeSession id f) :=
  abreast_change fun _ _ he => he.withSession hf

theorem keepsTo_forget (y : Text) : KeepsTo x suffix id (fun _ => True) (forget y) :=
  abreast_change fun _ _ he => he.forgetting y

theorem keepsTo_selected : KeepsTo x suffix id (· = x) (selected id) := by
  have hsession : KeepsTo x suffix id
      (fun s : Option Session => ∀ y, s.bind (·.database) = some y → y = x)
      (look fun e => e.sessions.get? id) :=
    abreast_look fun _ _ he => ⟨he.session, he.selects⟩
  refine abreast_then hsession fun s hs => ?_
  cases hd : s.bind (·.database) with
  | none => exact abreast_fail _
  | some d => exact abreast_pure ⟨rfl, hs d hd⟩

/-! ## Statements -/

/-- Work for a session that has the database selected. -/
theorem keepsTo_ofSelected {f : Text → Work α} (h : KeepsTo x suffix id P (f x)) :
    KeepsTo x suffix id P (selected id >>= f) := by
  refine abreast_then keepsTo_selected ?_
  rintro _ rfl
  exact h

theorem keepsTo_selectedTable (hx : Disk.IsName x) (t : Text) :
    KeepsTo x suffix id (fun r => r.1 = x ∧ r.2.Fileable suffix) (selectedTable id t) :=
  keepsTo_ofSelected <| abreast_then (keepsTo_onCatalog (Catalog.keepsTo_table hx t)) fun _ ht =>
    abreast_pure ⟨rfl, rfl, ht⟩

theorem keepsTo_perform_table (hx : Disk.IsName x) (hs : s.table? = some t) :
    KeepsTo x suffix id (fun _ => True) (perform id s) := by
  rw [perform_table_eq hs]
  refine abreast_then (keepsTo_selectedTable hx t) ?_
  rintro ⟨_, old⟩ ⟨rfl, hold⟩
  have hedit : (s.edit old).Matches (Shared fun r => ∀ t ∈ r.2.table?, t.Fileable suffix)
      (s.edit old) := by
    refine Except.matches_self fun r hr => ⟨rfl, fun new hnew => ?_⟩
    obtain ⟨hsound, hname⟩ := (Statement.edit_fits hold.1 hr).table hnew
    exact ⟨hsound, hname ▸ hold.2⟩
  exact abreast_then (abreast_give hedit) fun r hr =>
    abreast_then (keepsTo_onCatalog (Catalog.keepsTo_carry hx hr)) fun _ _ =>
      abreast_pure ⟨rfl, trivial⟩

theorem keepsTo_perform (hx : Disk.IsName x) (hsuffix : '/' ∉ suffix ∧ '\x00' ∉ suffix)
    (hn : s.Named) (hd : ∀ y ∈ s.database?, y = x) :
    KeepsTo x suffix id (fun _ => True) (perform id s) := by
  cases s with
  | use y =>
    obtain rfl : y = x := hd y rfl
    exact abreast_then (keepsTo_onCatalog (Catalog.keepsTo_use hx)) fun _ _ =>
      abreast_then (keepsTo_changeSession fun _ => .inr rfl) fun _ _ => abreast_pure ⟨rfl, trivial⟩
  | createDatabase y =>
    obtain rfl : y = x := hd y rfl
    exact abreast_then (keepsTo_onCatalog (Catalog.keepsTo_createDatabase hx)) fun _ _ =>
      abreast_pure ⟨rfl, trivial⟩
  | dropDatabase y =>
    obtain rfl : y = x := hd y rfl
    exact abreast_then (keepsTo_onCatalog (Catalog.keepsTo_dropDatabase hx)) fun _ _ =>
      abreast_then (keepsTo_forget y) fun _ _ => abreast_pure ⟨rfl, trivial⟩
  | createTable t columns =>
    have ht : Disk.IsName (t ++ suffix) := Name.IsWord.isName_append hn hsuffix
    exact keepsTo_ofSelected <|
      abreast_then (keepsTo_onCatalog (Catalog.keepsTo_createTable hx ht columns)) fun _ _ =>
        abreast_pure ⟨rfl, trivial⟩
  | dropTable t =>
    have ht : Disk.IsName (t ++ suffix) := Name.IsWord.isName_append hn hsuffix
    exact keepsTo_ofSelected <|
      abreast_then (keepsTo_onCatalog (Catalog.keepsTo_dropTable hx ht)) fun _ _ =>
        abreast_pure ⟨rfl, trivial⟩
  | join left right leftColumn rightColumn =>
    exact keepsTo_ofSelected <|
      abreast_then (keepsTo_onCatalog (Catalog.keepsTo_table hx left)) fun l _ =>
        abreast_then (keepsTo_onCatalog (Catalog.keepsTo_table hx right)) fun r _ =>
          abreast_then (abreast_give (Except.matches_self fun _ _ => ⟨rfl, trivial⟩)) fun _ _ =>
            abreast_pure ⟨rfl, trivial⟩
  | alterTable t action column => exact keepsTo_perform_table hx rfl
  | insert t values => exact keepsTo_perform_table hx rfl
  | select t columns condition => exact keepsTo_perform_table hx rfl
  | update t assignments condition => exact keepsTo_perform_table hx rfl
  | delete t condition => exact keepsTo_perform_table hx rfl

theorem keepsTo_complete (h : KeepsTo x suffix id (fun _ => True) (perform id s)) :
    KeepsTo x suffix id (fun _ => True) (complete id s) :=
  abreast_then h fun _ _ =>
    abreast_then (keepsTo_changeSession fun _ => .inl rfl) fun _ _ => abreast_pure ⟨rfl, trivial⟩

/-! ## Commands -/

theorem Matches.record (h : e.Matches x suffix id e') (label : Label) (b b' : Bool) :
    (e.record label b).Matches x suffix id (e'.record label b') :=
  ⟨h.catalog, h.session, h.selects⟩

/-- A statement that names no other database comes to the same for engines that match. -/
theorem Matches.complete (h : e.Matches x suffix id e') (he : e.Steady) (hn : s.Named)
    (hd : ∀ y ∈ s.database?, y = x) :
    ((complete id s).run e).1.Matches (Shared fun _ => True) ((complete id s).run e').1 ∧
      ((complete id s).run e).2.Matches x suffix id ((complete id s).run e').2 := by
  have hsuffix : '/' ∉ suffix ∧ '\x00' ∉ suffix :=
    h.catalog.archive.suffix_left ▸ h.catalog.archive.plain.suffix_chars
  by_cases hx : Disk.IsName x
  · exact keepsTo_complete (keepsTo_perform hx hsuffix hn hd) e e' h
  -- What is no name is neither named by a statement nor selected.
  · have hnone : e.selection id = none := by
      refine Option.eq_none_iff_forall_ne_some.2 fun y hy => hx ?_
      exact h.selects y hy ▸ (he.seated id y hy).1.isName
    have hnone' : e'.selection id = none := by
      rw [selection, h.session]
      exact hnone
    have hlocal : s.isLocal := by
      cases s with
      | use y => exact absurd (hd y rfl ▸ Name.IsWord.isName hn) hx
      | createDatabase y => exact absurd (hd y rfl ▸ Name.IsWord.isName hn) hx
      | dropDatabase y => exact absurd (hd y rfl ▸ Name.IsWord.isName hn) hx
      | _ => rfl
    rw [complete_run (perform_unselected hlocal hnone),
      complete_run (perform_unselected hlocal hnone')]
    exact ⟨.error _, h⟩

/-- A command of the session that names no other database comes to the same for engines that
match. -/
theorem Matches.execute (h : e.Matches x suffix id e') (he : e.Steady) {command : Text}
    {key : Option Text} (hkey : key.getD defaultId = id)
    (hd : ∀ s, Statement.ofCommand command = .ok s → ∀ y ∈ s.database?, y = x) :
    (e'.execute command key).1 = (e.execute command key).1 ∧
      (e.execute command key).2.Matches x suffix id (e'.execute command key).2 := by
  have hsession : e'.session key = e.session key := by
    rw [Engine.session, Engine.session, hkey, h.session]
  cases hid : e.session key with
  | error cause =>
    simp only [Engine.execute, hsession, hid, true_and]
    exact h.record ..
  | ok sess =>
    cases hread : Statement.ofCommand command with
    | error cause =>
      simp only [Engine.execute, hsession, hid, hread, true_and]
      exact h.record ..
    | ok s =>
      obtain ⟨hr, ht⟩ := h.complete he (Statement.ofCommand_named hread) (hd s hread)
      simp only [Engine.execute, hsession, hid, hread, hkey, hr.eq fun _ _ h => h.1, true_and]
      exact ht.record ..

end Engine

end Tabular
