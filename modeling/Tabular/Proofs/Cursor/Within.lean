import Tabular.Proofs.Cursor.Parts

/-!
# Walks that stay in the list

From any entry of a list that is closed by its end, the walks that read statements and conditions
come to an end; the cursor stands at an entry at every step and never goes back; and each turn of a
loop and each opening of a group takes an entry, so that the turns are fewer than the entries.
-/

namespace Tabular.Cursor

section Keeps

variable {α β : Type} {k : Nat} {w w' : Walk α} {f : α → Walk β} {es : List Entry} {start : Nat}
  {t : Track} {test : Entry → Bool}

/-- From a place with at most `k` entries from there on the walk comes to an end, not for want of an
entry, and what it adds to a sound record is sound. -/
def Keeps (k : Nat) (w : Walk α) : Prop :=
  ∀ {es start t}, Closed es → t.Sound es.length start → es.length ≤ t.place + k →
    ∃ r u, Ends w es t r u ∧ r ≠ .error .outOfRange ∧ u.Sound es.length start ∧
      t.place ≤ u.place

/-- The cursor is always at an entry. -/
theorem keeps_zero (w : Walk α) : Keeps 0 w := by
  intro es start t _ ht hk
  exact absurd (ht.inside _ List.mem_cons_self) (Nat.not_lt.2 hk)

theorem exists_entry (h : t.Sound es.length start) : ∃ e, es[t.place]? = some e :=
  ⟨_, List.getElem?_eq_getElem (h.inside _ List.mem_cons_self)⟩

theorem keeps_pure (a : α) : Keeps k (pure a : Walk α) :=
  fun _ ht _ => ⟨.ok a, _, ends_pure a, nofun, ht, Nat.le_refl _⟩

theorem keeps_reject (cause : Rejection) : Keeps k (reject cause : Walk α) :=
  fun _ ht _ => ⟨.error (.rejected cause), _, ends_reject cause, nofun, ht, Nat.le_refl _⟩

theorem keeps_ofResult (x : Except Rejection α) : Keeps k (ofResult x) := by
  cases x with
  | ok a => exact keeps_pure a
  | error cause => exact keeps_reject cause

theorem keeps_bind (hw : Keeps k w) (hf : ∀ a, Keeps k (f a)) : Keeps k (w >>= f) := by
  intro es start t hes ht hk
  obtain ⟨r, u, hr, hne, hu, hle⟩ := hw hes ht hk
  cases r with
  | error halt => exact ⟨.error halt, u, hr.bind_error, by simpa using hne, hu, hle⟩
  | ok a =>
    obtain ⟨r, v, hr', hne', hv, hle'⟩ := hf a hes hu (Nat.le_trans hk (Nat.add_le_add_right hle k))
    exact ⟨r, v, hr.bind hr', hne', hv, Nat.le_trans hle hle'⟩

theorem keeps_ite {p : Prop} [Decidable p] (hw : Keeps k w) (hw' : Keeps k w') :
    Keeps k (if p then w else w') := by
  split
  · exact hw
  · exact hw'

theorem keeps_tick (hw : Keeps k w) : Keeps k (tick w) := by
  intro es start t hes ht hk
  obtain ⟨r, u, hr, hkept⟩ := hw hes ht hk
  exact ⟨r, u, hr.tick, hkept⟩

theorem keeps_current : Keeps k current := by
  intro es start t _ ht _
  obtain ⟨e, he⟩ := exists_entry ht
  exact ⟨.ok e, _, ends_current he, nofun, ht.look, Nat.le_refl _⟩

theorem keeps_atEnd : Keeps k atEnd := keeps_bind keeps_current fun _ => keeps_pure _

theorem keeps_refuse (fault : Found → CommandFault) : Keeps k (refuse fault : Walk α) :=
  keeps_bind keeps_current fun _ => keeps_reject _

theorem keeps_advance : Keeps k advance := by
  intro es start t hes ht hk
  obtain ⟨e, he⟩ := exists_entry ht
  cases hstop : e.isStop with
  | true => exact ⟨.ok e, _, ends_advance_stop he hstop, nofun, ht.look, Nat.le_refl _⟩
  | false =>
    exact ⟨.ok e, _, ends_advance he hstop, nofun, ht.look.move (hes.succ_lt he hstop),
      Nat.le_succ _⟩

/-- A test that the end does not pass keeps the cursor in the list. -/
theorem keeps_accept (htest : ∀ e, test e → e.isStop = false) : Keeps k (accept test) := by
  intro es start t hes ht hk
  obtain ⟨e, he⟩ := exists_entry ht
  cases hpass : test e with
  | true =>
    exact ⟨.ok true, _, ends_accept_pass he hpass, nofun,
      ht.look.move (hes.succ_lt he (htest e hpass)), Nat.le_succ _⟩
  | false => exact ⟨.ok false, _, ends_accept_fail he hpass, nofun, ht.look, Nat.le_refl _⟩

theorem keeps_take {g : Entry → Option α} {fault : Found → CommandFault}
    (hg : ∀ e, (g e).isSome → e.isStop = false) : Keeps k (take g fault) := by
  intro es start t hes ht hk
  obtain ⟨e, he⟩ := exists_entry ht
  cases hpass : g e with
  | some a =>
    exact ⟨.ok a, _, ends_take_some he hpass, nofun,
      ht.look.move (hes.succ_lt he (hg e (by simp [hpass]))), Nat.le_succ _⟩
  | none => exact ⟨_, _, ends_take_none he hpass, by simp, ht.look.look, Nat.le_refl _⟩

/-- A turn leaves fewer entries to what follows it. -/
theorem keeps_enter (htest : ∀ e, test e → e.isStop = false) (hw : Keeps k w)
    (hw' : Keeps (k + 1) w') :
    Keeps (k + 1) (do if ← enter test then w else w') := by
  intro es start t hes ht hk
  obtain ⟨e, he⟩ := exists_entry ht
  cases hpass : test e with
  | true =>
    have hmoved := ht.look.move (hes.succ_lt he (htest e hpass))
    have hturned : (t.look.move.turn t.place).Sound es.length start :=
      hmoved.turn ht rfl (Nat.lt_succ_self _)
    have hk' : es.length ≤ (t.look.move.turn t.place).place + k := by
      change es.length ≤ t.place + 1 + k
      omega
    obtain ⟨r, u, hr, hne, hu, hle⟩ := hw hes hturned hk'
    exact ⟨r, u, (ends_enter_pass he hpass).bind (.ite_pos rfl hr), hne, hu,
      Nat.le_trans (Nat.le_succ _) hle⟩
  | false =>
    obtain ⟨r, u, hr, hne, hu, hle⟩ := hw' hes ht.look hk
    exact ⟨r, u, (ends_enter_fail he hpass).bind (.ite_neg Bool.false_ne_true hr), hne, hu, hle⟩

end Keeps

/-! ## Tests that the end does not pass -/

section Tests

variable {e : Entry}

theorem isStop_of_isKeyword {k : Keyword} (h : e.isKeyword k) : e.isStop = false := by
  simp only [Entry.isKeyword, Bool.and_eq_true, decide_eq_true_eq] at h
  simp [Entry.isStop, h.1]

theorem isStop_of_isMark {m : Mark} (h : e.isMark m) : e.isStop = false := by
  simp only [Entry.isMark, Bool.and_eq_true, decide_eq_true_eq] at h
  simp [Entry.isStop, h.1]

theorem isStop_of_nameText? (h : e.nameText?.isSome) : e.isStop = false := by
  unfold Entry.nameText? at h
  split at h
  · next hkind => rcases hkind with hk | hk | hk <;> simp [Entry.isStop, hk]
  · cases h

theorem isStop_of_literal? (h : e.literal?.isSome) : e.isStop = false := by
  unfold Entry.literal? at h
  split at h
  · next hkind =>
    rcases hkind with hk | hk | hk | hk | hk | hk
    case inl | inr.inl | inr.inr.inl => simp [Entry.isStop, hk]
    all_goals exact isStop_of_isKeyword hk
  · cases h

end Tests

/-! ## Parts of statements -/

section Parts

variable {α : Type} {k : Nat}

theorem keeps_expectKeyword (w : Keyword) : Keeps k (expectKeyword w) :=
  keeps_bind (keeps_accept fun _ => isStop_of_isKeyword) fun _ =>
    keeps_ite (keeps_pure _) (keeps_refuse _)

theorem keeps_expectMark (m : Mark) : Keeps k (expectMark m) :=
  keeps_bind (keeps_accept fun _ => isStop_of_isMark) fun _ =>
    keeps_ite (keeps_pure _) (keeps_refuse _)

theorem keeps_expectEnd : Keeps k expectEnd :=
  keeps_bind keeps_atEnd fun _ => keeps_ite (keeps_pure _) (keeps_refuse _)

theorem keeps_name (kind : String) : Keeps k (name kind) :=
  keeps_bind (keeps_take fun _ => isStop_of_nameText?) fun _ => keeps_ofResult _

theorem keeps_database : Keeps k database := keeps_bind (keeps_name _) fun _ => keeps_ofResult _

theorem keeps_table : Keeps k table := keeps_bind (keeps_name _) fun _ => keeps_ofResult _

theorem keeps_column : Keeps k column := keeps_name _

theorem keeps_literal : Keeps k literal := keeps_take fun _ => isStop_of_literal?

theorem keeps_moreItems {item : Walk α} (h : ∀ k, Keeps k item) (k : Nat) :
    Keeps k (moreItems item) := by
  -- Each turn takes a comma, so that the entries that are left bound the turns.
  induction k with
  | zero => exact keeps_zero _
  | succ k ih =>
    rw [moreItems_eq]
    exact keeps_tick (keeps_enter (fun _ => isStop_of_isMark)
      (keeps_bind (h k) fun _ => keeps_bind ih fun _ => keeps_pure _) (keeps_pure _))

theorem keeps_items {item : Walk α} (h : ∀ k, Keeps k item) : Keeps k (items item) :=
  keeps_bind (h k) fun _ => keeps_bind (keeps_moreItems h k) fun _ => keeps_pure _

theorem keeps_assignment (k : Nat) : Keeps k assignment :=
  keeps_bind keeps_column fun _ => keeps_bind keeps_current fun _ => keeps_ite
    (keeps_bind keeps_advance fun _ => keeps_bind keeps_literal fun _ => keeps_pure _)
    (keeps_reject _)

/-! ## Conditions -/

theorem keeps_comparedWith (column : Text) (op : Comparator) :
    Keeps k (comparedWith column op) := by
  intro es start t hes ht hk
  obtain ⟨e, he⟩ := exists_entry ht
  cases hv : e.literal? with
  | some v =>
    exact ⟨.ok v, _, ends_comparedWith_some he hv, nofun,
      ht.look.move (hes.succ_lt he (isStop_of_literal? (by simp [hv]))), Nat.le_succ _⟩
  | none => exact ⟨_, _, ends_comparedWith_none he hv, by simp, ht.look.look, Nat.le_refl _⟩

theorem keeps_comparedColumn (column : Text) : Keeps k (comparedColumn column) := by
  refine keeps_bind keeps_current fun sign => ?_
  cases sign.comparator? with
  | some op =>
    exact keeps_bind keeps_advance fun _ => keeps_bind (keeps_comparedWith _ _) fun _ =>
      keeps_pure _
  | none => exact keeps_ite (keeps_reject _) (keeps_reject _)

theorem keeps_comparison : Keeps k comparison :=
  keeps_bind keeps_current fun _ => keeps_ite (keeps_reject _) (keeps_ite (keeps_reject _)
    (keeps_ite (keeps_bind keeps_advance fun _ => keeps_comparedColumn _) (keeps_reject _)))

/-- The parts of conditions, with at most so many entries left. -/
structure KeepsConditions (k : Nat) : Prop where
  primary : Keeps k primary
  morePrimaries : Keeps k morePrimaries
  conjunction : Keeps k conjunction
  moreConjunctions : Keeps k moreConjunctions
  disjunction : Keeps k disjunction

/-- Every part calls one that comes before it, or any part behind an entry that it takes. -/
theorem KeepsConditions.succ (ih : KeepsConditions k) : KeepsConditions (k + 1) := by
  have hprimary : Keeps (k + 1) Cursor.primary := by
    rw [primary_eq]
    exact keeps_tick (keeps_enter (fun _ => isStop_of_isMark)
      (keeps_bind ih.disjunction fun _ => keeps_bind (keeps_accept fun _ => isStop_of_isMark)
        fun _ => keeps_ite (keeps_pure _) (keeps_reject _)) keeps_comparison)
  have hmorePrimaries : Keeps (k + 1) Cursor.morePrimaries := by
    rw [morePrimaries_eq]
    exact keeps_tick (keeps_enter (fun _ => isStop_of_isKeyword)
      (keeps_bind ih.primary fun _ => keeps_bind ih.morePrimaries fun _ => keeps_pure _)
      (keeps_pure _))
  have hconjunction : Keeps (k + 1) Cursor.conjunction := by
    rw [conjunction_eq]
    exact keeps_tick (keeps_bind (keeps_bind hprimary fun _ => keeps_bind hmorePrimaries fun _ =>
      keeps_pure _) fun _ => keeps_pure _)
  have hmoreConjunctions : Keeps (k + 1) Cursor.moreConjunctions := by
    rw [moreConjunctions_eq]
    exact keeps_tick (keeps_enter (fun _ => isStop_of_isKeyword)
      (keeps_bind ih.conjunction fun _ => keeps_bind ih.moreConjunctions fun _ => keeps_pure _)
      (keeps_pure _))
  have hdisjunction : Keeps (k + 1) Cursor.disjunction := by
    rw [disjunction_eq]
    exact keeps_tick (keeps_bind (keeps_bind hconjunction fun _ => keeps_bind hmoreConjunctions
      fun _ => keeps_pure _) fun _ => keeps_pure _)
  exact ⟨hprimary, hmorePrimaries, hconjunction, hmoreConjunctions, hdisjunction⟩

theorem keepsConditions (k : Nat) : KeepsConditions k := by
  induction k with
  | zero =>
    exact ⟨keeps_zero _, keeps_zero _, keeps_zero _, keeps_zero _, keeps_zero _⟩
  | succ k ih => exact ih.succ

theorem keeps_condition : Keeps k condition :=
  keeps_bind (keeps_accept fun _ => isStop_of_isKeyword) fun _ => keeps_ite
    (keeps_bind keeps_atEnd fun _ => keeps_ite (keeps_reject _)
      (keeps_bind (keepsConditions k).disjunction fun _ => keeps_pure _))
    (keeps_pure _)

theorem keeps_wholeCondition : Keeps k wholeCondition :=
  keeps_bind (keepsConditions k).disjunction fun _ => keeps_bind keeps_atEnd fun _ =>
    keeps_ite (keeps_pure _) (keeps_bind keeps_current fun _ => keeps_reject _)

/-! ## Statements -/

theorem keeps_newColumns : Keeps k newColumns :=
  keeps_bind (keeps_accept fun _ => isStop_of_isMark) fun _ => keeps_ite
    (keeps_bind (keeps_items fun _ => keeps_column) fun _ =>
      keeps_bind (keeps_expectMark _) fun _ => keeps_pure _)
    (keeps_pure _)

theorem keeps_newValues : Keeps k newValues :=
  keeps_bind (keeps_expectMark _) fun _ =>
    keeps_bind (keeps_accept fun _ => isStop_of_isMark) fun _ => keeps_ite (keeps_pure _)
      (keeps_bind (keeps_items fun _ => keeps_literal) fun _ =>
        keeps_bind (keeps_expectMark _) fun _ => keeps_pure _)

theorem keeps_wantedColumns : Keeps k wantedColumns :=
  keeps_bind (keeps_accept fun _ => isStop_of_isMark) fun _ => keeps_ite (keeps_pure _)
    (keeps_bind (keeps_items fun _ => keeps_column) fun _ => keeps_pure _)

theorem keeps_alterAction : Keeps k alterAction :=
  keeps_bind (keeps_accept fun _ => isStop_of_isKeyword) fun _ => keeps_ite (keeps_pure _)
    (keeps_bind (keeps_accept fun _ => isStop_of_isKeyword) fun _ =>
      keeps_ite (keeps_pure _) (keeps_reject _))

theorem keeps_use : Keeps k use := keeps_bind keeps_database fun _ => keeps_pure _

theorem keeps_create : Keeps k create :=
  keeps_bind (keeps_accept fun _ => isStop_of_isKeyword) fun _ => keeps_ite
    (keeps_bind keeps_database fun _ => keeps_pure _)
    (keeps_bind (keeps_expectKeyword _) fun _ => keeps_bind keeps_table fun _ =>
      keeps_bind keeps_newColumns fun _ => keeps_pure _)

theorem keeps_drop : Keeps k drop :=
  keeps_bind (keeps_accept fun _ => isStop_of_isKeyword) fun _ => keeps_ite
    (keeps_bind keeps_database fun _ => keeps_pure _)
    (keeps_bind (keeps_expectKeyword _) fun _ => keeps_bind keeps_table fun _ => keeps_pure _)

theorem keeps_alter : Keeps k alter :=
  keeps_bind (keeps_expectKeyword _) fun _ => keeps_bind keeps_table fun _ =>
    keeps_bind keeps_alterAction fun _ =>
      keeps_bind (keeps_accept fun _ => isStop_of_isKeyword) fun _ =>
        keeps_bind keeps_column fun _ => keeps_pure _

theorem keeps_insert : Keeps k insert :=
  keeps_bind (keeps_expectKeyword _) fun _ => keeps_bind keeps_table fun _ =>
    keeps_bind (keeps_expectKeyword _) fun _ => keeps_bind keeps_newValues fun _ => keeps_pure _

theorem keeps_select : Keeps k select :=
  keeps_bind keeps_wantedColumns fun _ => keeps_bind (keeps_expectKeyword _) fun _ =>
    keeps_bind keeps_table fun _ => keeps_bind keeps_condition fun _ => keeps_pure _

theorem keeps_update : Keeps k update :=
  keeps_bind keeps_table fun _ => keeps_bind (keeps_expectKeyword _) fun _ =>
    keeps_bind (keeps_items keeps_assignment) fun _ => keeps_bind keeps_condition fun _ =>
      keeps_pure _

theorem keeps_delete : Keeps k delete :=
  keeps_bind (keeps_expectKeyword _) fun _ => keeps_bind keeps_table fun _ =>
    keeps_bind keeps_condition fun _ => keeps_pure _

theorem keeps_join : Keeps k join :=
  keeps_bind keeps_table fun _ => keeps_bind (keeps_expectKeyword _) fun _ =>
    keeps_bind keeps_table fun _ => keeps_bind (keeps_expectKeyword _) fun _ =>
      keeps_bind keeps_column fun _ => keeps_bind (keeps_expectKeyword _) fun _ =>
        keeps_bind keeps_column fun _ => keeps_pure _

theorem keeps_body? {key : Keyword} {body : Walk Statement} (h : body? key = some body) :
    Keeps k body := by
  cases key <;> cases h
  case USE => exact keeps_use
  case CREATE => exact keeps_create
  case DROP => exact keeps_drop
  case ALTER => exact keeps_alter
  case INSERT => exact keeps_insert
  case SELECT => exact keeps_select
  case UPDATE => exact keeps_update
  case DELETE => exact keeps_delete
  case JOIN => exact keeps_join

theorem keeps_statement (whole : Text) : Keeps k (statement whole) := by
  refine keeps_bind keeps_current fun head => keeps_ite ?_ (keeps_reject _)
  cases hbody : bodyOf? head.text with
  | none => exact keeps_reject _
  | some body =>
    obtain ⟨key, -, hkey⟩ := Option.bind_eq_some_iff.1 hbody
    exact keeps_bind keeps_advance fun _ => keeps_bind (keeps_body? hkey) fun _ =>
      keeps_bind keeps_expectEnd fun _ => keeps_pure _

end Parts

/-! ## Routines -/

/-- The walks that read statements, conditions, and their parts. -/
inductive Routine : {α : Type} → Walk α → Prop
  | statement (whole : Text) : Routine (statement whole)
  | body {key : Keyword} {body : Walk Statement} (h : body? key = some body) : Routine body
  | assignment : Routine assignment
  | wholeCondition : Routine wholeCondition
  | condition : Routine condition
  | disjunction : Routine disjunction
  | moreConjunctions : Routine moreConjunctions
  | conjunction : Routine conjunction
  | morePrimaries : Routine morePrimaries
  | primary : Routine primary
  | comparison : Routine comparison
  | moreColumns : Routine (moreItems column)
  | moreValues : Routine (moreItems literal)
  | moreAssignments : Routine (moreItems Cursor.assignment)
  | name (kind : String) : Routine (name kind)
  | literal : Routine literal
  | expectKeyword (key : Keyword) : Routine (expectKeyword key)
  | expectMark (m : Mark) : Routine (expectMark m)
  | expectEnd : Routine expectEnd
  | acceptKeyword (key : Keyword) : Routine (accept (·.isKeyword key))
  | acceptMark (m : Mark) : Routine (accept (·.isMark m))
  | advance : Routine advance
  | atEnd : Routine atEnd

theorem Routine.keeps {α : Type} {w : Walk α} (h : Routine w) (k : Nat) : Keeps k w := by
  cases h with
  | statement whole => exact keeps_statement whole
  | body h => exact keeps_body? h
  | assignment => exact keeps_assignment k
  | wholeCondition => exact keeps_wholeCondition
  | condition => exact keeps_condition
  | disjunction => exact (keepsConditions k).disjunction
  | moreConjunctions => exact (keepsConditions k).moreConjunctions
  | conjunction => exact (keepsConditions k).conjunction
  | morePrimaries => exact (keepsConditions k).morePrimaries
  | primary => exact (keepsConditions k).primary
  | comparison => exact keeps_comparison
  | moreColumns => exact keeps_moreItems (fun _ => keeps_column) k
  | moreValues => exact keeps_moreItems (fun _ => keeps_literal) k
  | moreAssignments => exact keeps_moreItems keeps_assignment k
  | name kind => exact keeps_name kind
  | literal => exact keeps_literal
  | expectKeyword key => exact keeps_expectKeyword key
  | expectMark m => exact keeps_expectMark m
  | expectEnd => exact keeps_expectEnd
  | acceptKeyword key => exact keeps_accept fun _ => isStop_of_isKeyword
  | acceptMark m => exact keeps_accept fun _ => isStop_of_isMark
  | advance => exact keeps_advance
  | atEnd => exact keeps_atEnd

/-- From any entry a routine comes to an end with a sound record, and not for want of an entry. -/
theorem Routine.ends {α : Type} {w : Walk α} (h : Routine w) {es : List Entry} (hes : Closed es)
    {start : Nat} (hstart : start < es.length) :
    ∃ r t, Ends w es (.initial start) r t ∧ r ≠ .error .outOfRange ∧
      t.Sound es.length start := by
  obtain ⟨r, t, hr, hne, ht, -⟩ :=
    h.keeps es.length hes (Track.sound_initial hstart) (Nat.le_add_left _ _)
  exact ⟨r, t, hr, hne, ht⟩

end Tabular.Cursor
