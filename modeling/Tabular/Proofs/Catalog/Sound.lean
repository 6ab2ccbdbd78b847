import Tabular.Proofs.Catalog.Outcomes
import Tabular.Proofs.Table.Texts

/-!
# Sound catalogs

A catalog is sound if every table of its resident databases is. Whatever is done with a sound
catalog leaves a sound one, on any disk, however that may look and whatever it refuses: tables come
from files that could be read as tables, or are made by operations that keep tables sound. What goes
wrong is told in one line but for the paths and names of files, and comes of a number only if a
database is loaded.
-/

namespace Tabular

/-! ## What work ensures -/

namespace Action

variable {σ τ ε δ α β : Type}

/-- On a state with the invariant the work ends in one that has it, and gives a result or a failure
with the properties. -/
def Ensures (inv : σ → Prop) (P : α → Prop) (E : ε → Prop) (m : Action σ ε α) : Prop :=
  ∀ s, inv s → inv (m.run s).2 ∧ (m.run s).1.Gives P E

section Ensures

variable {inv : σ → Prop} {P : α → Prop} {Q : β → Prop} {E : ε → Prop} {m : Action σ ε α}
  {f : α → Action σ ε β}

theorem Ensures.mono {P' : α → Prop} {E' : ε → Prop} (hm : Ensures inv P E m)
    (hP : ∀ a, P a → P' a) (hE : ∀ e, E e → E' e) : Ensures inv P' E' m :=
  fun s hs => ⟨(hm s hs).1, (hm s hs).2.mono hP hE⟩

/-- Of a failure nothing may need to be known. -/
theorem Ensures.result (hm : Ensures inv P E m) : Ensures inv P (fun _ => True) m :=
  hm.mono (fun _ h => h) fun _ _ => trivial

theorem ensures_pure {a : α} (h : P a) : Ensures inv P E (pure a : Action σ ε α) :=
  fun _ hs => ⟨hs, h⟩

theorem ensures_fail {e : ε} (h : E e) : Ensures inv P E (fail e : Action σ ε α) :=
  fun _ hs => ⟨hs, h⟩

theorem ensures_give {x : Except ε α} (h : x.Gives P E) :
    Ensures inv P E (give x : Action σ ε α) := fun _ hs => ⟨hs, h⟩

theorem ensures_look {g : σ → α} (h : ∀ s, inv s → P (g s)) :
    Ensures inv P E (look g : Action σ ε α) := fun s hs => ⟨hs, h s hs⟩

/-- Of what is only looked at, nothing may need to be known. -/
theorem ensures_seen (g : σ → α) : Ensures inv (fun _ => True) E (look g : Action σ ε α) :=
  ensures_look fun _ _ => trivial

theorem ensures_change {g : σ → σ} (h : ∀ s, inv s → inv (g s)) :
    Ensures inv (fun _ => True) E (change g : Action σ ε Unit) := fun s hs => ⟨h s hs, trivial⟩

theorem ensures_bind (hm : Ensures inv P E m) (hf : ∀ a, P a → Ensures inv Q E (f a)) :
    Ensures inv Q E (m >>= f) := by
  intro s hs
  have h := hm s hs
  rw [run_bind]
  cases hr : m.run s with
  | mk r t =>
    rw [hr] at h
    cases r with
    | error e => exact h
    | ok a => exact hf a h.2 t h.1

theorem ensures_attempt {E' : δ → Prop} (hm : Ensures inv P E m) :
    Ensures inv (fun _ => True) E' (m.attempt : Action σ δ (Except ε α)) :=
  fun s hs => ⟨(hm s hs).1, trivial⟩

theorem ensures_within {inv' : τ → Prop} {get : τ → σ} {set : σ → τ → τ} (hm : Ensures inv P E m)
    (hget : ∀ t, inv' t → inv (get t)) (hset : ∀ s t, inv s → inv' t → inv' (set s t)) :
    Ensures inv' P E (m.within get set) := by
  intro t ht
  have h := hm (get t) (hget t ht)
  exact ⟨hset _ t h.1 ht, h.2⟩

theorem ensures_forEach {g : β → Action σ ε α} (h : ∀ b, Ensures inv P E (g b)) (bs : List β) :
    Ensures inv (fun as => ∀ a ∈ as, P a) E (forEach g bs) := by
  induction bs with
  | nil => exact ensures_pure nofun
  | cons b bs ih =>
    refine ensures_bind (h b) fun a ha => ensures_bind ih fun as has => ensures_pure ?_
    exact List.forall_mem_cons.2 ⟨ha, has⟩

end Ensures

/-- Work whose failures do not come of numbers may be taken for work whose failures do. -/
theorem Ensures.tidy {inv : σ → Prop} {P : α → Prop} {p : Prop} {m : Action σ Failure α}
    (hm : Ensures inv P (Failure.Tame p) m) : Ensures inv P (Failure.TidyIf p) m :=
  hm.mono (fun _ h => h) fun _ h => h.tidy

end Action

open Tabular.Action

variable {p : Prop}

/-! ## Archives -/

namespace Archive

/-- The names of table files have an ending. -/
def Suffixed (a : Archive) : Prop := a.suffix ≠ []

/-- Work of an archive that leaves the ending of the names alone and fails tamely. -/
abbrev Tame (p : Prop) {α : Type} (w : Work α) : Prop :=
  Ensures Suffixed (fun _ => True) (Failure.Tame p) w

variable {α : Type} {x : Text}

theorem ensures_withinDisk {ε : Type} {E : ε → Prop} {c : Action Disk ε α}
    (h : Ensures (fun _ => True) (fun _ => True) E c) :
    Ensures Suffixed (fun _ => True) E (c.within disk fun d a => { a with disk := d }) :=
  ensures_within h (fun _ _ => trivial) fun _ _ _ ha => ha

theorem tame_onDisk (c : Disk.Call α) : Tame p (onDisk c) := by
  refine ensures_withinDisk fun d _ => ⟨trivial, ?_⟩
  rw [run_mapFailure]
  cases (c.run d).1 with
  | ok a => trivial
  | error cause => exact Failure.tame_system p cause

theorem tame_stored (fault : SystemFault → StorageFault) (c : Disk.Call α) :
    Tame p (stored fault c) := by
  refine ensures_withinDisk fun d _ => ⟨trivial, ?_⟩
  rw [run_mapFailure]
  cases (c.run d).1 with
  | ok a => trivial
  | error cause =>
    cases cause with
    | nullCharacter => exact Failure.tame_system p _
    | refused errno path target => exact Failure.tame_rejected fun _ => Failure.tidy_storage _

theorem tame_refuse {cause : Rejection} (h : ∀ t ∈ cause.texts, t.OneLine) :
    Tame p (refuse cause : Work α) :=
  ensures_fail (Failure.tame_rejected fun _ => Failure.tidy_rejected h)

theorem tame_hasDatabase (x : Text) : Tame p (hasDatabase x) := tame_onDisk _

theorem tame_tables (hx : x.OneLine) : Tame p (tables x) := by
  refine ensures_bind (tame_hasDatabase x) fun isThere _ => ?_
  split
  · exact ensures_bind (tame_onDisk _) fun _ _ => ensures_bind (ensures_seen _) fun _ _ =>
      ensures_pure trivial
  · exact tame_refuse (List.forall_mem_singleton.2 hx)

theorem tame_createDatabase (hx : x.OneLine) : Tame p (createDatabase x) := by
  refine ensures_bind (tame_onDisk _) fun isThere _ => ?_
  split
  · exact tame_refuse (List.forall_mem_singleton.2 hx)
  · exact ensures_bind (ensures_seen _) fun _ _ => tame_stored _ _

theorem tame_dropDatabase (hx : x.OneLine) : Tame p (dropDatabase x) := by
  refine ensures_bind (tame_hasDatabase x) fun isThere _ => ?_
  split
  · exact ensures_bind (ensures_seen _) fun _ _ => tame_stored _ _
  · exact tame_refuse (List.forall_mem_singleton.2 hx)

theorem tame_countWrite (mode : InsertMode) : Tame p (countWrite mode) :=
  ensures_change fun _ ha => ha

theorem tame_save (x : Text) (t : Table) : Tame p (save x t) := by
  have hwrite (a : Archive) (temporary path : Path) : Ensures (fun _ : Disk => True)
      (fun _ => True) (fun _ => True) (do
        write a.safe temporary (Utf8.encode t.encode)
        Disk.rename temporary path : Disk.Call Unit) := fun d _ => by
    refine ⟨trivial, ?_⟩
    cases (Action.run _ d).1 <;> trivial
  refine ensures_bind (ensures_seen _) fun a _ =>
    ensures_bind (tame_onDisk _) fun _ _ =>
      ensures_bind (ensures_attempt (ensures_withinDisk (hwrite a _ _))) fun result _ => ?_
  split
  · exact tame_countWrite _
  · exact ensures_fail (Failure.tame_system p _)
  · exact ensures_bind (tame_onDisk _) fun _ _ =>
      ensures_fail (Failure.tame_rejected fun _ => Failure.tidy_storage _)

theorem tame_appendRow (x : Text) (t : Table) (row : Row) : Tame p (appendRow x t row) := by
  refine ensures_bind (ensures_seen _) fun a _ =>
    ensures_bind (tame_onDisk _) fun isFile _ => ?_
  split
  · exact ensures_bind (tame_stored _ _) fun _ _ => tame_countWrite _
  · exact ensures_fail (Failure.tame_rejected fun _ => Failure.tidy_storage _)

theorem tame_deleteTable (x t : Text) : Tame p (deleteTable x t) :=
  ensures_bind (ensures_seen _) fun _ _ =>
    ensures_bind (ensures_seen _) fun _ _ => tame_stored _ _

/-- A table that is loaded is sound, whatever its file holds. -/
theorem ensures_load (x t : Text) :
    Ensures Suffixed Table.Sound (Failure.TidyIf p) (load x t) := by
  refine ensures_bind (ensures_seen _) fun file _ =>
    ensures_bind (ensures_seen _) fun path _ =>
      ensures_bind (tame_stored _ _).tidy fun bytes _ => ?_
  split
  · exact ensures_fail fun _ => Failure.tidy_storage _
  · next text _ =>
    have hdecode : (Table.decode t (unifyLines text) path).Gives Table.Sound
        (Failure.TidyIf p) := by
      refine ((Table.decode_gives t _ path).mono (fun _ h => h) fun _ h _ => h).of_eq_ok ?_
      intro u hu
      obtain ⟨hh, -, hn⟩ := Table.decode_eq_ok_iff.1 hu
      exact hh.sound (not_mem_unifyLines text) hn.ge
    exact ensures_bind (ensures_give hdecode) fun u hu =>
      ensures_bind (ensures_change fun _ ha => ha) fun _ _ => ensures_pure hu

end Archive

/-! ## Databases -/

namespace Database

/-- Every table of the database is sound and found by its name in small letters. -/
def Sound (d : Database) : Prop :=
  ∀ k t, d.tables.get? k = some t → t.Sound ∧ Text.lower t.name = k

variable {d e : Database} {t : Table} {x : Text}

theorem empty_sound (x : Text) : (empty x).Sound := nofun

theorem Sound.put (hd : d.Sound) (ht : t.Sound) :
    Sound { d with tables := d.tables.put (Text.lower t.name) t } := by
  intro j u hu
  rw [OrderedMap.get?_put] at hu
  split at hu
  · next hk =>
    cases hu
    exact ⟨ht, hk⟩
  · exact hd j u hu

theorem Sound.erase (hd : d.Sound) (k : Text) : Sound { d with tables := d.tables.erase k } := by
  intro j u hu
  rw [OrderedMap.get?_erase] at hu
  split at hu
  · cases hu
  · exact hd j u hu

theorem Sound.get_gives (hd : d.Sound) (hx : (Text.lower x).OneLine) :
    (d.get x).Gives Table.Plain fun e => ∀ t ∈ e.texts, t.OneLine := by
  unfold Database.get
  split
  · next t ht =>
    obtain ⟨hsound, hname⟩ := hd _ t ht
    exact ⟨hsound, .of_lower (by rwa [hname])⟩
  · exact List.forall_mem_singleton.2 hx

theorem Sound.addAll_gives (hd : d.Sound) {ts : List Table} (hts : ∀ t ∈ ts, t.Sound) :
    (d.addAll ts).Gives Sound fun e => Failure.Tidy (.rejected e) := by
  induction ts generalizing d with
  | nil => exact hd
  | cons t ts ih =>
    obtain ⟨ht, hts⟩ := List.forall_mem_cons.1 hts
    have hadd : (d.add t).Gives Sound fun e => Failure.Tidy (.rejected e) := by
      unfold Database.add
      split
      · exact Failure.tidy_duplicateTable _
      · exact hd.put ht
    exact hadd.bind fun e he => ih he hts

theorem Sound.remove_gives (hd : d.Sound) (hx : (Text.lower x).OneLine) :
    (d.remove x).Gives (fun r => Sound r.2) fun e => ∀ t ∈ e.texts, t.OneLine :=
  (hd.get_gives hx).bind fun _ _ => hd.erase _

end Database

/-! ## Catalogs -/

namespace Catalog

structure Sound (c : Catalog) : Prop where
  suffixed : c.archive.Suffixed
  resident : ∀ x d, c.resident.get? x = some d → d.Sound

variable {α : Type} {P : α → Prop} {c : Catalog} {x name : Text} {d : Database} {t : Table}

theorem Sound.put (hc : c.Sound) (hd : d.Sound) (x : Text) (n : Nat) :
    Sound { c with resident := c.resident.put x d, gauge := n } where
  suffixed := hc.suffixed
  resident := by
    intro y e hy
    rw [OrderedMap.get?_put] at hy
    split at hy
    · cases hy
      exact hd
    · exact hc.resident y e hy

theorem ensures_onArchive {E : Failure → Prop} {w : Archive.Work α}
    (hw : Ensures Archive.Suffixed P E w) : Ensures Sound P E (onArchive w) :=
  ensures_within hw (fun _ hc => hc.suffixed) fun _ _ ha hc => ⟨ha, hc.resident⟩

theorem ensures_check {y : Except Rejection α}
    (h : y.Gives P fun e => p → Failure.Tidy (.rejected e)) :
    Ensures Sound P (Failure.Tame p) (check y) :=
  ensures_give (Except.gives_mapError.2 (h.mono (fun _ h => h) fun _ h => Failure.tame_rejected h))

theorem ensures_refuse {cause : Rejection} (h : Failure.Tidy (.rejected cause)) :
    Ensures Sound P (Failure.Tame p) (refuse cause : Work α) :=
  ensures_fail (Failure.tame_rejected fun _ => h)

theorem ensures_unknown (hx : x.OneLine) :
    Ensures Sound P (Failure.Tame p) (refuse (.unknownDatabase x) : Work α) :=
  ensures_refuse (Failure.tidy_rejected (List.forall_mem_singleton.2 hx))

theorem ensures_hold {E : Failure → Prop} (hd : d.Sound) :
    Ensures Sound (fun _ => True) E (hold d) := ensures_change fun _ hc => hc.put hd _ _

theorem ensures_evict {E : Failure → Prop} (x : Text) :
    Ensures Sound (fun _ => True) E (evict x) := by
  refine ensures_change fun c hc => ?_
  split
  · refine ⟨hc.suffixed, fun y e hy => ?_⟩
    rw [OrderedMap.get?_erase] at hy
    split at hy
    · cases hy
    · exact hc.resident y e hy
  · exact hc

theorem ensures_load (hx : x.OneLine) :
    Ensures Sound Database.Sound (Failure.TidyIf p) (load x) := by
  refine ensures_bind (ensures_onArchive (Archive.tame_tables hx)).tidy fun names _ =>
    ensures_bind (ensures_onArchive (ensures_forEach (Archive.ensures_load x) names)) fun ts hts =>
      ensures_bind (ensures_check ?_).tidy fun d hd =>
        ensures_bind (ensures_hold hd) fun _ _ => ensures_pure hd
  exact ((Database.empty_sound x).addAll_gives hts).mono (fun _ h => h) fun _ h _ => h

/-- A resident database is sound. -/
theorem ensures_resident {E : Failure → Prop} (x : Text) :
    Ensures Sound (fun r => ∀ d ∈ r, Database.Sound d) E (look fun c => c.resident.get? x) :=
  ensures_look fun _ hc d hd => hc.resident x d hd

theorem ensures_use (hx : x.OneLine) :
    Ensures Sound Database.Sound (Failure.TidyIf p) (use x) := by
  refine ensures_bind (ensures_onArchive (Archive.tame_hasDatabase x)).tidy fun isThere _ => ?_
  split
  · refine ensures_bind (ensures_resident x) fun r hr => ?_
    cases r with
    | some d => exact ensures_pure (hr d rfl)
    | none => exact ensures_load hx
  · exact ensures_bind (ensures_evict x) fun _ _ => (ensures_unknown hx).tidy

theorem ensures_database (hx : x.OneLine) :
    Ensures Sound Database.Sound (Failure.TidyIf p) (database x) := by
  refine ensures_bind (ensures_resident x) fun r hr => ?_
  cases r with
  | some d => exact ensures_pure (hr d rfl)
  | none => exact ensures_use hx

/-- Nothing but a table of that name is found, so that its name is within one line as well. -/
theorem ensures_table (hx : x.OneLine) (hn : (Text.lower name).OneLine) :
    Ensures Sound Table.Plain (Failure.TidyIf p) (table x name) :=
  ensures_bind (ensures_database hx) fun _ hd => (ensures_check ((hd.get_gives hn).mono
    (fun _ h => h) fun _ h _ => Failure.tidy_rejected h)).tidy

theorem ensures_createDatabase (hx : x.OneLine) :
    Ensures Sound (fun _ => True) (Failure.Tame p) (createDatabase x) := by
  have hrefuse : Ensures Sound (fun _ => True) (Failure.Tame p)
      (refuse (.duplicateDatabase x) : Work Database) :=
    ensures_refuse (Failure.tidy_rejected (List.forall_mem_singleton.2 hx))
  refine ensures_bind (ensures_seen _) fun isHeld _ => ?_
  split
  · exact hrefuse
  · refine ensures_bind (ensures_onArchive (Archive.tame_hasDatabase x)) fun isThere _ => ?_
    split
    · exact hrefuse
    · exact ensures_bind (ensures_onArchive (Archive.tame_createDatabase hx)) fun _ _ =>
        ensures_bind (ensures_hold (Database.empty_sound x)) fun _ _ => ensures_pure trivial

theorem ensures_dropDatabase (hx : x.OneLine) :
    Ensures Sound (fun _ => True) (Failure.Tame p) (dropDatabase x) := by
  refine ensures_bind (ensures_onArchive (Archive.tame_hasDatabase x)) fun isThere _ => ?_
  split
  · exact ensures_bind (ensures_onArchive (Archive.tame_dropDatabase hx)) fun _ _ => ensures_evict x
  · exact ensures_bind (ensures_evict x) fun _ _ => ensures_unknown hx

theorem ensures_replace {E : Failure → Prop} (x : Text) (ht : t.Sound) :
    Ensures Sound (fun _ => True) E (replace x t) := by
  refine ensures_change fun c hc => ?_
  split
  · next d hd => exact hc.put ((hc.resident x d hd).put ht) x c.gauge
  · exact hc

/-- Making a table once its database is there. -/
theorem ensures_createIn (x name : Text) (columns : List Text) (d : Database) :
    Ensures Sound (fun _ => True) (Failure.Tame (∀ c ∈ columns, Name.isPlain c))
      (if d.has name then refuse (.duplicateTable name)
      else do
        let t ← check (Table.create name columns)
        onArchive (Archive.save x t)
        replace x t
        return t) := by
  have hcreate : (Table.create name columns).Gives Table.Sound
      fun e => (∀ c ∈ columns, Name.isPlain c) → Failure.Tidy (.rejected e) :=
    (Except.gives_given fun h => (Table.create_gives name h).mono (fun _ h => h)
      fun _ => Failure.tidy_rejected).of_eq_ok fun _ => Table.create_sound
  split
  · exact ensures_refuse (Failure.tidy_duplicateTable name)
  · exact ensures_bind (ensures_check hcreate) fun t ht =>
      ensures_bind (ensures_onArchive (Archive.tame_save x t)) fun _ _ =>
        ensures_bind (ensures_replace x ht) fun _ _ => ensures_pure trivial

theorem ensures_createTable (hx : x.OneLine) (name : Text) (columns : List Text) :
    Ensures Sound (fun _ => True) (Failure.TidyIf (∀ c ∈ columns, Name.isPlain c))
      (createTable x name columns) :=
  ensures_bind (ensures_database hx) fun d _ => (ensures_createIn x name columns d).tidy

/-- Removing a table once its database is there. -/
theorem ensures_dropIn (x : Text) (hn : (Text.lower name).OneLine) (hd : d.Sound) :
    Ensures Sound (fun _ => True) (Failure.Tame p) (do
      let _ ← check (d.get name)
      onArchive (Archive.deleteTable x name)
      let (_, rest) ← check (d.remove name)
      change fun c => { c with resident := c.resident.put x rest } : Work Unit) := by
  have htidy (e : Rejection) (h : ∀ t ∈ e.texts, t.OneLine) (_ : p) := Failure.tidy_rejected h
  exact ensures_bind (ensures_check ((hd.get_gives hn).mono (fun _ h => h) htidy)) fun _ _ =>
    ensures_bind (ensures_onArchive (Archive.tame_deleteTable x name)) fun _ _ =>
      ensures_bind (ensures_check ((hd.remove_gives hn).mono (fun _ h => h) htidy)) fun _ hr =>
        ensures_change fun c hc => hc.put hr x c.gauge

theorem ensures_dropTable (hx : x.OneLine) (hn : (Text.lower name).OneLine) :
    Ensures Sound (fun _ => True) (Failure.TidyIf p) (dropTable x name) :=
  ensures_bind (ensures_database hx) fun _ hd => (ensures_dropIn x hn hd).tidy

/-- Carrying a change out puts nothing but a sound table into the catalog. -/
theorem ensures_carry (x : Text) {edit : Edit} (h : ∀ t ∈ edit.table?, t.Sound) :
    Ensures Sound (fun _ => True) (Failure.Tame p) (edit.carry x) := by
  cases edit with
  | none => exact ensures_pure trivial
  | whole t =>
    exact ensures_bind (ensures_replace x (h t rfl)) fun _ _ =>
      ensures_onArchive (Archive.tame_save x t)
  | row t row =>
    refine ensures_bind (ensures_replace x (h t rfl)) fun _ _ =>
      ensures_bind (ensures_seen _) fun mode _ => ?_
    cases mode with
    | whole => exact ensures_onArchive (Archive.tame_save x t)
    | append => exact ensures_onArchive (Archive.tame_appendRow x t row)

end Catalog

end Tabular
