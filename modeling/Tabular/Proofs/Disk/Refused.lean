import Tabular.Proofs.Action.Refused
import Tabular.Proofs.Disk.Calls
import Tabular.Proofs.Except

/-!
# Calls to a disk that refuses

What each call comes to on a disk with refusals of its own, as long as none of them says that
something is missing. A call that succeeds does what it does on the calm disk, and one that only
looks leaves everything as it is, whatever comes of it.
-/

namespace Tabular

/-- Does the reason say that nothing stands at the path? -/
def Errno.saysMissing : Errno → Bool
  | .notFound | .notDirectory => true
  | _ => false

namespace Disk

/-- No refusal of the disk's own says that something is missing, as only the tree can tell. -/
def Honest (d : Disk) : Prop := ∀ e, some e ∈ d.refusals → e.saysMissing = false

/-- The disk without refusals of its own. -/
def calmed (d : Disk) : Disk := { d with refusals := [] }

/-- The same tree under the same root. -/
def Same (d d' : Disk) : Prop := d'.calmed = d.calmed

@[simp] theorem calmed_entries (d : Disk) : d.calmed.entries = d.entries := rfl

theorem calmed_of_unrefused {d : Disk} (h : d.refusals = []) : d.calmed = d := by
  cases d
  cases h
  rfl

theorem honest_of_unrefused {d : Disk} (h : d.refusals = []) : d.Honest := by
  intro e he
  rw [h] at he
  cases he

theorem Honest.tail {d : Disk} (h : d.Honest) (entries : OrderedMap Path Entry) :
    Honest { d with entries := entries, refusals := d.refusals.tail } :=
  fun e he => h e (List.mem_of_mem_tail he)

theorem Same.refl (d : Disk) : d.Same d := rfl

theorem Same.trans {d d' d'' : Disk} (h : d.Same d') (h' : d'.Same d'') : d.Same d'' :=
  Eq.trans h' h

theorem Same.entries {d d' : Disk} (h : d.Same d') : d'.entries = d.entries := by
  have hc : d'.calmed = d.calmed := h
  rw [← calmed_entries, hc, calmed_entries]

/-! ## One call -/

section Call

variable {α : Type} {p : Path} {target : Option Path}
  {body : OrderedMap Path Entry → Except Errno (α × OrderedMap Path Entry)} {d d' : Disk}

/-- A call that succeeds was not refused, and did what it does to the tree. -/
theorem call_eq_ok {a : α} (h : (call p target body).run d = (.ok a, d')) :
    (p.hasNull || (target.getD []).hasNull) = false ∧
      ∃ entries, body d.entries = .ok (a, entries) ∧
        d' = { d with entries := entries, refusals := d.refusals.tail } := by
  simp only [call, Action.run] at h
  split at h
  · cases h
  · next hn =>
    split at h
    · cases h
    · split at h
      · next hb =>
        cases h
        exact ⟨by simpa using hn, _, hb, rfl⟩
      · cases h

/-- A call that fails was refused, or would have failed on the calm disk too. -/
theorem call_eq_error (hd : d.Honest) {f : SystemFault}
    (h : (call p target body).run d = (.error f, d')) :
    d.Same d' ∧ ((∃ e s t, f = .refused e s t ∧ e.saysMissing = false) ∨
      (call p target body).run d.calmed = (.error f, d.calmed)) := by
  simp only [call, Action.run] at h
  split at h
  · next hn =>
    cases h
    exact ⟨rfl, .inr (by simp only [call, Action.run, hn, if_true])⟩
  · next hn =>
    split at h
    · next e he =>
      cases h
      refine ⟨rfl, .inl ⟨e, _, _, rfl, hd e ?_⟩⟩
      exact List.mem_of_mem_head? (Option.join_eq_some_iff.1 he)
    · split at h
      · cases h
      · next hb =>
        cases h
        refine ⟨rfl, .inr ?_⟩
        simp only [call, Action.run, hn, calmed, hb]
        rfl

/-- A call to a path that can be named fails because it is refused. -/
theorem call_eq_refused (hp : p.hasNull = false) (ht : (target.getD []).hasNull = false)
    {f : SystemFault} (h : (call p target body).run d = (.error f, d')) :
    ∃ e s t, f = .refused e s t := by
  simp only [call, Action.run, hp, ht] at h
  split at h
  · next hn => cases hn
  · split at h
    · cases h
      exact ⟨_, _, _, rfl⟩
    · split at h <;> cases h
      exact ⟨_, _, _, rfl⟩

theorem undeterred_call : Action.Undeterred Honest calmed (call p target body) where
  good_run := by
    intro d hd
    cases hr : (call p target body).run d with
    | mk r d' =>
      cases r with
      | ok a =>
        obtain ⟨-, entries, -, rfl⟩ := call_eq_ok hr
        exact hd.tail entries
      | error f =>
        simp only [call, Action.run] at hr
        split at hr
        · cases hr; exact hd
        · split at hr
          · cases hr; exact hd.tail _
          · split at hr <;> cases hr
            exact hd.tail _
  ok_run := by
    intro d d' a hd h
    obtain ⟨hn, entries, hb, rfl⟩ := call_eq_ok h
    simp only [call, Action.run, hn, calmed, hb]
    rfl

/-- A call that leaves the tree as it is leaves the disk the same. -/
theorem keeps_call (hb : ∀ entries a entries', body entries = .ok (a, entries') → entries' = entries) :
    Action.Keeps Same (call p target body) := by
  intro d
  cases hr : (call p target body).run d with
  | mk r d' =>
    cases r with
    | ok a =>
      obtain ⟨-, entries, h, rfl⟩ := call_eq_ok hr
      rw [hb _ _ _ h]
      rfl
    | error f =>
      have he := call_error_entries hr
      simp only [call, Action.run] at hr
      split at hr
      · cases hr; rfl
      · split at hr
        · cases hr; rfl
        · split at hr <;> cases hr
          rfl

end Call

/-! ## Looking -/

variable {d d' : Disk} {p q : Path}

theorem keeps_status (p : Path) : Action.Keeps Same (status p) := by
  refine keeps_call fun entries a entries' h => ?_
  obtain ⟨found, -, he⟩ := Except.map_eq_ok_iff.1 h
  exact (Prod.mk.inj he).2.symm

theorem undeterred_entry (p : Path) : Action.Undeterred Honest calmed ( entry? p) := by
  refine Action.undeterred_orElse ?_ ?_ ?_
  · exact Action.undeterred_bind undeterred_call fun e => Action.undeterred_pure (some e)
  · intro f
    split
    · exact Action.undeterred_pure none
    · exact Action.undeterred_pure none
    · exact Action.undeterred_pure none
    · exact Action.undeterred_fail _
  · intro d d' d'' f a hd h hg
    rw [Action.run_map] at h ⊢
    cases hr : (status p).run d with
    | mk r u =>
      rw [hr] at h
      cases r with
      | ok e => cases h
      | error f' =>
        cases h
        obtain ⟨hsame, ⟨e, s, t, rfl, he⟩ | hc⟩ := call_eq_error hd hr
        · split at hg
          · next heq => cases heq; cases he
          · next heq => cases heq; cases he
          · next heq => cases heq
          · cases hg
        · have hc : (status p).run d.calmed = _ := hc
          rw [hc]
          exact Prod.ext rfl hsame.symm

theorem keeps_entry (p : Path) : Action.Keeps Same ( entry? p) := by
  refine Action.keeps_orElse (R := Same) Same.trans ?_ ?_
  · exact Action.keeps_bind Same.trans (keeps_status p) fun e => Action.keeps_pure Same.refl (some e)
  · intro f
    split
    · exact Action.keeps_pure Same.refl none
    · exact Action.keeps_pure Same.refl none
    · exact Action.keeps_pure Same.refl none
    · exact Action.keeps_fail Same.refl _

theorem undeterred_isThere (p : Path) : Action.Undeterred Honest calmed (isThere p) :=
  Action.undeterred_bind (undeterred_entry p) fun _ => Action.undeterred_pure _

theorem keeps_isThere (p : Path) : Action.Keeps Same (isThere p) :=
  Action.keeps_bind Same.trans (keeps_entry p) fun _ => Action.keeps_pure Same.refl _

theorem undeterred_isDirectory (p : Path) : Action.Undeterred Honest calmed (isDirectory p) := by
  refine Action.undeterred_bind (undeterred_entry p) fun e => ?_
  split <;> exact Action.undeterred_pure _

theorem keeps_isDirectory (p : Path) : Action.Keeps Same (isDirectory p) := by
  refine Action.keeps_bind Same.trans (keeps_entry p) fun e => ?_
  split <;> exact Action.keeps_pure Same.refl _

theorem undeterred_isFile (p : Path) : Action.Undeterred Honest calmed (isFile p) := by
  refine Action.undeterred_bind (undeterred_entry p) fun e => ?_
  split <;> exact Action.undeterred_pure _

theorem keeps_isFile (p : Path) : Action.Keeps Same (isFile p) := by
  refine Action.keeps_bind Same.trans (keeps_entry p) fun e => ?_
  split <;> exact Action.keeps_pure Same.refl _

theorem keeps_list (p : Path) : Action.Keeps Same (list p) := by
  refine keeps_call fun entries a entries' h => ?_
  obtain ⟨⟨place, e⟩, -, he⟩ := Except.bind_eq_ok_iff.1 h
  cases e with
  | directory => cases he; rfl
  | file content => cases he

theorem keeps_read (p : Path) : Action.Keeps Same (read p) := by
  refine keeps_call fun entries a entries' h => ?_
  obtain ⟨⟨place, e⟩, -, he⟩ := Except.bind_eq_ok_iff.1 h
  cases e with
  | directory => cases he
  | file content => cases he; rfl

/-! ## Changing -/

theorem undeterred_unlinkIfThere (p : Path) :
    Action.Undeterred Honest calmed (unlinkIfThere p) := by
  refine Action.undeterred_orElse undeterred_call ?_ ?_
  · intro f
    split
    · exact Action.undeterred_pure ()
    · exact Action.undeterred_fail _
  · intro d d' d'' f a hd h hg
    obtain ⟨hsame, ⟨e, s, t, rfl, he⟩ | hc⟩ := call_eq_error hd h
    · split at hg
      · next heq => cases heq; cases he
      · cases hg
    · have hsame : d'.calmed = d.calmed := hsame
      rw [hsame]
      exact hc

/-- A file that cannot be removed is still there. -/
theorem unlinkIfThere_eq_error (hd : d.Honest) {f : SystemFault}
    (h : (unlinkIfThere p).run d = (.error f, d')) : d.Same d' := by
  rw [unlinkIfThere, Action.run_orElse] at h
  cases hr : (unlink p).run d with
  | mk r u =>
    rw [hr] at h
    cases r with
    | ok a => cases h
    | error f' =>
      have hsame := (call_eq_error hd hr).1
      dsimp only at h
      split at h <;> cases h
      exact hsame

theorem undeterred_removeTree (p : Path) : Action.Undeterred Honest calmed (removeTree p) :=
  Action.undeterred_bind undeterred_call fun _ => undeterred_call

/-- The disk with nothing in a directory. -/
def emptied (d : Disk) (p : Path) : Disk :=
  { d with entries := (below d.entries p).foldl (·.erase ·) d.entries }

theorem get?_emptied (d : Disk) (p q : Path) :
    (d.emptied p).entries.get? q = if p <+: q ∧ q ≠ p then none else d.entries.get? q := by
  simp only [emptied, OrderedMap.get?_foldl_erase, mem_below_iff]
  by_cases hpq : p <+: q ∧ q ≠ p
  · cases hg : d.entries.get? q with
    | none => simp
    | some e => simp [hpq, OrderedMap.has, hg]
  · rw [if_neg hpq, if_neg fun h => hpq h.2]

/-- A directory below the root that cannot be removed is as it was or has lost what was in it. -/
theorem removeTree_eq_error {x : Text} (hd : d.Honest) (hr : d.calmed.Reaches [x])
    (he : d.entries.get? [x] = some .directory) {f : SystemFault}
    (h : (removeTree [x]).run d = (.error f, d')) :
    d.Same d' ∨ d'.calmed = d.calmed.emptied [x] ∧ ∃ e s t, f = .refused e s t := by
  obtain h | ⟨_, u, hc, h⟩ := Action.run_bind_eq_error h
  · exact .inl (call_eq_error hd h).1
  · have hu := undeterred_call.ok_run hd hc
    have hclear : (clear [x]).run d.calmed = (.ok (), d.calmed.emptied [x]) := by
      rw [clear, call_run hr.unrefused hr.noNull rfl, hr.find_some he]
      rfl
    have hsame := (call_eq_error (undeterred_call.good_of_run hd hc) h).1
    exact .inr ⟨Eq.trans hsame (Prod.mk.inj (hu.symm.trans hclear)).2,
      call_eq_refused hr.noNull rfl h⟩

/-- Below a root, a directory is made at once or not at all. -/
theorem makeDirectories_run_eq {x : Text} (hd : d.Honest)
    (hroot : d.entries.get? [] = some .directory) (hx : IsName x) :
    (makeDirectories [x]).run d = (makeDirectory [x]).run d := by
  rw [makeDirectories, Action.run_orElse]
  cases hr : (makeDirectory [x]).run d with
  | mk r u =>
    cases r with
    | ok a => rfl
    | error f =>
      have hne : ∀ s t, f ≠ .refused .notFound s t := by
        rintro s t rfl
        obtain ⟨-, ⟨e, _, _, h, he⟩ | hc⟩ := call_eq_error hd hr
        · cases h
          cases he
        · have hnull : Path.hasNull [x] = false := hasNull_eq_false (by simpa using hx)
          rw [call_run (d := d.calmed) rfl hnull rfl] at hc
          simp only [vacancy, calmed_entries, placeOf_one hroot hx] at hc
          split at hc
          · cases hc
          · next e hb =>
            cases hc
            cases hf : fits x with
            | false => simp [hf, bind, Except.bind] at hb
            | true =>
              cases he : entryAt d.entries [x] <;> simp [hf, he, bind, Except.bind, pure, Except.pure] at hb
      dsimp only
      split
      · exact absurd rfl (hne _ _)
      · rfl

/-- An honest disk with a root. -/
def Rooted (d : Disk) : Prop := d.Honest ∧ d.entries.get? [] = some .directory

theorem undeterred_rooted {α : Type} {m : Call α} (hm : Action.Undeterred Honest calmed m)
    (hk : Action.Keeps Same m) : Action.Undeterred Rooted calmed m :=
  hm.and_keeps hk fun hs hr => by rw [Same.entries hs]; exact hr

theorem undeterred_makeDirectories {x : Text} (hx : IsName x) :
    Action.Undeterred Rooted calmed (makeDirectories [x]) where
  good_run := by
    rintro d ⟨hd, hroot⟩
    rw [makeDirectories_run_eq hd hroot hx]
    refine ⟨undeterred_call.good_run hd, ?_⟩
    cases hr : (makeDirectory [x]).run d with
    | mk r d' =>
      cases r with
      | error f => rw [call_error_entries hr]; exact hroot
      | ok a =>
        obtain ⟨-, entries, hb, rfl⟩ := call_eq_ok hr
        obtain ⟨place, hv, he⟩ := Except.bind_eq_ok_iff.1 hb
        obtain ⟨place', hplace, hat⟩ := Except.bind_eq_ok_iff.1 hv
        cases he
        rw [placeOf_one hroot hx] at hplace
        split at hplace
        · cases hplace
          split at hat
          · cases hat
          · cases hat
            rw [OrderedMap.get?_put_other _ _ (by simp)]
            exact hroot
        · cases hplace
  ok_run := by
    rintro d d' a ⟨hd, hroot⟩ h
    rw [makeDirectories_run_eq hd hroot hx] at h
    rw [makeDirectories_run_eq (d := d.calmed) (honest_of_unrefused rfl) hroot hx]
    exact undeterred_call.ok_run hd h

theorem makeDirectories_eq_error {x : Text} (hd : d.Honest)
    (hroot : d.entries.get? [] = some .directory) (hx : IsName x) {f : SystemFault}
    (h : (makeDirectories [x]).run d = (.error f, d')) : d.Same d' := by
  rw [makeDirectories_run_eq hd hroot hx] at h
  exact (call_eq_error hd h).1

end Disk

end Tabular
