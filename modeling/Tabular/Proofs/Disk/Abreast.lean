import Tabular.Proofs.Action.Abreast
import Tabular.Proofs.Disk.Calls

/-!
# Calls on disks that match in a database

Two disks match in a database if they have the same root, the same entries in the directory of the
database and the same refusals to come. Calls to places in the directory come to the same on both,
whatever else is on them.
-/

namespace Tabular.Disk

open Tabular.Action

/-- A path to the root, to the directory of a database or into it, by names that stand for
themselves. -/
structure Within (x : Text) (p : Path) : Prop where
  names : ∀ name ∈ p, IsName name
  head : ∀ y ∈ p.head?, y = x

section Within

variable {x f name : Text} {p q : Path}

theorem within_one (hx : IsName x) : Within x [x] := ⟨by simpa using hx, by simp⟩

theorem within_two (hx : IsName x) (hf : IsName f) : Within x [x, f] :=
  ⟨by simpa using ⟨hx, hf⟩, by simp⟩

theorem Within.of_prefix (h : Within x q) (hp : p <+: q) : Within x p := by
  obtain ⟨rest, rfl⟩ := hp
  refine ⟨fun name hn => h.names name (List.mem_append_left _ hn), fun y hy => h.head y ?_⟩
  cases p with
  | nil => cases hy
  | cons z p => exact hy

theorem Within.parent (h : Within x p) : Within x p.parent := by
  unfold Path.parent
  split
  · exact h
  · exact h.of_prefix p.dropLast_prefix

end Within

/-- The same stands at the root and in the directory of the database. -/
def AgreeIn (x : Text) (m m' : OrderedMap Path Entry) : Prop :=
  ∀ p : Path, (∀ y ∈ p.head?, y = x) → m'.get? p = m.get? p

/-- What stands in the directories of other databases does not matter. -/
theorem agreeIn_of_elsewhere {x y : Text} {m m' : OrderedMap Path Entry} (hy : y ≠ x)
    (h : ∀ p, ¬ [y] <+: p → m'.get? p = m.get? p) : AgreeIn x m m' := by
  refine fun p hp => h p ?_
  rintro ⟨rest, rfl⟩
  exact hy (hp y rfl)

/-- Two trees match in a database: they agree in it, and every name there stands for itself. -/
structure SameIn (x : Text) (m m' : OrderedMap Path Entry) : Prop where
  get : AgreeIn x m m'
  names : ∀ p e, m.get? (x :: p) = some e → ∀ name ∈ p, IsName name

namespace SameIn

variable {x : Text} {m m' : OrderedMap Path Entry} {p q : Path}

theorem put (h : SameIn x m m') (hp : Within x p) (e : Entry) :
    SameIn x (m.put p e) (m'.put p e) where
  get := by
    intro q hq
    rw [OrderedMap.get?_put, OrderedMap.get?_put, h.get q hq]
  names := by
    intro q f hq
    rw [OrderedMap.get?_put] at hq
    split at hq
    · next hpq => exact fun name hn => hp.names name (hpq ▸ List.mem_cons_of_mem x hn)
    · exact h.names q f hq

theorem erase (h : SameIn x m m') (p : Path) : SameIn x (m.erase p) (m'.erase p) where
  get := by
    intro q hq
    rw [OrderedMap.get?_erase, OrderedMap.get?_erase, h.get q hq]
  names := by
    intro q f hq
    rw [OrderedMap.get?_erase] at hq
    split at hq
    · cases hq
    · exact h.names q f hq

theorem clear (h : SameIn x m m') (p : Path) :
    SameIn x ((below m p).foldl (·.erase ·) m) ((below m' p).foldl (·.erase ·) m') where
  get := by
    intro q hq
    have hb : q ∈ below m' p ↔ q ∈ below m p := by
      simp only [mem_below_iff, OrderedMap.has, h.get q hq]
    rw [OrderedMap.get?_foldl_erase, OrderedMap.get?_foldl_erase, h.get q hq]
    by_cases hq : q ∈ below m p <;> simp [hb, hq]
  names := by
    intro q f hq
    rw [OrderedMap.get?_foldl_erase] at hq
    split at hq
    · cases hq
    · exact h.names q f hq

/-! ## Ways -/

theorem entryAt_eq (h : SameIn x m m') (hp : Within x p) : entryAt m' p = entryAt m p := by
  rw [entryAt, entryAt, h.get p hp.head]

/-- A way by names that stand for themselves leads to the place of its own name, or ends early. -/
theorem follow_eq (h : SameIn x m m') (here : Path) (hp : Within x (here ++ p)) :
    follow m' here p = follow m here p ∧ ∀ q, follow m here p = .ok q → q = here ++ p := by
  induction p generalizing here with
  | nil => exact ⟨rfl, fun q hq => by cases hq; simp⟩
  | cons name rest ih =>
    have hname : IsName name := hp.names name (by simp)
    have hstep : here.step name = here ++ [name] :=
      Path.step_of_isPlainName hname.plain hname.notParent
    have hat := h.entryAt_eq (hp.of_prefix (List.prefix_append here _))
    obtain ⟨hsame, hplace⟩ := ih (here ++ [name]) (by simpa using hp)
    simp only [follow, hat, hstep, hsame, true_and]
    intro q hq
    split at hq
    · cases hq
    · cases hq
    · split at hq
      · simpa using hplace q hq
      · cases hq

theorem placeOf_eq (h : SameIn x m m') (hp : Within x p) :
    placeOf m' p = placeOf m p ∧ ∀ q, placeOf m p = .ok q → q = p := by
  have hfollow : ∀ n, placeOf n p = follow n [] p := by
    intro n
    cases p with
    | nil => rfl
    | cons name rest => exact placeOf_eq_follow (hp.names name (by simp))
  rw [hfollow, hfollow]
  exact h.follow_eq [] hp

theorem find_eq (h : SameIn x m m') (hp : Within x p) :
    find m' p = find m p ∧ ∀ q e, find m p = .ok (q, e) → q = p := by
  obtain ⟨hsame, hplace⟩ := h.placeOf_eq hp
  simp only [find, hsame]
  cases hm : placeOf m p with
  | error e => exact ⟨rfl, fun q f hq => by cases hq⟩
  | ok place =>
    obtain rfl := hplace place hm
    simp only [bind, Except.bind, h.entryAt_eq hp, true_and]
    intro q f hq
    split at hq <;> cases hq
    rfl

theorem vacancy_eq (h : SameIn x m m') (hp : Within x p) :
    vacancy m' p = vacancy m p ∧ ∀ q, vacancy m p = .ok q → q = p := by
  obtain ⟨hsame, hplace⟩ := h.placeOf_eq hp
  simp only [vacancy, hsame]
  cases hm : placeOf m p with
  | error e => exact ⟨rfl, fun q hq => by cases hq⟩
  | ok place =>
    obtain rfl := hplace place hm
    simp only [bind, Except.bind, h.entryAt_eq hp, true_and]
    intro q hq
    split at hq <;> cases hq
    rfl

/-- The same members are listed, in an order that may differ. -/
theorem members_perm (h : SameIn x m m') : (members m [x]).Perm (members m' [x]) := by
  have hnodup : ∀ n, (members n [x]).Nodup := fun n =>
    (members_pairwise n [x]).imp fun hne he => hne (congrArg Prod.fst he)
  refine (List.perm_ext_iff_of_nodup (hnodup m) (hnodup m')).2 ?_
  rintro ⟨name, e⟩
  rw [mem_members_iff, mem_members_iff, h.get _ (by simp)]

theorem isName_of_mem_members (h : SameIn x m m') {name : Text} {e : Entry}
    (hm : (name, e) ∈ members m [x]) : IsName name :=
  h.names [name] e (mem_members_iff.1 hm) name (by simp)

end SameIn

/-! ## Calls -/

structure Matches (x : Text) (d d' : Disk) : Prop where
  root : d'.root = d.root
  refusals : d'.refusals = d.refusals
  tree : SameIn x d.entries d'.entries

/-- A call that keeps to the database: on disks that match in it the call comes to the same and
leaves disks that match in it. -/
abbrev KeepsTo (x : Text) {α : Type} (c : Call α) : Prop :=
  Abreast (Matches x) (Shared fun _ => True) c c

section Calls

variable {α : Type} {x : Text} {p q : Path} {S : α → α → Prop}

theorem abreast_call {target : Option Path}
    {body : OrderedMap Path Entry → Except Errno (α × OrderedMap Path Entry)}
    (h : ∀ m m', SameIn x m m' →
      (body m).Matches (fun r r' => S r.1 r'.1 ∧ SameIn x r.2 r'.2) (body m')) :
    Abreast (Matches x) S (call p target body) (call p target body) := by
  intro d d' hd
  simp only [call, Action.run, hd.refusals, hd.root]
  split
  · exact ⟨.error _, hd⟩
  · split
    · exact ⟨.error _, ⟨rfl, rfl, hd.tree⟩⟩
    · have hbody := h _ _ hd.tree
      generalize body d.entries = r at hbody ⊢
      generalize body d'.entries = r' at hbody ⊢
      cases hbody with
      | error e => exact ⟨.error _, ⟨rfl, rfl, hd.tree⟩⟩
      | @ok a a' ha => exact ⟨.ok ha.1, ⟨rfl, rfl, ha.2⟩⟩

/-- A call that is about what stands at the path. -/
theorem abreast_found (hp : Within x p)
    {body : Path × Entry → OrderedMap Path Entry → Except Errno (α × OrderedMap Path Entry)}
    (h : ∀ e m m', SameIn x m m' →
      (body (p, e) m).Matches (fun r r' => S r.1 r'.1 ∧ SameIn x r.2 r'.2) (body (p, e) m')) :
    Abreast (Matches x) S (call p none fun m => find m p >>= fun found => body found m)
      (call p none fun m => find m p >>= fun found => body found m) := by
  refine abreast_call fun m m' hm => ?_
  obtain ⟨hsame, hplace⟩ := hm.find_eq hp
  rw [hsame]
  cases hf : find m p with
  | error e => exact .error e
  | ok found =>
    obtain ⟨place, e⟩ := found
    obtain rfl := hplace place e hf
    exact h e m m' hm

/-- A call that puts something where nothing is. -/
theorem keepsTo_fill (hp : Within x p) (e : Entry) :
    KeepsTo x (call p none fun m => do return ((), m.put (← vacancy m p) e)) := by
  refine abreast_call fun m m' hm => ?_
  obtain ⟨hsame, hplace⟩ := hm.vacancy_eq hp
  rw [hsame]
  cases hv : vacancy m p with
  | error e => exact .error e
  | ok place =>
    obtain rfl := hplace place hv
    exact .ok ⟨⟨rfl, trivial⟩, hm.put hp e⟩

/-! What stands at a place is told. -/

theorem keepsTo_status (hp : Within x p) : KeepsTo x (status p) := by
  refine abreast_call fun m m' h => ?_
  rw [(h.find_eq hp).1]
  cases find m p with
  | error e => exact .error e
  | ok found => exact .ok ⟨⟨rfl, trivial⟩, h⟩

theorem keepsTo_entry (hp : Within x p) : KeepsTo x ( entry? p) := by
  refine abreast_orElse (abreast_then (keepsTo_status hp) fun e _ => abreast_pure ⟨rfl, trivial⟩)
    fun fault => ?_
  split
  · exact abreast_pure ⟨rfl, trivial⟩
  · exact abreast_pure ⟨rfl, trivial⟩
  · exact abreast_pure ⟨rfl, trivial⟩
  · exact abreast_fail _

theorem keepsTo_isThere (hp : Within x p) : KeepsTo x (isThere p) :=
  abreast_then (keepsTo_entry hp) fun _ _ => abreast_pure ⟨rfl, trivial⟩

theorem keepsTo_isDirectory (hp : Within x p) : KeepsTo x (isDirectory p) := by
  refine abreast_then (keepsTo_entry hp) fun e _ => ?_
  split <;> exact abreast_pure ⟨rfl, trivial⟩

theorem keepsTo_isFile (hp : Within x p) : KeepsTo x (isFile p) := by
  refine abreast_then (keepsTo_entry hp) fun e _ => ?_
  split <;> exact abreast_pure ⟨rfl, trivial⟩

theorem keepsTo_read (hp : Within x p) : KeepsTo x (read p) := by
  refine abreast_found hp fun e m m' h => ?_
  cases e with
  | directory => exact .error _
  | file content => exact .ok ⟨⟨rfl, trivial⟩, h⟩

/-- The members of the directory come in an order that may differ. -/
theorem abreast_list (hx : IsName x) :
    Abreast (Matches x) (fun l l' => l.Perm l' ∧ ∀ member ∈ l, IsName member.1)
      (list [x]) (list [x]) := by
  refine abreast_found (within_one hx) fun e m m' h => ?_
  cases e with
  | directory => exact .ok ⟨⟨h.members_perm, fun _ hm => h.isName_of_mem_members hm⟩, h⟩
  | file content => exact .error _

theorem keepsTo_sync (p : Path) : KeepsTo x (sync p) :=
  abreast_call fun _ _ h => .ok ⟨⟨rfl, trivial⟩, h⟩

/-! Files come and go. -/

theorem keepsTo_createFile (hp : Within x p) : KeepsTo x (createFile p) := keepsTo_fill hp _

theorem keepsTo_append (hp : Within x p) (content : Bytes) : KeepsTo x (append p content) := by
  refine abreast_call fun m m' h => ?_
  obtain ⟨hsame, hplace⟩ := h.placeOf_eq hp
  rw [hsame]
  cases hv : placeOf m p with
  | error e => exact .error e
  | ok place =>
    obtain rfl := hplace place hv
    simp only [bind, Except.bind, h.entryAt_eq hp]
    split
    · exact .ok ⟨⟨rfl, trivial⟩, h.put hp _⟩
    · exact .ok ⟨⟨rfl, trivial⟩, h.put hp _⟩
    · exact .error _

theorem keepsTo_rename (hp : Within x p) (hq : Within x q) : KeepsTo x (rename p q) := by
  refine abreast_call fun m m' h => ?_
  obtain ⟨hfind, -⟩ := h.find_eq hp
  obtain ⟨hplace, htarget⟩ := h.placeOf_eq hq
  rw [hfind, hplace]
  cases find m p with
  | error e => exact .error e
  | ok found =>
    obtain ⟨source, e⟩ := found
    cases ht : placeOf m q with
    | error e => exact .error e
    | ok target =>
      obtain rfl := htarget target ht
      simp only [bind, Except.bind, h.entryAt_eq hq]
      split
      · exact .error _
      · exact .error _
      · exact .ok ⟨⟨rfl, trivial⟩, (h.erase source).put hq _⟩

theorem keepsTo_unlink (hp : Within x p) : KeepsTo x (unlink p) := by
  refine abreast_found hp fun e m m' h => ?_
  cases e with
  | directory => exact .error _
  | file content => exact .ok ⟨⟨rfl, trivial⟩, h.erase p⟩

theorem keepsTo_unlinkIfThere (hp : Within x p) : KeepsTo x (unlinkIfThere p) := by
  refine abreast_orElse (keepsTo_unlink hp) fun fault => ?_
  split
  · exact abreast_pure ⟨rfl, trivial⟩
  · exact abreast_fail _

/-! Directories come and go. -/

theorem keepsTo_clear (hp : Within x p) : KeepsTo x (clear p) := by
  refine abreast_found hp fun e m m' h => ?_
  cases e with
  | directory => exact .ok ⟨⟨rfl, trivial⟩, h.clear p⟩
  | file content => exact .error _

theorem keepsTo_removeDirectory (hp : Within x p) : KeepsTo x (removeDirectory p) := by
  refine abreast_found hp fun e m m' h => ?_
  cases e with
  | directory => exact .ok ⟨⟨rfl, trivial⟩, h.erase p⟩
  | file content => exact .error _

theorem keepsTo_removeTree (hp : Within x p) : KeepsTo x (removeTree p) :=
  abreast_then (keepsTo_clear hp) fun _ _ => keepsTo_removeDirectory hp

theorem keepsTo_makeDirectory (hp : Within x p) : KeepsTo x (makeDirectory p) := keepsTo_fill hp _

theorem keepsTo_orThere (hp : Within x p) (fault : SystemFault) :
    KeepsTo x (do if ← isDirectory p then pure () else Action.fail fault : Call Unit) := by
  refine abreast_then (keepsTo_isDirectory hp) fun isThere _ => ?_
  split
  · exact abreast_pure ⟨rfl, trivial⟩
  · exact abreast_fail fault

theorem keepsTo_ensureOne (hp : Within x p) : KeepsTo x (ensureOne p) := by
  refine abreast_orElse (keepsTo_makeDirectory hp) fun fault => ?_
  split
  · exact abreast_fail _
  · exact keepsTo_orThere hp _

theorem keepsTo_ensureDirectory (hp : Within x p) : KeepsTo x (ensureDirectory p) := by
  -- By induction on the length: what is above a path is shorter.
  induction hn : p.length using Nat.strongRecOn generalizing p with
  | ind n ih =>
    rw [ensureDirectory]
    refine abreast_orElse (keepsTo_makeDirectory hp) fun fault => ?_
    split
    · split
      · next hlt =>
        exact abreast_then (ih _ (hn ▸ hlt) hp.parent rfl) fun _ _ => keepsTo_ensureOne hp
      · exact abreast_fail _
    · exact keepsTo_orThere hp _

theorem keepsTo_makeDirectories (hp : Within x p) : KeepsTo x (makeDirectories p) := by
  refine abreast_orElse (keepsTo_makeDirectory hp) fun fault => ?_
  split
  · split
    · exact abreast_then (keepsTo_ensureDirectory hp.parent) fun _ _ => keepsTo_makeDirectory hp
    · exact abreast_fail _
  · exact abreast_fail _

end Calls

end Tabular.Disk
