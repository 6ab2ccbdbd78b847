import Tabular.Disk
import Tabular.Proofs.Action
import Tabular.Proofs.OrderedMap

/-!
# Calls to a calm disk

What each call does on a disk that refuses nothing by itself, at a place right below the root or in
a directory there. Such a place has a name for each step, and each name stands for itself.
-/

namespace Tabular.Disk

/-- A name that stands for itself in every path. -/
structure IsName (name : Text) : Prop where
  plain : Text.isPlainName name
  notParent : name ≠ ['.', '.']
  noNull : '\x00' ∉ name

/-- A disk with a root and without refusals of its own. -/
structure Calm (d : Disk) : Prop where
  unrefused : d.refusals = []
  root : d.entries.get? [] = some .directory

/-- The disk with something at a place. -/
def put (d : Disk) (place : Path) (e : Entry) : Disk := { d with entries := d.entries.put place e }

/-- The disk with nothing at a place. -/
def erase (d : Disk) (place : Path) : Disk := { d with entries := d.entries.erase place }

@[simp] theorem put_entries (d : Disk) (p : Path) (e : Entry) :
    (d.put p e).entries = d.entries.put p e := rfl
@[simp] theorem put_refusals (d : Disk) (p : Path) (e : Entry) :
    (d.put p e).refusals = d.refusals := rfl
@[simp] theorem put_root (d : Disk) (p : Path) (e : Entry) : (d.put p e).root = d.root := rfl
@[simp] theorem erase_entries (d : Disk) (p : Path) :
    (d.erase p).entries = d.entries.erase p := rfl
@[simp] theorem erase_refusals (d : Disk) (p : Path) : (d.erase p).refusals = d.refusals := rfl
@[simp] theorem erase_root (d : Disk) (p : Path) : (d.erase p).root = d.root := rfl

@[simp] theorem put_put (d : Disk) (p : Path) (e f : Entry) : (d.put p e).put p f = d.put p f := by
  simp [put]

theorem erase_put {d : Disk} {p : Path} (e : Entry) (h : d.entries.get? p = none) :
    (d.put p e).erase p = d := by
  simp [put, erase, OrderedMap.erase_put_of_get?_eq_none _ h]

theorem Calm.put {d : Disk} (hd : d.Calm) {p : Path} (e : Entry) (hp : p ≠ []) : (d.put p e).Calm :=
  ⟨hd.unrefused, by rw [put_entries, OrderedMap.get?_put_other _ _ hp]; exact hd.root⟩

theorem Calm.erase {d : Disk} (hd : d.Calm) {p : Path} (hp : p ≠ []) : (d.erase p).Calm :=
  ⟨hd.unrefused, by rw [erase_entries, OrderedMap.get?_erase_other _ hp]; exact hd.root⟩

/-! ## Names and places -/

theorem IsName.slash_not_mem {name : Text} (h : IsName name) : '/' ∉ name := by
  have := h.plain
  simp only [Text.isPlainName, List.elem_eq_mem, Bool.and_eq_true, Bool.not_eq_eq_eq_not,
    Bool.not_true, decide_eq_false_iff_not] at this
  exact this.1.1

theorem hasNull_eq_false {p : Path} (h : ∀ name ∈ p, IsName name) : p.hasNull = false := by
  rw [Path.hasNull, List.any_eq_false]
  intro name hn
  simpa using (h name hn).noNull

theorem entryAt_of_isName {entries : OrderedMap Path Entry} {name : Text} {rest : Path}
    (h : IsName name) : entryAt entries (name :: rest) = entries.get? (name :: rest) := by
  have ht : name :: rest ≠ Path.top := by
    intro he
    have hs := h.slash_not_mem
    rw [(List.cons.inj he).1] at hs
    exact hs (by simp)
  rw [entryAt, if_neg ht]

theorem entryAt_root (entries : OrderedMap Path Entry) : entryAt entries [] = entries.get? [] := rfl

theorem placeOf_eq_follow {entries : OrderedMap Path Entry} {name : Text} {rest : Path}
    (h : IsName name) : placeOf entries (name :: rest) = follow entries [] (name :: rest) := by
  unfold placeOf
  split
  · next he =>
    have hs := h.slash_not_mem
    rw [(List.cons.inj he).1] at hs
    exact absurd List.mem_cons_self hs
  · rfl

/-- The place of one name is below the root, if the name is not too long. -/
theorem placeOf_one {entries : OrderedMap Path Entry} {x : Text} (hr : entries.get? [] = some .directory)
    (hx : IsName x) :
    placeOf entries [x] = if fits x then .ok [x] else .error .nameTooLong := by
  have hstep : Path.step [] x = [x] := Path.step_of_isPlainName hx.plain hx.notParent
  rw [placeOf_eq_follow hx, follow, entryAt_root, hr]
  simp only [hstep, follow_nil]

/-- The place of two names is in a directory below the root, if the names are not too long. -/
theorem placeOf_two {entries : OrderedMap Path Entry} {x f : Text}
    (hr : entries.get? [] = some .directory) (hx : IsName x) (hf : IsName f) (hfit : fits x)
    (hd : entries.get? [x] = some .directory) :
    placeOf entries [x, f] = if fits f then .ok [x, f] else .error .nameTooLong := by
  have hstep : Path.step [] x = [x] := Path.step_of_isPlainName hx.plain hx.notParent
  have hstep' : Path.step [x] f = [x, f] := Path.step_of_isPlainName hf.plain hf.notParent
  rw [placeOf_eq_follow hx, follow, entryAt_root, hr]
  simp only [hfit, if_true, hstep, follow, entryAt_of_isName hx, hd, hstep']

/-- Where no directory is, nothing is found. -/
theorem placeOf_two_eq_error {entries : OrderedMap Path Entry} {x f : Text}
    (hr : entries.get? [] = some .directory) (hx : IsName x)
    (hd : ¬ (fits x ∧ entries.get? [x] = some .directory)) :
    ∃ e, placeOf entries [x, f] = .error e := by
  have hstep : Path.step [] x = [x] := Path.step_of_isPlainName hx.plain hx.notParent
  rw [placeOf_eq_follow hx, follow, entryAt_root, hr]
  by_cases hfit : fits x
  · simp only [hfit, if_true, hstep, follow, entryAt_of_isName hx]
    cases hg : entries.get? [x] with
    | none => exact ⟨_, rfl⟩
    | some e =>
      cases e with
      | directory => exact absurd ⟨hfit, hg⟩ hd
      | file content => exact ⟨_, rfl⟩
  · simp [hfit]

/-! ## Calls -/

theorem call_run {α : Type} {d : Disk} (hd : d.refusals = []) {p : Path} {target : Option Path}
    (hp : p.hasNull = false) (ht : (target.getD []).hasNull = false)
    (body : OrderedMap Path Entry → Except Errno (α × OrderedMap Path Entry)) :
    (call p target body).run d =
      match body d.entries with
      | .ok (a, entries) => (.ok a, { d with entries := entries })
      | .error e => (.error (.refused e (p.text d.root) (target.map (Path.text d.root))), d) := by
  have hsame : { d with refusals := d.refusals.tail } = d := by rw [hd]; cases d; cases hd; rfl
  have htail : d.refusals.tail = d.refusals := by rw [hd]; rfl
  have hhead : d.refusals.head?.join = none := by rw [hd]; rfl
  simp only [call, Action.run, hp, ht, Bool.or_self, Bool.false_eq_true, if_false, hhead]
  cases body d.entries with
  | error e => rw [hsame]
  | ok r => rw [htail]

/-- A path that leads to the place of its own name. -/
structure Reaches (d : Disk) (p : Path) : Prop where
  unrefused : d.refusals = []
  noNull : p.hasNull = false
  place : placeOf d.entries p = .ok p
  entry : entryAt d.entries p = d.entries.get? p

theorem Calm.reaches_one {d : Disk} (hd : d.Calm) {x : Text} (hx : IsName x) (hfit : fits x) :
    d.Reaches [x] :=
  ⟨hd.unrefused, hasNull_eq_false (by simpa using hx), by rw [placeOf_one hd.root hx, if_pos hfit],
    entryAt_of_isName hx⟩

theorem Calm.reaches_two {d : Disk} (hd : d.Calm) {x f : Text} (hx : IsName x) (hfit : fits x)
    (hdir : d.entries.get? [x] = some .directory) (hf : IsName f) (hffit : fits f) :
    d.Reaches [x, f] :=
  ⟨hd.unrefused, hasNull_eq_false (by simp [hx, hf]),
    by rw [placeOf_two hd.root hx hf hfit hdir, if_pos hffit], entryAt_of_isName hx⟩

/-- A call to a path that leads nowhere is refused. -/
theorem call_run_error {α : Type} {d : Disk} (hd : d.refusals = []) {p : Path}
    (hp : p.hasNull = false) {e : Errno} {body : OrderedMap Path Entry →
      Except Errno (α × OrderedMap Path Entry)} (hb : body d.entries = .error e) :
    (call p none body).run d = (.error (.refused e (p.text d.root) none), d) := by
  rw [call_run hd hp rfl, hb]
  rfl

section Reaches

variable {d : Disk} {p q : Path}

theorem Reaches.find_some (h : d.Reaches p) {e : Entry} (he : d.entries.get? p = some e) :
    find d.entries p = .ok (p, e) := by
  simp only [find, h.place, bind, Except.bind, h.entry, he]
  rfl

theorem Reaches.find_none (h : d.Reaches p) (he : d.entries.get? p = none) :
    find d.entries p = .error .notFound := by
  simp only [find, h.place, bind, Except.bind, h.entry, he]

theorem Reaches.vacancy_none (h : d.Reaches p) (he : d.entries.get? p = none) :
    vacancy d.entries p = .ok p := by
  simp only [vacancy, h.place, bind, Except.bind, h.entry, he]
  rfl

theorem Reaches.vacancy_some (h : d.Reaches p) {e : Entry} (he : d.entries.get? p = some e) :
    vacancy d.entries p = .error .alreadyExists := by
  simp only [vacancy, h.place, bind, Except.bind, h.entry, he]

/-! What stands at the place is told, and the disk stays as it is. -/

theorem Reaches.status_run (h : d.Reaches p) : (status p).run d =
    match d.entries.get? p with
    | some e => (.ok e, d)
    | none => (.error (.refused .notFound (p.text d.root) none), d) := by
  rw [status, call_run h.unrefused h.noNull rfl]
  cases he : d.entries.get? p with
  | none => rw [h.find_none he]; rfl
  | some e => rw [h.find_some he]; rfl

theorem Reaches.entry_run (h : d.Reaches p) : ( entry? p).run d = (.ok (d.entries.get? p), d) := by
  rw [ entry?, Action.run_orElse, Action.run_map, h.status_run]
  cases d.entries.get? p <;> rfl

theorem Reaches.isThere_run (h : d.Reaches p) :
    (isThere p).run d = (.ok (d.entries.get? p).isSome, d) := by
  rw [isThere, Action.run_bind_ok h.entry_run]
  rfl

theorem Reaches.isDirectory_run (h : d.Reaches p) :
    (isDirectory p).run d = (.ok (d.entries.get? p == some .directory), d) := by
  rw [isDirectory, Action.run_bind_ok h.entry_run]
  cases d.entries.get? p with
  | none => rfl
  | some e => cases e <;> rfl

theorem Reaches.isFile_run (h : d.Reaches p) {content : Bytes}
    (he : d.entries.get? p = some (.file content)) : (isFile p).run d = (.ok true, d) := by
  rw [isFile, Action.run_bind_ok h.entry_run, he]
  rfl

theorem Reaches.read_run (h : d.Reaches p) {content : Bytes}
    (he : d.entries.get? p = some (.file content)) : (read p).run d = (.ok content, d) := by
  rw [read, call_run h.unrefused h.noNull rfl, h.find_some he]
  rfl

theorem Reaches.list_run (h : d.Reaches p) (he : d.entries.get? p = some .directory) :
    (list p).run d = (.ok (members d.entries p), d) := by
  rw [list, call_run h.unrefused h.noNull rfl, h.find_some he]
  rfl

/-! Files and directories come and go. -/

theorem Reaches.makeDirectories_run (h : d.Reaches p) (he : d.entries.get? p = none) :
    (makeDirectories p).run d = (.ok (), d.put p .directory) := by
  have hm : (makeDirectory p).run d = (.ok (), d.put p .directory) := by
    rw [makeDirectory, call_run h.unrefused h.noNull rfl, h.vacancy_none he]
    rfl
  rw [makeDirectories, Action.run_orElse, hm]

theorem Reaches.createFile_run (h : d.Reaches p) (he : d.entries.get? p = none) :
    (createFile p).run d = (.ok (), d.put p (.file [])) := by
  rw [createFile, call_run h.unrefused h.noNull rfl, h.vacancy_none he]
  rfl

theorem Reaches.createFile_error (h : d.Reaches p) (he : d.entries.get? p ≠ none) :
    (createFile p).run d = (.error (.refused .alreadyExists (p.text d.root) none), d) := by
  obtain ⟨e, he⟩ := Option.ne_none_iff_exists'.1 he
  exact call_run_error h.unrefused h.noNull (by rw [h.vacancy_some he]; rfl)

theorem Reaches.append_run (h : d.Reaches p) {before : Bytes}
    (he : d.entries.get? p = some (.file before)) (content : Bytes) :
    (append p content).run d = (.ok (), d.put p (.file (before ++ content))) := by
  rw [append, call_run h.unrefused h.noNull rfl]
  simp only [h.place, bind, Except.bind, h.entry, he]
  rfl

theorem Reaches.sync_run (h : d.Reaches p) : (sync p).run d = (.ok (), d) := by
  rw [sync, call_run h.unrefused h.noNull rfl]

theorem Reaches.unlinkIfThere_none (h : d.Reaches p) (he : d.entries.get? p = none) :
    (unlinkIfThere p).run d = (.ok (), d) := by
  have hu : (unlink p).run d = (.error (.refused .notFound (p.text d.root) none), d) :=
    call_run_error h.unrefused h.noNull (by rw [h.find_none he]; rfl)
  rw [unlinkIfThere, Action.run_orElse, hu]
  rfl

theorem Reaches.unlinkIfThere_file (h : d.Reaches p) {content : Bytes}
    (he : d.entries.get? p = some (.file content)) :
    (unlinkIfThere p).run d = (.ok (), d.erase p) := by
  have hu : (unlink p).run d = (.ok (), d.erase p) := by
    rw [unlink, call_run h.unrefused h.noNull rfl, h.find_some he]
    rfl
  rw [unlinkIfThere, Action.run_orElse, hu]

theorem Reaches.unlinkIfThere_directory (h : d.Reaches p)
    (he : d.entries.get? p = some .directory) :
    (unlinkIfThere p).run d = (.error (.refused .isDirectory (p.text d.root) none), d) := by
  have hu : (unlink p).run d = (.error (.refused .isDirectory (p.text d.root) none), d) :=
    call_run_error h.unrefused h.noNull (by rw [h.find_some he]; rfl)
  rw [unlinkIfThere, Action.run_orElse, hu]
  rfl

theorem Reaches.rename_run (h : d.Reaches p) (hq : d.Reaches q) {content : Bytes}
    (he : d.entries.get? p = some (.file content)) (hqe : d.entries.get? q ≠ some .directory) :
    (rename p q).run d = (.ok (), (d.erase p).put q (.file content)) := by
  have hqn : ((some q).getD []).hasNull = false := hq.noNull
  rw [rename, call_run h.unrefused h.noNull hqn, h.find_some he]
  simp only [bind, Except.bind, hq.place, hq.entry]
  cases hg : d.entries.get? q with
  | none => rfl
  | some e =>
    cases e with
    | directory => exact absurd hg hqe
    | file content => rfl

/-- A file is not moved to where a directory stands, or to where no way leads. -/
theorem Reaches.rename_error (h : d.Reaches p) (hq : q.hasNull = false) {content : Bytes}
    (he : d.entries.get? p = some (.file content))
    (hqe : (∃ e, placeOf d.entries q = .error e) ∨
      (placeOf d.entries q = .ok q ∧ entryAt d.entries q = some .directory)) :
    ∃ e, (rename p q).run d =
      (.error (.refused e (p.text d.root) (some (q.text d.root))), d) := by
  have hqn : ((some q).getD []).hasNull = false := hq
  rw [rename, call_run h.unrefused h.noNull hqn, h.find_some he]
  rcases hqe with ⟨e, hpl⟩ | ⟨hpl, hat⟩
  · exact ⟨e, by simp only [bind, Except.bind, hpl]; rfl⟩
  · exact ⟨.isDirectory, by simp only [bind, Except.bind, hpl, hat]; rfl⟩

end Reaches

/-! ## Trees -/

/-- The disk without a place and all that is below it. -/
def cut (d : Disk) (p : Path) : Disk :=
  { d with entries := ((below d.entries p).foldl (·.erase ·) d.entries).erase p }

theorem mem_below_iff {entries : OrderedMap Path Entry} {p q : Path} :
    q ∈ below entries p ↔ entries.has q ∧ p <+: q ∧ q ≠ p := by
  simp [below, OrderedMap.has_iff_mem_keys]

/-- What is left after a cut is what was not at the place or below it. -/
theorem get?_cut (d : Disk) (p q : Path) :
    (d.cut p).entries.get? q = if p <+: q then none else d.entries.get? q := by
  simp only [cut, OrderedMap.get?_erase, OrderedMap.get?_foldl_erase, mem_below_iff]
  by_cases hp : p = q
  · simp [hp]
  · by_cases hpre : p <+: q
    · cases hg : d.entries.get? q with
      | none => simp
      | some e => simp [hp, hpre, OrderedMap.has, hg, Ne.symm hp]
    · simp [hp, hpre]

theorem get?_cut_cons (d : Disk) (x y : Text) (p : Path) :
    (d.cut [x]).entries.get? (y :: p) = if x = y then none else d.entries.get? (y :: p) := by
  have hpre : [x] <+: y :: p ↔ x = y := by simp
  simp only [get?_cut, hpre]

theorem Calm.cut {d : Disk} (hd : d.Calm) {p : Path} (hp : p ≠ []) : (d.cut p).Calm :=
  ⟨hd.unrefused, by rw [get?_cut, if_neg (by simpa using hp)]; exact hd.root⟩

/-- A directory below the root goes with all that is in it. -/
theorem Calm.removeTree_run {d : Disk} (hd : d.Calm) {x : Text} (hx : IsName x) (hfit : fits x)
    (he : d.entries.get? [x] = some .directory) :
    (removeTree [x]).run d = (.ok (), d.cut [x]) := by
  have hr := hd.reaches_one hx hfit
  let d' : Disk := { d with entries := (below d.entries [x]).foldl (·.erase ·) d.entries }
  have hc : (clear [x]).run d = (.ok (), d') := by
    rw [clear, call_run hr.unrefused hr.noNull rfl, hr.find_some he]
    rfl
  have hd' : d'.Calm := by
    refine ⟨hd.unrefused, ?_⟩
    rw [OrderedMap.get?_foldl_erase, if_neg (by simp [mem_below_iff])]
    exact hd.root
  have he' : d'.entries.get? [x] = some .directory := by
    rw [OrderedMap.get?_foldl_erase, if_neg (by simp [mem_below_iff])]
    exact he
  have hr' := hd'.reaches_one hx hfit
  rw [removeTree, Action.run_bind_ok hc, removeDirectory, call_run hr'.unrefused hr'.noNull rfl,
    hr'.find_some he']
  rfl

/-! ## Members -/

/-- What an entry is to a directory. -/
def memberOf? (place : Path) (entry : Path × Entry) : Option (Text × Entry) :=
  match entry.1.getLast? with
  | some name => if entry.1.dropLast = place then some (name, entry.2) else none
  | none => none

theorem members_eq (entries : OrderedMap Path Entry) (place : Path) :
    members entries place = entries.entries.filterMap (memberOf? place) := rfl

theorem memberOf?_eq_some_iff {place q : Path} {e f : Entry} {name : Text} :
    memberOf? place (q, e) = some (name, f) ↔ q = place ++ [name] ∧ e = f := by
  constructor
  · intro h
    unfold memberOf? at h
    split at h
    · next last hl =>
      obtain ⟨init, hi⟩ := List.getLast?_eq_some_iff.1 hl
      have hi : q = init ++ [last] := hi
      split at h
      · next hd =>
        obtain ⟨rfl, rfl⟩ := Prod.mk.inj (Option.some.inj h)
        simp only [hi, List.dropLast_concat] at hd
        exact ⟨by rw [hi, hd], rfl⟩
      · cases h
    · cases h
  · rintro ⟨rfl, rfl⟩
    simp [memberOf?]

/-- The members of a directory are what stands right below it. -/
theorem mem_members_iff {entries : OrderedMap Path Entry} {place : Path} {name : Text} {e : Entry} :
    (name, e) ∈ members entries place ↔ entries.get? (place ++ [name]) = some e := by
  simp only [members_eq, List.mem_filterMap, Prod.exists, memberOf?_eq_some_iff,
    ← OrderedMap.mem_entries_iff]
  constructor
  · rintro ⟨q, f, hm, rfl, rfl⟩
    exact hm
  · intro h
    exact ⟨_, _, h, rfl, rfl⟩

/-- No two members of a directory have one name. -/
theorem members_pairwise (entries : OrderedMap Path Entry) (place : Path) :
    (members entries place).Pairwise fun e f => e.1 ≠ f.1 := by
  have hd : entries.entries.Pairwise fun e f => e.1 ≠ f.1 := List.pairwise_map.1 entries.distinct
  rw [members_eq]
  refine List.Pairwise.filterMap _ ?_ hd
  rintro ⟨p, d⟩ ⟨q, e⟩ hne ⟨m, d'⟩ hm ⟨n, e'⟩ hn hmn
  have hp := (memberOf?_eq_some_iff.1 hm).1
  have hq := (memberOf?_eq_some_iff.1 hn).1
  exact hne (by rw [hp, hq]; exact congrArg (place ++ [·]) hmn)

end Tabular.Disk
