import Tabular.Proofs.Archive.Content
import Tabular.Proofs.Disk.Calls
import Tabular.Proofs.Text.Word

/-!
# Work of an archive

What each piece of work does on a calm disk. A database is a directory below the root and a table
is a file in it; work that fails leaves the disk as it was.
-/

namespace Tabular

namespace Failure

/-- Did a call to the disk fail? A file whose bytes are no text was read without a failure. -/
def OfDisk : Failure → Prop
  | .system _ => True
  | .rejected (.storage (.decodeFile _ _)) => False
  | .rejected (.storage _) => True
  | .rejected _ | .number _ => False

end Failure

namespace Name

theorem IsWord.head {n : Text} (h : IsWord n) :
    ∃ c rest, n = c :: rest ∧ Text.isWordChar c := by
  obtain ⟨hne, hw⟩ := isPlain_iff.1 h.plain
  obtain ⟨c, rest, rfl⟩ := List.exists_cons_of_ne_nil hne
  exact ⟨c, rest, rfl, hw c (by simp)⟩

theorem IsWord.not_mem {n : Text} (h : IsWord n) {c : Char} (hc : Text.isWordChar c = false) :
    c ∉ n := by
  intro hm
  rw [(isPlain_iff.1 h.plain).2 c hm] at hc
  cases hc

/-- A word with anything after it that has no slash and no null character is a name of a file. -/
theorem IsWord.isName_append {n s : Text} (h : IsWord n) (hs : '/' ∉ s ∧ '\x00' ∉ s) :
    Disk.IsName (n ++ s) := by
  obtain ⟨c, rest, hn, hc⟩ := h.head
  have hdot : c ≠ '.' := by rintro rfl; exact absurd hc (by decide)
  have hslash : '/' ∉ n ++ s := by simp [h.not_mem (c := '/') (by decide), hs.1]
  refine ⟨?_, ?_, by simp [h.not_mem (c := '\x00') (by decide), hs.2]⟩
  · simp only [Text.isPlainName, List.elem_eq_mem, hslash, decide_false, Bool.not_false,
      Bool.true_and, Bool.and_eq_true, decide_eq_true_eq]
    constructor
    · simp [hn]
    · intro he
      rw [hn] at he
      exact hdot (List.cons.inj he).1
  · intro he
    rw [hn] at he
    exact hdot (List.cons.inj he).1

theorem IsWord.isName {n : Text} (h : IsWord n) : Disk.IsName n := by
  simpa using h.isName_append (s := []) (by simp)

end Name

namespace Archive

/-- The name of a table's file. -/
def fileName (a : Archive) (t : Text) : Text := t ++ a.suffix

/-- The name of a table's temporary file. -/
def temporaryName (a : Archive) (t : Text) : Text := ['.'] ++ t ++ ['.'] ++ a.stamp ++ ['.', 't', 'm', 'p']

/-- An archive whose names are names of files: the suffix is not empty, and no slash or null
character is in it or in the stamp. -/
structure Plain (a : Archive) : Prop where
  suffix_ne : a.suffix ≠ []
  suffix_chars : '/' ∉ a.suffix ∧ '\x00' ∉ a.suffix
  stamp_chars : '/' ∉ a.stamp ∧ '\x00' ∉ a.stamp

/-- Only the suffix and the stamp make an archive plain. -/
theorem Plain.congr {a a' : Archive} (h : a.Plain) (hs : a'.suffix = a.suffix)
    (ht : a'.stamp = a.stamp) : a'.Plain :=
  ⟨hs ▸ h.suffix_ne, hs ▸ h.suffix_chars, ht ▸ h.stamp_chars⟩

theorem Plain.isName_fileName {a : Archive} (ha : a.Plain) {t : Text} (ht : Name.IsWord t) :
    Disk.IsName (a.fileName t) := ht.isName_append ha.suffix_chars

theorem fileName_injective {a : Archive} {s t : Text} (h : a.fileName s = a.fileName t) : s = t :=
  List.append_cancel_right h

theorem fileName_congr {a a' : Archive} (hs : a'.suffix = a.suffix) (t : Text) :
    a'.fileName t = a.fileName t := by rw [fileName, fileName, hs]

theorem temporaryName_congr {a a' : Archive} (hs : a'.stamp = a.stamp) (t : Text) :
    a'.temporaryName t = a.temporaryName t := by rw [temporaryName, temporaryName, hs]

/-- The file of a table that a command can name does not begin with a dot. -/
theorem head?_fileName_ne (a : Archive) {t u : Text} (ht : Name.IsWord t)
    (h : Text.lower u = Text.lower t) : (a.fileName u).head? ≠ some '.' := by
  obtain ⟨c, cs, rfl, hc⟩ := ht.head
  rw [ht.small] at h
  cases u with
  | nil => cases h
  | cons b rest =>
    intro hdot
    obtain rfl : b = '.' := by simpa [fileName] using hdot
    have hcons : Text.lower ('.' :: rest) = '.' :: Text.lowerAfter ['.'] rest := rfl
    rw [hcons] at h
    rw [← (List.cons.inj h).1] at hc
    exact absurd hc (by decide)

/-! ## Paths -/

theorem databasePath_eq {x : Text} (hx : Disk.IsName x) : databasePath x = [x] := by
  rw [databasePath, Path.under_of_isPlainName hx.plain]
  rfl

theorem tablePath_eq (a : Archive) {x t : Text} (hx : Disk.IsName x)
    (ht : Disk.IsName (a.fileName t)) : a.tablePath x t = [x, a.fileName t] := by
  rw [tablePath, databasePath_eq hx]
  exact Path.under_of_isPlainName ht.plain

theorem parent_two (x f : Text) : Path.parent [x, f] = [x] := by
  unfold Path.parent
  split
  · next he => cases he
  · rfl

theorem temporaryName_chars {a : Archive} (ha : a.Plain) {t : Text} (ht : '/' ∉ t ∧ '\x00' ∉ t) :
    '/' ∉ a.temporaryName t ∧ '\x00' ∉ a.temporaryName t := by
  constructor <;>
    simp [temporaryName, ht, ha.stamp_chars]

theorem chars_of_fileName {a : Archive} {t : Text} (h : Disk.IsName (a.fileName t)) :
    '/' ∉ t ∧ '\x00' ∉ t :=
  ⟨fun hm => h.slash_not_mem (List.mem_append_left _ hm),
    fun hm => h.noNull (List.mem_append_left _ hm)⟩

theorem isName_temporaryName {a : Archive} (ha : a.Plain) {t : Text}
    (ht : Disk.IsName (a.fileName t)) : Disk.IsName (a.temporaryName t) := by
  obtain ⟨hs, hn⟩ := temporaryName_chars ha (chars_of_fileName ht)
  have hl : 6 ≤ (a.temporaryName t).length := by simp [temporaryName]; omega
  refine ⟨?_, ?_, hn⟩
  · simp only [Text.isPlainName, List.elem_eq_mem, hs, decide_false, Bool.not_false, Bool.true_and,
      Bool.and_eq_true, decide_eq_true_eq]
    constructor <;> intro he <;> rw [he] at hl <;> simp at hl
  · intro he
    rw [he] at hl
    simp at hl

theorem temporaryPath_eq {a : Archive} (ha : a.Plain) {x t : Text} (hx : Disk.IsName x)
    (ht : Disk.IsName (a.fileName t)) : a.temporaryPath x t = [x, a.temporaryName t] := by
  have hs := (temporaryName_chars ha (chars_of_fileName ht)).1
  have hp : Text.pieces '/' (a.temporaryName t) = [a.temporaryName t] := List.splitOn_eq_singleton hs
  rw [temporaryPath, a.tablePath_eq hx ht, parent_two]
  exact congrArg ([x] ++ ·) hp

/-! ## Calls -/

section Calls

variable {α : Type} {a : Archive} {c : Disk.Call α}

theorem onDisk_ok {r : α} {d : Disk} (h : c.run a.disk = (.ok r, d)) :
    (onDisk c).run a = (.ok r, { a with disk := d }) := by
  simp only [onDisk, Action.run_within, Action.run_mapFailure, h]
  rfl

theorem onDisk_error {e : SystemFault} (h : c.run a.disk = (.error e, a.disk)) :
    (onDisk c).run a = (.error (.system e), a) := by
  simp only [onDisk, Action.run_within, Action.run_mapFailure, h]
  rfl

theorem stored_ok {fault : SystemFault → StorageFault} {r : α} {d : Disk}
    (h : c.run a.disk = (.ok r, d)) : (stored fault c).run a = (.ok r, { a with disk := d }) := by
  simp only [stored, Action.run_within, Action.run_mapFailure, h]
  rfl

theorem stored_error {fault : SystemFault → StorageFault} {e : Errno} {p : Text} {q : Option Text}
    (h : c.run a.disk = (.error (.refused e p q), a.disk)) :
    (stored fault c).run a = (.error (.rejected (.storage (fault (.refused e p q)))), a) := by
  simp only [stored, Action.run_within, Action.run_mapFailure, h]
  rfl

end Calls

section Databases

variable {a : Archive} {x : Text}

/-- Is the directory of a database there? -/
def isKept (a : Archive) (x : Text) : Bool := a.disk.entries.get? [x] == some .directory

/-- A name that is too long for the disk. -/
def tooLong (a : Archive) (x : Text) : Failure :=
  .system (.refused .nameTooLong (Path.text a.disk.root [x]) none)

theorem tooLong_congr {a' : Archive} (h : a'.disk.root = a.disk.root) (x : Text) :
    a'.tooLong x = a.tooLong x := by rw [tooLong, tooLong, h]

theorem hasDatabase_run (hd : a.disk.Calm) (hx : Disk.IsName x) (hfit : Disk.fits x) :
    (hasDatabase x).run a = (.ok (a.isKept x), a) := by
  rw [hasDatabase, databasePath_eq hx]
  exact onDisk_ok (hd.reaches_one hx hfit).isDirectory_run

theorem hasDatabase_error (hd : a.disk.Calm) (hx : Disk.IsName x) (hfit : Disk.fits x = false) :
    (hasDatabase x).run a = (.error (a.tooLong x), a) := by
  rw [hasDatabase, databasePath_eq hx]
  apply onDisk_error
  have hp : Path.hasNull [x] = false := Disk.hasNull_eq_false (by simpa using hx)
  have hs : (Disk.status [x]).run a.disk =
      (.error (.refused .nameTooLong (Path.text a.disk.root [x]) none), a.disk) := by
    apply Disk.call_run_error hd.unrefused hp
    simp only [Disk.find, Disk.placeOf_one hd.root hx, hfit, Bool.false_eq_true, if_false, bind,
      Except.bind, Except.map]
  rw [Disk.isDirectory, Disk.entry?, Action.run_bind, Action.run_orElse, Action.run_map, hs]
  rfl

theorem createDatabase_run (hd : a.disk.Calm) (hx : Disk.IsName x) (hfit : Disk.fits x)
    (hn : a.disk.entries.get? [x] = none) :
    (createDatabase x).run a = (.ok (), { a with disk := a.disk.put [x] .directory }) := by
  have hr := hd.reaches_one hx hfit
  have ht : (onDisk (Disk.isThere [x])).run a = (.ok false, a) := by
    rw [onDisk_ok hr.isThere_run, hn]
    rfl
  rw [createDatabase, databasePath_eq hx, Action.run_bind_ok ht]
  exact stored_ok (hr.makeDirectories_run hn)

theorem createDatabase_error (hd : a.disk.Calm) (hx : Disk.IsName x) (hfit : Disk.fits x)
    (hn : a.disk.entries.get? [x] ≠ none) :
    (createDatabase x).run a = (.error (.rejected (.duplicateDatabase x)), a) := by
  have ht : (onDisk (Disk.isThere [x])).run a = (.ok true, a) := by
    rw [onDisk_ok (hd.reaches_one hx hfit).isThere_run, Option.isSome_iff_ne_none.2 hn]
  rw [createDatabase, databasePath_eq hx, Action.run_bind_ok ht]
  rfl

theorem dropDatabase_run (hd : a.disk.Calm) (hx : Disk.IsName x) (hfit : Disk.fits x)
    (hk : a.isKept x) :
    (dropDatabase x).run a = (.ok (), { a with disk := a.disk.cut [x] }) := by
  have hh := hasDatabase_run hd hx hfit
  rw [hk] at hh
  rw [dropDatabase, Action.run_bind_ok hh, databasePath_eq hx]
  exact stored_ok (hd.removeTree_run hx hfit (beq_iff_eq.1 hk))

end Databases

end Archive

end Tabular
