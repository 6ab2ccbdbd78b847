import Tabular.Action
import Tabular.Failure
import Tabular.OrderedMap
import Tabular.Path

/-!
# Disks

A disk is a tree of directories and files under a root. Each call to it either does all of what it
is for or is refused and changes nothing. A call is refused for what stands at its paths, or
because the next of the disk's own refusals says so: those are faults that nothing in the tree
explains.
-/

namespace Tabular

inductive Entry where
  | directory
  | file (content : Bytes)
  deriving DecidableEq, Repr

/-- What stands at each place, the root among them; `root` is how the root is written in messages. -/
structure Disk where
  root : Text
  entries : OrderedMap Path Entry
  refusals : List (Option Errno)
  deriving DecidableEq

namespace Disk

/-- A disk with an empty root and nothing wrong with it. -/
def empty (root : Text) : Disk := ⟨root, OrderedMap.empty.put [] .directory, []⟩

/-- The most bytes in a name. -/
def nameLimit : Nat := 255

def fits (name : Text) : Bool := (Utf8.encode name).length ≤ nameLimit

/-- What stands at a place. The top of the file system is a directory on every disk. -/
def entryAt (entries : OrderedMap Path Entry) (place : Path) : Option Entry :=
  if place = Path.top then some .directory else entries.get? place

/-- Follow names from a place. All that is passed on the way has to be a directory; at the place
where the names end, there may be nothing. -/
def follow (entries : OrderedMap Path Entry) (here : Path) : Path → Except Errno Path
  | [] => .ok here
  | name :: rest =>
    match entryAt entries here with
    | none => .error .notFound
    | some (.file _) => .error .notDirectory
    | some .directory =>
      if fits name then follow entries (here.step name) rest else .error .nameTooLong

/-- The place that a path leads to. -/
def placeOf (entries : OrderedMap Path Entry) : Path → Except Errno Path
  | ('/' :: _) :: names => follow entries Path.top names
  | p => follow entries [] p

/-- The place of a path at which something has to stand, and what stands there. -/
def find (entries : OrderedMap Path Entry) (p : Path) : Except Errno (Path × Entry) := do
  let place ← placeOf entries p
  match entryAt entries place with
  | some e => return (place, e)
  | none => .error .notFound

/-- The place of a path at which nothing may stand. -/
def vacancy (entries : OrderedMap Path Entry) (p : Path) : Except Errno Path := do
  let place ← placeOf entries p
  match entryAt entries place with
  | some _ => .error .alreadyExists
  | none => return place

abbrev Call (α : Type) := Action Disk SystemFault α

/-- A call that names one or two paths. -/
def call {α : Type} (p : Path) (target : Option Path)
    (body : OrderedMap Path Entry → Except Errno (α × OrderedMap Path Entry)) : Call α := fun d =>
  if p.hasNull || (target.getD []).hasNull then (.error .nullCharacter, d)
  else
    let fault e : SystemFault := .refused e (p.text d.root) (target.map (Path.text d.root))
    let later := { d with refusals := d.refusals.tail }
    match d.refusals.head?.join with
    | some e => (.error (fault e), later)
    | none =>
      match body d.entries with
      | .ok (a, entries) => (.ok a, { later with entries := entries })
      | .error e => (.error (fault e), later)

/-- What stands at a path at which something has to stand. -/
def status (p : Path) : Call Entry :=
  call p none fun entries => (find entries p).map fun found => (found.2, entries)

/-- What stands at a path; where the way there ends early, or there can be none, nothing does. -/
def entry? (p : Path) : Call (Option Entry) :=
  Action.orElse (some <$> status p) fun fault =>
    match fault with
    | .refused .notFound _ _ | .refused .notDirectory _ _ | .nullCharacter => pure none
    | fault => Action.fail fault

def isThere (p : Path) : Call Bool := do return (← entry? p).isSome

def isDirectory (p : Path) : Call Bool := do
  match ← entry? p with
  | some .directory => return true
  | _ => return false

def isFile (p : Path) : Call Bool := do
  match ← entry? p with
  | some (.file _) => return true
  | _ => return false

/-- Make a new directory. -/
def makeDirectory (p : Path) : Call Unit :=
  call p none fun entries => do
    let place ← vacancy entries p
    return ((), entries.put place .directory)

/-- Make sure that a directory is there, now that the one above it is. -/
def ensureOne (p : Path) : Call Unit :=
  Action.orElse (makeDirectory p) fun fault =>
    match fault with
    | .refused .notFound _ _ => Action.fail fault
    | fault => do if ← isDirectory p then pure () else Action.fail fault

/-- Make sure that a directory is there, and those above it. -/
def ensureDirectory (p : Path) : Call Unit :=
  Action.orElse (makeDirectory p) fun fault =>
    match fault with
    | .refused .notFound _ _ =>
      if p.parent.length < p.length then do
        ensureDirectory p.parent
        ensureOne p
      else Action.fail fault
    | fault => do if ← isDirectory p then pure () else Action.fail fault
termination_by p.length

/-- Make a new directory, and those above it that are missing. -/
def makeDirectories (p : Path) : Call Unit :=
  Action.orElse (makeDirectory p) fun fault =>
    match fault with
    | .refused .notFound _ _ =>
      if p.parent.length < p.length then do
        ensureDirectory p.parent
        makeDirectory p
      else Action.fail fault
    | fault => Action.fail fault

/-- The places below a place. -/
def below (entries : OrderedMap Path Entry) (place : Path) : List Path :=
  entries.keys.filter fun q => place.isPrefixOf q && q ≠ place

/-- Remove all that is in a directory. -/
def clear (p : Path) : Call Unit :=
  call p none fun entries => do
    match ← find entries p with
    | (place, .directory) => return ((), (below entries place).foldl (·.erase ·) entries)
    | (_, .file _) => .error .notDirectory

/-- Remove an empty directory. -/
def removeDirectory (p : Path) : Call Unit :=
  call p none fun entries => do
    match ← find entries p with
    | (place, .directory) => return ((), entries.erase place)
    | (_, .file _) => .error .notDirectory

/-- Remove a directory with all that is in it. -/
def removeTree (p : Path) : Call Unit := do
  clear p
  removeDirectory p

/-- The names in a directory and what they stand for. -/
def members (entries : OrderedMap Path Entry) (place : Path) : List (Text × Entry) :=
  entries.entries.filterMap fun (q, e) =>
    match q.getLast? with
    | some name => if q.dropLast = place then some (name, e) else none
    | none => none

/-- List a directory. -/
def list (p : Path) : Call (List (Text × Entry)) :=
  call p none fun entries => do
    match ← find entries p with
    | (place, .directory) => return (members entries place, entries)
    | (_, .file _) => .error .notDirectory

/-- Make a new empty file. -/
def createFile (p : Path) : Call Unit :=
  call p none fun entries => do
    let place ← vacancy entries p
    return ((), entries.put place (.file []))

/-- Add bytes to the end of a file, which is made if it is missing. -/
def append (p : Path) (content : Bytes) : Call Unit :=
  call p none fun entries => do
    let place ← placeOf entries p
    match entryAt entries place with
    | none => return ((), entries.put place (.file content))
    | some (.file before) => return ((), entries.put place (.file (before ++ content)))
    | some .directory => .error .isDirectory

/-- Wait until a file is safe. -/
def sync (p : Path) : Call Unit := call p none fun entries => .ok ((), entries)

/-- Move a file to another place, over the file that may be there. -/
def rename (p q : Path) : Call Unit :=
  call p (some q) fun entries => do
    let (source, e) ← find entries p
    let target ← placeOf entries q
    match e, entryAt entries target with
    | .file _, some .directory => .error .isDirectory
    | .directory, some (.file _) => .error .notDirectory
    | e, _ => return ((), (entries.erase source).put target e)

/-- Remove a file. -/
def unlink (p : Path) : Call Unit :=
  call p none fun entries => do
    match ← find entries p with
    | (place, .file _) => return ((), entries.erase place)
    | (_, .directory) => .error .isDirectory

/-- Remove a file if it is there. -/
def unlinkIfThere (p : Path) : Call Unit :=
  Action.orElse (unlink p) fun fault =>
    match fault with
    | .refused .notFound _ _ => pure ()
    | fault => Action.fail fault

/-- All bytes of a file. -/
def read (p : Path) : Call Bytes :=
  call p none fun entries => do
    match ← find entries p with
    | (_, .file content) => return (content, entries)
    | (_, .directory) => .error .isDirectory

/-! Changes from outside, which nothing refuses and which name places. -/

/-- The place and the directories on the way to it, the shortest first. -/
def ancestry : (here rest : Path) → List Path
  | here, [] => [here]
  | here, name :: rest => here :: ancestry (here ++ [name]) rest

/-- Make a place a directory, and the places above it. -/
def withDirectory (d : Disk) (place : Path) : Disk :=
  { d with
    entries := (ancestry [] place).foldl (fun entries q => entries.put q .directory) d.entries }

/-- The disk with its root, which is made if it is missing. -/
def withRoot (d : Disk) : Disk :=
  if d.entries.has [] then d else { d with entries := d.entries.put [] .directory }

/-- Put a file at a place, in a directory that is made if it is missing. -/
def withFile (d : Disk) (place : Path) (content : Bytes) : Disk :=
  let above := d.withDirectory place.dropLast
  { above with entries := above.entries.put place (.file content) }

/-- Take away what stands at a place and below it. -/
def without (d : Disk) (place : Path) : Disk :=
  { d with entries := (below d.entries place).foldl (·.erase ·) (d.entries.erase place) }

@[simp] theorem entryAt_top (entries : OrderedMap Path Entry) :
    entryAt entries Path.top = some .directory := rfl

@[simp] theorem follow_nil (entries : OrderedMap Path Entry) (here : Path) :
    follow entries here [] = .ok here := rfl

/-- A call that is refused leaves every entry as it was. -/
theorem call_error_entries {α : Type} {p : Path} {target : Option Path}
    {body : OrderedMap Path Entry → Except Errno (α × OrderedMap Path Entry)} {d : Disk}
    {e : SystemFault} {d' : Disk} (h : (call p target body).run d = (.error e, d')) :
    d'.entries = d.entries := by
  simp only [call, Action.run] at h
  split at h
  · cases h; rfl
  · split at h
    · cases h; rfl
    · split at h
      · cases h
      · cases h; rfl

end Disk

end Tabular
