import Tabular.Proofs.Catalog.Abreast

/-!
# Statements about other databases

A statement that names another database, or is for a session that has another one selected, leaves a
database as it is, in memory and on the disk, whether the statement succeeds or fails.
-/

namespace Tabular.Catalog

variable {c : Catalog} {x y : Text} {s : Statement} {selected : Option Text} {disk : Disk}
  {r : OrderedMap Text Database}

/-- The disk and the resident databases are those of the catalog as far as the database goes. -/
structure Spares (c : Catalog) (x : Text) (disk : Disk) (r : OrderedMap Text Database) : Prop where
  root : disk.root = c.archive.disk.root
  tree : Disk.AgreeIn x c.archive.disk.entries disk.entries
  resident : r.get? x = c.resident.get? x

theorem spares_self (c : Catalog) (x : Text) : c.Spares x c.archive.disk c.resident :=
  ⟨rfl, fun _ _ => rfl, rfl⟩

section Spares

variable (hy : y ≠ x)

include hy

/-- Something is put into the directory of another database, which may change in memory as well. -/
theorem spares_put (q : Path) (e : Entry) (h : r.get? x = c.resident.get? x) :
    c.Spares x (c.archive.disk.put (y :: q) e) r where
  root := rfl
  tree := Disk.agreeIn_of_elsewhere hy fun _ hp =>
    OrderedMap.get?_put_other _ _ fun hqp => hp ⟨q, hqp⟩
  resident := h

theorem spares_erase (q : Path) (h : r.get? x = c.resident.get? x) :
    c.Spares x (c.archive.disk.erase (y :: q)) r where
  root := rfl
  tree := Disk.agreeIn_of_elsewhere hy fun _ hp =>
    OrderedMap.get?_erase_other _ fun hqp => hp ⟨q, hqp⟩
  resident := h

theorem spares_cut (h : r.get? x = c.resident.get? x) : c.Spares x (c.archive.disk.cut [y]) r where
  root := rfl
  tree := Disk.agreeIn_of_elsewhere hy fun p hp => by rw [Disk.get?_cut, if_neg hp]
  resident := h

theorem spares_emptied : c.Spares x (c.archive.disk.emptied [y]) c.resident where
  root := rfl
  tree := Disk.agreeIn_of_elsewhere hy fun p hp => by
    rw [Disk.get?_emptied, if_neg fun h => hp h.1]
  resident := rfl

/-- A change of a table of another database. -/
theorem spares_carried {edit : Edit} {d : Database} (h : c.Carried y edit disk) :
    c.Spares x disk (edit.made y d c.resident) := by
  have hput : ∀ t, (c.resident.put y (d.replace t)).get? x = c.resident.get? x := fun t =>
    OrderedMap.get?_put_other _ _ hy
  cases h with
  | none => exact c.spares_self x
  | whole => exact spares_put hy _ _ (hput _)
  | row => exact spares_put hy _ _ (hput _)
  | line => exact spares_put hy _ _ (hput _)

theorem spares_left {edit : Edit} {f : Failure} {d : Database} (h : c.Left y edit f disk) :
    c.Spares x disk (c.resident.put y d) := by
  have hput : (c.resident.put y d).get? x = c.resident.get? x := OrderedMap.get?_put_other _ _ hy
  cases h with
  | unwritten => exact { c.spares_self x with resident := hput }
  | draft => exact spares_put hy _ _ hput
  | line => exact spares_put hy _ _ hput
  | missing => exact { c.spares_self x with resident := hput }

end Spares

/-- Success with another database spares the database. -/
theorem Succeeds.spares {result : Result} (h : c.Succeeds selected s result disk r)
    (hs : ∀ y ∈ s.database?, y ≠ x) (hsel : ∀ y ∈ selected, y ≠ x) : c.Spares x disk r := by
  cases h with
  | @use y d found => exact ⟨rfl, fun _ _ => rfl, get?_heldAfter_other (hs y rfl)⟩
  | @createDatabase y =>
    exact spares_put (hs y rfl) [] _ (OrderedMap.get?_put_other _ _ (hs y rfl))
  | @dropDatabase y => exact spares_cut (hs y rfl) (OrderedMap.get?_erase_other _ (hs y rfl))
  | @createTable y t columns d new chosen =>
    exact spares_put (hsel y chosen) _ _ (OrderedMap.get?_put_other _ _ (hsel y chosen))
  | @dropTable y t d old chosen =>
    exact spares_erase (hsel y chosen) _ (OrderedMap.get?_put_other _ _ (hsel y chosen))
  | edit _ chosen _ _ _ written => exact spares_carried (hsel _ chosen) written
  | join => exact c.spares_self x

/-- So does failure. -/
theorem Fails.spares {f : Failure} (h : c.Fails selected s f disk r)
    (hs : ∀ y ∈ s.database?, y ≠ x) (hsel : ∀ y ∈ selected, y ≠ x) : c.Spares x disk r := by
  cases h with
  | unchanged => exact c.spares_self x
  | unworked => exact c.spares_self x
  | @emptied y => exact spares_emptied (hs y rfl)
  | draft chosen => exact spares_put (hsel _ chosen) _ _ rfl
  | edit _ chosen _ _ _ _ left => exact spares_left (hsel _ chosen) left

end Tabular.Catalog
