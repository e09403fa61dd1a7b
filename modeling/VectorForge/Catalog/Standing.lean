import VectorForge.Catalog.Creation

/-! What opening a data directory makes of each name. -/

namespace VectorForge.Catalog
open Files Effect AtomicFile Snapshot

/-- The collection that opening would restore under a name, or the error that it would fail with. -/
def standing (F : FileSystem) (options : IndexReader.ReadOptions) (now : UInt64)
    (d : Disk FileName (List Byte)) (name : FileName) : Option (Checked (CollectionState × UInt64)) :=
  if (directory F.platform d name).map (·.name) = some name ∧ isValidName name = true ∧
    file F.platform d name kDroppedMarker = none then
    some (restore F options now d name)
  else none

/-- The slot that is made of it. -/
def slotOf : Option (Checked (CollectionState × UInt64)) → Option Slot
  | some (.ok (collection, generation)) => some { collection, generation }
  | _ => none

/-- Opening makes the same of two disks. -/
def SameStanding (F : FileSystem) (d d' : Disk FileName (List Byte)) : Prop :=
  ∀ options now name, standing F options now d' name = standing F options now d name

/-- The files that a collection is restored from. -/
def Restoring (f : FileName) : Prop := f = kManifestName ∨ f = kConfigName ∨ IndexName f

section Standing
variable {F : FileSystem} {options : IndexReader.ReadOptions} {now : UInt64}
  {d d' : Disk FileName (List Byte)} {name n : FileName}

theorem load_congr {f : FileName} (same : file F.platform d' name f = file F.platform d name f) :
    load F.platform d' name f options = load F.platform d name f options := by
  rw [load, load, same]

theorem loadSnapshot_congr (same : ∀ f, Restoring f → file F.platform d' name f = file F.platform d name f) :
    loadSnapshot F.platform d' name options = loadSnapshot F.platform d name options := by
  rw [loadSnapshot, loadSnapshot, readManifest_congr (same _ (.inl rfl))]
  cases known : Snapshot.readManifest F.platform d name with
  | error st => rfl
  | ok m =>
    have index := same m.file (.inr (.inr (indexName_of_read known)))
    simp only [Outcome.lift_ok, Outcome.ok_bind]
    rw [readHeaderCrc_congr index, load_congr index]

/-- A collection is restored from some of the files only. -/
theorem restore_congr (same : ∀ f, Restoring f → file F.platform d' name f = file F.platform d name f) :
    restore F options now d' name = restore F options now d name := by
  have config : readConfig F d' name = readConfig F d name := by
    rw [readConfig, readConfig, same _ (.inr (.inl rfl))]
  rw [restore, restore, readManifest_congr (same _ (.inl rfl)), loadSnapshot_congr same, config]

theorem standing_congr (there : (directory F.platform d' name).map (·.name) =
    (directory F.platform d name).map (·.name))
    (marker : file F.platform d' name kDroppedMarker = file F.platform d name kDroppedMarker)
    (same : ∀ f, Restoring f → file F.platform d' name f = file F.platform d name f) :
    standing F options now d' name = standing F options now d name := by
  rw [standing, standing, there, marker, restore_congr same]

theorem standing_of_directory (same : directory F.platform d' name = directory F.platform d name) :
    standing F options now d' name = standing F options now d name := by
  have files : ∀ f, file F.platform d' name f = file F.platform d name f := fun f => by rw [file, same, ← file]
  exact standing_congr (by rw [same]) (files _) fun f _ => files f

theorem standing_of_none (missing : directory F.platform d name = none) : standing F options now d name = none := by
  rw [standing, missing]
  exact if_neg fun all => by cases all.1

theorem standing_of_marked (marked : (file F.platform d name kDroppedMarker).isSome) :
    standing F options now d name = none := by
  rw [standing]
  refine if_neg fun all => ?_
  rw [all.2.2] at marked
  cases marked

theorem standing_of_invalid (invalid : isValidName name = false) : standing F options now d name = none := by
  rw [standing]
  refine if_neg fun all => ?_
  rw [all.2.1] at invalid
  cases invalid

/-- What happens to one collection does not matter to the others. -/
theorem Elsewhere.standing (elsewhere : Elsewhere F name d d') (apart : F.platform.fold n ≠ F.platform.fold name) :
    Catalog.standing F options now d' n = Catalog.standing F options now d n := by
  cases valid : isValidName n with
  | false => rw [standing_of_invalid valid, standing_of_invalid valid]
  | true => exact standing_of_directory (elsewhere _ apart (creating_apart F name valid).symm)

end Standing
end VectorForge.Catalog
