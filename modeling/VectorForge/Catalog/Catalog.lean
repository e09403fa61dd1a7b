import VectorForge.Collection.ConfigFile
import VectorForge.Collection.CrashSafety

/-! Named collections under a data directory. -/

namespace VectorForge
open Files Effect AtomicFile Snapshot

/-- A supported kind of file system: what it compares instead of the bytes of a name, which leaves the dot apart
from everything else, and whether a directory can be renamed over an empty one. -/
structure FileSystem where
  letter : Byte → Byte
  keepsDot : ∀ b, letter b = 0x2E ↔ b = 0x2E
  replaces : Bool

namespace FileSystem

def platform (F : FileSystem) : Platform FileName := ⟨List.map F.letter, F.replaces⟩

/-- Names are compared byte by byte. -/
def posix : FileSystem := ⟨id, fun _ => .rfl, true⟩

def lowercase (b : Byte) : Byte := if 0x41 ≤ b.toNat ∧ b.toNat ≤ 0x5A then b + 0x20 else b

theorem lowercase_keepsDot (b : Byte) : lowercase b = 0x2E ↔ b = 0x2E := by
  rw [lowercase]
  split
  next upper =>
    constructor <;> intro same
    · have values := congrArg UInt8.toNat same
      rw [UInt8.toNat_add] at values
      simp only [UInt8.reduceToNat] at values
      omega
    · rw [same] at upper
      exact absurd upper (by decide)
  next => exact .rfl

/-- The case of ASCII letters does not matter. -/
def windows : FileSystem := ⟨lowercase, lowercase_keepsDot, false⟩

end FileSystem

/-- A collection in the catalog and the references to it that have been handed out. -/
structure Slot where
  collection : CollectionState
  users : Nat := 0
  generation : UInt64 := 0

/-- A dropped collection that is still in use. -/
structure Retired where
  name : FileName
  users : Nat

structure Catalog where
  slots : AList fun _ : FileName => Slot := ∅
  dropping : List FileName := []
  retired : List Retired := []

/-- The catalog of a process with the disk below it. -/
structure Host where
  disk : Disk FileName (List Byte) := ∅
  catalog : Catalog := {}

abbrev CatalogOp (α : Type) := Effect Host (Interruption Status) α

namespace Catalog

def kConfigName : FileName := ascii "config.json"
def kDroppedMarker : FileName := ascii "DROPPED"

def validLetter (c : Byte) : Bool :=
  let c := c.toNat
  (0x61 ≤ c ∧ c ≤ 0x7A) ∨ (0x41 ≤ c ∧ c ≤ 0x5A) ∨ (0x30 ≤ c ∧ c ≤ 0x39) ∨ c = 0x5F ∨ c = 0x2D

def isValidName (name : FileName) : Bool := name ≠ [] ∧ name.length ≤ 64 ∧ name.all validLetter

/-- `.<name>.creating`. -/
def creatingName (name : FileName) : FileName := ascii "." ++ name ++ ascii ".creating"

variable (F : FileSystem) (env : Environment FileName (List Byte))

def onDisk {α : Type} (p : DirectoryOp α) : CatalogOp α := fun h =>
  match p h.disk with
  | (result, disk) => (result, { h with disk })

def refuse {α : Type} (st : Status) : CatalogOp α := leave (.reports st)

def accept {α : Type} : Result α → CatalogOp α
  | .ok a => pure a
  | .error st => refuse st

def setCatalog (change : Catalog → Catalog) : CatalogOp Unit :=
  modify fun h => { h with catalog := change h.catalog }

/-- What the deleter of a dropped collection does, when the last reference is gone. -/
def deleteFiles (name : FileName) : CatalogOp Unit := do
  onDisk (ignore (removeAll F.platform env (Status.ioError "") name))
  setCatalog fun c => { c with dropping := c.dropping.erase name }

/-- `read_small_file` of the configuration. -/
def readConfig (d : Disk FileName (List Byte)) (name : FileName) : Result (List Byte) :=
  match file F.platform d name kConfigName with
  | none => .error (.ioError ("cannot open " ++ pathText name kConfigName))
  | some text =>
    if text.length > ConfigFile.kMaxConfigBytes then
      .error (.corruptData (pathText name kConfigName ++ ": larger than " ++
        toString ConfigFile.kMaxConfigBytes ++ " bytes"))
    else .ok text

/-- The collection in a directory: from its snapshot or, if there has been none, from its configuration. -/
def restore (options : IndexReader.ReadOptions) (now : UInt64) (d : Disk FileName (List Byte)) (name : FileName) :
    Checked (CollectionState × UInt64) :=
  match Snapshot.readManifest F.platform d name with
  | .ok m => do
    let s ← loadSnapshot F.platform d name options
    return (s, m.generation)
  | .error st =>
    if st.code = .notFound then do
      let text ← Outcome.lift (readConfig F d name)
      let config ← Outcome.lift (ConfigFile.decodeConfig text)
      let s ← Outcome.lift (Collection.create (.ok ()) now { config with concurrency := options.concurrency })
      return (s, 0)
    else Outcome.fail st

/-- One entry of the directory of collections. -/
def openEntry (options : IndexReader.ReadOptions) (now : UInt64) (name : FileName) : CatalogOp Unit := do
  let h ← Effect.get
  if isValidName name = false ∨ (file F.platform h.disk name kDroppedMarker).isSome then
    if name.head? = some 0x2E ∨ isValidName name then
      onDisk (ignore (removeAll F.platform env (Status.ioError "") name))
    else pure ()
  else
    match restore F options now h.disk name with
    | .error (.error st) => refuse ⟨st.code, "collection '" ++ shown name ++ "': " ++ st.message⟩
    | .error (.fault _) => leave .stops
    | .ok (collection, generation) => do
      (match Snapshot.readManifest F.platform h.disk name with
        | .ok _ => do
          let _ ← attempt Interruption.caught (onDisk (collectGarbage F.platform env name))
        | .error _ => pure ())
      setCatalog fun c => { c with slots := c.slots.insert name { collection, generation } }

def openEntries (options : IndexReader.ReadOptions) (now : UInt64) : List FileName → CatalogOp Unit
  | [] => pure ()
  | name :: rest => do
    openEntry F env options now name
    openEntries options now rest

/-- The names of the directories, as they were given. -/
def directoryNames (d : Disk FileName (List Byte)) : List FileName := d.entries.map (·.2.name)

/-- `Catalog::open`, which starts without a catalog. -/
def openCatalog (options : IndexReader.ReadOptions) (now : UInt64) : CatalogOp Unit := do
  setCatalog fun _ => {}
  let h ← Effect.get
  openEntries F env options now (env.order [] (directoryNames h.disk))

/-- The files of a new collection, written under a temporary name and renamed. -/
def createFiles (name : FileName) (config : CollectionConfig) : DirectoryOp Unit := do
  ignore (removeAll F.platform env (Status.ioError "") (creatingName name))
  ignore (removeAll F.platform env (Status.ioError "") name)
  makeDirectory F.platform env (.ioError ("cannot create " ++ shown (creatingName name))) (creatingName name)
  writeAtomic F.platform env (creatingName name) kConfigName (.ok (ConfigFile.encodeConfig config))
  renameDirectory F.platform env (.ioError ("cannot rename " ++ shown (creatingName name) ++ " to " ++ shown name))
    (creatingName name) name
  step env (.syncParent name) (.ioError "fsync failed for directory collections") some

/-- `Catalog::create`, which hands out a reference. -/
def create (now : UInt64) (name : FileName) (config : CollectionConfig) : CatalogOp Unit := do
  if isValidName name = false then refuse (.invalidArgument "collection name must match [A-Za-z0-9_-]{1,64}")
  else do
    accept config.validate
    let h ← Effect.get
    if name ∈ h.catalog.slots then refuse (.alreadyExists ("collection '" ++ shown name ++ "' already exists"))
    else if name ∈ h.catalog.dropping then
      refuse (.unavailable ("collection '" ++ shown name ++ "' was dropped and is still in use; retry later"))
    else do
      let collection ← accept (Collection.create (.ok ()) now config)
      onDisk (createFiles F env name config)
      setCatalog fun c => { c with slots := c.slots.insert name { collection, users := 1 } }

/-- `Catalog::get`, which hands out a reference. -/
def get (name : FileName) : CatalogOp CollectionState := do
  let h ← Effect.get
  match h.catalog.slots.lookup name with
  | none => refuse (.notFound ("collection '" ++ shown name ++ "' not found"))
  | some slot => do
    setCatalog fun c => { c with slots := c.slots.insert name { slot with users := slot.users + 1 } }
    return slot.collection

/-- The catalog without a collection, which is kept aside while it is in use. -/
def withoutSlot (c : Catalog) (name : FileName) (slot : Slot) : Catalog where
  slots := c.slots.erase name
  dropping := c.dropping.insert name
  retired := if slot.users = 0 then c.retired else { name, users := slot.users } :: c.retired

/-- `Catalog::drop`. The reference of the catalog is the last one if none has been handed out. -/
def drop (name : FileName) : CatalogOp Unit := do
  let h ← Effect.get
  match h.catalog.slots.lookup name with
  | none => refuse (.notFound ("collection '" ++ shown name ++ "' not found"))
  | some slot => do
    onDisk (writeAtomic F.platform env name kDroppedMarker (.ok (ascii "dropped\n")))
    setCatalog fun c => withoutSlot c name slot
    if slot.users = 0 then deleteFiles F env name else pure ()

/-- A reference to a collection in the catalog is released. -/
def release (name : FileName) : CatalogOp Unit :=
  setCatalog fun c =>
    match c.slots.lookup name with
    | none => c
    | some slot => { c with slots := c.slots.insert name { slot with users := slot.users - 1 } }

/-- A reference to a dropped collection is released. -/
def releaseRetired (i : Nat) : CatalogOp Unit := do
  let h ← Effect.get
  match h.catalog.retired[i]? with
  | none => pure ()
  | some r =>
    if r.users ≤ 1 then do
      setCatalog fun c => { c with retired := c.retired.eraseIdx i }
      deleteFiles F env r.name
    else setCatalog fun c => { c with retired := c.retired.set i { r with users := r.users - 1 } }

/-- `SnapshotInfo`. -/
structure SnapshotInfo where
  generation : UInt64
  bytes : Nat

/-- `Catalog::snapshot`. -/
def snapshot (name : FileName) : CatalogOp SnapshotInfo := do
  let h ← Effect.get
  match h.catalog.slots.lookup name with
  | none => refuse (.notFound ("collection '" ++ shown name ++ "' not found"))
  | some slot => do
    let generation ← onDisk (saveSnapshot F.platform env slot.collection name)
    let h ← Effect.get
    let bytes := ((file F.platform h.disk name (Manifest.indexFileName generation)).map List.length).getD 0
    setCatalog fun c => { c with slots := c.slots.insert name { slot with generation } }
    return { generation, bytes }

/-- What the holders of references make of a collection. -/
def update (name : FileName) (collection : CollectionState) : CatalogOp Unit :=
  setCatalog fun c =>
    match c.slots.lookup name with
    | none => c
    | some slot => { c with slots := c.slots.insert name { slot with collection } }

end Catalog
end VectorForge
