import VectorForge.Collection.Manifest
import VectorForge.Collection.Persistence
import VectorForge.Storage.AtomicFile

/-! Snapshot generations in a directory. -/

namespace VectorForge.Snapshot
open Files Effect AtomicFile Manifest

def kManifestName : FileName := ascii "MANIFEST"

variable (P : Platform FileName) (env : Environment FileName (List Byte))

/-- `read_manifest`. -/
def readManifest (d : Disk FileName (List Byte)) (dir : FileName) : Result Manifest :=
  match file P d dir kManifestName with
  | none => .error (.notFound ("no MANIFEST in " ++ shown dir))
  | some content => Manifest.readManifest content

def readHeaderCrc (d : Disk FileName (List Byte)) (dir name : FileName) : Result UInt32 :=
  match file P d dir name with
  | none => .error (.ioError ("cannot read header of " ++ pathText dir name))
  | some content =>
    if content.length < Format.kHeaderSize then .error (.ioError ("cannot read header of " ++ pathText dir name))
    else .ok (UInt32.ofNat (leValue ((content.drop 56).take 4)))

/-- What `Collection::save` hands to `write_atomic`. -/
def image (s : CollectionState) : Checked (List Byte) :=
  match IndexWriter.writeIndex s ({} : MemorySink) with
  | .ok sink => .ok sink.bytes
  | .error stop => .error stop

/-- The files that `collect_garbage` removes when `MANIFEST` names `current`. -/
def doomed (current name : FileName) : Bool :=
  let temp := decide (ascii ".tmp" <:+ name)
  let base := if temp then name.take (name.length - 4) else name
  let index := (parseIndexName base).isSome
  let manifestTemp := temp && base = kManifestName
  (index && (temp || base ≠ current)) || manifestTemp

structure GarbageReport where
  removed : Nat := 0
  failed : Nat := 0

/-- The loop over the entries of the directory. -/
def sweep (dir current : FileName) : List FileName → GarbageReport → DirectoryOp GarbageReport
  | [], count => pure count
  | name :: rest, count =>
    if doomed current name then do
      match ← attempt Interruption.caught (removeFile P env (.ioError "") dir name) with
      | .ok () => sweep dir current rest { count with removed := count.removed + 1 }
      | .error _ => sweep dir current rest { count with failed := count.failed + 1 }
    else sweep dir current rest count

def collectGarbage (dir : FileName) : DirectoryOp GarbageReport := do
  let d ← Effect.get
  match readManifest P d dir, directory P d dir with
  | .error st, _ => report st
  | .ok _, none => report (.ioError ("cannot list " ++ shown dir))
  | .ok m, some D => sweep P env dir m.file (env.order dir D.files.keys) {}

/-- The generation that the next snapshot gets. -/
def nextGeneration (current : Result Manifest) : Result UInt64 :=
  match current with
  | .ok m => .ok (m.generation + 1)
  | .error st => if st.code = .notFound then .ok 1 else .error st

def lift {α : Type} : Result α → DirectoryOp α
  | .ok a => pure a
  | .error st => report st

def saveSnapshot (s : CollectionState) (dir : FileName) : DirectoryOp UInt64 := do
  makeDirectory P env (.ioError ("cannot create " ++ shown dir)) dir
  let generation ← lift (nextGeneration (readManifest P (← Effect.get) dir))
  writeAtomic P env dir (indexFileName generation) (image s)
  let crc ← lift (readHeaderCrc P (← Effect.get) dir (indexFileName generation))
  writeAtomic P env dir kManifestName
    (.ok (encodeManifest { generation, file := indexFileName generation, crc32c := crc }))
  let _ ← attempt Interruption.caught (collectGarbage P env dir)
  return generation

/-- `Collection::load`, which names the file in its errors. -/
def load (d : Disk FileName (List Byte)) (dir name : FileName) (options : IndexReader.ReadOptions) :
    Checked CollectionState :=
  match file P d dir name with
  | none => Outcome.fail (.ioError ("cannot open " ++ pathText dir name))
  | some content =>
    match IndexReader.readIndex (.ok ()) content options with
    | .error (.error st) => Outcome.fail ⟨st.code, pathText dir name ++ ": " ++ st.message⟩
    | result => result

def loadSnapshot (d : Disk FileName (List Byte)) (dir : FileName) (options : IndexReader.ReadOptions) :
    Checked CollectionState := do
  let m ← Outcome.lift (readManifest P d dir)
  let crc ← Outcome.lift (readHeaderCrc P d dir m.file)
  if crc ≠ m.crc32c then Outcome.fail (.corruptData ("MANIFEST checksum does not match " ++ pathText dir m.file))
  else load P d dir m.file options

end VectorForge.Snapshot
