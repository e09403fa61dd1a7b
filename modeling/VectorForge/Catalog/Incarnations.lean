import VectorForge.Catalog.Catalog
import VectorForge.Lib.Machine

/-! The calls of a catalog by any number of threads, one lock section or file operation at a time. A name
that is created again is another incarnation, and every directory remembers whose files it holds. -/

namespace VectorForge
namespace Incarnations
open Catalog (creatingName isValidName)

/-- What holds a reference to a collection. -/
inductive Ref where
  | slot
  /-- A pointer that was handed out. -/
  | user
  /-- A local variable of a call. -/
  | thread (t : Nat)
  deriving DecidableEq, Repr

/-- One incarnation of a name: its collection, the flag that its deleter reads, and a count of the ends of that
deleter. -/
structure Incarnation where
  name : FileName := []
  /-- The call of `create` has succeeded. -/
  published : Bool := false
  dropped : Bool := false
  refs : List Ref := []
  erased : Nat := 0
  deriving DecidableEq, Repr

structure Slot where
  inc : Nat
  generation : UInt64 := 0
  deriving DecidableEq, Repr

/-- A directory with the incarnation it was made for. -/
structure Dir where
  owner : Nat
  files : List FileName := []
  deriving DecidableEq, Repr

/-- Where a thread is. -/
inductive Phase where
  | idle
  /-- `create` with the exclusive lock: before its check of `dropping`, then with a new incarnation. -/
  | checking (name : FileName)
  | clearingTemp (inc : Nat)
  | clearing (inc : Nat)
  | making (inc : Nat)
  | configuring (inc : Nat)
  | moving (inc : Nat)
  | placed (inc : Nat)
  /-- `drop` with the exclusive lock, until the name is in `dropping`, and then waiting for a snapshot in
  progress. -/
  | marking (inc : Nat)
  | marked (inc : Nat)
  | waiting (inc : Nat)
  /-- `snapshot` before its lock, in `save_snapshot`, before it records the generation, and at its end. -/
  | queued (inc : Nat)
  | saving (inc : Nat)
  | recording (inc : Nat) (generation : UInt64)
  | finishing (inc : Nat)
  /-- `drop` or `snapshot` without its locks, before its reference is released. -/
  | leaving (inc : Nat)
  /-- The deleter in `remove_all`, and after it. -/
  | deleting (inc : Nat)
  | erasing (inc : Nat) (whole : Bool)
  deriving DecidableEq, Repr

/-- Holds the lock of the catalog exclusively. -/
def Phase.locks : Phase → Bool
  | checking _ | clearingTemp _ | clearing _ | making _ | configuring _ | moving _ | placed _
  | marking _ | marked _ => true
  | _ => false

/-- The maps of the catalog and all incarnations so far. -/
structure Registry where
  slots : FileName → Option Slot := fun _ => none
  dropping : List FileName := []
  /-- Numbers from `count` on have not been used. -/
  count : Nat := 0
  incs : Nat → Incarnation := fun _ => {}

namespace Registry
variable (r : Registry)

def change (i : Nat) (f : Incarnation → Incarnation) : Registry :=
  { r with incs := Function.update r.incs i (f (r.incs i)) }

/-- A new incarnation, of which nobody knows yet. -/
def fresh (name : FileName) : Registry :=
  { r with count := r.count + 1, incs := Function.update r.incs r.count { name } }

/-- The new collection gets its slot, and a pointer to it is handed out. -/
def publish (i : Nat) : Registry :=
  { r with slots := Function.update r.slots (r.incs i).name (some { inc := i }) }.change i fun inc =>
    { inc with published := true, refs := [.user, .slot] }

def hold (i : Nat) (ref : Ref) : Registry := r.change i fun inc => { inc with refs := ref :: inc.refs }

def release (i : Nat) (ref : Ref) : Registry := r.change i fun inc => { inc with refs := inc.refs.erase ref }

def insert (i : Nat) : Registry := { r with dropping := r.dropping.insert (r.incs i).name }

/-- The flag is set, and the slot becomes a local variable of thread `t`. -/
def unslot (i t : Nat) : Registry :=
  { r with slots := Function.update r.slots (r.incs i).name none }.change i fun inc =>
    { inc with dropped := true, refs := .thread t :: inc.refs.erase .slot }

def record (i : Nat) (slot : Slot) : Registry :=
  { r with slots := Function.update r.slots (r.incs i).name (some slot) }

/-- The end of the deleter. -/
def erase (i : Nat) : Registry :=
  { r with dropping := r.dropping.erase (r.incs i).name }.change i fun inc => { inc with erased := inc.erased + 1 }

end Registry

structure State where
  registry : Registry := {}
  exclusive : Option Nat := none
  /-- Who holds the `snapshot_mutex` of an incarnation. -/
  snapshotMutex : Nat → Option Nat := fun _ => none
  /-- The directories by what the file system compares. -/
  dirs : FileName → Option Dir := fun _ => none
  threads : Nat → Phase := fun _ => .idle

namespace State

def go (s : State) (t : Nat) (phase : Phase) : State := { s with threads := Function.update s.threads t phase }

def setDir (s : State) (k : FileName) (d : Option Dir) : State := { s with dirs := Function.update s.dirs k d }

def inc (s : State) (i : Nat) : Incarnation := s.registry.incs i

/-- A reference is released. The deleter of the last one runs on the same thread. -/
def release (s : State) (t i : Nat) (ref : Ref) : State :=
  { s with registry := s.registry.release i ref }.go t
    (if (s.inc i).refs.erase ref = [] ∧ (s.inc i).dropped then .deleting i else .idle)

end State

/-- What a step does that others could notice. -/
inductive Label where
  | silent
  /-- A call on behalf of `inc` looks at or changes a file in a directory of `owner`. -/
  | touches (inc owner : Nat)
  /-- The deleter of `inc` removes something. -/
  | deletes (inc owner : Nat)
  /-- The creation of `inc` removes something that is in its way. -/
  | clears (inc owner : Nat)
  /-- The generation of a snapshot of `inc` is recorded in the slot of `owner`. -/
  | records (inc owner : Nat)
  | creates (inc : Nat)
  | erases (inc : Nat) (whole : Bool)
  deriving DecidableEq, Repr

/-- One change of the files of a directory: a file that is written or renamed, or one that is removed. -/
inductive Changes : List FileName → List FileName → Prop where
  | same {files : List FileName} : Changes files files
  | put {files : List FileName} (file : FileName) : Changes files (file :: files)
  | take {files : List FileName} (file : FileName) : Changes files (files.erase file)

variable (F : FileSystem) (names : FileName → Prop)

/-- The place of the files of an incarnation, and the one where they are made. -/
def home (s : State) (i : Nat) : FileName := F.platform.fold (s.inc i).name
def temp (s : State) (i : Nat) : FileName := F.platform.fold (creatingName (s.inc i).name)

/-- The steps of thread `t`. Every file operation may fail. -/
inductive Steps (t : Nat) (s : State) : Label → State → Prop where
  /-- `create`, which refuses names that are not valid. -/
  | create {name : FileName} (idle : s.threads t = .idle) (open_ : s.exclusive = none) (used : names name)
      (valid : isValidName name = true) : Steps t s .silent ({ s with exclusive := some t }.go t (.checking name))
  | refuse {name : FileName} (at_ : s.threads t = .checking name)
      (taken : s.registry.slots name ≠ none ∨ name ∈ s.registry.dropping) :
      Steps t s .silent ({ s with exclusive := none }.go t .idle)
  | accept {name : FileName} (at_ : s.threads t = .checking name) (absent : s.registry.slots name = none)
      (settled : name ∉ s.registry.dropping) :
      Steps t s .silent ({ s with registry := s.registry.fresh name }.go t (.clearingTemp s.registry.count))
  | clearTempFile {i : Nat} {d : Dir} {file : FileName} (at_ : s.threads t = .clearingTemp i)
      (there : s.dirs (temp F s i) = some d) (member : file ∈ d.files) :
      Steps t s (.clears i d.owner) (s.setDir (temp F s i) (some { d with files := d.files.erase file }))
  | clearTemp {i : Nat} {d : Dir} (at_ : s.threads t = .clearingTemp i) (there : s.dirs (temp F s i) = some d)
      (empty : d.files = []) : Steps t s (.clears i d.owner) ((s.setDir (temp F s i) none).go t (.clearing i))
  /-- There is nothing to remove, or it does not work. -/
  | leaveTemp {i : Nat} (at_ : s.threads t = .clearingTemp i) : Steps t s .silent (s.go t (.clearing i))
  | clearFile {i : Nat} {d : Dir} {file : FileName} (at_ : s.threads t = .clearing i)
      (there : s.dirs (home F s i) = some d) (member : file ∈ d.files) :
      Steps t s (.clears i d.owner) (s.setDir (home F s i) (some { d with files := d.files.erase file }))
  | clear {i : Nat} {d : Dir} (at_ : s.threads t = .clearing i) (there : s.dirs (home F s i) = some d)
      (empty : d.files = []) : Steps t s (.clears i d.owner) ((s.setDir (home F s i) none).go t (.making i))
  | leaveHome {i : Nat} (at_ : s.threads t = .clearing i) : Steps t s .silent (s.go t (.making i))
  /-- `create_directories`, which takes what is there. -/
  | make {i : Nat} (at_ : s.threads t = .making i) :
      Steps t s .silent ((s.setDir (temp F s i)
        (some { owner := i, files := ((s.dirs (temp F s i)).map Dir.files).getD [] })).go t (.configuring i))
  | configure {i : Nat} {d : Dir} {files : List FileName} (at_ : s.threads t = .configuring i)
      (there : s.dirs (temp F s i) = some d) (changes : Changes d.files files) :
      Steps t s (.touches i d.owner) (s.setDir (temp F s i) (some { d with files }))
  | configured {i : Nat} (at_ : s.threads t = .configuring i) : Steps t s .silent (s.go t (.moving i))
  | rename {i : Nat} {d : Dir} (at_ : s.threads t = .moving i) (there : s.dirs (temp F s i) = some d)
      (room : s.dirs (home F s i) = none ∨ F.platform.replaces = true ∧
        (s.dirs (home F s i)).map Dir.files = some []) :
      Steps t s (.touches i d.owner) (((s.setDir (temp F s i) none).setDir (home F s i) (some d)).go t (.placed i))
  /-- The directory is synced, and the collection gets its slot and is handed out. -/
  | publish {i : Nat} (at_ : s.threads t = .placed i) :
      Steps t s (.creates i) ({ s with registry := s.registry.publish i, exclusive := none }.go t .idle)
  /-- A step of `create` or `drop` does not work, which ends the call. -/
  | fail (locks : (s.threads t).locks = true) (unmarked : ∀ i, s.threads t ≠ .marked i) :
      Steps t s .silent ({ s with exclusive := none }.go t .idle)
  | get {name : FileName} {slot : Slot} (idle : s.threads t = .idle) (open_ : s.exclusive = none)
      (found : s.registry.slots name = some slot) :
      Steps t s .silent { s with registry := s.registry.hold slot.inc .user }
  | drop {name : FileName} {slot : Slot} (idle : s.threads t = .idle) (open_ : s.exclusive = none)
      (found : s.registry.slots name = some slot) :
      Steps t s .silent ({ s with exclusive := some t }.go t (.marking slot.inc))
  /-- `write_text` of the marker. -/
  | mark {i : Nat} {d : Dir} {files : List FileName} (at_ : s.threads t = .marking i)
      (there : s.dirs (home F s i) = some d) (changes : Changes d.files files) :
      Steps t s (.touches i d.owner) (s.setDir (home F s i) (some { d with files }))
  | insert {i : Nat} (at_ : s.threads t = .marking i) :
      Steps t s .silent ({ s with registry := s.registry.insert i }.go t (.marked i))
  | unslot {i : Nat} (at_ : s.threads t = .marked i) :
      Steps t s .silent ({ s with registry := s.registry.unslot i t, exclusive := none }.go t (.waiting i))
  /-- Nobody takes a snapshot. -/
  | waited {i : Nat} (at_ : s.threads t = .waiting i) (free : s.snapshotMutex i = none) :
      Steps t s .silent (s.go t (.leaving i))
  | snapshot {name : FileName} {slot : Slot} (idle : s.threads t = .idle) (open_ : s.exclusive = none)
      (found : s.registry.slots name = some slot) :
      Steps t s .silent ({ s with registry := s.registry.hold slot.inc (.thread t) }.go t (.queued slot.inc))
  | lockSnapshot {i : Nat} (at_ : s.threads t = .queued i) (free : s.snapshotMutex i = none) :
      Steps t s .silent ({ s with snapshotMutex := Function.update s.snapshotMutex i (some t) }.go t (.saving i))
  /-- `create_directories` of `save_snapshot`. -/
  | saveMakes {i : Nat} (at_ : s.threads t = .saving i) (missing : s.dirs (home F s i) = none) :
      Steps t s .silent (s.setDir (home F s i) (some { owner := i }))
  | save {i : Nat} {d : Dir} {files : List FileName} (at_ : s.threads t = .saving i)
      (there : s.dirs (home F s i) = some d) (changes : Changes d.files files) :
      Steps t s (.touches i d.owner) (s.setDir (home F s i) (some { d with files }))
  | saved {i : Nat} (at_ : s.threads t = .saving i) (generation : UInt64) :
      Steps t s .silent (s.go t (.recording i generation))
  | saveFails {i : Nat} (at_ : s.threads t = .saving i) : Steps t s .silent (s.go t (.finishing i))
  | record {i : Nat} {generation : UInt64} {slot : Slot} (at_ : s.threads t = .recording i generation)
      (open_ : s.exclusive = none) (found : s.registry.slots (s.inc i).name = some slot) (mine : slot.inc = i) :
      Steps t s (.records i slot.inc)
        ({ s with registry := s.registry.record i { slot with generation } }.go t (.finishing i))
  /-- The slot is gone or that of another collection. -/
  | skip {i : Nat} {generation : UInt64} (at_ : s.threads t = .recording i generation) (open_ : s.exclusive = none)
      (other : ∀ slot, s.registry.slots (s.inc i).name = some slot → slot.inc ≠ i) :
      Steps t s .silent (s.go t (.finishing i))
  | unlockSnapshot {i : Nat} (at_ : s.threads t = .finishing i) :
      Steps t s .silent ({ s with snapshotMutex := Function.update s.snapshotMutex i none }.go t (.leaving i))
  | leave {i : Nat} (at_ : s.threads t = .leaving i) : Steps t s .silent (s.release t i (.thread t))
  | release {i : Nat} (idle : s.threads t = .idle) (held : .user ∈ (s.inc i).refs) :
      Steps t s .silent (s.release t i .user)
  | deleteFile {i : Nat} {d : Dir} {file : FileName} (at_ : s.threads t = .deleting i)
      (there : s.dirs (home F s i) = some d) (member : file ∈ d.files) :
      Steps t s (.deletes i d.owner) (s.setDir (home F s i) (some { d with files := d.files.erase file }))
  | deleteDir {i : Nat} {d : Dir} (at_ : s.threads t = .deleting i) (there : s.dirs (home F s i) = some d)
      (empty : d.files = []) : Steps t s (.deletes i d.owner) ((s.setDir (home F s i) none).go t (.erasing i true))
  | deleteNothing {i : Nat} (at_ : s.threads t = .deleting i) (missing : s.dirs (home F s i) = none) :
      Steps t s .silent (s.go t (.erasing i true))
  | deleteFails {i : Nat} (at_ : s.threads t = .deleting i) : Steps t s .silent (s.go t (.erasing i false))
  | erase {i : Nat} {whole : Bool} (at_ : s.threads t = .erasing i whole) :
      Steps t s (.erases i whole) ({ s with registry := s.registry.erase i }.go t .idle)

/-- A directory that opening has tried to remove: that of a dropped collection, or one in which a collection was
being created. -/
structure Leftover where
  name : FileName
  created : Bool
  deriving DecidableEq, Repr

/-- What the directory was made for. Nobody will try to delete it again. -/
def Leftover.incarnation (l : Leftover) : Incarnation where
  name := l.name
  published := l.created
  dropped := l.created
  erased := l.created.toNat

/-- A collection that has been restored. -/
def restored (name : FileName) : Incarnation := { name, published := true, refs := [.slot] }

/-- The incarnations that there have been before. -/
def past (opened : List FileName) (left : List Leftover) : List Incarnation :=
  opened.map restored ++ left.map Leftover.incarnation

def Incarnation.place (inc : Incarnation) : FileName :=
  F.platform.fold (if inc.published then inc.name else creatingName inc.name)

/-- A catalog that has just been opened on the collections `opened`, of which nothing but their names is known,
with the directories `left` still there. -/
def opening (opened : List FileName) (left : List Leftover) (generation : FileName → UInt64)
    (files : FileName → List FileName) : State where
  registry := {
    slots := fun name => (opened.idxOf? name).map fun i => { inc := i, generation := generation name }
    count := (past opened left).length
    incs := fun i => (past opened left)[i]?.getD {} }
  dirs k := ((past opened left).findIdx? fun inc => inc.place F = k).map fun i => { owner := i, files := files k }

/-- A catalog under calls with these names. -/
def machine : Machine State where
  start s := ∃ opened left generation files, opened.Nodup ∧
    (∀ inc ∈ past opened left, names inc.name ∧ isValidName inc.name = true) ∧
    s = opening F opened left generation files
  Step s s' := ∃ t label, Steps F names t s label s'

end Incarnations
end VectorForge
