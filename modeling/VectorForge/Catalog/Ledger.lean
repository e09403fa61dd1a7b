import VectorForge.Catalog.Confinement
import VectorForge.Catalog.Dropping
import VectorForge.Catalog.Isolation
import VectorForge.Lib.Removal

/-! What a data directory is meant to hold, and the directories that hold it. -/

namespace VectorForge.Catalog
open Files Effect AtomicFile Snapshot
open Manifest (indexFileName kPrefix)

/-- A collection on the disk: its configuration, and the snapshot that was published last. -/
structure Entry where
  config : CollectionConfig
  published : Option (UInt64 × CollectionState) := none

abbrev Ledger := FileName → Option Entry

/-- What opening makes of an entry: the collection of the last snapshot or an empty one. -/
def Restored (options : IndexReader.ReadOptions) (e : Entry) (slot : Slot) : Prop :=
  match e.published with
  | none => Reopened options e.config slot ∧ slot.generation = 0
  | some (g, s) =>
    slot.generation = g ∧ IndexReader.SameState slot.collection s ∧
      slot.collection.config.concurrency = options.concurrency

/-- The files of an entry: a configuration without a snapshot, or a snapshot of at most the generation `bound`. -/
def Contents (F : FileSystem) (bound : Nat) (d : Disk FileName (List Byte)) (name : FileName) (e : Entry) : Prop :=
  match e.published with
  | none => Configured F d name e.config ∧ ConfigFile.InLimits e.config
  | some (g, s) => Current F.platform d name g s ∧ s.Persistable ∧ g.toNat ≤ bound

/-- The directory of an entry, which is not marked. -/
structure Holds (F : FileSystem) (bound : Nat) (d : Disk FileName (List Byte)) (name : FileName)
    (e : Entry) : Prop where
  there : (directory F.platform d name).map (·.name) = some name
  marker : file F.platform d name kDroppedMarker = none
  contents : Contents F bound d name e

/-- A disk that opening turns into the ledger. -/
structure Kept (F : FileSystem) (names : FileName → Prop) (bound : Nat) (L : Ledger)
    (d : Disk FileName (List Byte)) : Prop where
  titled : Titled F (Known names) d
  listed : ∀ n e, L n = some e → names n ∧ Holds F bound d n e
  unlisted : ∀ n, names n → L n = none → directory F.platform d n = none ∨
    (file F.platform d n kDroppedMarker).isSome

section FileNames
variable {f : FileName} {g : UInt64}

/-- The names of files that a snapshot writes or removes begin like those of the index files or of `MANIFEST`. -/
def Saved (f : FileName) : Prop := f.head? = some 0x69 ∨ f.head? = some 0x4D

theorem head_tempName (name : FileName) (c : Byte) (head : name.head? = some c) :
    (tempName name).head? = some c := by
  rw [tempName, List.head?_append, head]
  rfl

theorem saved_of_index (involved : Involved (indexFileName g) f) : Saved f := by
  rcases involved with rfl | rfl
  · exact .inl (head_indexFileName g)
  · exact .inl (head_tempName _ _ (head_indexFileName g))

theorem saved_of_manifest (involved : Involved kManifestName f) : Saved f := by
  have head : kManifestName.head? = some 0x4D := by decide
  rcases involved with rfl | rfl
  · exact .inr head
  · exact .inr (head_tempName _ _ head)

theorem saved_of_collectable (collectable : Collectable f) : Saved f := by
  have front {name : FileName} (index : IndexName name) : name.head? = some 0x69 := by
    obtain ⟨digits, -, -, rfl⟩ := index
    have first : kPrefix = 0x69 :: ascii "ndex." := by decide
    rw [first]
    rfl
  rcases collectable with index | ⟨base, index, rfl⟩ | rfl
  · exact .inl (front index)
  · exact .inl (head_tempName _ _ (front index))
  · exact saved_of_manifest (.inr rfl)

theorem not_saved_config : ¬ Saved kConfigName := by
  have head : kConfigName.head? = some 0x63 := by decide
  rintro (same | same) <;> rw [head] at same <;> exact absurd same (by decide)

theorem not_saved_marker : ¬ Saved kDroppedMarker := by
  have head : kDroppedMarker.head? = some 0x44 := by decide
  rintro (same | same) <;> rw [head] at same <;> exact absurd same (by decide)

end FileNames

section Saving
variable {P : Platform FileName} {env : Environment FileName (List Byte)} {dir : FileName}
  {d : Disk FileName (List Byte)}

theorem collectGarbage_only (d : Disk FileName (List Byte)) :
    Ends (collectGarbage P env dir) d (fun _ d' => OnlyFiles P dir Saved d d')
    fun _ d' => OnlyFiles P dir Saved d d' := by
  have swept {d d' : Disk FileName (List Byte)} {current : FileName} (swept : Swept P dir current d d') :
      OnlyFiles P dir Saved d d' :=
    swept.only.mono fun f doomed => saved_of_collectable (collectable_of_doomed doomed).1
  refine (collectGarbage_ends P env dir d).mono (fun _ d' ends => ?_) fun _ d' ends => ?_
  · obtain ⟨m, -, some⟩ := ends
    exact swept some
  · rcases ends.1 with rfl | ⟨m, -, some⟩
    · exact .refl _
    · exact swept some

variable (env) in
/-- A snapshot of a collection that has a directory changes nothing else. -/
theorem saveSnapshot_only (s : CollectionState) (there : (directory P d dir).isSome) :
    Ends (saveSnapshot P env s dir) d
    (fun _ d' => OnlyFiles P dir Saved d d') fun _ d' => OnlyFiles P dir Saved d d' := by
  refine Ends.bind ((makeDirectory_ends _ dir d).mono ?_ fun _ d₁ failed => failed.1 ▸ .refl _)
  rintro _ d₁ ⟨-, -, -, kept, -⟩
  obtain rfl := kept there
  refine Ends.get (Ends.bind (lift_ends (fun g _ => ?_) fun _ _ => .refl _))
  refine Ends.bind ((writeAtomic_ends d₁).mono ?_ fun _ d₂ ends => ends.1.mono fun _ => saved_of_index)
  rintro _ d₂ ⟨-, -, index, -, -⟩
  have first : OnlyFiles P dir Saved d₁ d₂ := index.mono fun _ => saved_of_index
  refine Ends.get (Ends.bind (lift_ends (fun crc _ => ?_) fun _ _ => first))
  refine Ends.bind ((writeAtomic_ends d₂).mono ?_ fun _ d₃ ends =>
    first.trans (ends.1.mono fun _ => saved_of_manifest))
  rintro _ d₃ ⟨-, -, manifest, -, -⟩
  have second := first.trans (manifest.mono fun _ => saved_of_manifest)
  have swept : Ends (attempt Interruption.caught (collectGarbage P env dir)) d₃
      (fun _ d₄ => OnlyFiles P dir Saved d₁ d₄)
      fun _ d₄ => OnlyFiles P dir Saved d₁ d₄ := by
    refine Ends.attempt ((collectGarbage_only d₃).mono (fun _ _ only => second.trans only) fun x d₄ only => ?_)
    split <;> exact second.trans only
  exact Ends.bind (swept.mono (fun _ _ only => Ends.pure only) fun _ _ only => only)

end Saving

section Entries
variable {F : FileSystem} {bound more : Nat} {d d' : Disk FileName (List Byte)} {name : FileName} {e : Entry}
  {options : IndexReader.ReadOptions}

/-- Only the directory of an entry matters. -/
theorem Contents.congr (contents : Contents F bound d name e)
    (same : directory F.platform d' name = directory F.platform d name) : Contents F bound d' name e := by
  have files : ∀ f, file F.platform d' name f = file F.platform d name f := fun f => by rw [file, same, ← file]
  unfold Contents at contents ⊢
  split at contents
  next => exact ⟨contents.1.congr same, contents.2⟩
  next => exact ⟨contents.1.congr (files _) (files _), contents.2⟩

theorem Holds.congr (holds : Holds F bound d name e)
    (same : directory F.platform d' name = directory F.platform d name) : Holds F bound d' name e :=
  ⟨same ▸ holds.there, by rw [file, same, ← file]; exact holds.marker, holds.contents.congr same⟩

theorem Contents.mono (contents : Contents F bound d name e) (le : bound ≤ more) : Contents F more d name e := by
  unfold Contents at contents ⊢
  split at contents
  next => exact contents
  next => exact ⟨contents.1, contents.2.1, contents.2.2.trans le⟩

theorem Kept.mono {names : FileName → Prop} {L : Ledger} (kept : Kept F names bound L d) (le : bound ≤ more) :
    Kept F names more L d :=
  ⟨kept.titled, fun n e there => ⟨(kept.listed n e there).1, (kept.listed n e there).2.there,
    (kept.listed n e there).2.marker,
    (kept.listed n e there).2.contents.mono le⟩, kept.unlisted⟩

theorem restore_of_current {g : UInt64} {s : CollectionState} (now : UInt64)
    (current : Current F.platform d name g s) (ok : s.Persistable)
    (resolved : options.verify ≠ .auto) : ∃ t, restore F options now d name = .ok (t, g) ∧
    IndexReader.SameState t s ∧
      t.config.concurrency = options.concurrency := by
  obtain ⟨t, loaded, same⟩ := loadSnapshot_of_current current ok resolved
  obtain ⟨_, _, _, _, _, named⟩ := current
  refine ⟨t, ?_, same⟩
  rw [restore, named]
  simp only
  rw [loaded, Outcome.ok_bind]
  rfl

/-- An entry comes back. -/
theorem Holds.restores (now : UInt64) (holds : Holds F bound d name e) (resolved : options.verify ≠ .auto) : ∃ s g,
    restore F options now d name = .ok (s, g) ∧ Restored options e { collection := s, generation := g } := by
  have contents := holds.contents
  unfold Contents at contents
  unfold Restored
  split at contents
  next known =>
    obtain ⟨s, restored, same, rows⟩ := restore_of_inLimits options now contents.1 contents.2
    simp only
    exact ⟨s, 0, restored, ⟨same, rows⟩, rfl⟩
  next g s known =>
    obtain ⟨t, restored, same, mode⟩ := restore_of_current now contents.1 contents.2.1 resolved
    simp only
    exact ⟨t, g, restored, rfl, same, mode⟩

end Entries
end VectorForge.Catalog
