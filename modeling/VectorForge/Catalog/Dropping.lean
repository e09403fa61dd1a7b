import VectorForge.Catalog.Standing

/-! What dropping a collection does, however far it gets. -/

namespace VectorForge.Catalog
open Files Effect AtomicFile Snapshot

def droppedText : List Byte := ascii "dropped\n"

/-- The marker has been put into a directory. -/
structure Marked (F : FileSystem) (name : FileName) (d d' : Disk FileName (List Byte)) : Prop where
  only : OnlyFiles F.platform name (Involved kDroppedMarker) d d'
  marker : file F.platform d' name kDroppedMarker = some droppedText

/-- Everything in a directory has been removed, as far as the steps for it work. -/
structure Cleared (F : FileSystem) (env : Environment FileName (List Byte)) (name : FileName)
    (d d' : Disk FileName (List Byte)) : Prop where
  others : ∀ k, k ≠ F.platform.fold name → d'.lookup k = d.lookup k
  remains : Remains (directory F.platform d name) (directory F.platform d' name)
  gone : directory F.platform d' name = none ∨ (directory F.platform d name).isSome ∧
    ∃ s left, env.turn s = .fails left

/-- A crash in the middle of that. -/
structure PartlyCleared (F : FileSystem) (name : FileName) (d d' : Disk FileName (List Byte)) : Prop where
  others : ∀ k, k ≠ F.platform.fold name → d'.lookup k = d.lookup k
  remains : Remains (directory F.platform d name) (directory F.platform d' name)

section Steps
variable (F : FileSystem) (env : Environment FileName (List Byte)) (name : FileName)

theorem deleteFiles_ends (h : Host) : Ends (deleteFiles F env name) h
    (fun _ h' => Cleared F env name h.disk h'.disk ∧
      h'.catalog = { h.catalog with dropping := h.catalog.dropping.erase name })
    fun x h' => x = .stops ∧ PartlyCleared F name h.disk h'.disk ∧ h'.catalog = h.catalog ∧
    Explained env False x := by
  refine Ends.bind (onDisk_ends ((clear_ends name h.disk).mono ?_ ?_))
  · rintro _ d' ⟨others, remains, gone⟩
    exact Ends.pure ⟨⟨others, remains, gone⟩, rfl⟩
  · rintro x d' ⟨rfl, others, remains, explained⟩
    exact ⟨rfl, ⟨others, remains⟩, rfl, explained⟩

/-- The steps for the marker up to the rename work. -/
def Marks (d : Disk FileName (List Byte)) : Prop :=
  CanReplace F.platform env name kDroppedMarker (.ok droppedText) d droppedText

/-- The ways in which dropping a collection can end without success: it is not there, its marker is not written or
not known to be durable, or its files are only partly deleted. -/
inductive NotDropped (x : Interruption Status) (h h' : Host) : Prop
  | absent (missing : h.catalog.slots.lookup name = none) (reported : ∃ st, x = .reports st) (same : h' = h)
  | unmarked {slot : Slot} (there : h.catalog.slots.lookup name = some slot) (catalog : h'.catalog = h.catalog)
      (only : OnlyFiles F.platform name (Involved kDroppedMarker) h.disk h'.disk)
      (same : file F.platform h'.disk name kDroppedMarker = file F.platform h.disk name kDroppedMarker)
      (short : ¬ Marks F env name h.disk) (explained : Explained env (directory F.platform h.disk name = none) x)
  | unsynced {slot : Slot} (there : h.catalog.slots.lookup name = some slot) (catalog : h'.catalog = h.catalog)
      (marks : Marks F env name h.disk) (marked : Marked F name h.disk h'.disk)
      (failed : env.turn (.syncDirectory name kDroppedMarker) ≠ .works) (explained : Explained env False x)
  | undeleted {slot : Slot} {d : Disk FileName (List Byte)} (there : h.catalog.slots.lookup name = some slot)
      (last : slot.users = 0)
      (catalog : h'.catalog = withoutSlot h.catalog name slot) (marked : Marked F name h.disk d)
      (partly : PartlyCleared F name d h'.disk) (stopped : x = .stops) (explained : Explained env False x)

/-- What dropping a collection does when it returns. -/
structure Dropped (h h' : Host) (slot : Slot) (d : Disk FileName (List Byte)) : Prop where
  there : h.catalog.slots.lookup name = some slot
  marks : Marks F env name h.disk
  marked : Marked F name h.disk d
  outcome : slot.users ≠ 0 ∧ h' = ⟨d, withoutSlot h.catalog name slot⟩ ∨
    slot.users = 0 ∧ Cleared F env name d h'.disk ∧
      h'.catalog = { withoutSlot h.catalog name slot with
        dropping := (withoutSlot h.catalog name slot).dropping.erase name }

theorem drop_ends (h : Host) : Ends (drop F env name) h (fun _ h' => ∃ slot d, Dropped F env name h h' slot d)
    fun x h' => NotDropped F env name x h h' := by
  refine Ends.get ?_
  cases known : h.catalog.slots.lookup name with
  | none => exact Ends.leave (.absent known ⟨_, rfl⟩ rfl)
  | some slot =>
    refine Ends.bind (onDisk_ends ((writeAtomic_ends h.disk).mono ?_ ?_))
    · rintro _ d ⟨bytes, marks, only, marker, -⟩
      have same : droppedText = bytes := Except.ok.inj marks.2.2.1
      subst same
      have marked : Marked F name h.disk d := ⟨only, marker⟩
      refine Ends.bind (Ends.pure ?_)
      refine ite_ends (fun last => ?_) fun used => Ends.pure ⟨slot, d, known, marks, marked, .inl ⟨used, rfl⟩⟩
      refine (deleteFiles_ends F env name _).mono ?_ ?_
      · rintro _ h' ⟨cleared, catalog⟩
        exact ⟨slot, d, known, marks, marked, .inr ⟨last, cleared, catalog⟩⟩
      · rintro x h' ⟨stopped, partly, catalog, explained⟩
        exact .undeleted known last catalog marked partly stopped explained
    · rintro x d ⟨only, replaced, explained⟩
      rcases replaced with ⟨same, short⟩ | ⟨bytes, marks, marker, failed⟩
      · refine .unmarked known rfl only same (short _) (explained.mono ?_)
        rintro (unwritten | missing)
        · exact absurd rfl (unwritten _)
        · exact missing
      · have same : droppedText = bytes := Except.ok.inj marks.2.2.1
        subst same
        refine .unsynced known rfl marks ⟨only, marker⟩ failed (explained.mono ?_)
        rintro (unwritten | missing)
        · exact unwritten _ rfl
        · have there := marks.1
          rw [missing] at there
          cases there

end Steps
end VectorForge.Catalog
