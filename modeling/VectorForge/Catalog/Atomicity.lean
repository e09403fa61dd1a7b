import VectorForge.Catalog.Dropping

/-! Creations and drops that return an error. -/

namespace VectorForge.Catalog
open Files Effect AtomicFile Snapshot

/-- Neither the catalog nor what opening the directory would restore is different. -/
def Unchanged (F : FileSystem) (h h' : Host) : Prop := h'.catalog = h.catalog ∧ SameStanding F h.disk h'.disk

section Changes
variable {F : FileSystem} {env : Environment FileName (List Byte)} {now : UInt64} {name : FileName}
  {config : CollectionConfig} {h h' : Host}
  {options : IndexReader.ReadOptions} {d d' : Disk FileName (List Byte)} {st : Status}

/-- Two places are the same or apart. -/
theorem sameStanding_of_place (elsewhere : Elsewhere F name d d')
    (here : ∀ options now n, F.platform.fold n = F.platform.fold name →
      standing F options now d' n = standing F options now d n) : SameStanding F d d' := by
  intro options now n
  by_cases same : F.platform.fold n = F.platform.fold name
  · exact here options now n same
  · exact elsewhere.standing same

theorem directory_of_fold {n : FileName} (same : F.platform.fold n = F.platform.fold name) :
    directory F.platform d n = directory F.platform d name := by
  rw [directory, directory, same]

theorem file_of_fold {n f : FileName} (same : F.platform.fold n = F.platform.fold name) :
    file F.platform d n f = file F.platform d name f := by
  rw [file, file, directory_of_fold same]

variable (options now) in
/-- A new directory without a marker has a standing. -/
theorem standing_of_new (valid : isValidName name = true) (new : NewDirectory F name config d d')
    (free : file F.platform d (creatingName name) kDroppedMarker = none) :
    (standing F options now d' name).isSome := by
  have marker : file F.platform d' name kDroppedMarker = none := by
    rcases new.others kDroppedMarker (by rintro (same | same) <;> exact absurd same (by decide)) with none | same
    · exact none
    · exact same.trans free
  rw [standing, if_pos ⟨new.there, valid, marker⟩]
  rfl

theorem unchanged_of_notPlaced {x : Interruption Status} (absent : directory F.platform h.disk name = none)
    (catalog : h'.catalog = h.catalog)
    (failed : NotPlaced F env name config x h.disk h'.disk) : Unchanged F h h' := by
  refine ⟨catalog, sameStanding_of_place failed.elsewhere fun options now n same => standing_of_directory ?_⟩
  rw [directory_of_fold same, directory_of_fold same, absent]
  rcases failed.remains with gone | ⟨D, -, before, -⟩
  · exact gone
  · cases absent.symm.trans before

/-- A creation that reports an error changes nothing unless the new directory has already been renamed. -/
theorem create_unchanged (run : create F env now name config h = (.error (.reports st), h'))
    (absent : Accepted name config h.catalog → directory F.platform h.disk name = none)
    (short : ¬ (Accepted name config h.catalog ∧ Arrives env name config)) : Unchanged F h h' := by
  obtain ⟨catalog, -, outcome⟩ := (create_ends F env now name config h).2 _ _ run
  rcases outcome with ⟨same, -⟩ | ⟨accepted, failed | ⟨-, arrives, -⟩⟩
  · exact ⟨catalog, same ▸ fun _ _ _ => rfl⟩
  · exact unchanged_of_notPlaced (absent accepted) catalog failed
  · exact absurd ⟨accepted, arrives⟩ short

/-- A new directory that has been renamed is restored. -/
theorem create_changed (run : create F env now name config h = (.error (.reports st), h'))
    (absent : Accepted name config h.catalog → directory F.platform h.disk name = none)
    (fresh : Accepted name config h.catalog → file F.platform h.disk (creatingName name) kDroppedMarker = none)
    (accepted : Accepted name config h.catalog) (arrives : Arrives env name config) : ¬ Unchanged F h h' := by
  obtain ⟨-, -, outcome⟩ := (create_ends F env now name config h).2 _ _ run
  rintro ⟨-, same⟩
  rcases outcome with ⟨-, refused⟩ | ⟨-, short | ⟨placed, -⟩⟩
  · exact refused accepted
  · exact short.short st rfl (absent accepted) arrives
  · have some := standing_of_new 0 {} accepted.valid placed.new (fresh accepted)
    rw [same {} 0 name, standing_of_none (absent accepted)] at some
    cases some

theorem restoring_not_marker {f : FileName} (restoring : Restoring f) : ¬ Involved kDroppedMarker f := by
  have first : kDroppedMarker.getLast? = some 0x44 := by decide
  rintro (rfl | rfl)
  · rcases restoring with same | same | index
    · exact absurd same (by decide)
    · exact absurd same (by decide)
    · rw [getLast_of_indexName index] at first
      exact absurd first (by decide)
  · rcases restoring with same | same | index
    · exact absurd same (by decide)
    · exact absurd same (by decide)
    · have last := getLast_of_indexName index
      rw [getLast_tempName] at last
      exact absurd last (by decide)

theorem standing_of_only (only : OnlyFiles F.platform name (Involved kDroppedMarker) d d')
    (same : file F.platform d' name kDroppedMarker = file F.platform d name kDroppedMarker) :
    SameStanding F d d' := by
  refine sameStanding_of_place (fun k away _ => only.others k away) fun options now n fold => ?_
  refine standing_congr ?_ ?_ fun f restoring => ?_
  · rw [directory_of_fold fold, directory_of_fold fold]
    exact only.name
  · rw [file_of_fold fold, file_of_fold fold]
    exact same
  · rw [file_of_fold fold, file_of_fold fold]
    exact only.files f (restoring_not_marker restoring)

/-- A drop that reports an error changes something exactly if the marker has been renamed into a directory that
had a standing. -/
theorem drop_unchanged_iff (run : drop F env name h = (.error (.reports st), h')) :
    Unchanged F h h' ↔ ¬ (name ∈ h.catalog.slots ∧ Marks F env name h.disk ∧
      ∃ options now n, F.platform.fold n = F.platform.fold name ∧ (standing F options now h.disk n).isSome) := by
  have ends := (drop_ends F env name h).2 _ _ run
  cases ends with
  | absent missing reported same =>
    refine ⟨fun _ given => AList.lookup_eq_none.mp missing given.1, fun _ => same ▸ ⟨rfl, fun _ _ _ => rfl⟩⟩
  | unmarked there catalog only same short explained =>
    exact ⟨fun _ given => short given.2.1, fun _ => ⟨catalog, standing_of_only only same⟩⟩
  | unsynced there catalog marks marked failed explained =>
    have none : ∀ options now n, F.platform.fold n = F.platform.fold name →
        standing F options now h'.disk n = none := fun options now n fold =>
      standing_of_marked (by rw [file_of_fold fold, marked.marker]; rfl)
    constructor
    · rintro ⟨-, same⟩ ⟨-, -, options, now, n, fold, some⟩
      rw [← same options now n, none options now n fold] at some
      cases some
    · intro not
      refine ⟨catalog, sameStanding_of_place (fun k away _ => marked.only.others k away)
        fun options now n fold => ?_⟩
      rw [none options now n fold]
      by_contra other
      exact not ⟨AList.lookup_isSome.mp (by rw [there]; rfl), marks, options, now, n, fold,
        Option.isSome_iff_ne_none.mpr fun nothing => other nothing.symm⟩
  | undeleted there last catalog marked partly stopped explained => cases stopped

end Changes

/-- Creations and drops that report an error have changed nothing, except when the directory could not be synced
after the rename. -/
theorem failed_mutators_change_nothing_iff (F : FileSystem) (env : Environment FileName (List Byte)) (now : UInt64)
    (name : FileName) (config : CollectionConfig) (h h' : Host) (st : Status) :
    (create F env now name config h = (.error (.reports st), h') →
      (Accepted name config h.catalog → directory F.platform h.disk name = none) →
        (¬ (Accepted name config h.catalog ∧ Arrives env name config) → Unchanged F h h') ∧
        ((Accepted name config h.catalog → file F.platform h.disk (creatingName name) kDroppedMarker = none) →
          Unchanged F h h' → ¬ (Accepted name config h.catalog ∧ Arrives env name config))) ∧
    (drop F env name h = (.error (.reports st), h') →
      (Unchanged F h h' ↔ ¬ (name ∈ h.catalog.slots ∧ Marks F env name h.disk ∧
        ∃ options now n, F.platform.fold n = F.platform.fold name ∧
        (standing F options now h.disk n).isSome))) := by
  refine ⟨fun run absent => ⟨create_unchanged run absent, fun fresh unchanged given => ?_⟩,
    fun run => drop_unchanged_iff run⟩
  exact create_changed run absent fresh given.1 given.2 unchanged

/-- One step fails and all others work. -/
def failing (step : FsStep FileName) : Environment FileName (List Byte) where
  turn s := if s = step then .fails [] else .works

theorem failing_explained {step : FsStep FileName} {reason : Prop} {x : Interruption Status}
    (explained : Explained (failing step) reason x) : reason ∨ ∃ st, x = .reports st := by
  rcases explained with given | ⟨s, left, turn⟩
  · exact .inl given
  · cases x with
    | reports st => exact .inr ⟨st, rfl⟩
    | stops =>
      simp only [failing] at turn
      split at turn <;> cases turn

section Failing
variable {F : FileSystem} {step : FsStep FileName} {now : UInt64} {name : FileName}
  {config : CollectionConfig} {h : Host} {slot : Slot}

variable (F now) in
theorem create_reports (accepted : Accepted name config h.catalog)
    (short : Arrives (failing step) name config → (failing step).turn (.syncParent name) ≠ .works) :
    ∃ st h', create F (failing step) now name config h = (.error (.reports st), h') := by
  have ends := create_ends F (failing step) now name config h
  cases run : create F (failing step) now name config h with
  | mk result h' =>
    cases result with
    | ok =>
      obtain ⟨-, arrives, synced⟩ := ends.1 _ _ run
      exact absurd synced (short arrives)
    | error x =>
      obtain ⟨-, explained, -⟩ := ends.2 _ _ run
      obtain ⟨st, rfl⟩ := (failing_explained explained).resolve_left fun refused => refused accepted
      exact ⟨st, h', rfl⟩

theorem drop_reports (there : h.catalog.slots.lookup name = some slot)
    (kept : (directory F.platform h.disk name).isSome) (short : ¬ Marks F (failing step) name h.disk) :
    ∃ st h', drop F (failing step) name h = (.error (.reports st), h') := by
  have ends := drop_ends F (failing step) name h
  cases run : drop F (failing step) name h with
  | mk result h' =>
    cases result with
    | ok =>
      obtain ⟨_, _, dropped⟩ := ends.1 _ _ run
      exact absurd dropped.marks short
    | error x =>
      cases ends.2 _ _ run with
      | absent missing => cases missing.symm.trans there
      | unmarked _ _ _ _ _ explained =>
        rcases failing_explained explained with gone | ⟨st, rfl⟩
        · rw [gone] at kept
          cases kept
        · exact ⟨st, h', rfl⟩
      | unsynced _ _ marks => exact absurd marks short
      | undeleted _ _ _ _ _ stopped explained =>
        subst stopped
        rcases failing_explained explained with impossible | ⟨_, reported⟩
        · exact impossible.elim
        · cases reported

end Failing

theorem accepted_first : Accepted (ascii "a") Guarantees.smallConfig {} :=
  ⟨by decide, by decide, by decide, by decide⟩

/-- There is a collection. The directory of another one cannot be renamed, and neither can the marker of the
first. -/
theorem failed_mutators_change_nothing_iff_populated : ∃ h st h₁ st' h₂,
    create FileSystem.posix smooth 0 (ascii "a") Guarantees.smallConfig {} = (.ok (), h) ∧
    create FileSystem.posix (failing (.renameDirectory (creatingName (ascii "b")) (ascii "b"))) 0 (ascii "b")
      Guarantees.smallConfig h = (.error (.reports st), h₁) ∧ Unchanged FileSystem.posix h h₁ ∧
    drop FileSystem.posix (failing (.rename (ascii "a") (tempName kDroppedMarker) kDroppedMarker)) (ascii "a") h =
      (.error (.reports st'), h₂) ∧ Unchanged FileSystem.posix h h₂ := by
  obtain ⟨h, made, created⟩ := create_works FileSystem.posix smooth 0 (ascii "a") Guarantees.smallConfig {}
    (fun _ => rfl) accepted_first
  obtain ⟨s, -, catalog⟩ := created.catalog
  have accepted : Accepted (ascii "b") Guarantees.smallConfig h.catalog := by
    refine ⟨by decide, by decide, ?_, ?_⟩
    · rw [catalog, AList.mem_insert]
      rintro (same | other)
      · exact absurd same (by decide)
      · exact absurd other (AList.notMem_empty _)
    · rw [catalog]
      exact List.not_mem_nil
  have free : directory FileSystem.posix.platform h.disk (ascii "b") = none :=
    created.placed.elsewhere _ (show ascii "b" ≠ ascii "a" by decide)
      (show ascii "b" ≠ creatingName (ascii "a") by decide)
  have there : h.catalog.slots.lookup (ascii "a") = some { collection := s, users := 1 } := by
    rw [catalog]
    exact AList.lookup_insert _
  have kept : (directory FileSystem.posix.platform h.disk (ascii "a")).isSome := by
    rw [← Option.isSome_map, created.placed.new.there]
    rfl
  have short : ¬ Arrives (failing (.renameDirectory (creatingName (ascii "b")) (ascii "b")))
      (ascii "b") Guarantees.smallConfig := by
    rintro ⟨-, -, -, -, works⟩
    simp only [failing, if_true] at works
    cases works
  have unmarked : ¬ Marks FileSystem.posix (failing (.rename (ascii "a") (tempName kDroppedMarker) kDroppedMarker))
      (ascii "a") h.disk := by
    rintro ⟨-, -, -, -, -, -, works⟩
    simp only [failing, if_true] at works
    cases works
  obtain ⟨st, h₁, refused⟩ := create_reports FileSystem.posix 0 accepted fun arrives => absurd arrives short
  obtain ⟨st', h₂, undropped⟩ := drop_reports there kept unmarked
  refine ⟨h, st, h₁, st', h₂, made, refused, ?_, undropped, ?_⟩
  · exact ((failed_mutators_change_nothing_iff _ _ _ _ _ h h₁ st).1 refused fun _ => free).1
      fun given => short given.2
  · exact ((failed_mutators_change_nothing_iff _ _ 0 _ Guarantees.smallConfig h h₂ st').2 undropped).mpr
      fun given => unmarked given.2.1

/-- The directory of collections cannot be synced after the directory of a new one has been renamed: an error is
returned, and the collection is there when the catalog is opened again. -/
theorem unsynced_creation_comes_back :
    ∃ st h', create FileSystem.posix (failing (.syncParent (ascii "a"))) 0 (ascii "a")
    Guarantees.smallConfig {} = (.error (.reports st), h') ∧ ¬ Unchanged FileSystem.posix {} h' := by
  have turns : ∀ s, s ≠ .syncParent (ascii "a") → (failing (.syncParent (ascii "a"))).turn s = .works :=
    fun s other => if_neg other
  have arrives : Arrives (failing (.syncParent (ascii "a"))) (ascii "a") Guarantees.smallConfig :=
    ⟨turns _ (by simp), turns _ (by simp),
      ⟨rfl, turns _ (by simp), turns _ (by simp), turns _ (by simp), turns _ (by simp)⟩,
      turns _ (by simp), turns _ (by simp)⟩
  have unsynced : (failing (.syncParent (ascii "a"))).turn (.syncParent (ascii "a")) ≠ .works := by
    intro works
    simp only [failing, if_true] at works
    cases works
  obtain ⟨st, h', run⟩ := create_reports (h := {}) FileSystem.posix 0 accepted_first fun _ => unsynced
  exact ⟨st, h', run, create_changed run (fun _ => rfl) (fun _ => rfl) accepted_first arrives⟩

end VectorForge.Catalog
