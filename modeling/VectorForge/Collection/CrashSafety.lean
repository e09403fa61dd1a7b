import VectorForge.Collection.Generations
import VectorForge.Collection.Guarantees

/-! Sequences of interrupted snapshots and garbage collections. -/

namespace VectorForge.Snapshot
open Files Effect AtomicFile Manifest

/-- One use of a snapshot directory, and how its steps go. -/
inductive Attempt where
  | save (s : CollectionState) (env : Environment FileName (List Byte))
  | collect (env : Environment FileName (List Byte))

/-- The disk after an attempt, however it ends. -/
def Attempt.disk (P : Platform FileName) (dir : FileName) : Attempt → Disk FileName (List Byte) →
    Disk FileName (List Byte)
  | .save s env, d => (saveSnapshot P env s dir d).2
  | .collect env, d => (collectGarbage P env dir d).2

def diskAfter (P : Platform FileName) (dir : FileName) (d : Disk FileName (List Byte)) (attempts : List Attempt) :
    Disk FileName (List Byte) :=
  attempts.foldl (fun d a => a.disk P dir d) d

/-- The collections whose attempts have replaced `MANIFEST`, with their generations. -/
def published (P : Platform FileName) (dir : FileName) : Disk FileName (List Byte) → List Attempt →
    List (UInt64 × CollectionState)
  | _, [] => []
  | d, .collect env :: rest => published P dir (Attempt.disk P dir (.collect env) d) rest
  | d, .save s env :: rest =>
    let d' := Attempt.disk P dir (.save s env) d
    if file P d' dir kManifestName = file P d dir kManifestName then published P dir d' rest
    else
      match nextGeneration (readManifest P d dir) with
      | .ok g => (g, s) :: published P dir d' rest
      | .error _ => published P dir d' rest

/-- The generations that `MANIFEST` names between the attempts stay below the ones whose names do not fit. -/
def Numbered (P : Platform FileName) (dir : FileName) (d : Disk FileName (List Byte))
    (attempts : List Attempt) : Prop :=
  ∀ k m, readManifest P (diskAfter P dir d (attempts.take k)) dir = .ok m → m.generation.toNat + 1 < 10 ^ 19

section Runs
variable {P : Platform FileName} {dir : FileName} {d : Disk FileName (List Byte)} {g : UInt64}
  {s : CollectionState} {a : Attempt} {rest : List Attempt}

theorem Numbered.tail (numbered : Numbered P dir d (a :: rest)) : Numbered P dir (a.disk P dir d) rest := fun k m =>
  numbered (k + 1) m

theorem Numbered.head (numbered : Numbered P dir d rest) (current : Current P d dir g s) :
    g.toNat + 1 < 10 ^ 19 := by
  obtain ⟨_, _, _, _, _, named⟩ := current
  exact numbered 0 _ named

theorem disk_collect (current : Current P d dir g s) (env : Environment FileName (List Byte)) :
    Current P (Attempt.disk P dir (.collect env) d) dir g s := by
  have ends := collectGarbage_ends P env dir d
  cases run : collectGarbage P env dir d with
  | mk result d' =>
    rw [Attempt.disk, run]
    cases result with
    | ok =>
      obtain ⟨m, known, swept⟩ := ends.1 _ _ run
      exact current.swept known swept
    | error x =>
      rcases (ends.2 _ _ run).1 with rfl | ⟨m, known, swept⟩
      · exact current
      · exact current.swept known swept

variable (P dir) in
/-- An attempt to save leaves the generation before it, or publishes the next one. -/
theorem disk_save (s' : CollectionState) (env : Environment FileName (List Byte)) (d : Disk FileName (List Byte)) :
    Unpublished P dir d (Attempt.disk P dir (.save s' env) d) ∨
    ∃ g, Published P dir s' g d (Attempt.disk P dir (.save s' env) d) := by
  have ends := saveSnapshot_ends P env dir s' d
  cases run : saveSnapshot P env s' dir d with
  | mk result d' =>
    rw [Attempt.disk, run]
    cases result with
    | ok g => exact .inr ⟨g, ends.1 _ _ run⟩
    | error x => exact (ends.2 _ _ run).1

theorem Published.current {d' : Disk FileName (List Byte)} {s' : CollectionState} {g' : UInt64}
    (published : Published P dir s' g' d d') (current : Current P d dir g s) (small : g.toNat + 1 < 10 ^ 19) :
    g' = g + 1 ∧ Current P d' dir (g + 1) s' ∧ file P d' dir kManifestName ≠ file P d dir kManifestName := by
  obtain ⟨next, after⟩ := published
  rw [current.next] at next
  cases next
  have now := after (by rw [toNat_add_one small]; omega)
  refine ⟨rfl, now, fun same => ?_⟩
  obtain ⟨_, _, _, _, _, before⟩ := current
  obtain ⟨_, _, _, _, _, named⟩ := now
  rw [readManifest_congr same, before] at named
  have generations := congrArg (Manifest.generation · |>.toNat) (Except.ok.inj named)
  simp only [toNat_add_one small] at generations
  omega

/-- What is published along a run comes in order, and the last of it is what is on the disk. -/
theorem published_spec : ∀ (attempts : List Attempt) {d : Disk FileName (List Byte)} {g : UInt64}
    {s : CollectionState}, Current P d dir g s →
    Numbered P dir d attempts →
      ((g, s) :: published P dir d attempts).Pairwise (fun a b => a.1 < b.1) ∧
        ∃ last, ((g, s) :: published P dir d attempts).getLast? = some last ∧
        Current P (diskAfter P dir d attempts) dir last.1 last.2
  | [], d, g, s, current, _ => ⟨List.pairwise_singleton _ _, _, rfl, current⟩
  | .collect env :: rest, d, g, s, current, numbered => published_spec rest (disk_collect current env) numbered.tail
  | .save s' env :: rest, d, g, s, current, numbered => by
    have small := numbered.head current
    rw [published]
    rcases disk_save P dir s' env d with ⟨same, kept⟩ | ⟨g', new⟩
    · simp only [same, if_true]
      exact published_spec rest (kept g s current small) numbered.tail
    · obtain ⟨rfl, now, changed⟩ := new.current current small
      simp only [changed, if_false, current.next]
      obtain ⟨ordered, last, found, holds⟩ := published_spec rest now numbered.tail
      refine ⟨List.pairwise_cons.mpr ⟨fun x mem => ?_, ordered⟩, last, by
        rw [List.getLast?_cons_cons, found], holds⟩
      have step : g < g + 1 := UInt64.lt_iff_toNat_lt.mpr (by rw [toNat_add_one small]; omega)
      rcases List.mem_cons.mp mem with rfl | mem
      · exact step
      · exact UInt64.lt_trans step ((List.pairwise_cons.mp ordered).1 x mem)

/-- Every save that returns has published what it was given. -/
theorem mem_published : ∀ (before : List Attempt) {d d' : Disk FileName (List Byte)} {g g' : UInt64}
    {s s' : CollectionState} {env : Environment FileName (List Byte)} {rest : List Attempt}, Current P d dir g s →
    Numbered P dir d (before ++ .save s' env :: rest) →
    saveSnapshot P env s' dir (diskAfter P dir d before) = (.ok g', d') →
      (g', s') ∈ published P dir d (before ++ .save s' env :: rest)
  | [], d, d', g, g', s, s', env, rest, current, numbered, run => by
    have small := numbered.head current
    have done := (saveSnapshot_ends P env dir s' d).1 _ _ run
    have disk : Attempt.disk P dir (.save s' env) d = d' := congrArg Prod.snd run
    obtain ⟨rfl, -, changed⟩ := done.current current small
    rw [List.nil_append, published, disk]
    simp only [changed, if_false, current.next, List.mem_cons, true_or]
  | .collect env' :: before, d, d', g, g', s, s', env, rest, current, numbered, run =>
    mem_published before (disk_collect current env') numbered.tail run
  | .save s₁ env' :: before, d, d', g, g', s, s', env, rest, current, numbered, run => by
    have small := numbered.head current
    rw [List.cons_append, published]
    rcases disk_save P dir s₁ env' d with ⟨same, kept⟩ | ⟨g₁, new⟩
    · simp only [same, if_true]
      exact mem_published before (kept g s current small) numbered.tail run
    · obtain ⟨rfl, now, changed⟩ := new.current current small
      simp only [changed, if_false, current.next]
      exact List.mem_cons_of_mem _ (mem_published before now numbered.tail run)

/-- What is published has been handed to an attempt. -/
theorem saved_of_published : ∀ (attempts : List Attempt) {d : Disk FileName (List Byte)}
    {x : UInt64 × CollectionState},
    x ∈ published P dir d attempts → ∃ env, Attempt.save x.2 env ∈ attempts
  | .collect env :: rest, d, x, mem => by
    obtain ⟨env', there⟩ := saved_of_published rest mem
    exact ⟨env', List.mem_cons_of_mem _ there⟩
  | .save s env :: rest, d, x, mem => by
    have later : x ∈ published P dir (Attempt.disk P dir (.save s env) d) rest →
        ∃ env', Attempt.save x.2 env' ∈ Attempt.save s env :: rest := by
      intro mem
      obtain ⟨env', there⟩ := saved_of_published rest mem
      exact ⟨env', List.mem_cons_of_mem _ there⟩
    rw [published] at mem
    split at mem
    next => exact later mem
    next =>
      split at mem
      next =>
        rcases List.mem_cons.mp mem with rfl | mem
        · exact ⟨env, List.mem_cons_self⟩
        · exact later mem
      next => exact later mem

/-- Loading the current generation is reading its file. -/
theorem loadSnapshot_eq (current : Current P d dir g s) : ∃ bytes, image s = .ok bytes ∧
    ∀ options t, loadSnapshot P d dir options = .ok t ↔ IndexReader.readIndex (.ok ()) bytes options = .ok t := by
  obtain ⟨bytes, crc, written, there, header, named⟩ := current
  refine ⟨bytes, written, fun options t => ?_⟩
  rw [loadSnapshot, named]
  simp only [Outcome.lift_ok, Outcome.ok_bind, header]
  rw [if_neg (by simp), load, there]
  simp only
  split
  next st failed =>
    rw [failed]
    constructor <;> intro same <;> cases same
  next => rfl

theorem image_of_repInv (inv : s.RepInv) (creator : s.creator.length ≤ Format.kMaxCreatorLength) :
    image s = .ok (IndexWriter.fileOf (IndexWriter.headerFlags s) (IndexWriter.partsOf s)) := by
  rw [image, IndexWriter.writeIndex_partsOf (IndexWriter.savable inv) creator]

/-- The current generation loads to what was saved, if its file can be loaded at all. -/
theorem loadSnapshot_of_current (current : Current P d dir g s) (ok : s.Persistable)
    {options : IndexReader.ReadOptions}
    (resolved : options.verify ≠ .auto) : ∃ t, loadSnapshot P d dir options = .ok t ∧ IndexReader.SameState t s ∧
      t.config.concurrency = options.concurrency := by
  obtain ⟨bytes, written, loads⟩ := loadSnapshot_eq current
  obtain ⟨t, read, same⟩ := IndexReader.readIndex_written ok resolved
  rw [image_of_repInv ok.toRepInv ok.creator] at written
  cases written
  exact ⟨t, (loads options t).mpr read, same⟩

/-- Each attempt adds at most one generation. -/
theorem numbered_of_length : ∀ (attempts : List Attempt) {d : Disk FileName (List Byte)} {g : UInt64}
    {s : CollectionState},
    Current P d dir g s → g.toNat + attempts.length + 1 < 10 ^ 19 → Numbered P dir d attempts
  | [], d, g, s, current, small => fun k m known => by
    obtain ⟨_, _, _, _, _, named⟩ := current
    rw [List.take_nil] at known
    cases named.symm.trans known
    exact small
  | a :: rest, d, g, s, current, small => fun k m known => by
    rw [List.length_cons] at small
    cases k with
    | zero =>
      obtain ⟨_, _, _, _, _, named⟩ := current
      cases named.symm.trans known
      change g.toNat + 1 < 10 ^ 19
      omega
    | succ k =>
      cases a with
      | collect env => exact numbered_of_length rest (disk_collect current env) (by omega) k m known
      | save s' env =>
        rcases disk_save P dir s' env d with ⟨_, kept⟩ | ⟨g', new⟩
        · exact numbered_of_length rest (kept g s current (by omega)) (by omega) k m known
        · obtain ⟨rfl, now, _⟩ := new.current current (by omega)
          exact numbered_of_length rest now (by rw [toNat_add_one (by omega)]; omega) k m known

/-- Where all steps work a snapshot is taken. -/
theorem saveSnapshot_works (env : Environment FileName (List Byte))
    (smooth : ∀ step, env.turn step = .works) (inv : s.RepInv)
    (creator : s.creator.length ≤ Format.kMaxCreatorLength) (next : nextGeneration (readManifest P d dir) = .ok g) :
    ∃ d', saveSnapshot P env s dir d = (.ok g, d') ∧ Published P dir s g d d' := by
  have ends := saveSnapshot_ends P env dir s d
  cases run : saveSnapshot P env s dir d with
  | mk result d' =>
    cases result with
    | ok g' =>
      have done := ends.1 _ _ run
      cases done.1.symm.trans next
      exact ⟨d', rfl, done⟩
    | error x =>
      rcases (ends.2 _ _ run).2 with (⟨st, failed⟩ | short) | ⟨step, left, turn⟩
      · cases failed.symm.trans next
      · have length := short _ (image_of_repInv inv creator)
        rw [IndexWriter.fileOf, List.length_append, Format.length_encodeHeader] at length
        omega
      · rw [smooth step] at turn
        cases x <;> cases turn

end Runs

/-- Once a snapshot has been taken, the directory holds the one that was published last, whatever happens to later
attempts. -/
theorem snapshot_directory_survives_crashes {P : Platform FileName} {dir : FileName}
    {before after : Disk FileName (List Byte)}
    {env : Environment FileName (List Byte)} {s : CollectionState} {g : UInt64}
    (saved : saveSnapshot P env s dir before = (.ok g, after))
    (small : g.toNat < 10 ^ 19) (later : List Attempt) (numbered : Numbered P dir after later)
    (loadable : ∀ s', s' = s ∨ (∃ env', Attempt.save s' env' ∈ later) → s'.Persistable) :
    ((g, s) :: published P dir after later).Pairwise (fun a b => a.1 < b.1) ∧
    (∃ last, ((g, s) :: published P dir after later).getLast? = some last ∧
      Current P (diskAfter P dir after later) dir last.1 last.2 ∧
      ∀ options, options.verify ≠ .auto → ∃ t, loadSnapshot P (diskAfter P dir after later) dir options = .ok t ∧
        IndexReader.SameState t last.2 ∧ t.config.concurrency = options.concurrency) ∧
    (∀ past s' env' rest g' d', later = past ++ .save s' env' :: rest →
      saveSnapshot P env' s' dir (diskAfter P dir after past) = (.ok g', d') →
      (g', s') ∈ published P dir after later) ∧
    ∀ env' d, OnlyFiles P dir Collectable d (collectGarbage P env' dir d).2 ∧ ¬ Collectable kManifestName ∧
      ∀ m, readManifest P d dir = .ok m → file P (collectGarbage P env' dir d).2 dir m.file =
        file P d dir m.file := by
  have current := ((saveSnapshot_ends P env dir s before).1 _ _ saved).2 small
  obtain ⟨ordered, last, found, holds⟩ := published_spec later current numbered
  refine ⟨ordered, ⟨last, found, holds, fun options resolved => ?_⟩, ?_, fun env' d => ?_⟩
  · refine loadSnapshot_of_current holds (loadable last.2 ?_) resolved
    rcases List.mem_cons.mp (List.mem_of_getLast? found) with rfl | mem
    · exact .inl rfl
    · exact .inr (saved_of_published later mem)
  · rintro past s' env' rest g' d' rfl run
    exact mem_published past current numbered run
  · have swept : (collectGarbage P env' dir d).2 = d ∨ ∃ m, readManifest P d dir = .ok m ∧
        Swept P dir m.file d (collectGarbage P env' dir d).2 := by
      have ends := collectGarbage_ends P env' dir d
      cases run : collectGarbage P env' dir d with
      | mk result d' =>
        cases result with
        | ok => exact .inr (ends.1 _ _ run)
        | error x => exact (ends.2 _ _ run).1
    refine ⟨?_, not_collectable_manifest, fun m known => ?_⟩
    · rcases swept with same | ⟨m, -, swept⟩
      · rw [same]
        exact .refl d
      · exact swept.only.mono fun f marked => (collectable_of_doomed marked).1
    · rcases swept with same | ⟨m', known', swept⟩
      · rw [same]
      · cases known.symm.trans known'
        exact swept.only.files _ fun marked => (collectable_of_doomed marked).2 rfl (indexName_of_read known)

/-- A disk on which everything works. -/
def smooth : Environment FileName (List Byte) where
  turn _ := .works

def posix : Platform FileName := ⟨id, true⟩

/-- A power failure in front of the rename of the second `MANIFEST`. -/
def unlucky : Environment FileName (List Byte) where
  turn step := if step = .rename (ascii "c") (tempName kManifestName) kManifestName then .stops [] else .works

theorem nextGeneration_empty : nextGeneration
    (readManifest posix (∅ : Disk FileName (List Byte)) (ascii "c")) = .ok 1 := rfl

theorem snapshot_directory_survives_crashes_twice :
    ∃ after, saveSnapshot posix smooth Persistence.upserted (ascii "c") ∅ = (.ok 1, after) ∧
    ∃ last, ((1, Persistence.upserted) :: published posix (ascii "c") after [.save Persistence.upserted unlucky,
      .collect smooth]).getLast? = some last ∧
      Current posix (diskAfter posix (ascii "c") after [.save Persistence.upserted unlucky, .collect smooth])
        (ascii "c") last.1 last.2 := by
  have ok := Persistence.upserted_persistable
  obtain ⟨after, saved, published⟩ :=
    saveSnapshot_works smooth (fun _ => rfl) ok.toRepInv ok.creator nextGeneration_empty
  have current := published.2 (by decide)
  obtain ⟨-, ⟨last, found, holds, -⟩, -⟩ :=
    snapshot_directory_survives_crashes saved (by decide) [.save Persistence.upserted unlucky, .collect smooth]
    (numbered_of_length _ current (by decide)) (fun s' given => by
      rcases given with rfl | ⟨env', mem⟩
      · exact ok
      · simp only [List.mem_cons, Attempt.save.injEq, reduceCtorEq, List.not_mem_nil, or_false] at mem
        exact mem.1 ▸ ok)
  exact ⟨after, saved, last, found, holds⟩

/-- A snapshot of a flat collection with a level cap that the reader does not accept is taken and cannot be
loaded. -/
theorem tall_snapshot_is_lost : ∃ s after, Collection.create (.ok ()) 0 Guarantees.tallFlatConfig = .ok s ∧
    saveSnapshot posix smooth s (ascii "c") ∅ = (.ok 1, after) ∧
    ∀ t, loadSnapshot posix after (ascii "c") {} ≠ .ok t := by
  obtain ⟨s, created⟩ := Guarantees.create_ok 0 (show Guarantees.tallFlatConfig.validate = .ok () by decide)
  obtain ⟨sound, config, _⟩ := Collection.create_sound created
  have inv := Collection.Sound.repInv sound
  obtain ⟨_, creator⟩ := (Collection.Reachable.created (k := Guarantees.zeroKernels) created).sound
  obtain ⟨after, saved, published⟩ := saveSnapshot_works smooth (fun _ => rfl) inv creator nextGeneration_empty
  refine ⟨s, after, created, saved, fun t loaded => ?_⟩
  obtain ⟨bytes, written, loads⟩ := loadSnapshot_eq (published.2 (by decide))
  rw [image_of_repInv inv creator] at written
  cases written
  obtain ⟨low, _⟩ := IndexReader.readIndex_of_ok inv creator (by decide) ((loads _ _).mp loaded)
  rw [config] at low
  exact absurd low (by decide)

end VectorForge.Snapshot
