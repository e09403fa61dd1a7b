import VectorForge.Collection.BatchSemantics
import VectorForge.Collection.FlatQueries

/-! `compact` keeps the live rows and forgets the others. -/

namespace VectorForge
open Effect
open IndexReader (SameState)

namespace CollectionState
variable {k : KernelTable} {lost : Nat → Prop} {s t u v : CollectionState} {xs : List (ExternalId × List F32)}
  {creator : List Byte} {now : UInt64}

/-- The same collection with another creator and another creation time. -/
def stamped (s : CollectionState) (creator : List Byte) (now : UInt64) : CollectionState :=
  { s with creator, createdUnixMs := now }

theorem Sound.stamped (sound : s.Sound lost) (creator : List Byte) (now : UInt64) :
    (s.stamped creator now).Sound lost :=
  { sound with }

theorem RowAdded.stamped {upsert : Bool} {id : ExternalId} {row : List F32}
    (added : RowAdded k lost upsert s id row t) (creator : List Byte) (now : UInt64) :
    RowAdded k lost upsert (s.stamped creator now) id row (t.stamped creator now) where
  sound := added.sound.stamped creator now
  allowed := added.allowed
  inserted := by
    obtain ⟨ids, reservation, backend, reserves, links, inserted⟩ := added.inserted
    exact ⟨ids, reservation, backend, reserves, links, { inserted with creator := rfl, createdUnixMs := rfl }⟩

/-- What is added does not depend on the header. -/
theorem RowsAdded.stamped {upsert : Bool} (added : RowsAdded k lost upsert s xs t)
    (creator : List Byte) (now : UInt64) :
    RowsAdded k lost upsert (s.stamped creator now) xs (t.stamped creator now) := by
  induction added with
  | nil kept => exact .nil { kept with creator := rfl, createdUnixMs := rfl }
  | cons one _ ih => exact .cons (one.stamped creator now) ih

theorem RowsAdded.createdUnixMs {upsert : Bool} (added : RowsAdded k lost upsert s xs t) :
    t.createdUnixMs = s.createdUnixMs := by
  induction added with
  | nil kept => exact kept.createdUnixMs
  | cons one _ ih =>
    obtain ⟨_, _, _, _, _, inserted⟩ := one.inserted
    exact ih.trans inserted.createdUnixMs

/-- Rows under new ids mark nothing. -/
theorem RowsAdded.marks (added : RowsAdded k lost false s xs t) : s.Sound lost →
    (∀ i, t.deleted.test i = s.deleted.test i) ∧ t.deleted.count = s.deleted.count := by
  induction added with
  | nil kept => exact fun _ => ⟨kept.marks, kept.count⟩
  | @cons s s' _ x _ one _ ih =>
    intro sound
    obtain ⟨marks, count⟩ := ih one.sound
    obtain ⟨_, reservation, _, reserves, _, inserted⟩ := one.inserted
    have fresh : reservation.previous = kInvalidInternalId ∧ ¬reservation.previous < s.vectors.size := by
      obtain ⟨_, _, _, _, _, ⟨_, none⟩ | ⟨wrong, _⟩⟩ := IdMap.reserve_spec reserves
      · rcases sound.toCoupled.previous reserves with known | ⟨real, _⟩
        · exact known
        · exact absurd none real
      · cases wrong
    refine ⟨fun i => ?_, ?_⟩
    · have away : ¬(i = reservation.previous ∧ i < s.vectors.size) := by
        rintro ⟨rfl, below⟩
        exact fresh.2 below
      rw [marks, inserted.marks, decide_eq_false away, Bool.or_false]
    · rw [count, inserted.count, if_pos fresh.1]
      rfl

end CollectionState

namespace Collection
open Op CollectionState
variable {k : KernelTable} {lost : Nat → Prop} {s t u v start fresh : CollectionState}
  {xs : List (ExternalId × List F32)} {w : World}

/-- Rows added to nothing are all that there is. -/
theorem RowsAdded.dense (emptied : Emptied s start)
    (added : RowsAdded k (fun _ => False) false start (liveRows s) t) : Dense s t ∧ t.deleted.count = 0 := by
  obtain ⟨marks, count⟩ := added.marks emptied.sound
  have clear (i : Nat) : t.deleted.test i = false := by
    rw [marks, emptied.deleted]
    rfl
  have labels : t.ids.labels = (liveRows s).map Prod.fst := by
    rw [added.labels, emptied.ids]
    rfl
  have rows : t.vectors.rows = (liveRows s).map Prod.snd := by
    rw [added.rows, emptied.rows]
    rfl
  have size : t.vectors.size = (liveRows s).length := by rw [← VectorStore.length_rows, rows, List.length_map]
  refine ⟨⟨added.config.trans emptied.config, clear, ?_⟩, ?_⟩
  · rw [liveRows, List.filter_eq_self.mpr fun r _ => by rw [clear]; rfl]
    refine List.ext_getElem ?_ ?_
    · rw [List.length_map, List.length_range, size]
    · intro i inside inside'
      have row : i < t.vectors.size := size ▸ inside'
      rw [List.getElem_map, List.getElem_range, row_eq_getD t row, labels, rows,
        List.getD_eq_getElem _ _ (by simpa using inside'),
        List.getD_eq_getElem _ _ (by simpa using inside'), List.getElem_map, List.getElem_map]
  · rw [count, emptied.deleted]

/-- The vector of an id. -/
def vectorOf (s : CollectionState) (id : ExternalId) : Option (List F32) := (s.ids.find id).map s.vectors.row

theorem vectorOf_eq_some (sound : s.Sound lost) {id : ExternalId} {row : List F32} :
    vectorOf s id = some row ↔ (id, row) ∈ liveRows s := by
  rw [vectorOf, Option.map_eq_some_iff, liveRows_eq, List.mem_map]
  constructor
  · rintro ⟨r, found, rfl⟩
    obtain ⟨label, live⟩ := (sound.settled.find_eq_some sound.labels_le).mp found
    have inside := (List.getElem?_eq_some_iff.mp label).1
    refine ⟨r, mem_liveIds.mpr ⟨sound.labels ▸ inside, live⟩, ?_⟩
    rw [List.getD_eq_getElem?_getD, label, Option.getD_some]
  · rintro ⟨r, member, same⟩
    obtain ⟨inside, live⟩ := mem_liveIds.mp member
    obtain ⟨rfl, rfl⟩ := Prod.mk.inj same
    refine ⟨r, (sound.settled.find_eq_some sound.labels_le).mpr ⟨?_, live⟩, rfl⟩
    rw [List.getElem?_eq_getElem (sound.labels ▸ inside), List.getD_eq_getElem _ _ (sound.labels ▸ inside)]

/-- `insert_reserved` of rows as they are stored, one after the other. -/
def addStored (k : KernelTable) : List (ExternalId × List F32) → Op Unit
  | [] => return
  | x :: xs => do
    let reservation ← reserveId x.1 false
    insertReserved reservation x.2 (backendAdd k)
    addStored k xs

/-- Rows that could be added one after the other can be added to whatever looks alike. -/
theorem addStored_run (adds : RowsAdded k lost false u xs t) : u.Sound lost → t.Sound lost →
    (∀ x ∈ xs, x.2.length = u.config.dim.toNat) → Alike v u → w.Ample → ∃ τ, addStored k xs ⟨v, w⟩ = (.ok (), τ) ∧
      Alike τ.state t ∧ (SameEntry v u → SameEntry τ.state t) := by
  induction adds generalizing v w with
  | @nil s t kept =>
    intro sound held _ alike _
    refine ⟨⟨v, w⟩, rfl, ⟨alike.same.trans (SameState.of_kept kept).symm, alike.left, ⟨lost, held⟩, alike.creator⟩,
      ?_⟩
    exact fun entry => entry.of_backends rfl kept.backend
  | @cons s s' u x xs added rest ih =>
    intro sound held lengths alike ample
    obtain ⟨lost', sound'⟩ := alike.left
    have config : s'.config = s.config := by
      obtain ⟨_, _, _, _, _, inserted⟩ := added.inserted
      exact inserted.config
    have length : x.2.length = v.vectors.dim := by
      rw [lengths x List.mem_cons_self, sound'.dim, alike.same.config]
    have allowed : v.keyRefusal x.1 false = none :=
      (alike.same.keyRefusal sound'.toCoupled sound.toCoupled).trans added.allowed
    have ends : Ends (do let reservation ← reserveId x.1 false; insertReserved reservation x.2 (backendAdd k))
        ⟨v, w⟩ _ _ :=
      linkedRow_ends sound' length
    rcases decided ends ample with
      ⟨_, σ, run, later, one⟩ | ⟨e, _, refused, _⟩
    · have next : Alike σ.state s' := by
        have creator : σ.state.creator = v.creator := one.creator
        exact ⟨alike.same.rowAdded sound' sound one added, ⟨lost', one.sound⟩, ⟨lost, added.sound⟩,
          creator ▸ alike.creator⟩
      obtain ⟨τ, goes, after, entry⟩ := ih added.sound held (fun y member => by
        rw [config]
        exact lengths y (List.mem_cons_of_mem x member)) next (later.ample ample)
      refine ⟨τ, ?_, after, fun _ => entry (added.sameEntry sound next.same)⟩
      obtain ⟨reservation, σ₁, reserved, inserted⟩ := ok_of_bind run
      exact (bind_of_ok reserved).trans ((bind_of_ok inserted).trans goes)
    · rw [allowed] at refused
      cases refused

/-- Nothing but the header tells two collections without rows apart. -/
theorem created_alike {simd : Result Unit} {now : UInt64} (emptied : Emptied s start)
    (run : create simd now s.config = .ok fresh) : Alike fresh (start.stamped fresh.creator fresh.createdUnixMs) ∧
      SameEntry fresh (start.stamped fresh.creator fresh.createdUnixMs) := by
  obtain ⟨sound, _, _, rows, creator⟩ := create_sound run
  obtain ⟨_, vectors, backend, _, attached, made⟩ := create_made run
  have here : Emptied (s.stamped fresh.creator fresh.createdUnixMs) fresh :=
    ⟨sound, by rw [made]; rfl, rfl, rfl, rows, by rw [made], by rw [made], by rw [made]; exact attached⟩
  have there : Emptied (s.stamped fresh.creator fresh.createdUnixMs)
      (start.stamped fresh.creator fresh.createdUnixMs) :=
    ⟨emptied.sound.stamped _ _, emptied.config, rfl, rfl, emptied.rows, emptied.ids,
      emptied.deleted, emptied.backend⟩
  refine ⟨⟨here.same there (.refl _), ⟨_, sound⟩, ⟨_, there.sound⟩, ?_⟩, here.sameEntry there (.refl _)⟩
  rw [creator]
  decide

/-- How `compact` ends, as seen from outside. -/
theorem compact_dense (sound : s.Sound lost) : Ends (compact k) ⟨s, w⟩
    (fun stats τ => Dense s τ.state ∧ τ.state.deleted.count = 0 ∧ (∃ lost, τ.state.Sound lost) ∧
      stats = ⟨s.vectors.size, s.deleted.count, τ.state.vectors.size⟩ ∧
      τ.state.creator = s.creator ∧ τ.state.createdUnixMs = s.createdUnixMs ∧ (s.deleted.count = 0 → τ.state = s) ∧
      (s.deleted.count ≠ 0 → τ.state.Sound (fun _ => False) ∧
        ∃ start, Emptied s start ∧ RowsAdded k (fun _ => False) false start (liveRows s) τ.state))
    fun _ τ => τ.state = s := by
  refine (compact_ends sound).mono ?_ fun _ τ left => left.1
  rintro stats τ ⟨_, ⟨none, same, rfl⟩ | ⟨some, rfl, held, start, emptied, added⟩⟩
  · rw [same]
    have clear (i : Nat) : s.deleted.test i = false := by
      rw [← sound.tracks.any_and_test, TombstoneSet.any, none]
      rfl
    exact ⟨⟨rfl, clear, rfl⟩, none, ⟨lost, sound⟩, rfl, rfl, rfl, fun _ => rfl, fun some => absurd none some⟩
  · obtain ⟨dense, count⟩ := RowsAdded.dense emptied added
    refine ⟨dense, count, ⟨_, held⟩, rfl, (RowsAdded.creator added).trans emptied.creator, ?_,
      fun none => absurd none some, ?_⟩
    · exact (RowsAdded.createdUnixMs added).trans emptied.createdUnixMs
    · exact fun _ => ⟨held, start, emptied, added⟩

end Collection

namespace Guarantees
open Collection CollectionState

/-- Two rows are added, the first is removed, and then the collection is compacted. -/
def removeFirst : Op CompactStats := do
  let _ ← Command.run zeroKernels (.add 7 [F32.zero] false)
  let _ ← Command.run zeroKernels (.add 8 [F32.zero] false)
  let _ ← Command.run zeroKernels (.remove 7)
  compact zeroKernels

end Guarantees
end VectorForge
