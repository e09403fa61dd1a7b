import VectorForge.Collection.Compaction
import VectorForge.Collection.KeyedMap
import VectorForge.Collection.QueryReplies

/-! A Flat collection answers as the map that it holds. -/

namespace VectorForge
open Effect
open IndexReader (SameState)

namespace Collection
open Op CollectionState
variable {k : KernelTable} {lost : Nat → Prop} {s t : CollectionState} {m : KeyedMap} {id : ExternalId}
  {row vector : List F32} {upsert : Bool} {w : World}

/-- The collection holds the entries of the map, in the order of their insertion. -/
structure Represents (s : CollectionState) (m : KeyedMap) : Prop where
  pairs : m.map.pairs = liveRows s
  used : m.used = s.vectors.size

namespace Represents

variable (id) in
theorem find_value (rep : Represents s m) (sound : s.Sound lost) :
    (m.map.find id).map (·.value) = vectorOf s id := by
  refine Option.ext fun row => ?_
  rw [vectorOf_eq_some sound, ← rep.pairs, OrderedMap.find_map_value]

theorem contains_eq (rep : Represents s m) (sound : s.Sound lost) : m.map.contains id = s.ids.contains id := by
  have values := congrArg Option.isSome (rep.find_value id sound)
  rwa [Option.isSome_map, vectorOf, Option.isSome_map] at values

theorem size_eq (rep : Represents s m) (sound : s.Sound lost) : m.map.size = s.ids.size := by
  rw [← OrderedMap.length_pairs, rep.pairs, liveRows_eq, List.length_map, length_liveIds sound]

end Represents

/-- Between operations an id is mapped if and only if it is found. -/
theorem lookup_of_contains (sound : s.Sound lost) : s.ids.contains id = (s.ids.map.lookup id).isSome := by
  rw [IdMap.contains, IdMap.find]
  cases found : s.ids.map.lookup id with
  | none => rfl
  | some entry =>
    have real : entry.current ≠ kInvalidInternalId := by
      have inside := sound.settled.row_lt found
      have few := sound.toCoupled.labels_le
      simp only [kMaxVectorsPerCollection] at few
      omega
    simp only [if_neg real]
    rfl

variable (id upsert) in
/-- A row is refused for the reasons for which the map refuses it. -/
theorem keyRefusal_code (rep : Represents s m) (sound : s.Sound lost) (flat : s.backend = .flat) (row : List F32) :
    (s.keyRefusal id upsert).map Status.code = failure (m.insert id row upsert) := by
  have present : m.map.contains id = (s.ids.map.lookup id).isSome :=
    (rep.contains_eq sound).trans (lookup_of_contains sound)
  rw [keyRefusal, KeyedMap.insert, present, rep.used]
  by_cases reserved : id = kInvalidExternalId
  · rw [IdMap.reserve, if_pos reserved, if_pos reserved]
    rfl
  rw [if_neg reserved]
  by_cases taken : (s.ids.map.lookup id).isSome = true ∧ upsert = false
  · obtain ⟨entry, found⟩ := Option.isSome_iff_exists.mp taken.1
    have quiet := sound.settled.quiet id entry found
    simp only [IdMap.reserve, if_neg reserved, found, quiet, taken.2]
    rfl
  · have free : ((s.ids.map.lookup id).isSome && !upsert) = false := by
      rw [Bool.and_eq_false_iff, Bool.not_eq_false']
      rw [not_and_or, Bool.not_eq_true, Bool.not_eq_false] at taken
      exact taken
    have allowed : upsert = true ∨ s.ids.map.lookup id = none := by
      rw [not_and_or, Bool.not_eq_true, Bool.not_eq_false, Option.isSome_eq_false_iff,
        Option.isNone_iff_eq_none] at taken
      exact taken.symm
    obtain ⟨ids, reservation, reserves⟩ := sound.settled.reserve_total reserved allowed
    rw [reserves, free, if_neg Bool.false_ne_true]
    simp only [rowRefusal, sound.limit, indexRefusal, flat, ge_iff_le]
    by_cases full : kMaxVectorsPerCollection ≤ s.vectors.size
    · rw [if_pos full, if_pos full]
      rfl
    · rw [if_neg full, if_neg full]
      rfl

section Rows

/-- A row with its id. -/
def pairAt (s : CollectionState) (r : Nat) : ExternalId × List F32 :=
  (s.ids.labels.getD r kInvalidExternalId, s.vectors.row r)

/-- Of the live rows, those of other ids are the other rows. -/
theorem filter_pairs {gone : Nat} (named : ∀ r, r ∈ liveIds s → ((pairAt s r).1 = id ↔ r = gone)) :
    (liveRows s).filter (fun x => decide (x.1 ≠ id)) =
      ((liveIds s).filter fun r => decide (r ≠ gone)).map (pairAt s) := by
  rw [liveRows_eq, List.filter_map]
  refine congrArg (List.map (pairAt s)) (List.filter_congr fun r member => ?_)
  exact decide_eq_decide.mpr (not_congr (named r member))

theorem label_iff (sound : s.Sound lost) {r gone : Nat} (live : r ∈ liveIds s)
    (label : s.ids.labels[gone]? = some id)
    (unmarked : s.deleted.test gone = false) : (pairAt s r).1 = id ↔ r = gone := by
  obtain ⟨inside, here⟩ := mem_liveIds.mp live
  have known : s.ids.labels[r]? = some (pairAt s r).1 := by
    rw [pairAt, List.getD_eq_getElem _ _ (sound.labels ▸ inside), List.getElem?_eq_getElem (sound.labels ▸ inside)]
  constructor
  · intro same
    exact sound.settled.live_unique (same ▸ known) label here unmarked
  · rintro rfl
    exact Option.some.inj (known.symm.trans label)

/-- The live rows after one more row: the one that it replaces is gone. -/
theorem liveRows_inserted (sound : s.Sound lost) (added : RowAdded k lost upsert s id row t) :
    liveRows t = ((liveRows s).filter fun x => decide (x.1 ≠ id)) ++ [(id, row)] := by
  obtain ⟨ids, reservation, _, reserves, _, inserted⟩ := added.inserted
  obtain ⟨_, external, _, _, _, before⟩ := IdMap.reserve_spec reserves
  have labels : t.ids.labels = s.ids.labels ++ [id] := by
    rw [inserted.ids, ← external]
    rfl
  have size : t.vectors.size = s.vectors.size + 1 := by
    rw [← VectorStore.length_rows, inserted.rows, List.length_append, VectorStore.length_rows]
    rfl
  have older (r : Nat) (inside : r < s.vectors.size) : pairAt t r = pairAt s r := by
    have listed : r < s.vectors.rows.length := VectorStore.length_rows ▸ inside
    rw [pairAt, pairAt, labels, List.getD_append _ _ _ _ (sound.labels ▸ inside), row_eq_getD t (by omega),
      row_eq_getD s inside,
      inserted.rows, List.getD_append _ _ _ _ listed]
  have newest : pairAt t s.vectors.size = (id, row) := by
    rw [pairAt, labels, row_eq_getD t (by omega), inserted.rows, List.getD_append_right _ _ _ _ sound.labels.le,
      sound.labels, Nat.sub_self,
      List.getD_append_right _ _ _ _ VectorStore.length_rows.le, VectorStore.length_rows, Nat.sub_self]
    rfl
  have named : ∀ r, r ∈ liveIds s → ((pairAt s r).1 = id ↔ r = reservation.previous) := by
    intro r live
    obtain ⟨inside, here⟩ := mem_liveIds.mp live
    rcases before with ⟨unknown, none⟩ | ⟨_, known⟩
    · have few := sound.toCoupled.rows_le
      have away : r ≠ reservation.previous := by
        simp only [kMaxVectorsPerCollection] at few
        omega
      refine ⟨fun same => ?_, fun same => absurd same away⟩
      have mapped := (sound.settled.maps id r).mpr ⟨?_, here⟩
      · cases unknown.symm.trans mapped
      · rw [← same, pairAt, List.getD_eq_getElem _ _ (sound.labels ▸ inside),
          List.getElem?_eq_getElem (sound.labels ▸ inside)]
    · obtain ⟨label, unmarked⟩ := (sound.settled.maps id _).mp known
      exact label_iff sound live label unmarked
  have fresh : t.deleted.test s.vectors.size = false := by
    rw [inserted.marks, sound.tracks.fresh (Nat.le_refl _),
      decide_eq_false (fun both => absurd both.2 (Nat.lt_irrefl _))]
    rfl
  have live : liveIds t = ((liveIds s).filter fun r => decide (r ≠ reservation.previous)) ++ [s.vectors.size] := by
    rw [liveIds, size, List.range_succ, List.filter_append, liveIds, List.filter_filter]
    congr 1
    · refine List.filter_congr fun r member => ?_
      have inside : r < s.vectors.size := List.mem_range.mp member
      rw [inserted.marks]
      simp only [inside, and_true, Bool.not_or, ne_eq, decide_not, Bool.and_comm]
    · simp only [List.filter_cons, fresh, Bool.not_false, if_true, List.filter_nil]
  rw [filter_pairs named, liveRows_eq, live, List.map_append, List.map_singleton]
  refine congrArg₂ (· ++ ·) (List.map_congr_left fun r member => ?_) (congrArg (fun x => [x]) newest)
  exact older r (mem_liveIds.mp (List.mem_filter.mp member).1).1

/-- The live rows without one that was removed. -/
theorem liveRows_removed (sound : s.Sound lost) (removed : Removed s id t) :
    liveRows t = (liveRows s).filter fun x => decide (x.1 ≠ id) := by
  obtain ⟨gone, erased, marks, _⟩ := removed.erased
  obtain ⟨labels, label, unmarked, _⟩ := sound.settled.erase erased marks
  have vectors : t.vectors = s.vectors := by rw [removed.frame]
  have live : liveIds t = (liveIds s).filter fun r => decide (r ≠ gone) := by
    rw [liveIds, vectors, liveIds, List.filter_filter]
    refine List.filter_congr fun r _ => ?_
    rw [marks]
    simp only [Bool.not_or, ne_eq, decide_not, Bool.and_comm]
  rw [filter_pairs fun r member => label_iff sound member label unmarked, liveRows_eq, live]
  refine List.map_congr_left fun r _ => ?_
  rw [pairAt, labels, vectors]

end Rows

namespace Represents

theorem of_kept (rep : Represents s m) (kept : Kept s t) : Represents t m where
  pairs := rep.pairs.trans (liveRows_congr (SameState.of_kept kept)).symm
  used := rep.used.trans kept.size.symm

theorem put (rep : Represents s m) (sound : s.Sound lost) (added : RowAdded k lost upsert s id row t) :
    Represents t { map := m.map.put id row, used := m.used + 1 } where
  pairs := by rw [liveRows_inserted sound added, ← rep.pairs, OrderedMap.pairs_put]
  used := by
    obtain ⟨_, _, _, _, _, inserted⟩ := added.inserted
    rw [← VectorStore.length_rows, inserted.rows, List.length_append, VectorStore.length_rows, rep.used]
    rfl

theorem erase (rep : Represents s m) (sound : s.Sound lost) (removed : Removed s id t) :
    Represents t { m with map := m.map.erase id } where
  pairs := by rw [liveRows_removed sound removed, ← rep.pairs, OrderedMap.pairs_erase]
  used := by
    rw [removed.frame]
    exact rep.used

/-- Where there is room, rows under different ids are all added. -/
theorem putAll {xs : List (ExternalId × List F32)} {r : Option Status} (adds : AddsRows k lost upsert s xs r t) :
    ∀ {m : KeyedMap}, s.Sound lost → s.config.index = .flat → Represents s m → (xs.map Prod.fst).Nodup →
      kInvalidExternalId ∉ xs.map Prod.fst → (upsert = true ∨ ∀ x ∈ xs, m.map.contains x.1 = false) →
      m.used + xs.length ≤ kMaxVectorsPerCollection →
      r = none ∧ Represents t { map := m.map.putAll xs, used := m.used + xs.length } := by
  induction adds with
  | nil kept => exact fun _ _ rep _ _ _ _ => ⟨rfl, rep.of_kept kept⟩
  | @refused s t x xs e refusal kept =>
    intro m sound flat rep _ real free room
    have refused := keyRefusal_code x.1 upsert rep sound (flat_of_config sound.toCoupled flat) x.2
    have named : x.1 ≠ kInvalidExternalId := fun same => real (same ▸ List.mem_cons_self)
    have allowed : (m.map.contains x.1 && !upsert) = false := by
      rcases free with yes | unknown
      · rw [yes, Bool.not_true, Bool.and_false]
      · rw [unknown x List.mem_cons_self, Bool.false_and]
    rw [List.length_cons] at room
    rw [refusal, KeyedMap.insert, if_neg named, allowed, if_neg Bool.false_ne_true, if_neg (by omega)] at refused
    cases refused
  | @cons s t u x xs r added rest ih =>
    intro m sound flat rep distinct real free room
    obtain ⟨first, others⟩ := List.nodup_cons.mp distinct
    have config : t.config = s.config := (RowsAdded.single added).config
    rw [List.length_cons] at room
    have free' : upsert = true ∨ ∀ y ∈ xs, (m.map.put x.1 x.2).contains y.1 = false := by
      refine free.imp_right fun unknown y member => ?_
      have different : y.1 ≠ x.1 := fun same => first (same ▸ List.mem_map_of_mem member)
      exact (OrderedMap.contains_put different).trans (unknown y (List.mem_cons_of_mem x member))
    obtain ⟨none, last⟩ := ih added.sound (config ▸ flat) (rep.put sound added) others
      (fun member => real (List.mem_cons_of_mem _ member)) free' (by dsimp only; omega)
    refine ⟨none, last.pairs, ?_⟩
    have used := last.used
    dsimp only at used ⊢
    rw [List.length_cons]
    omega

end Represents
end Collection
end VectorForge
