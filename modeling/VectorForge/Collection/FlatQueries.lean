import VectorForge.Collection.Answers

/-! What a query returns from a flat index, and that it returns the same from any index with the same
live rows. -/

namespace VectorForge
open Effect

namespace Collection
open Op CollectionState
variable {k : KernelTable} {lost : Nat → Prop} {s t : CollectionState} {leased leased' : VisitedSet}
  {w : World} {query : List F32} {params : SearchParams}

/-- The results with external ids. -/
def labelled (s : CollectionState) (found : List ScoredId) : List Neighbor :=
  found.map fun c => { id := s.ids.labels.getD c.id kInvalidExternalId, distance := c.distance }

theorem relabel_eq : ∀ {found : List ScoredId}, (∀ c ∈ found, c.id < s.ids.labels.length) →
    relabel s.ids.labels found = .ok (labelled s found)
  | [], _ => rfl
  | c :: rest, inside => by
    have here := inside c List.mem_cons_self
    have first : labelled s (c :: rest) = { id := s.ids.labels[c.id], distance := c.distance } ::
        labelled s rest := by
      rw [← List.getD_eq_getElem _ kInvalidExternalId here]
      rfl
    rw [relabel, Outcome.index_ok here, relabel_eq fun d member => inside d (List.mem_cons_of_mem c member), first]
    rfl

/-- What is found in a flat index. -/
def flatFound (k : KernelTable) (s : CollectionState) (params : SearchParams) (view : QueryView) : List ScoredId :=
  FlatBackend.search k s.config.metric s.normalized view s.vectors s.deleted (knobsFor params s.vectors.size)

theorem search_flat (batched : k.Batched) (sound : s.Sound lost) (flat : s.backend = .flat) (w : World) :
    search k leased query params ⟨s, w⟩ = (do
      lift params.validate
      let view ← lift (prepareQuery k s query)
      allocate
      return labelled s (flatFound k s params view) : Op (List Neighbor)) ⟨s, w⟩ := by
  cases valid : params.validate with
  | error e =>
    rw [search, valid]
    rfl
  | ok u =>
    rw [search, valid]
    refine (bind_of_ok (p := lift (.ok u)) rfl).trans ((bind_of_ok (p := state) rfl).trans ?_)
    change _ = (do
      let view ← lift (prepareQuery k s query)
      allocate
      return labelled s (flatFound k s params view) : Op (List Neighbor)) ⟨s, w⟩
    cases prepareQuery k s query with
    | error e => rfl
    | ok view =>
      cases known : allocate ⟨s, w⟩ with
      | mk result σ =>
        have same : σ.state = s := by
          rw [allocate] at known
          split at known <;> (cases known; rfl)
        cases result with
        | error e =>
          exact (bind_of_error known).trans ((bind_of_ok (p := lift (.ok view)) rfl).trans
            (bind_of_error known)).symm
        | ok u =>
          obtain ⟨x, v⟩ := σ
          subst same
          have some : 1 ≤ (knobsFor params x.vectors.size).k :=
            le_min (SearchParams.validate_ok valid) (le_max_right _ _)
          have found : backendSearch k leased view (knobsFor params x.vectors.size) ⟨x, v⟩ =
              (.ok (flatFound k x params view), ⟨x, v⟩) :=
            backendSearch_flat flat some
          refine (bind_of_ok known).trans ((bind_of_ok found).trans ?_)
          rw [relabel_eq fun c member => sound.labels ▸ FlatBackend.mem_search batched sound.store member]
          exact ((bind_of_ok (p := lift (.ok view)) rfl).trans (bind_of_ok known)).symm

/-- Whether memory is left does not depend on the state. -/
theorem returns_after_allocate {α : Type} (s : CollectionState) (w : World) (a : α) :
    ((do allocate; return a : Op α) ⟨s, w⟩).1 = if w.memory.headD true then .ok a else .error .threw := by
  cases enough : w.memory.headD true with
  | true =>
    have run : allocate ⟨s, w⟩ = (.ok (), _) := if_pos enough
    exact congrArg Prod.fst (bind_of_ok run)
  | false =>
    have run : allocate ⟨s, w⟩ = (.error .threw, _) := if_neg (by rw [enough]; exact Bool.false_ne_true)
    exact congrArg Prod.fst (bind_of_error run)

/-- The unmarked rows in their order. -/
def liveIds (s : CollectionState) : List Nat := (List.range s.vectors.size).filter fun r => !s.deleted.test r

theorem mem_liveIds {r : Nat} : r ∈ liveIds s ↔ r < s.vectors.size ∧ s.deleted.test r = false := by
  rw [liveIds, List.mem_filter, List.mem_range, Bool.not_eq_true']

theorem length_liveIds (sound : s.Sound lost) : (liveIds s).length = s.ids.size := by
  have split := List.length_eq_length_filter_add (l := List.range s.vectors.size) s.deleted.test
  have marked : s.deleted.count = ((List.range s.vectors.size).filter s.deleted.test).length := by
    rw [sound.tracks.exact]
    have same : (s.deleted.marked s.vectors.size).val = ↑((List.range s.vectors.size).filter s.deleted.test) := by
      rw [TombstoneSet.marked, Finset.filter_val, Finset.range_val, Multiset.range, Multiset.filter_coe]
      simp
    rw [Finset.card_def, same, Multiset.coe_card]
  have total := sound.toCoupled.live_add_count
  rw [List.length_range] at split
  rw [IdMap.size, liveIds]
  omega

/-- The `i`th unmarked row, and beyond them a larger number. -/
def liveId (s : CollectionState) (i : Nat) : Nat := (liveIds s).getD i (s.vectors.size + i)

theorem liveId_eq {i : Nat} (inside : i < (liveIds s).length) : liveId s i = (liveIds s)[i] :=
  List.getD_eq_getElem _ _ inside

theorem liveId_strictMono (s : CollectionState) : StrictMono (liveId s) := by
  intro i j smaller
  by_cases beyond : (liveIds s).length ≤ j
  · rw [liveId, liveId, List.getD_eq_default _ _ beyond]
    by_cases inside : i < (liveIds s).length
    · rw [List.getD_eq_getElem _ _ inside]
      have row := (mem_liveIds.mp (List.getElem_mem inside)).1
      omega
    · rw [List.getD_eq_default _ _ (by omega)]
      omega
  · have increasing : (liveIds s).Pairwise (· < ·) := List.pairwise_lt_range.filter _
    rw [liveId_eq (by omega), liveId_eq (by omega)]
    exact List.pairwise_iff_getElem.mp increasing i j _ _ smaller

theorem liveScored_eq (mode : ScoreMode) (view : QueryView) :
    FlatBackend.liveScored k mode view s.deleted s.vectors s.vectors.size =
    (liveIds s).map (FlatBackend.scoredRow k mode view s.vectors) := rfl

theorem liveRows_eq (s : CollectionState) :
    liveRows s = (liveIds s).map fun r => (s.ids.labels.getD r kInvalidExternalId, s.vectors.row r) := rfl

/-- Asking for more results than there are rows returns what asking for as many as there are rows does. -/
theorem flat_clamped (batched : k.Batched) (sound : s.Sound lost) (view : QueryView) (knobs : SearchKnobs) :
    FlatBackend.search k s.config.metric s.normalized view s.vectors s.deleted
      { knobs with k := min knobs.k (max s.vectors.size 1) } =
      FlatBackend.search k s.config.metric s.normalized view s.vectors s.deleted knobs := by
  have same (xs : List ScoredId) : xs.map (BoundedMaxHeap.renumber id) = xs := List.map_id'' (fun _ => rfl) xs
  have rows : (FlatBackend.liveScored k (scoreMode s.config.metric s.normalized) view s.deleted s.vectors
      s.vectors.size).length ≤
      s.vectors.size := by
    rw [liveScored_eq, List.length_map, liveIds]
    exact (List.length_filter_le _ _).trans_eq List.length_range
  refine (FlatBackend.search_renumbered batched sound.store sound.tracks sound.store sound.tracks strictMono_id
    (same _).symm ?_).trans (same _)
  dsimp only
  omega

/-- `t` holds the live rows of `s` and no others. -/
structure Dense (s t : CollectionState) : Prop where
  config : t.config = s.config
  marks : ∀ i, t.deleted.test i = false
  rows : liveRows t = liveRows s

namespace Dense

theorem liveIds_eq (dense : Dense s t) : liveIds t = List.range t.vectors.size :=
  List.filter_eq_self.mpr fun r _ => by rw [dense.marks]; rfl

theorem size (dense : Dense s t) : t.vectors.size = (liveIds s).length := by
  have lengths := congrArg List.length dense.rows
  rw [liveRows_eq, liveRows_eq, dense.liveIds_eq, List.length_map, List.length_map, List.length_range] at lengths
  exact lengths

theorem row (dense : Dense s t) {i : Nat} (inside : i < t.vectors.size) :
    t.ids.labels.getD i kInvalidExternalId = s.ids.labels.getD (liveId s i) kInvalidExternalId ∧
      t.vectors.row i = s.vectors.row (liveId s i) := by
  have here : i < (liveIds s).length := dense.size ▸ inside
  have entries := congrArg (·[i]?) dense.rows
  simp only [liveRows_eq, dense.liveIds_eq, List.getElem?_map, List.getElem?_range inside,
    List.getElem?_eq_getElem here,
    ← liveId_eq here, Option.map_some, Option.some.injEq, Prod.mk.injEq] at entries
  exact entries

theorem scored (dense : Dense s t) (mode : ScoreMode) (view : QueryView) :
    FlatBackend.liveScored k mode view s.deleted s.vectors s.vectors.size =
      (FlatBackend.liveScored k mode view t.deleted t.vectors t.vectors.size).map
        (BoundedMaxHeap.renumber (liveId s)) := by
  rw [liveScored_eq, liveScored_eq, dense.liveIds_eq]
  refine List.ext_getElem ?_ ?_
  · rw [List.length_map, List.length_map, List.length_map, List.length_range, dense.size]
  · intro i inside inside'
    have here : i < t.vectors.size := by simpa using inside'
    simp only [List.getElem_map, List.getElem_range, FlatBackend.scoredRow,
      BoundedMaxHeap.renumber, (dense.row here).2,
      liveId_eq (show i < (liveIds s).length from dense.size ▸ here)]

theorem labelled_eq (dense : Dense s t) {found : List ScoredId} (inside : ∀ c ∈ found, c.id < t.vectors.size) :
    labelled s (found.map (BoundedMaxHeap.renumber (liveId s))) = labelled t found := by
  rw [labelled, labelled, List.map_map]
  refine List.map_congr_left fun c member => ?_
  rw [(dense.row (inside c member)).1]
  rfl

/-- A query returns the same from both, also where distances tie. -/
theorem search_eq {lost' : Nat → Prop} (dense : Dense s t) (batched : k.Batched) (sound : s.Sound lost)
    (sound' : t.Sound lost') (flat : s.backend = .flat) (flat' : t.backend = .flat) (w : World) :
    (search k leased query params ⟨t, w⟩).1 = (search k leased' query params ⟨s, w⟩).1 := by
  have normalized : t.normalized = s.normalized := by rw [sound.normalized, sound'.normalized, dense.config]
  have found (view : QueryView) : labelled t (flatFound k t params view) = labelled s
      (flatFound k s params view) := by
    have live : t.vectors.size ≤ s.vectors.size := by
      rw [dense.size, liveIds]
      exact (List.length_filter_le _ _).trans_eq List.length_range
    have length : (FlatBackend.liveScored k (scoreMode s.config.metric s.normalized) view t.deleted t.vectors
        t.vectors.size).length =
        t.vectors.size := by
      rw [liveScored_eq, dense.liveIds_eq, List.length_map, List.length_range]
    have same : flatFound k s params view =
        (FlatBackend.search k s.config.metric s.normalized view t.vectors t.deleted
          (knobsFor params t.vectors.size)).map
          (BoundedMaxHeap.renumber (liveId s)) := by
      refine FlatBackend.search_renumbered batched sound.store sound.tracks sound'.store sound'.tracks
        (liveId_strictMono s)
        (dense.scored _ view) ?_
      rw [length, knobsFor, knobsFor]
      dsimp only
      omega
    rw [same, flatFound, dense.config, normalized]
    exact (dense.labelled_eq fun c member => FlatBackend.mem_search batched sound'.store member).symm
  have prepared : prepareQuery k t query = prepareQuery k s query := by
    rw [prepareQuery, prepareQuery, normalized, dense.config]
  rw [search_flat batched sound flat w, search_flat batched sound' flat' w, prepared]
  simp only [found]
  cases params.validate with
  | error e => rfl
  | ok u =>
    cases prepareQuery k s query with
    | error e => rfl
    | ok view =>
      exact (returns_after_allocate t w _).trans (returns_after_allocate s w _).symm

end Dense
end Collection
end VectorForge
