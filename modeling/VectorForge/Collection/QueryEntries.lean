import VectorForge.Collection.QueryReplies
import VectorForge.Collection.Guarantees
import VectorForge.Concurrency.ChunkOrder
import VectorForge.Concurrency.Completion

/-! The entry points for queries agree with each other, on one thread and on a pool. -/

namespace VectorForge
open Effect Commuting

namespace Collection
open Op CollectionState
variable {k : KernelTable} {s : CollectionState} {lost : Nat → Prop} {q : BatchQuery}
  {views : List QueryView} {width : Nat}
  {results : Nat → List Neighbor} {out : OutputSpans} {actions : List (OutputSpans → OutputSpans)}

section Slots
variable {found : List Neighbor} {i j n p : Nat}

def slotId (found : List Neighbor) (j : Nat) : ExternalId := (found[j]?.map (·.id)).getD kInvalidExternalId

def slotDistance (found : List Neighbor) (j : Nat) : F32 := (found[j]?.map (·.distance)).getD F32.infinity

theorem slotActions_eq : slotActions width i found j =
    [OutputSpans.setId (i * width + j) (slotId found j), OutputSpans.setDistance (i * width + j)
      (slotDistance found j)] := by
  rw [slotActions, slotId, slotDistance]
  cases found[j]? <;> rfl

/-- A value in a span after the slots from `base` on have been written. -/
theorem getElem?_run {α : Type} (l : List α) (value : Nat → α) (base n p : Nat) :
    ((List.range n).foldl (fun l j => l.set (base + j) (value j)) l)[p]? =
      if base ≤ p ∧ p < base + n then l[p]?.map fun _ => value (p - base) else l[p]? := by
  induction n with
  | zero => rw [if_neg (by omega)]; rfl
  | succ n ih =>
    rw [List.range_succ, List.foldl_append, List.foldl_cons, List.foldl_nil, List.getElem?_set']
    split
    next here =>
      subst here
      rw [ih, if_neg (by omega), if_pos (by omega), Nat.add_sub_cancel_left]
      cases l[base + n]? <;> rfl
    next other =>
      rw [ih]
      by_cases inside : base ≤ p ∧ p < base + n
      · rw [if_pos inside, if_pos (by omega)]
      · rw [if_neg inside, if_neg (by omega)]

theorem perform_slots (found : List Neighbor) (n : Nat) (out : OutputSpans) :
    perform ((List.range n).flatMap (slotActions width i found)) out = { out with
      ids := (List.range n).foldl (fun l j => l.set (i * width + j) (slotId found j)) out.ids
      distances := (List.range n).foldl (fun l j =>
        l.set (i * width + j) (slotDistance found j)) out.distances } := by
  induction n with
  | zero => rfl
  | succ n ih =>
    rw [List.range_succ, List.flatMap_append, perform_append, ih, List.flatMap_singleton,
      slotActions_eq, List.foldl_append,
      List.foldl_append]
    rfl

theorem perform_query (found : List Neighbor) (out : OutputSpans) : perform (queryActions width i found) out =
    { perform ((List.range width).flatMap (slotActions width i found)) out with
      counts := out.counts.set i (UInt32.ofNat found.length)
      addressable := by rw [List.length_set]; exact out.addressable } := by
  rw [queryActions, perform_append, perform_slots]
  rfl

/-- What `search_batch` promises of its output spans. -/
structure Filled (width nq : Nat) (results : Nat → List Neighbor) (before after : OutputSpans) : Prop where
  real : ∀ i < nq, ∀ j n, (results i)[j]? = some n →
    after.ids[i * width + j]? = some n.id ∧ after.distances[i * width + j]? = some n.distance
  padded : ∀ i < nq, ∀ j < width, (results i).length ≤ j →
    after.ids[i * width + j]? = some kInvalidExternalId ∧ after.distances[i * width + j]? = some F32.infinity
  counts : ∀ i < nq, after.counts[i]? = some (UInt32.ofNat (results i).length)
  others : ∀ p, nq * width ≤ p → after.ids[p]? = before.ids[p]? ∧ after.distances[p]? = before.distances[p]?
  otherCounts : ∀ i, nq ≤ i → after.counts[i]? = before.counts[i]?

/-- The slots of the first `n` queries. -/
structure Written (width n : Nat) (results : Nat → List Neighbor) (before after : OutputSpans) : Prop where
  slots : ∀ i < n, ∀ j < width, after.ids[i * width + j]? = before.ids[i * width + j]?.map
    (fun _ => slotId (results i) j) ∧
    after.distances[i * width + j]? = before.distances[i * width + j]?.map fun _ => slotDistance (results i) j
  counts : ∀ i < n, after.counts[i]? = before.counts[i]?.map fun _ => UInt32.ofNat (results i).length
  others : ∀ p, n * width ≤ p → after.ids[p]? = before.ids[p]? ∧ after.distances[p]? = before.distances[p]?
  otherCounts : ∀ i, n ≤ i → after.counts[i]? = before.counts[i]?

theorem written_range (results : Nat → List Neighbor) (out : OutputSpans) (n : Nat) :
    Written width n results out (perform (rangeActions width results 0 n) out) := by
  induction n with
  | zero => exact ⟨nofun, nofun, fun _ _ => ⟨rfl, rfl⟩, fun _ _ => rfl⟩
  | succ n ih =>
    have split : rangeActions width results 0 (n + 1) = rangeActions width results 0 n ++
        queryActions width n (results n) := by
      rw [rangeActions, rangeActions, Nat.sub_zero, Nat.sub_zero, List.range'_concat, List.flatMap_append,
        List.flatMap_singleton]
      simp
    obtain ⟨slots, counts, others, otherCounts⟩ := ih
    rw [split, perform_append, perform_query, perform_slots]
    generalize perform (rangeActions width results 0 n) out = middle at slots counts others otherCounts
    have next : (n + 1) * width = n * width + width := Nat.succ_mul n width
    refine ⟨fun i inside j below => ?_, fun i inside => ?_, fun p beyond => ?_, fun i beyond => ?_⟩
    · dsimp only
      rw [getElem?_run, getElem?_run]
      by_cases last : i = n
      · subst last
        rw [if_pos (by omega), if_pos (by omega), Nat.add_sub_cancel_left, (others (i * width + j) (by omega)).1,
          (others (i * width + j) (by omega)).2]
        exact ⟨rfl, rfl⟩
      · have before : i * width + j < n * width := by
          have room : (i + 1) * width ≤ n * width := Nat.mul_le_mul_right width (by omega)
          rw [Nat.succ_mul] at room
          omega
        rw [if_neg (by omega), if_neg (by omega)]
        exact slots i (by omega) j below
    · dsimp only
      rw [List.getElem?_set']
      split
      next here =>
        subst here
        rw [otherCounts n (Nat.le_refl n)]
        cases out.counts[n]? <;> rfl
      next other => exact counts i (by omega)
    · dsimp only
      rw [getElem?_run, getElem?_run, if_neg (by omega), if_neg (by omega)]
      exact others p (by omega)
    · dsimp only
      rw [List.getElem?_set', if_neg (by omega)]
      exact otherCounts i (by omega)

theorem Written.filled {nq : Nat} {after : OutputSpans} (written : Written width nq results out after)
    (few : ∀ i < nq, (results i).length ≤ width)
    (ids : nq * width ≤ out.ids.length) (distances : nq * width ≤ out.distances.length)
    (counts : nq ≤ out.counts.length) : Filled width nq results out after := by
  have room {i j : Nat} (inside : i < nq) (below : j < width) : i * width + j < nq * width := by
    have more : (i + 1) * width ≤ nq * width := Nat.mul_le_mul_right width inside
    rw [Nat.succ_mul] at more
    omega
  refine ⟨fun i inside j n found => ?_, fun i inside j below padded => ?_, fun i inside => ?_, written.others,
    written.otherCounts⟩
  · have below : j < width := (List.getElem?_eq_some_iff.mp found).1.trans_le (few i inside)
    obtain ⟨id, distance⟩ := written.slots i inside j below
    rw [id, distance, slotId, slotDistance, found, List.getElem?_eq_getElem ((room inside below).trans_le ids),
      List.getElem?_eq_getElem ((room inside below).trans_le distances)]
    exact ⟨rfl, rfl⟩
  · obtain ⟨id, distance⟩ := written.slots i inside j below
    rw [id, distance, slotId, slotDistance, List.getElem?_eq_none padded,
      List.getElem?_eq_getElem ((room inside below).trans_le ids),
      List.getElem?_eq_getElem ((room inside below).trans_le distances)]
    exact ⟨rfl, rfl⟩
  · rw [written.counts i inside, List.getElem?_eq_getElem (inside.trans_le counts)]
    rfl

end Slots

section Chunks
variable {i i' : Nat} {found found' : List Neighbor} {f g : OutputSpans → OutputSpans} {lo hi : Nat}

/-- The actions on one slot, or on one count. -/
inductive ActsOn (width i : Nat) : (OutputSpans → OutputSpans) → Prop
  | id (j : Nat) (inside : j < width) (id : ExternalId) : ActsOn width i (OutputSpans.setId (i * width + j) id)
  | distance (j : Nat) (inside : j < width) (distance : F32) :
      ActsOn width i (OutputSpans.setDistance (i * width + j) distance)
  | count (count : UInt32) : ActsOn width i (OutputSpans.setCount i count)

theorem actsOn_of_mem (member : f ∈ queryActions width i found) : ActsOn width i f := by
  rcases List.mem_append.mp member with slot | last
  · obtain ⟨j, inside, inSlot⟩ := List.mem_flatMap.mp slot
    rw [List.mem_range] at inside
    rw [slotActions_eq] at inSlot
    rcases List.mem_cons.mp inSlot with rfl | inSlot
    · exact .id j inside _
    · rw [List.mem_singleton.mp inSlot]
      exact .distance j inside _
  · rw [List.mem_singleton.mp last]
    exact .count _

theorem slot_ne (other : i ≠ i') {j j' : Nat} (inside : j < width) (inside' : j' < width) :
    i * width + j ≠ i' * width + j' := by
  rcases Nat.lt_or_gt_of_ne other with less | more
  · have room : (i + 1) * width ≤ i' * width := Nat.mul_le_mul_right width less
    rw [Nat.succ_mul] at room
    omega
  · have room : (i' + 1) * width ≤ i * width := Nat.mul_le_mul_right width more
    rw [Nat.succ_mul] at room
    omega

/-- What is written for different queries does not meet. -/
theorem ActsOn.commute (other : i ≠ i') (left : ActsOn width i f) (right : ActsOn width i' g) (o : OutputSpans) :
    f (g o) = g (f o) := by
  cases left with
  | id j inside id =>
    cases right with
    | id j' inside' id' =>
      simp only [OutputSpans.setId]
      rw [List.set_comm _ _ (slot_ne other inside inside').symm]
    | _ => rfl
  | distance j inside distance =>
    cases right with
    | distance j' inside' distance' =>
      simp only [OutputSpans.setDistance]
      rw [List.set_comm _ _ (slot_ne other inside inside').symm]
    | _ => rfl
  | count count =>
    cases right with
    | count count' =>
      simp only [OutputSpans.setCount]
      congr 1
      exact List.set_comm _ _ other.symm
    | _ => rfl

theorem mem_rangeActions (member : f ∈ rangeActions width results lo hi) : ∃ i, lo ≤ i ∧ i < hi ∧
    ActsOn width i f := by
  obtain ⟨i, inRange, inQuery⟩ := List.mem_flatMap.mp member
  obtain ⟨first, last⟩ := List.mem_range'_1.mp inRange
  exact ⟨i, first, by omega, actsOn_of_mem inQuery⟩

variable {pool : ThreadPool}

theorem chunk_lo (c : Nat) : (searchCall k s q views pool).lo c = c * kSearchGrain := Nat.zero_add _

theorem chunk_hi (small : q.nq + kSearchGrain < 2 ^ 64) {c : Nat} (inside : c * kSearchGrain ≤ q.nq) :
    (searchCall k s q views pool).hi c = min q.nq (c * kSearchGrain + kSearchGrain) := by
  rw [ThreadPool.Call.hi, chunk_lo]
  change min q.nq ((c * kSearchGrain + kSearchGrain) % 2 ^ 64) = _
  rw [Nat.mod_eq_of_lt (by omega)]

theorem chunks_eq : (searchCall k s q views pool).chunks = (q.nq + kSearchGrain - 1) / kSearchGrain := by
  change (q.nq - 0) / kSearchGrain + (if (q.nq - 0) % kSearchGrain ≠ 0 then 1 else 0) = _
  rw [kSearchGrain]
  split <;> omega

/-- The chunks cover the queries in their order. -/
theorem range_by_grain (small : q.nq + kSearchGrain < 2 ^ 64) :
    ((List.range (searchCall k s q views pool).chunks).map fun c =>
    rangeActions width results ((searchCall k s q views pool).lo c) ((searchCall k s q views pool).hi c)).flatten =
      rangeActions width results 0 q.nq := by
  have covered : (List.range (searchCall k s q views pool).chunks).flatMap (fun c =>
      List.range' ((searchCall k s q views pool).lo c)
        ((searchCall k s q views pool).hi c - (searchCall k s q views pool).lo c)) =
        List.range q.nq := by
    have cut := VectorStore.range_by_chunks kSearchGrain q.nq (searchCall k s q views pool).chunks
    have all : q.nq ≤ (searchCall k s q views pool).chunks * kSearchGrain := by
      rw [chunks_eq, kSearchGrain]
      omega
    rw [min_eq_left all] at cut
    rw [← cut]
    refine List.flatMap_congr fun c member => ?_
    have before : c * kSearchGrain ≤ q.nq := by
      have inside := List.mem_range.mp member
      rw [chunks_eq] at inside
      rw [kSearchGrain] at inside ⊢
      omega
    rw [chunk_hi small before, chunk_lo, List.range'_eq_map_range]
    congr 2
    omega
  rw [← List.flatMap_def]
  simp only [rangeActions]
  rw [← List.flatMap_assoc, covered, Nat.sub_zero, List.range_eq_range']

end Chunks

section Batch
variable {e : Exit} {w : World} {τ : Session} {pool : ThreadPool}

/-- All arguments and all queries of `search_batch` are valid. -/
structure BatchQuery.Valid (k : KernelTable) (s : CollectionState) (q : BatchQuery) : Prop where
  params : q.params.validate = .ok ()
  queries : validateBatch q.queries q.nq s.config.dim.toNat = .ok ()
  spans : q.checkSpans = .ok ()
  prepared : ∀ i < q.nq, ∃ view, prepareQuery k s (q.query s.config.dim.toNat i) = .ok view

/-- The views belong to the queries from `i` on. -/
def Views (k : KernelTable) (s : CollectionState) (q : BatchQuery) (left i : Nat) (views : List QueryView) : Prop :=
  ∀ j < left, ∃ view, views[j]? = some view ∧ prepareQuery k s (q.query s.config.dim.toNat (i + j)) = .ok view

theorem viewsFrom_cases (left : Nat) :
    ∀ i, (∃ views, q.viewsFrom k s left i = .ok views ∧ Views k s q left i views) ∨
    ∃ e, q.viewsFrom k s left i = .error e ∧
    ∃ j < left, ∀ view, prepareQuery k s (q.query s.config.dim.toNat (i + j)) ≠ .ok view := by
  induction left with
  | zero => exact fun i => .inl ⟨[], rfl, nofun⟩
  | succ left ih =>
    intro i
    rw [BatchQuery.viewsFrom]
    cases here : prepareQuery k s (q.query s.config.dim.toNat i) with
    | error e =>
      exact .inr ⟨_, rfl, 0, Nat.succ_pos left, fun view wrong => by rw [Nat.add_zero, here] at wrong; cases wrong⟩
    | ok view =>
      rcases ih (i + 1) with ⟨views, run, fits⟩ | ⟨e, run, j, inside, wrong⟩
      · refine .inl ⟨view :: views, by rw [run]; rfl, fun j inside => ?_⟩
        cases j with
        | zero => exact ⟨view, rfl, here⟩
        | succ j =>
          obtain ⟨other, at_, prepared⟩ := fits j (by omega)
          exact ⟨other, at_, by rw [← prepared]; congr 2; omega⟩
      · refine .inr ⟨e, by rw [run]; rfl, j + 1, by omega, fun view same => wrong view ?_⟩
        rw [← same]
        congr 2
        omega

/-- The views of a batch, or what is wrong with it. -/
def BatchQuery.prepared (k : KernelTable) (s : CollectionState) (q : BatchQuery) : Result (List QueryView) := do
  q.params.validate
  validateBatch q.queries q.nq s.config.dim.toNat
  q.checkSpans
  q.viewsFrom k s q.nq 0

theorem prepare_replies (k : KernelTable) (s : CollectionState) (q : BatchQuery) :
    Replies (q.prepare k) s (q.prepared k s) := by
  refine (Replies.lift q.params.validate).andThen fun _ _ => Replies.state.bind ?_
  refine (Replies.lift (validateBatch q.queries q.nq s.config.dim.toNat)).andThen fun _ _ => ?_
  refine (Replies.lift q.checkSpans).andThen fun _ _ => Replies.allocate.bind ?_
  exact Replies.lift _

theorem prepared_of_valid (valid : q.Valid k s) : ∃ views, q.prepared k s = .ok views ∧
    Views k s q q.nq 0 views := by
  rcases viewsFrom_cases (k := k) (s := s) (q := q) q.nq 0 with ⟨views, run, fits⟩ | ⟨_, _, j, inside, wrong⟩
  · refine ⟨views, ?_, fits⟩
    rw [BatchQuery.prepared, valid.params, valid.queries, valid.spans, run]
    rfl
  · obtain ⟨view, prepared⟩ := valid.prepared j inside
    exact absurd prepared (Nat.zero_add j ▸ wrong view)

theorem valid_of_prepared (run : q.prepared k s = .ok views) : q.Valid k s := by
  rw [BatchQuery.prepared] at run
  cases params : q.params.validate with
  | error e => rw [params] at run; cases run
  | ok u =>
    cases queries : validateBatch q.queries q.nq s.config.dim.toNat with
    | error e => rw [params, queries] at run; cases run
    | ok u =>
      cases spans : q.checkSpans with
      | error e => rw [params, queries, spans] at run; cases run
      | ok u =>
        rw [params, queries, spans] at run
        change q.viewsFrom k s q.nq 0 = .ok views at run
        refine ⟨params, queries, spans, fun i inside => ?_⟩
        rcases viewsFrom_cases (k := k) (s := s) (q := q) q.nq 0 with ⟨others, _, fits⟩ | ⟨e, failed, _⟩
        · obtain ⟨view, _, prepared⟩ := fits i inside
          exact ⟨view, Nat.zero_add i ▸ prepared⟩
        · cases failed.symm.trans run

/-- The results of query `i` of a batch. -/
def BatchQuery.resultsOf (k : KernelTable) (s : CollectionState) (q : BatchQuery) (i : Nat) : List Neighbor :=
  match answer k s (q.query s.config.dim.toNat i) q.params with
  | .ok found => found
  | .error _ => []

theorem answer_of_valid (valid : q.Valid k s) {i : Nat} {view : QueryView}
    (prepared : prepareQuery k s (q.query s.config.dim.toNat i) = .ok view) :
    answer k s (q.query s.config.dim.toNat i) q.params = .ok (q.resultsOf k s i) ∧
      q.resultsOf k s i = neighbors k s view (knobsFor q.params s.vectors.size) := by
  rw [BatchQuery.resultsOf, answer, valid.params, prepared]
  exact ⟨rfl, rfl⟩

/-- A range that runs writes the results of its queries. -/
theorem RunsRange.exact_ (batched : k.Batched) (sound : s.Sound lost) (valid : q.Valid k s)
    (fits : Views k s q q.nq 0 views) {lo hi : Nat}
    (inside : hi ≤ q.nq) (body : RunsRange k s q views lo hi actions) :
    actions = rangeActions q.params.k.toNat (q.resultsOf k s) lo hi := by
  obtain ⟨found, rfl, each⟩ := body
  refine List.flatMap_congr fun i member => ?_
  obtain ⟨first, last⟩ := List.mem_range'_1.mp member
  obtain ⟨view, leased, w, τ, at_, settled, run⟩ := each i first (by omega)
  obtain ⟨other, at', prepared⟩ := fits i (by omega)
  cases at_.symm.trans at'
  have replied := (runQuery_replies batched sound settled (knobsFor_some valid.params s.vectors.size)).returned run
  rw [Nat.zero_add] at prepared
  rw [(answer_of_valid valid prepared).2, Except.ok.inj replied]

theorem runsRange_of_valid (batched : k.Batched) (sound : s.Sound lost) (valid : q.Valid k s)
    (fits : Views k s q q.nq 0 views) {lo hi : Nat}
    (inside : hi ≤ q.nq) : RunsRange k s q views lo hi (rangeActions q.params.k.toNat (q.resultsOf k s) lo hi) := by
  refine ⟨q.resultsOf k s, rfl, fun i _ last => ?_⟩
  obtain ⟨view, at_, prepared⟩ := fits i (by omega)
  rw [Nat.zero_add] at prepared
  refine ⟨view, {}, {}, ⟨s, {}⟩, at_, VisitedSet.settled_empty, ?_⟩
  rw [(answer_of_valid valid prepared).2]
  exact (runQuery_replies batched sound VisitedSet.settled_empty
    (knobsFor_some valid.params s.vectors.size)).ample rfl

theorem checkSpans_ok (ok : q.checkSpans = .ok ()) : q.nq * q.params.k.toNat ≤ q.out.ids.length ∧
    q.nq * q.params.k.toNat ≤ q.out.distances.length ∧ q.nq ≤ q.out.counts.length := by
  rw [BatchQuery.checkSpans] at ok
  cases known : checkedMul 64 q.nq q.params.k.toNat with
  | none => rw [known] at ok; cases ok
  | some slots =>
    obtain ⟨_, rfl⟩ := checkedMul_eq_some.mp known
    rw [known] at ok
    dsimp only at ok
    split at ok
    · cases ok
    · omega

theorem length_resultsOf (batched : k.Batched) (sound : s.Sound lost) (valid : q.Valid k s) {i : Nat}
    (inside : i < q.nq) : (q.resultsOf k s i).length ≤ q.params.k.toNat := by
  obtain ⟨view, prepared⟩ := valid.prepared i inside
  rw [(answer_of_valid valid prepared).2]
  exact (length_neighbors batched sound (knobsFor_some valid.params s.vectors.size)).trans (min_le_left _ _)

/-- The spans when the batch is through, however it was run. -/
def BatchQuery.filled (k : KernelTable) (s : CollectionState) (q : BatchQuery) : OutputSpans :=
  perform (rangeActions q.params.k.toNat (q.resultsOf k s) 0 q.nq) q.out

theorem small_of_valid (valid : q.Valid k s) : q.nq + kSearchGrain < 2 ^ 64 := by
  have counts := (checkSpans_ok valid.spans).2.2
  have memory := q.out.addressable
  rw [kSearchGrain]
  omega

/-- What a pool writes for every chunk. -/
theorem searchCall_writes (batched : k.Batched) (sound : s.Sound lost) (valid : q.Valid k s)
    (fits : Views k s q q.nq 0 views) :
    ThreadPool.Writes (searchCall k s q views pool) fun c => rangeActions q.params.k.toNat (q.resultsOf k s)
      ((searchCall k s q views pool).lo c) ((searchCall k s q views pool).hi c) where
  body := fun c actions body => RunsRange.exact_ batched sound valid fits (min_le_left _ _) body
  whole := by
    intro actions body o
    rw [RunsRange.exact_ batched sound valid fits (Nat.le_refl _) body, ← perform_flatten,
      range_by_grain (small_of_valid valid)]
    rfl
  apart := by
    intro c d other f inC g inD o
    obtain ⟨i, firstI, lastI, left⟩ := mem_rangeActions inC
    obtain ⟨i', firstI', lastI', right⟩ := mem_rangeActions inD
    have small := small_of_valid valid
    have boundary {c i : Nat} (first : (searchCall k s q views pool).lo c ≤ i)
        (last : i < (searchCall k s q views pool).hi c) : i / kSearchGrain = c := by
      have inside : i < q.nq := last.trans_le (min_le_left _ _)
      rw [chunk_lo] at first
      rw [chunk_hi small (by omega)] at last
      rw [kSearchGrain] at first last ⊢
      omega
    refine left.commute (fun same => other ?_) right o
    rw [← boundary firstI lastI, ← boundary firstI' lastI', same]

theorem memory_of_pool (batched : k.Batched) (sound : s.Sound lost) (valid : q.Valid k s)
    (fits : Views k s q q.nq 0 views) {t : ThreadPool.State OutputSpans Exit}
    (reached : (ThreadPool.runRanges (searchCall k s q views pool) q.out).Reachable t)
    (returned : t.caller = .returned) : t.shared.memory = q.filled k s := by
  rw [ThreadPool.memory_of_returned (searchCall_writes batched sound valid fits) reached returned,
    ← perform_flatten,
    range_by_grain (small_of_valid valid)]
  rfl

variable (pool) in
/-- Every pool can bring the batch to its end. -/
theorem exists_pool_run (batched : k.Batched) (sound : s.Sound lost) (valid : q.Valid k s)
    (fits : Views k s q q.nq 0 views) :
    ∃ t, (ThreadPool.runRanges (searchCall k s q views pool) q.out).Reachable t ∧ t.caller = .returned := by
  let start : ThreadPool.State OutputSpans Exit :=
    { shared := { memory := q.out }, queue := [], stopping := false, workers := List.replicate pool.size .idle }
  have starts : ThreadPool.Start (searchCall k s q views pool) q.out start := by
    refine ⟨rfl, rfl, nofun, List.length_replicate, fun worker member => .inl (List.eq_of_mem_replicate member),
      fun member => ?_⟩
    cases List.eq_of_mem_replicate member
  have performs : ThreadPool.Performs (searchCall k s q views pool)
      (fun c => rangeActions q.params.k.toNat (q.resultsOf k s) ((searchCall k s q views pool).lo c)
        ((searchCall k s q views pool).hi c))
      (rangeActions q.params.k.toNat (q.resultsOf k s) 0 q.nq) :=
    ⟨fun c => runsRange_of_valid batched sound valid fits (min_le_left _ _),
      runsRange_of_valid batched sound valid fits (Nat.le_refl _)⟩
  obtain ⟨t, runs, ended, calm⟩ := ThreadPool.can_end performs ⟨start, starts, .refl⟩
  refine ⟨t, ⟨start, starts, runs⟩, ?_⟩
  cases at_ : t.caller with
  | returned => rfl
  | threw e =>
    rcases calm e at_ with wrong | member
    · cases wrong
    · cases member
  | _ =>
    rw [at_] at ended
    cases ended

/-- Whoever runs the batch, what it returns with is the same. -/
theorem searchBatch_ok (batched : k.Batched) (sound : s.Sound lost) (run : SearchBatch k s q w (.ok ()) out) :
    q.Valid k s ∧ out = q.filled k s := by
  have of_run {views : List QueryView} {τ : Session} (run : q.prepare k ⟨s, w⟩ = (.ok views, τ)) : q.Valid k s ∧
      Views k s q q.nq 0 views := by
    have prepared := (prepare_replies k s q).returned run
    have valid := valid_of_prepared prepared
    obtain ⟨others, same, fits⟩ := prepared_of_valid valid
    cases prepared.symm.trans same
    exact ⟨valid, fits⟩
  cases run with
  | alone run _ body =>
    obtain ⟨valid, fits⟩ := of_run run
    exact ⟨valid, by rw [RunsRange.exact_ batched sound valid fits (Nat.le_refl _) body]; rfl⟩
  | pooled run _ reached returned =>
    obtain ⟨valid, fits⟩ := of_run run
    exact ⟨valid, memory_of_pool batched sound valid fits reached returned⟩

theorem searchBatch_of_valid (batched : k.Batched) (sound : s.Sound lost) (valid : q.Valid k s) (ample : w.Ample) :
    SearchBatch k s q w (.ok ()) (q.filled k s) := by
  obtain ⟨views, prepared, fits⟩ := prepared_of_valid valid
  have run := (prepare_replies k s q).ample ample
  rw [prepared] at run
  cases given : q.pool with
  | none => exact .alone run given (runsRange_of_valid batched sound valid fits (Nat.le_refl _))
  | some pool =>
    obtain ⟨t, reached, returned⟩ := exists_pool_run pool batched sound valid fits
    rw [← memory_of_pool batched sound valid fits reached returned]
    exact .pooled run given reached returned

theorem length_viewsFrom : ∀ (left i : Nat) {views : List QueryView},
    q.viewsFrom k s left i = .ok views → views.length = left
  | 0, _, _, run => by
    cases run
    rfl
  | left + 1, i, views, run => by
    rw [BatchQuery.viewsFrom] at run
    split at run
    next => cases run
    next view _ =>
      cases rest : q.viewsFrom k s left (i + 1) with
      | error e =>
        rw [rest] at run
        cases run
      | ok others =>
        rw [rest] at run
        cases run
        exact congrArg Nat.succ (length_viewsFrom left (i + 1) rest)

theorem length_of_prepared (run : q.prepared k s = .ok views) : views.length = q.nq := by
  have valid := valid_of_prepared run
  rw [BatchQuery.prepared, valid.params, valid.queries, valid.spans] at run
  exact length_viewsFrom q.nq 0 run

theorem runQueries_replies (batched : k.Batched) (sound : s.Sound lost) (valid : q.Valid k s)
    {leased : Nat → VisitedSet}
    (settled : ∀ i, (leased i).Settled) : ∀ (views : List QueryView) (i : Nat) (out : OutputSpans),
    (∀ j view, views[j]? = some view → prepareQuery k s (q.query s.config.dim.toNat (i + j)) = .ok view) →
    Replies (runQueries k leased q.params s.vectors.size views i out) s
      (.ok (perform (rangeActions q.params.k.toNat (q.resultsOf k s) i (i + views.length)) out))
  | [], i, out, _ => by
    rw [rangeActions, List.length_nil, Nat.add_zero, Nat.sub_self]
    exact Replies.pure out
  | view :: rest, i, out, fits => by
    have first : prepareQuery k s (q.query s.config.dim.toNat i) = .ok view := fits 0 view rfl
    have later := runQueries_replies batched sound valid settled rest (i + 1)
      (perform (queryActions q.params.k.toNat i (q.resultsOf k s i)) out)
      fun j other there => by
        rw [Nat.add_assoc, Nat.add_comm 1 j]
        exact fits (j + 1) other there
    have whole : rangeActions q.params.k.toNat (q.resultsOf k s) i (i + (view :: rest).length) =
        queryActions q.params.k.toNat i (q.resultsOf k s i) ++
          rangeActions q.params.k.toNat (q.resultsOf k s) (i + 1) (i + 1 + rest.length) := by
      rw [rangeActions, rangeActions, List.length_cons, Nat.add_sub_cancel_left,
        Nat.add_sub_cancel_left, List.range'_succ,
        List.flatMap_cons]
    rw [whole, perform_append]
    refine (runQuery_replies batched sound (settled i) (knobsFor_some valid.params s.vectors.size)).bind ?_
    rw [← (answer_of_valid valid first).2]
    exact later

/-- Without a pool the queries run one after the other. -/
theorem searchBatch_serial (batched : k.Batched) (sound : s.Sound lost) {leased : Nat → VisitedSet}
    (settled : ∀ i, (leased i).Settled)
    (alone : q.pool = none) {w : World} {τ : Session} (run : searchBatch k leased q ⟨s, w⟩ = (.ok out, τ)) :
    SearchBatch k s q w (.ok ()) out := by
  obtain ⟨views, ⟨t, v⟩, prepare, rest⟩ := ok_of_bind run
  have prepared := (prepare_replies k s q).returned prepare
  have valid := valid_of_prepared prepared
  obtain ⟨others, same, fits⟩ := prepared_of_valid valid
  cases prepared.symm.trans same
  have length := length_of_prepared prepared
  obtain ⟨v', ⟨again, _⟩ | ⟨again, _⟩⟩ := prepare_replies k s q w
  · rw [prepare, prepared] at again
    cases again
    have views_fit : ∀ j view, views[j]? = some view →
        prepareQuery k s (q.query s.config.dim.toNat (0 + j)) = .ok view := by
      intro j view there
      obtain ⟨other, at_, first⟩ := fits j (length ▸ (List.getElem?_eq_some_iff.mp there).1)
      cases there.symm.trans at_
      exact first
    have queries := runQueries_replies batched sound valid settled views 0 q.out views_fit
    rw [length, Nat.zero_add] at queries
    have replies : Replies (do
        let s ← state
        allocate
        runQueries k leased q.params s.vectors.size views 0 q.out) s (.ok (q.filled k s)) :=
      Replies.state.bind (Replies.allocate.bind queries)
    cases replies.returned rest
    exact .alone prepare alone (runsRange_of_valid batched sound valid fits (Nat.le_refl _))
  · cases prepare.symm.trans again

theorem searchBatch_of_invalid {r : Except Exit Unit} (invalid : ¬q.Valid k s) (run : SearchBatch k s q w r out) :
    out = q.out ∧ ((∃ e, r = .error (.status e)) ∨ r = .error .threw ∧ ¬w.Ample) := by
  have never {views : List QueryView} {τ : Session} (run : q.prepare k ⟨s, w⟩ = (.ok views, τ)) : False :=
    invalid (valid_of_prepared ((prepare_replies k s q).returned run))
  cases run with
  | @refused e τ run =>
    refine ⟨rfl, ?_⟩
    obtain ⟨w', ⟨run', _⟩ | ⟨run', lacked⟩⟩ := prepare_replies k s q w
    · rw [run] at run'
      cases known : q.prepared k s with
      | ok views => exact absurd (valid_of_prepared known) invalid
      | error status =>
        rw [known] at run'
        cases run'
        exact .inl ⟨status, rfl⟩
    · cases run.symm.trans run'
      exact .inr ⟨rfl, lacked.2⟩
  | alone run => exact (never run).elim
  | aloneThrew _ run => exact (never run).elim
  | pooled run => exact (never run).elim
  | pooledThrew _ run => exact (never run).elim

theorem searchBatch_ample {r : Except Exit Unit} (valid : q.Valid k s) (ample : w.Ample)
    (run : SearchBatch k s q w r out) : r = .ok () := by
  cases run with
  | refused run =>
    obtain ⟨views, prepared, _⟩ := prepared_of_valid valid
    have run' := (prepare_replies k s q).ample ample
    rw [prepared] at run'
    cases run.symm.trans run'
  | alone => rfl
  | aloneThrew lacks => exact absurd ample lacks
  | pooled => rfl
  | pooledThrew lacks => exact absurd ample lacks

end Batch
end Collection

namespace Guarantees
open Collection
variable {k : KernelTable} {s : CollectionState}

/-- The clamp of `k` is not seen; `search` and `search_into` return the same; and `search_batch` writes what
`search` returns for every query, on whatever pool, and nothing when an argument or a query is invalid. -/
theorem query_entries_agree (batched : k.Batched) (reached : Reachable k s) :
    (∀ (params : SearchParams) (view : QueryView), params.validate = .ok () →
      ∃ found, ∀ leased : VisitedSet, leased.Settled →
      Replies (backendSearch k leased view { k := params.k.toNat, ef := (params.efSearch.getD 0).toNat }) s
        (.ok found) ∧
      Replies (backendSearch k leased view (knobsFor params s.vectors.size)) s (.ok found)) ∧
    (∀ (query : List F32) (params : SearchParams) (out : List Neighbor), params.k.toNat ≤ out.length →
      ∃ r, ∀ leased : VisitedSet,
      leased.Settled → Replies (search k leased query params) s r ∧
        Replies (searchInto k leased query params out) s
          (r.map fun found => (found.length, found ++ out.drop found.length))) ∧
    ∀ (q : BatchQuery) (w : World),
      (∀ r out, SearchBatch k s q w r out →
        (r = .ok () → q.Valid k s ∧ Filled q.params.k.toNat q.nq (q.resultsOf k s) q.out out) ∧
        (¬q.Valid k s → out = q.out ∧ ((∃ e, r = .error (.status e)) ∨ r = .error .threw ∧ ¬w.Ample)) ∧
        (q.Valid k s → w.Ample → r = .ok ())) ∧
      (q.Valid k s →
        (∀ i < q.nq, (q.resultsOf k s i).length ≤ q.params.k.toNat ∧ ∀ leased : VisitedSet, leased.Settled →
          Replies (search k leased (q.query s.config.dim.toNat i) q.params) s (.ok (q.resultsOf k s i))) ∧
        (w.Ample → ∃ out, SearchBatch k s q w (.ok ()) out)) ∧
      ∀ (pool pool' : Option ThreadPool) (v : World) out out',
        SearchBatch k s { q with pool := pool } w (.ok ()) out →
        SearchBatch k s { q with pool := pool' } v (.ok ()) out' → out = out' := by
  obtain ⟨⟨lost, sound⟩, _⟩ := reached.sound
  refine ⟨fun params view valid => ?_, fun query params out room => ?_,
    fun q w => ⟨fun r out run => ?_, fun valid => ?_, ?_⟩⟩
  · have some := SearchParams.validate_ok valid
    refine ⟨_, fun leased settled => ⟨(backendSearch_replies view batched sound settled some).1, ?_⟩⟩
    rw [← found_clamped batched sound view some]
    exact (backendSearch_replies view batched sound settled (knobsFor_some valid s.vectors.size)).1
  · exact ⟨_, fun leased settled => ⟨search_replies query params batched sound settled,
      searchInto_replies batched sound settled room⟩⟩
  · refine ⟨fun ok => ?_, fun invalid => searchBatch_of_invalid invalid run,
      fun valid ample => searchBatch_ample valid ample run⟩
    subst ok
    obtain ⟨valid, rfl⟩ := searchBatch_ok batched sound run
    obtain ⟨ids, distances, counts⟩ := checkSpans_ok valid.spans
    exact ⟨valid, (written_range _ _ _).filled (fun i inside => length_resultsOf batched sound valid inside)
      ids distances counts⟩
  · refine ⟨fun i inside => ⟨length_resultsOf batched sound valid inside, fun leased settled => ?_⟩, fun ample =>
      ⟨_, searchBatch_of_valid batched sound valid ample⟩⟩
    obtain ⟨view, prepared⟩ := valid.prepared i inside
    have replies := search_replies (q.query s.config.dim.toNat i) q.params batched sound settled
    rw [(answer_of_valid valid prepared).1] at replies
    exact replies
  · intro pool pool' v out out' run run'
    rw [(searchBatch_ok batched sound run).2, (searchBatch_ok batched sound run').2]
    rfl

/-- One query for two results, on a pool, into spans that are longer than they need be. -/
def pooledQuery : BatchQuery where
  queries := [F32.zero]
  nq := 1
  params := { k := 2 }
  out := ⟨[1, 2, 3], [F32.one, F32.one, F32.one], [9], by decide⟩
  pool := some { size := 2 }

/-- Once a row is added, the query is well formed and finds the row. -/
def servesPooled (s : CollectionState) : Bool :=
  let (result, τ) := Command.run zeroKernels (.add 7 [F32.zero] false) ⟨s, {}⟩
  result.toOption.isSome && ((pooledQuery.prepare zeroKernels ⟨τ.state, {}⟩).1.toOption.isSome &&
    decide (pooledQuery.resultsOf zeroKernels τ.state 0 = [⟨7, F32.zero⟩]))

theorem query_entries_agree_single : ∃ s out, Reachable zeroKernels s ∧
    SearchBatch zeroKernels s pooledQuery {} (.ok ()) out ∧
    out.ids[0]? = some 7 ∧ out.ids[1]? = some kInvalidExternalId ∧ out.ids[2]? = some 3 ∧
    out.counts[0]? = some 1 := by
  obtain ⟨start, created⟩ := create_ok 0 (show smallConfig.validate = .ok () by decide)
  have evaluated : ((create (.ok ()) 0 smallConfig).toOption.any servesPooled) = true := by decide +kernel
  rw [created] at evaluated
  change servesPooled start = true at evaluated
  rw [servesPooled] at evaluated
  cases run : Command.run zeroKernels (.add 7 [F32.zero] false) ⟨start, {}⟩ with
  | mk result τ =>
    rw [run] at evaluated
    obtain ⟨done, holds⟩ := Bool.and_eq_true_iff.mp evaluated
    cases result with
    | error e => cases done
    | ok reply =>
      obtain ⟨prepares, results⟩ := Bool.and_eq_true_iff.mp holds
      have reached : Reachable zeroKernels τ.state := .step (.created created) run (fun same => by cases same)
      have valid : pooledQuery.Valid zeroKernels τ.state := by
        cases prepared : pooledQuery.prepare zeroKernels ⟨τ.state, {}⟩ with
        | mk views υ =>
          rw [prepared] at prepares
          cases views with
          | error e => cases prepares
          | ok views =>
            exact valid_of_prepared ((prepare_replies zeroKernels τ.state pooledQuery).returned prepared)
      obtain ⟨outcomes, exists_, _⟩ := (query_entries_agree zeroKernels_batched reached).2.2 pooledQuery {}
      obtain ⟨out, searched⟩ := (exists_ valid).2 rfl
      obtain ⟨_, filled⟩ := (outcomes _ _ searched).1 rfl
      have one : pooledQuery.resultsOf zeroKernels τ.state 0 = [⟨7, F32.zero⟩] := of_decide_eq_true results
      have inside : 0 < pooledQuery.nq := by decide
      refine ⟨τ.state, out, reached, searched, (filled.real 0 inside 0 ⟨7, F32.zero⟩ (by rw [one]; rfl)).1,
        (filled.padded 0 inside 1 (by decide) (by rw [one]; decide)).1, (filled.others 2 (by decide)).1, ?_⟩
      have counted := filled.counts 0 inside
      rw [one] at counted
      exact counted

end Guarantees
end VectorForge
