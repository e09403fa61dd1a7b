import VectorForge.Core.VectorOps
import VectorForge.Search.Heaps
import VectorForge.Storage.Tombstones
import VectorForge.Storage.VectorStore

/-! The exact search: all rows, chunk by chunk and block by block. -/

namespace VectorForge

structure SearchKnobs where
  k : Nat := 10
  ef : Nat := 0
  deriving DecidableEq, Repr

/-- The kernels for several rows compute what the kernels for one row do. -/
structure KernelTable.Batched (k : KernelTable) : Prop where
  dots : ∀ query rows, k.dot1ToN query rows = rows.map (k.dot query)
  squares : ∀ query rows, k.l2sq1ToN query rows = rows.map (k.l2sq query)

/-- What `normalize_inplace` leaves behind passes `find_invalid_component`. -/
def KernelTable.Normalises (k : KernelTable) : Prop := ∀ vector unit, (∀ x ∈ vector, x.acceptable = true) →
  normalizeInplace k vector = .ok unit → ∀ x ∈ unit, x.acceptable = true

/-- What is assumed of the arithmetic besides: finite operands of a length that a collection can have have a
distance. -/
structure KernelTable.Sane (k : KernelTable) : Prop extends k.Batched where
  real : ∀ mode (query : QueryView) row, query.data.length = row.length → row.length ≤ kMaxDim →
    (∀ x ∈ query.data, x.acceptable = true) → (∀ x ∈ row, x.acceptable = true) → query.invNorm.isFinite = true →
    (queryDistance k mode query row).isNan = false
  normalises : k.Normalises

namespace FlatBackend
open BoundedMaxHeap (renumber renumber_embeds)

def kBlockRows : Nat := 1024

section Scan
variable (k : KernelTable) (metric : Metric) (normalized : Bool) (query : QueryView)

def blockDistances (rows : List (List F32)) : List F32 :=
  if !normalized then
    if metric = .l2 then k.l2sq1ToN query.data rows else (k.dot1ToN query.data rows).map F32.neg
  else
    let dots := k.dot1ToN query.data rows
    match metric with
    | .cosine => dots.map fun dot => (k.sub F32.one (k.mul dot query.invNorm)).clamp
    | .l2 => dots.map fun dot => (k.sub F32.two (k.mul (k.mul F32.two dot) query.invNorm)).clamp
    | .innerProduct => dots.map fun dot => (k.mul dot query.invNorm).neg

/-- The body of the innermost loop. -/
def offerRow (deleted : TombstoneSet) (heap : BoundedMaxHeap) (id : Nat) (distance : F32) : BoundedMaxHeap :=
  if deleted.any && deleted.test id then heap
  else if heap.full && !(match heap.top? with
      | some worst => distance.lt worst.distance
      | none => false) then heap
  else heap.push { distance, id }

/-- The rows from `start` on of a chunk whose first row is `base`. -/
def scanBlock (deleted : TombstoneSet) (dim : Nat) (data : List F32) (base rows start : Nat)
    (heap : BoundedMaxHeap) : BoundedMaxHeap :=
  let n := min kBlockRows (rows - start)
  let distances := blockDistances k metric normalized query (VectorStore.rowsOf dim (data.drop (start * dim)) n)
  (List.range n).foldl (fun heap r => offerRow deleted heap (base + start + r) (distances.getD r F32.zero)) heap

def scanChunk (deleted : TombstoneSet) (dim : Nat) (data : List F32) (base rows : Nat)
    (heap : BoundedMaxHeap) : BoundedMaxHeap :=
  (List.range ((rows + kBlockRows - 1) / kBlockRows)).foldl
    (fun heap block => scanBlock k metric normalized query deleted dim data base rows
      (block * kBlockRows) heap) heap

/-- `FlatBackend::search`: the results in ascending order, with internal ids. -/
def search (vectors : VectorStore) (deleted : TombstoneSet) (knobs : SearchKnobs) : List ScoredId :=
  let scanned := (List.range vectors.chunkCount).foldl
    (fun (heap, base) chunk =>
      let rows := vectors.rowsInChunk chunk
      (scanChunk k metric normalized query deleted vectors.dim (vectors.chunkData chunk) base rows heap,
        base + rows))
    (({ capacity := knobs.k } : BoundedMaxHeap), 0)
  scanned.1.sortAscending

end Scan

section Blocks
variable {k : KernelTable} {metric : Metric} {normalized : Bool} {query : QueryView} {deleted : TombstoneSet}

theorem blockDistances_eq (batched : k.Batched) (rows : List (List F32)) :
    blockDistances k metric normalized query rows =
    rows.map (queryDistance k (scoreMode metric normalized) query) := by
  cases normalized with
  | false =>
    cases metric with
    | l2 => exact batched.squares query.data rows
    | innerProduct =>
      simp only [blockDistances, batched.dots, List.map_map]
      rfl
    | cosine =>
      simp only [blockDistances, batched.dots, List.map_map]
      rfl
  | true => cases metric <;> (simp only [blockDistances, batched.dots, List.map_map]; rfl)

/-- A row as it goes through the loop. -/
def offerStored (k : KernelTable) (mode : ScoreMode) (query : QueryView) (deleted : TombstoneSet)
    (vectors : VectorStore) (heap : BoundedMaxHeap) (id : Nat) : BoundedMaxHeap :=
  offerRow deleted heap id (queryDistance k mode query (vectors.row id))

theorem foldl_range_congr {β : Type} {f g : β → Nat → β} {n : Nat} (same : ∀ b i, i < n → f b i = g b i) (b : β) :
    (List.range n).foldl f b = (List.range n).foldl g b := by
  refine List.foldl_ext f g b ?_
  intro a i member
  exact same a i (List.mem_range.mp member)

theorem scanBlock_eq (batched : k.Batched) {vectors : VectorStore} (wf : vectors.Wf) {chunk start : Nat}
    (heap : BoundedMaxHeap) : scanBlock k metric normalized query deleted vectors.dim (vectors.chunkData chunk)
      (chunk * vectors.rowsPerChunk) (vectors.rowsInChunk chunk) start heap =
    ((List.range (min kBlockRows (vectors.rowsInChunk chunk - start))).map
      (chunk * vectors.rowsPerChunk + start + ·)).foldl
      (offerStored k (scoreMode metric normalized) query deleted vectors) heap := by
  have count : vectors.rowsInChunk chunk ≤ vectors.rowsPerChunk := by
    rw [VectorStore.rowsInChunk_eq]
    exact min_le_left _ _
  rw [List.foldl_map, scanBlock]
  refine foldl_range_congr (fun heap r inside => ?_) heap
  have row : ((vectors.chunkData chunk).drop (start * vectors.dim) |>.drop (r * vectors.dim)).take vectors.dim =
      vectors.row (chunk * vectors.rowsPerChunk + start + r) := by
    rw [List.drop_drop, ← Nat.add_mul, Nat.add_assoc, wf.row_in_chunk (by omega)]
  rw [blockDistances_eq batched, VectorStore.rowsOf, List.map_map, offerStored]
  congr 1
  rw [List.getD_eq_getElem?_getD, List.getElem?_map, List.getElem?_range inside, Option.map_some, Option.getD_some,
    Function.comp_apply, row]

/-- Blocks cut the rows of a chunk into runs, the last of them shorter. -/
theorem range_by_blocks (rows : Nat) : ((List.range ((rows + kBlockRows - 1) / kBlockRows)).flatMap fun block =>
    (List.range (min kBlockRows (rows - block * kBlockRows))).map (block * kBlockRows + ·)) = List.range rows := by
  rw [VectorStore.range_by_chunks, min_eq_left]
  rw [kBlockRows]
  omega

theorem scanChunk_eq (batched : k.Batched) {vectors : VectorStore} (wf : vectors.Wf) {chunk : Nat}
    (heap : BoundedMaxHeap) : scanChunk k metric normalized query deleted vectors.dim (vectors.chunkData chunk)
      (chunk * vectors.rowsPerChunk) (vectors.rowsInChunk chunk) heap =
    ((List.range (vectors.rowsInChunk chunk)).map (chunk * vectors.rowsPerChunk + ·)).foldl
      (offerStored k (scoreMode metric normalized) query deleted vectors) heap := by
  rw [← range_by_blocks (vectors.rowsInChunk chunk), List.map_flatMap, List.foldl_flatMap, scanChunk]
  refine congrArg (fun f => List.foldl f heap _) (funext fun heap => funext fun block => ?_)
  rw [scanBlock_eq batched wf, List.map_map]
  congr 2
  funext r
  exact Nat.add_assoc _ _ _

/-- Chunks and blocks do not matter: every row is offered once, in the order of the ids. -/
theorem search_eq (batched : k.Batched) {vectors : VectorStore} (wf : vectors.Wf) (knobs : SearchKnobs) :
    search k metric normalized query vectors deleted knobs = ((List.range vectors.size).foldl
      (offerStored k (scoreMode metric normalized) query deleted vectors)
        { capacity := knobs.k }).sortAscending := by
  have chunks (n : Nat) (heap : BoundedMaxHeap) : (List.range n).foldl
      (fun (heap, base) chunk =>
        let rows := vectors.rowsInChunk chunk
        (scanChunk k metric normalized query deleted vectors.dim (vectors.chunkData chunk) base rows heap,
          base + rows))
      (heap, 0) =
      (((List.range n).flatMap fun c => (List.range (vectors.rowsInChunk c)).map
        (c * vectors.rowsPerChunk + ·)).foldl
        (offerStored k (scoreMode metric normalized) query deleted vectors) heap,
        min vectors.size (n * vectors.rowsPerChunk)) := by
    induction n with
    | zero => simp
    | succ n ih =>
      rw [List.range_succ, List.foldl_append, ih, List.flatMap_append, List.foldl_append]
      simp only [List.foldl_cons, List.foldl_nil, List.flatMap_cons, List.flatMap_nil, List.append_nil]
      rw [Nat.succ_mul]
      have rows := VectorStore.rowsInChunk_eq (s := vectors) n
      rcases Nat.le_total vectors.size (n * vectors.rowsPerChunk) with done | more
      · -- chunks that were only reserved
        have none : vectors.rowsInChunk n = 0 := by omega
        rw [none, min_eq_left done, min_eq_left (by omega)]
        rfl
      · rw [min_eq_right more, scanChunk_eq batched wf]
        refine Prod.ext rfl ?_
        dsimp only
        omega
  rw [search, chunks, wf.rows_by_chunks]

theorem offerRow_congr {heap : BoundedMaxHeap} {id : Nat} {distance : F32} {other : TombstoneSet}
    (count : deleted.count = other.count) (marks : deleted.test id = other.test id) :
    offerRow deleted heap id distance = offerRow other heap id distance := by
  rw [offerRow, offerRow, TombstoneSet.any, TombstoneSet.any, count, marks]

/-- The result depends on the rows and their marks alone. -/
theorem search_congr (batched : k.Batched) {vectors vectors' : VectorStore} {other : TombstoneSet}
    (wf : vectors.Wf) (wf' : vectors'.Wf)
    (size : vectors.size = vectors'.size) (rows : ∀ id, id < vectors.size → vectors.row id = vectors'.row id)
    (count : deleted.count = other.count) (marks : ∀ id, deleted.test id = other.test id) (knobs : SearchKnobs) :
    search k metric normalized query vectors deleted knobs =
      search k metric normalized query vectors' other knobs := by
  rw [search_eq batched wf, search_eq batched wf', ← size]
  congr 1
  refine foldl_range_congr (fun heap id inside => ?_) _
  rw [offerStored, offerStored, rows id inside, offerRow_congr count (marks id)]

theorem offerRow_cases (heap : BoundedMaxHeap) (id : Nat) (distance : F32) :
    offerRow deleted heap id distance = heap ∨ offerRow deleted heap id distance = heap.push { distance, id } := by
  rw [offerRow]
  generalize (deleted.any && deleted.test id) = dead
  generalize (heap.full && _) = far
  cases dead with
  | true => exact .inl rfl
  | false =>
    cases far with
    | true => exact .inl rfl
    | false => exact .inr rfl

theorem mem_offerRow {heap : BoundedMaxHeap} {id : Nat} {distance : F32} {c : ScoredId}
    (member : c ∈ (offerRow deleted heap id distance).data) : c = { distance, id } ∨ c ∈ heap.data := by
  rcases offerRow_cases heap id distance with same | pushed
  · exact .inr (same ▸ member)
  · exact BoundedMaxHeap.mem_push (pushed ▸ member)

theorem mem_search (batched : k.Batched) {vectors : VectorStore} (wf : vectors.Wf)
    {knobs : SearchKnobs} {c : ScoredId}
    (member : c ∈ search k metric normalized query vectors deleted knobs) : c.id < vectors.size := by
  have seen (n : Nat) (c : ScoredId) (member : c ∈ ((List.range n).foldl
      (offerStored k (scoreMode metric normalized) query deleted vectors)
      { capacity := knobs.k }).data) : c.id < n := by
    induction n with
    | zero => cases member
    | succ n ih =>
      rw [List.range_succ, List.foldl_append] at member
      simp only [List.foldl_cons, List.foldl_nil, offerStored] at member
      rcases mem_offerRow member with rfl | earlier
      · exact Nat.lt_succ_self n
      · exact (ih earlier).trans (Nat.lt_succ_self n)
  rw [search_eq batched wf] at member
  exact seen _ c ((BoundedMaxHeap.sortAscending_perm _).mem_iff.mp member)

theorem length_search (batched : k.Batched) {vectors : VectorStore} (wf : vectors.Wf) {knobs : SearchKnobs} :
    (search k metric normalized query vectors deleted knobs).length ≤ knobs.k := by
  have few (ids : List Nat) (heap : BoundedMaxHeap) (fits : heap.data.length ≤ heap.capacity) :
      (ids.foldl (offerStored k (scoreMode metric normalized) query deleted vectors) heap).data.length ≤
      heap.capacity := by
    induction ids generalizing heap with
    | nil => exact fits
    | cons id ids ih =>
      rw [List.foldl_cons, offerStored]
      rcases offerRow_cases heap id (queryDistance k (scoreMode metric normalized) query
        (vectors.row id)) with same | pushed
      · rw [same]
        exact ih heap fits
      · rw [pushed]
        exact ih (heap.push _) (BoundedMaxHeap.length_push_le _ fits)
  rw [search_eq batched wf]
  exact (BoundedMaxHeap.sortAscending_perm _).length_eq.trans_le (few _ _ (Nat.zero_le _))

end Blocks

section Selection
variable {k : KernelTable} {mode : ScoreMode} {query : QueryView} {deleted : TombstoneSet} {vectors : VectorStore}

/-- A row with its distance. -/
def scoredRow (k : KernelTable) (mode : ScoreMode) (query : QueryView) (vectors : VectorStore)
    (id : Nat) : ScoredId :=
  { distance := queryDistance k mode query (vectors.row id), id }

/-- The first `n` rows without those that are marked. -/
def liveScored (k : KernelTable) (mode : ScoreMode) (query : QueryView) (deleted : TombstoneSet)
    (vectors : VectorStore) (n : Nat) : List ScoredId :=
  ((List.range n).filter fun id => !deleted.test id).map (scoredRow k mode query vectors)

theorem liveScored_succ (n : Nat) :
    liveScored k mode query deleted vectors (n + 1) = liveScored k mode query deleted vectors n ++
    if deleted.test n then [] else [scoredRow k mode query vectors n] := by
  rw [liveScored, List.range_succ, List.filter_append, List.map_append, liveScored]
  cases dead : deleted.test n <;> simp [dead]

theorem mem_liveScored {n : Nat} {c : ScoredId}
    (member : c ∈ liveScored k mode query deleted vectors n) : c.id < n ∧
    deleted.test c.id = false ∧ c.distance = queryDistance k mode query (vectors.row c.id) := by
  obtain ⟨id, inside, rfl⟩ := List.mem_map.mp member
  rw [List.mem_filter, List.mem_range, Bool.not_eq_true'] at inside
  exact ⟨inside.1, inside.2, rfl⟩

/-- Skipping a row that is not closer than the worst one kept so far changes nothing: all rows that
have been seen have smaller ids. -/
theorem offerRow_eq {heap : BoundedMaxHeap} {id : Nat} {distance : F32} (seen : ∀ c ∈ heap.data, c.id < id)
    (live : (deleted.any && deleted.test id) = false) :
    offerRow deleted heap id distance = heap.push { distance, id } := by
  rw [offerRow, live, if_neg Bool.false_ne_true]
  cases full : heap.full with
  | false => rfl
  | true =>
    rw [BoundedMaxHeap.full, decide_eq_true_eq] at full
    cases known : heap.data with
    | nil =>
      have stays : heap.push { distance, id } = heap := by
        simp only [BoundedMaxHeap.push, BinaryHeap.pushBounded, known]
        rw [← known, if_neg (by omega)]
      simp only [BoundedMaxHeap.top?, known, List.head?_nil, stays]
      rfl
    | cons top rest =>
      simp only [BoundedMaxHeap.top?, known, List.head?_cons]
      cases closer : distance.lt top.distance with
      | true => rfl
      | false =>
        have before := seen top (by rw [known]; exact List.mem_cons_self)
        have later : ¬id < top.id := by omega
        have smaller : candidateLess { distance, id } top = false := by
          simp only [candidateLess, closer, later, decide_false, Bool.and_false, Bool.or_false]
        have stays : heap.push { distance, id } = heap := by
          simp only [BoundedMaxHeap.push, BinaryHeap.pushBounded, known, smaller, Bool.false_eq_true, if_false]
          rw [← known, if_neg (by omega)]
        rw [stays]
        rfl

/-- The first of the live rows in the order of their distances, rows at the same distance in the
order of their ids. -/
theorem search_sorted (batched : k.Batched) (wf : vectors.Wf) {metric : Metric} {normalized : Bool}
    {knobs : SearchKnobs} (tracks : deleted.Tracks vectors.size) (mode_eq : scoreMode metric normalized = mode)
    (real : ∀ id, id < vectors.size → deleted.test id = false →
      (queryDistance k mode query (vectors.row id)).isNan = false)
    {inOrder : List ScoredId} (perm : inOrder.Perm (liveScored k mode query deleted vectors vectors.size))
    (sorted : inOrder.Pairwise fun a b => a.key < b.key) :
    search k metric normalized query vectors deleted knobs = inOrder.take knobs.k := by
  subst mode_eq
  have sorts (n : Nat) (inside : n ≤ vectors.size) : BinaryHeap.Sorts candidateLess ScoredId.key
      (liveScored k (scoreMode metric normalized) query deleted vectors n) := by
    refine candidateLess_sorts fun c member => ?_
    obtain ⟨below, live, distance⟩ := mem_liveScored member
    rw [distance]
    exact real c.id (by omega) live
  have marks := tracks.any_and_test
  -- the heap holds the best of the live rows seen so far
  have keeps (n : Nat) (inside : n ≤ vectors.size) : ∃ pushed,
      pushed.Perm (liveScored k (scoreMode metric normalized) query deleted vectors n) ∧
      BinaryHeap.Keeps ScoredId.key knobs.k pushed ((List.range n).foldl
        (offerStored k (scoreMode metric normalized) query deleted vectors) { capacity := knobs.k }).data ∧
      ((List.range n).foldl (offerStored k (scoreMode metric normalized) query deleted vectors)
        { capacity := knobs.k }).capacity = knobs.k := by
    induction n with
    | zero => exact ⟨[], .refl _, BinaryHeap.Keeps.nil _ _, rfl⟩
    | succ n ih =>
      obtain ⟨pushed, known, keeps, capacity⟩ := ih (by omega)
      rw [List.range_succ, List.foldl_append, liveScored_succ]
      simp only [List.foldl_cons, List.foldl_nil]
      generalize (List.range n).foldl _ _ = heap at keeps capacity
      have members (c : ScoredId) (member : c ∈ heap.data) : c.id < n := by
        obtain ⟨rest, split, _⟩ := keeps.split
        exact (mem_liveScored (known.mem_iff.mp (split.mem_iff.mpr (List.mem_append_left rest member)))).1
      cases dead : deleted.test n with
      | true =>
        refine ⟨pushed, ?_, ?_, ?_⟩
        · simpa using known
        · rw [offerStored, offerRow, marks, dead, if_pos rfl]
          exact keeps
        · rw [offerStored, offerRow, marks, dead, if_pos rfl]
          exact capacity
      | false =>
        rw [offerStored, offerRow_eq members (by rw [marks, dead])]
        have next := sorts (n + 1) inside
        rw [liveScored_succ, dead, if_neg Bool.false_ne_true] at next
        have reordered : (scoredRow k (scoreMode metric normalized) query vectors n :: pushed).Perm
            (liveScored k (scoreMode metric normalized) query deleted vectors n ++
              [scoredRow k (scoreMode metric normalized) query vectors n]) :=
          (known.cons _).trans (List.perm_append_singleton _ _).symm
        refine ⟨scoredRow k (scoreMode metric normalized) query vectors n :: pushed, ?_, ?_, capacity⟩
        · rw [if_neg Bool.false_ne_true]
          exact reordered
        · rw [BoundedMaxHeap.push, capacity]
          exact keeps.push (next.of_perm reordered)
  obtain ⟨pushed, known, held, _⟩ := keeps vectors.size (Nat.le_refl _)
  rw [search_eq batched wf]
  exact held.sorted ((sorts _ (Nat.le_refl _)).of_perm known) (perm.trans known.symm) sorted

end Selection

section Renumbering
variable {k : KernelTable} {mode : ScoreMode} {metric : Metric} {normalized : Bool} {query : QueryView}
  {deleted : TombstoneSet} {vectors : VectorStore} {f : Nat → Nat}

/-- What a row that is not marked does to the heap. -/
def offer (heap : BoundedMaxHeap) (c : ScoredId) : BoundedMaxHeap :=
  if heap.full && !(match heap.top? with
      | some worst => c.distance.lt worst.distance
      | none => false) then heap
  else heap.push c

theorem foldl_offerStored (marks : ∀ id, (deleted.any && deleted.test id) = deleted.test id) (n : Nat)
    (heap : BoundedMaxHeap) : (List.range n).foldl (offerStored k mode query deleted vectors) heap =
      (liveScored k mode query deleted vectors n).foldl offer heap := by
  rw [liveScored, List.foldl_map, List.foldl_filter]
  refine congrArg (fun g => List.foldl g heap _) (funext fun heap => funext fun id => ?_)
  rw [offerStored, offerRow, marks]
  cases deleted.test id <;> rfl

theorem offer_renumber (mono : StrictMono f) (heap : BoundedMaxHeap) (c : ScoredId) :
    offer { heap with data := heap.data.map (renumber f) } (renumber f c) =
      { offer heap c with data := (offer heap c).data.map (renumber f) } := by
  have full : BoundedMaxHeap.full { heap with data := heap.data.map (renumber f) } = heap.full := by
    rw [BoundedMaxHeap.full, BoundedMaxHeap.full, List.length_map]
  have closer : (match BoundedMaxHeap.top? { heap with data := heap.data.map (renumber f) } with
      | some worst => (renumber f c).distance.lt worst.distance
      | none => false) = (match heap.top? with
      | some worst => c.distance.lt worst.distance
      | none => false) := by
    simp only [BoundedMaxHeap.top?, List.head?_map]
    cases heap.data.head? <;> rfl
  rw [offer, offer, full, closer]
  generalize (match heap.top? with
      | some worst => c.distance.lt worst.distance
      | none => false) = smaller
  cases heap.full && !smaller with
  | true => rfl
  | false => simp only [Bool.false_eq_true, if_false, BoundedMaxHeap.push,
    BinaryHeap.map_pushBounded (renumber_embeds mono)]

theorem foldl_offer_renumber (mono : StrictMono f) (xs : List ScoredId) : ∀ heap : BoundedMaxHeap,
    (xs.map (renumber f)).foldl offer { heap with data := heap.data.map (renumber f) } =
      { xs.foldl offer heap with data := (xs.foldl offer heap).data.map (renumber f) } := by
  induction xs with
  | nil => exact fun _ => rfl
  | cons c xs ih =>
    intro heap
    rw [List.map_cons, List.foldl_cons, List.foldl_cons, offer_renumber mono, ih]

theorem length_offer {heap : BoundedMaxHeap} {c : ScoredId} (room : heap.data.length < heap.capacity) :
    offer heap c = { heap with data := BinaryHeap.push candidateLess heap.data c } := by
  have free : heap.full = false := decide_eq_false (by omega)
  simp only [offer, free, Bool.false_and, Bool.false_eq_true, if_false, BoundedMaxHeap.push,
    BinaryHeap.pushBounded, if_pos room]

/-- Room for more than everything makes no difference. -/
theorem foldl_offer_room (xs : List ScoredId) : ∀ {heap other : BoundedMaxHeap}, heap.data = other.data →
    heap.data.length + xs.length ≤ heap.capacity → other.data.length + xs.length ≤ other.capacity →
    (xs.foldl offer heap).data = (xs.foldl offer other).data := by
  induction xs with
  | nil => exact fun same _ _ => same
  | cons c xs ih =>
    intro heap other same room room'
    rw [List.length_cons] at room room'
    rw [List.foldl_cons, List.foldl_cons, length_offer (by omega), length_offer (by omega)]
    have length (h : BoundedMaxHeap) : (BinaryHeap.push candidateLess h.data c).length = h.data.length + 1 :=
      BinaryHeap.push_perm.length_eq
    refine ih (by rw [same]) ?_ ?_
    · rw [length heap]
      change heap.data.length + 1 + xs.length ≤ heap.capacity
      omega
    · rw [length other]
      change other.data.length + 1 + xs.length ≤ other.capacity
      omega

/-- The same live rows under other ids, in the same order, and the same room or room for all of them:
the same result under the other ids. -/
theorem search_renumbered (batched : k.Batched) (wf : vectors.Wf) (tracks : deleted.Tracks vectors.size)
    {vectors' : VectorStore} {deleted' : TombstoneSet} (wf' : vectors'.Wf) (tracks' : deleted'.Tracks vectors'.size)
    (mono : StrictMono f) {knobs knobs' : SearchKnobs}
    (same : liveScored k (scoreMode metric normalized) query deleted vectors vectors.size =
      (liveScored k (scoreMode metric normalized) query deleted' vectors' vectors'.size).map (renumber f))
    (room : knobs.k = knobs'.k ∨
      ((liveScored k (scoreMode metric normalized) query deleted' vectors' vectors'.size).length ≤ knobs.k ∧
        (liveScored k (scoreMode metric normalized) query deleted' vectors' vectors'.size).length ≤ knobs'.k)) :
    search k metric normalized query vectors deleted knobs =
      (search k metric normalized query vectors' deleted' knobs').map (renumber f) := by
  rw [search_eq batched wf, search_eq batched wf', foldl_offerStored tracks.any_and_test,
    foldl_offerStored tracks'.any_and_test, same, BoundedMaxHeap.sortAscending, BoundedMaxHeap.sortAscending,
    ← BinaryHeap.map_sortAscending (renumber_embeds mono)]
  generalize liveScored k (scoreMode metric normalized) query deleted' vectors' vectors'.size = xs at room
  have mapped : ((xs.map (renumber f)).foldl offer { capacity := knobs.k }).data =
      (xs.foldl offer { capacity := knobs.k }).data.map (renumber f) :=
    congrArg BoundedMaxHeap.data (foldl_offer_renumber mono xs { capacity := knobs.k })
  rw [mapped]
  rcases room with capacity | ⟨wide, wide'⟩
  · rw [capacity]
  · have same : (xs.foldl offer { capacity := knobs.k }).data = (xs.foldl offer { capacity := knobs'.k }).data :=
      foldl_offer_room xs rfl (by simpa using wide) (by simpa using wide')
    rw [same]

end Renumbering
end FlatBackend
end VectorForge
