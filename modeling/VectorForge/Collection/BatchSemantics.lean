import VectorForge.Collection.Guarantees

/-! What `add_batch` means: its rows are added as by `add`, one after the other. -/

namespace VectorForge
open Effect
open IndexReader (SameState)

namespace HnswGraph
open LittleEndian

/-- The lists of a node from level 0 up, each with its length. -/
def canonicalLists (g : HnswGraph) (id : Nat) : List Byte :=
  (List.range (g.level id + 1)).flatMap fun l =>
    leBytes 4 (g.links id l).length ++ (g.links id l).flatMap fun x => leBytes 4 x

/-- `canonical_bytes`: everything that decides how a graph behaves. -/
def canonicalBytes (g : HnswGraph) : List Byte :=
  leBytes 4 g.m ++ leBytes 4 g.maxLevel ++ leBytes 8 g.nodeCount ++ leBytes 4 g.entry.id ++
    leBytes 4 g.entry.level ++
    (List.range g.nodeCount).flatMap fun id => leBytes 1 (g.level id) ++ g.canonicalLists id

theorem canonicalBytes_congr {g h : HnswGraph} (same : HnswIo.SameGraph g h) (entry : g.entry = h.entry) :
    g.canonicalBytes = h.canonicalBytes := by
  have nodes := same.shape.nodeCount_eq
  have lists : (List.range h.nodeCount).flatMap (fun id => leBytes 1 (g.level id) ++ g.canonicalLists id) =
      (List.range h.nodeCount).flatMap fun id => leBytes 1 (h.level id) ++ h.canonicalLists id := by
    rw [List.flatMap_def, List.flatMap_def]
    congr 1
    refine List.map_congr_left fun id member => ?_
    rw [canonicalLists, canonicalLists, same.shape.level_eq, List.flatMap_def, List.flatMap_def]
    congr 2
    refine List.map_congr_left fun l inLevels => ?_
    rw [same.links id l (List.mem_range.mp member) (Nat.lt_succ_iff.mp (List.mem_range.mp inLevels))]
  rw [canonicalBytes, canonicalBytes, nodes, lists, entry, same.shape.m, same.shape.maxLevel]

end HnswGraph

namespace Collection
open Op CollectionState
variable {k : KernelTable} {s t u v : CollectionState} {lost : Nat → Prop} {upsert : Bool}
  {xs raws : List (ExternalId × List F32)}

/-- The calls of `add` for some vectors. -/
def addCalls (upsert : Bool) (raws : List (ExternalId × List F32)) : List Operation :=
  raws.map fun x => .mutate (.add x.1 x.2 upsert)

/-- The vectors of a batch with their ids, as the caller gave them. -/
def givenRows (config : CollectionConfig) (ids : List ExternalId) (rows : List F32) (n : Nat) :
    List (ExternalId × List F32) :=
  (List.range n).map fun j => (ids.getD j kInvalidExternalId,
    (rows.drop (j * config.dim.toNat)).take config.dim.toNat)

/-- `x` is what is stored of `raw`. -/
def Stores (k : KernelTable) (config : CollectionConfig) (raw x : ExternalId × List F32) : Prop :=
  raw.1 = x.1 ∧ storedVector k config raw.2 = .ok x.2

theorem follow_append (k : KernelTable) : ∀ (first second : List Operation) (settings : Nat → Setting)
    (s : CollectionState),
    follow k (first ++ second) settings s =
      ((follow k first settings s).1 ++ (follow k second (fun i => settings (i + first.length))
        (follow k first settings s).2).1,
        (follow k second (fun i => settings (i + first.length)) (follow k first settings s).2).2)
  | [], _, _, _ => rfl
  | o :: first, second, settings, s => by
    simp only [List.cons_append, follow, follow_append k first second]
    rfl

/-- Rows that are added one after the other are what calls of `add` insert, in whatever memory. -/
theorem addCalls_follow (adds : RowsAdded k lost upsert u xs t) : u.Sound lost → t.Sound lost →
    List.Forall₂ (Stores k u.config) raws xs → Alike v u → ∀ settings : Nat → Setting,
      (follow k (addCalls upsert raws) settings v).1 = List.replicate raws.length (.ok (.reply .done)) ∧
      Alike (follow k (addCalls upsert raws) settings v).2 t ∧
      (SameEntry v u → SameEntry (follow k (addCalls upsert raws) settings v).2 t) := by
  induction adds generalizing raws v with
  | @nil s t kept =>
    intro sound held stores alike settings
    cases stores
    refine ⟨rfl, ⟨alike.same.trans (SameState.of_kept kept).symm, alike.left, ⟨lost, held⟩, alike.creator⟩, ?_⟩
    exact fun entry => entry.of_backends rfl kept.backend
  | @cons s s' u x xs added rest ih =>
    intro sound held stores alike settings
    cases stores with
    | @cons raw _ raws _ first others =>
      obtain ⟨key, stored⟩ := first
      obtain ⟨lost', sound'⟩ := alike.left
      have allowed : addRefusal k v raw.1 raw.2 upsert = none := by
        rw [addRefusal, storedVector_congr alike.same, stored]
        dsimp only
        rw [key, alike.same.keyRefusal sound'.toCoupled sound.toCoupled]
        exact added.allowed
      obtain ⟨τ, run, row, same, one⟩ := add_returns sound' (settings 0).ample allowed
      rw [storedVector_congr alike.same, stored] at same
      cases same
      rw [key] at one
      have config : s'.config = s.config := by
        obtain ⟨_, _, _, _, _, inserted⟩ := added.inserted
        exact inserted.config
      have next : Alike τ.state s' := by
        have creator : τ.state.creator = v.creator := one.creator
        exact ⟨alike.same.rowAdded sound' sound one added, ⟨lost', one.sound⟩, ⟨lost, added.sound⟩,
          creator ▸ alike.creator⟩
      rw [← config] at others
      obtain ⟨answers, after, entry⟩ := ih added.sound held others next fun i => settings (i + 1)
      have step : Operation.run k (settings 0).leased (.mutate (.add raw.1 raw.2 upsert)) ⟨v, (settings 0).world⟩ =
          (.ok (.reply .done), τ) := bind_of_ok (bind_of_ok run)
      rw [addCalls, List.map_cons]
      simp only [follow, step]
      exact ⟨congrArg (_ :: ·) answers, after, fun _ => entry (added.sameEntry sound next.same)⟩

theorem Admitted.stores {ids : List ExternalId} {rows data : List F32} {pool : Option ThreadPool} {n : Nat}
    (admitted : Admitted k s ids rows upsert data) (coupled : s.Coupled) (inside : n ≤ ids.length) :
    List.Forall₂ (Stores k s.config) (givenRows s.config ids rows n)
      ((batchOf s.config ids data upsert pool).between 0 n) := by
  obtain ⟨_, _, _, each⟩ := admitted.batch pool coupled
  rw [givenRows, Batch.between, Nat.sub_zero, ← List.range_eq_range', List.forall₂_map_left_iff,
    List.forall₂_map_right_iff,
    List.forall₂_same]
  intro j member
  exact ⟨rfl, each j ((List.mem_range.mp member).trans_le inside)⟩

/-- One call of `add_batch`. -/
structure BatchCall where
  ids : List ExternalId
  rows : List F32
  upsert : Bool

def BatchCall.operation (c : BatchCall) : Operation := .mutate (.addBatch c.ids c.rows c.upsert none)

/-- The calls of `add` that it stands for. -/
def BatchCall.singles (config : CollectionConfig) (c : BatchCall) : List Operation :=
  addCalls c.upsert (givenRows config c.ids c.rows c.ids.length)

/-- A sequence of batches that are all inserted, and the same rows added one by one. -/
theorem singles_follow : ∀ (calls : List BatchCall) {u v : CollectionState} {lost : Nat → Prop}
    (settings alone : Nat → Setting),
    u.Sound lost → Alike v u → (∀ r ∈ (follow k (calls.map BatchCall.operation) settings u).1, ∃ a, r = .ok a) →
    (∀ r ∈ (follow k (calls.flatMap (BatchCall.singles u.config)) alone v).1, r = .ok (.reply .done)) ∧
      Alike (follow k (calls.flatMap (BatchCall.singles u.config)) alone v).2
        (follow k (calls.map BatchCall.operation) settings u).2 ∧
      (SameEntry v u → SameEntry (follow k (calls.flatMap (BatchCall.singles u.config)) alone v).2
        (follow k (calls.map BatchCall.operation) settings u).2)
  | [], _, _, _, _, _, _, alike, _ => ⟨nofun, alike, fun entry => entry⟩
  | c :: calls, u, v, lost, settings, alone, sound, alike, all => by
    cases run : addBatch k c.ids c.rows c.upsert none ⟨u, (settings 0).world⟩ with
    | mk result τ =>
      have step : (c.operation).run k (settings 0).leased ⟨u, (settings 0).world⟩ =
          (match result with
            | .ok n => .ok (.reply (.inserted n))
            | .error e => .error e, τ) := by
        cases result with
        | ok n => exact bind_of_ok (bind_of_ok run)
        | error e => exact bind_of_error (bind_of_error run)
      rw [List.map_cons] at all
      simp only [follow, step] at all
      cases result with
      | error e =>
        obtain ⟨_, failed⟩ := all _ List.mem_cons_self
        cases failed
      | ok n =>
        obtain ⟨_, _, held, data, admitted, added⟩ :=
          (addBatch_rows c.ids c.rows c.upsert sound (.inr ⟨rfl, (settings 0).ample⟩)).1 n τ run
        obtain ⟨answers, after, entry⟩ :=
          addCalls_follow added sound held (admitted.stores sound.toCoupled (Nat.le_refl _)) alike alone
        have rest := singles_follow calls (fun i => settings (i + 1))
          (fun i => alone (i + (addCalls c.upsert (givenRows u.config c.ids c.rows c.ids.length)).length)) held
          after
          fun r member => all r (List.mem_cons_of_mem _ member)
        rw [added.config] at rest
        obtain ⟨more, final, last⟩ := rest
        rw [List.flatMap_cons, List.map_cons]
        simp only [follow, step, BatchCall.singles, follow_append]
        refine ⟨?_, final, fun same => last (entry same)⟩
        intro r member
        rcases List.mem_append.mp member with first | second
        · rw [answers] at first
          exact List.eq_of_mem_replicate first
        · exact more r second

section Sections
variable {b : Batch}

/-- Sections of a batch that were grown and linked, one after the other: from row `done` on up to row `m`. -/
inductive SectionsRun (k : KernelTable) (b : Batch) : Nat → Session → Nat → Session → Prop
  | refl (done : Nat) (σ : Session) : SectionsRun k b done σ done σ
  | step {done m : Nat} {σ σ₁ τ : Session} {handled linked : Nat} (more : done < b.ids.length)
      (run : batchSection k b done σ = (.ok (handled, linked), σ₁))
      (rest : SectionsRun k b (done + handled) σ₁ m τ) : SectionsRun k b done σ m τ

/-- What the sections so far have done, and that the loop gets there. -/
theorem SectionsRun.linked {done m : Nat} {σ τ : Session} (run : SectionsRun k b done σ m τ)
    (distinct : b.ids.Nodup) {h : HnswBackend} :
    σ.state.Sound lost → σ.state.backend = .hnsw h → Batch.Fits b σ.state → done ≤ b.ids.length →
    LinkedUpTo lost b done σ.state m τ.state ∧ ∀ fuel inserted, b.ids.length ≤ done + fuel →
      ∃ left total, b.ids.length ≤ m + left ∧
      batchSections k b fuel done inserted σ = batchSections k b left m total τ := by
  induction run generalizing h with
  | refl done σ =>
    exact fun sound _ _ inside => ⟨.refl sound inside, fun fuel inserted enough => ⟨fuel, inserted, enough, rfl⟩⟩
  | @step done m σ σ₁ τ handled linked more run _ ih =>
    intro sound kind fits _
    obtain ⟨_, progress, _, finished⟩ := (batchSection_ends sound kind fits distinct more).1 _ σ₁ run
    dsimp only at progress finished
    have up : LinkedUpTo lost b done σ.state (done + handled) σ₁.state := by
      refine ⟨Nat.le_add_right _ _, ?_⟩
      rw [Nat.add_sub_cancel_left]
      exact finished
    have held := up.sound sound
    obtain ⟨g, kind'⟩ := up.backend kind
    obtain ⟨rest, reaches⟩ :=
      ih held kind' (fits.of_config sound.toCoupled held.toCoupled finished.config) finished.inside
    refine ⟨up.trans rest sound distinct, fun fuel inserted enough => ?_⟩
    obtain ⟨fuel, rfl⟩ : ∃ n, fuel = n + 1 := ⟨fuel - 1, by omega⟩
    obtain ⟨left, total, room, same⟩ := reaches fuel (inserted + linked) (by omega)
    refine ⟨left, total, room, ?_⟩
    rw [← same, batchSections, if_pos more]
    exact bind_of_ok run

section Opening
variable {ids : List ExternalId} {rows : List F32} {pool : Option ThreadPool} {w : World}

/-- `add_batch` in Concurrent mode up to the first section. -/
def openSections (k : KernelTable) (ids : List ExternalId) (rows : List F32) (upsert : Bool)
    (pool : Option ThreadPool) : Op Batch := do
  let b ← openBatch k ids rows upsert pool
  allocate
  return b

theorem addBatch_sections (kind : s.config.Sectioned) (some : ids.length ≠ 0) :
    addBatch k ids rows upsert pool ⟨s, w⟩ =
    (openSections k ids rows upsert pool >>= fun b => batchSections k b b.ids.length 0 0) ⟨s, w⟩ := by
  rw [addBatch_opens some, openSections, bind_assoc]
  simp only [if_pos (show s.config.index = .hnsw ∧ s.config.concurrency = .concurrent from kind), bind_assoc]
  rfl

theorem openSections_ends (coupled : s.Coupled) (some : ids.length ≠ 0) :
    Ends (openSections k ids rows upsert pool) ⟨s, w⟩
    (fun b τ => ∃ data, b = batchOf s.config ids data upsert pool ∧
      Admitted k s ids rows upsert data ∧ Kept s τ.state ∧
      τ.state.Coupled)
    fun _ τ => Kept s τ.state := by
  refine Ends.bind (openBatch_ends coupled some (fun _ _ untouched => untouched.kept) ?_)
  intro data t w' valid allowed stored _ kept held
  refine ends_allocate (fun _ _ => kept) fun _ _ => Ends.pure ?_
  exact ⟨data, rfl, ⟨allowed, valid, stored⟩, kept, held⟩

end Opening

end Sections

end Collection

namespace CollectionState
variable {s t : CollectionState}

/-- The same collection in Coarse mode. -/
def coarse (s : CollectionState) : CollectionState := { s with config := { s.config with concurrency := .coarse } }

theorem Sound.coarse {lost : Nat → Prop} (sound : s.Sound lost) : s.coarse.Sound lost :=
  { sound with
    backend := by
      have fits := sound.backend
      rw [CollectionState.coarse]
      cases kind : s.backend with
      | flat =>
        rw [kind] at fits
        exact fits
      | hnsw b =>
        rw [kind] at fits
        exact fits }

/-- The same rows, labels, id map, tombstones and graph. -/
structure SameIndex (s t : CollectionState) : Prop where
  rows : s.vectors.rows = t.vectors.rows
  labels : s.ids.labels = t.ids.labels
  ids : s.ids = t.ids
  marks : ∀ i, s.deleted.test i = t.deleted.test i
  count : s.deleted.count = t.deleted.count
  graph : s.backend.graph?.map HnswGraph.canonicalBytes = t.backend.graph?.map HnswGraph.canonicalBytes

theorem Alike.sameIndex (alike : Alike s t) (entry : SameEntry s t) : SameIndex s t where
  rows := alike.same.rows
  labels := congrArg IdMap.labels alike.same.ids
  ids := alike.same.ids
  marks := alike.same.marks
  count := alike.same.count
  graph := by
    have backends := alike.same.backend
    cases left : s.backend with
    | flat =>
      cases right : t.backend with
      | flat => rfl
      | hnsw c => rw [left, right] at backends; cases backends
    | hnsw b =>
      cases right : t.backend with
      | flat => rw [left, right] at backends; cases backends
      | hnsw c =>
        rw [left, right] at backends
        exact congrArg some (HnswGraph.canonicalBytes_congr backends.2.2 (entry b c left right))

end CollectionState

namespace Guarantees
open Collection CollectionState

/-- Batches without a pool: sections that are grown and then linked, slices that are linked row by
row, and single calls of `add` build the same index, wherever the clock cuts them. -/
theorem serial_sections_equal_single_adds {k : KernelTable} {s : CollectionState} (reached : Reachable k s)
    (calls : List BatchCall) (here there alone : Nat → Setting) :
    (follow k (calls.map BatchCall.operation) here s).1 =
      (follow k (calls.map BatchCall.operation) there s.coarse).1 ∧
    SameIndex (follow k (calls.map BatchCall.operation) here s).2
      (follow k (calls.map BatchCall.operation) there s.coarse).2 ∧
    ((∀ r ∈ (follow k (calls.map BatchCall.operation) here s).1, ∃ a, r = .ok a) →
      (∀ r ∈ (follow k (calls.flatMap (BatchCall.singles s.config)) alone s).1, r = .ok (.reply .done)) ∧
      SameIndex (follow k (calls.map BatchCall.operation) here s).2
        (follow k (calls.flatMap (BatchCall.singles s.config)) alone s).2) := by
  obtain ⟨⟨lost, sound⟩, creator⟩ := reached.sound
  have serial : ∀ o ∈ calls.map BatchCall.operation, o.Serial := by
    intro o member
    obtain ⟨c, _, rfl⟩ := List.mem_map.mp member
    rfl
  have unsearched : ∀ o ∈ calls.map BatchCall.operation, o.Searches → k.Batched := by
    intro o member searches
    obtain ⟨c, _, rfl⟩ := List.mem_map.mp member
    exact searches.elim
  have alike : Alike s s.coarse := ⟨⟨rfl, rfl, rfl, fun _ => rfl, rfl, .refl _, rfl, rfl⟩, ⟨lost, sound⟩,
    ⟨lost, sound.coarse⟩, creator⟩
  have self : Alike s s := ⟨.refl s, ⟨lost, sound⟩, ⟨lost, sound⟩, creator⟩
  have entry : SameEntry s s := by
    intro b c left right
    cases left.symm.trans right
    rfl
  obtain ⟨answers, after, last⟩ := follow_alike _ unsearched serial here there alike
  refine ⟨answers, after.sameIndex (last entry), fun all => ?_⟩
  obtain ⟨done, final, same⟩ := singles_follow calls here alone sound self all
  have index := final.sameIndex (same entry)
  exact ⟨done, index.rows.symm, index.labels.symm, index.ids.symm, fun i => (index.marks i).symm,
    index.count.symm, index.graph.symm⟩

section Fresh
open Op
variable {k : KernelTable} {s : CollectionState} {c : CollectionConfig} {ids : List ExternalId} {rows : List F32}
  {upsert : Bool} {pool : Option ThreadPool} {w : World}

theorem adjacentFind_of_ascending : ∀ {ids : List ExternalId}, ids.Pairwise (· < ·) → adjacentFind ids = none
  | [], _ => rfl
  | [_], _ => rfl
  | a :: b :: rest, ascending => by
    rw [List.pairwise_cons] at ascending
    rw [adjacentFind, if_neg (UInt64.ne_of_lt (ascending.1 b List.mem_cons_self)),
      adjacentFind_of_ascending ascending.2]

theorem checkKeys_of_ascending (ascending : ids.Pairwise (· < ·)) (real : ids.getLast? ≠ some kInvalidExternalId) :
    checkKeys ids = .ok () := by
  have sorted : ids.mergeSort (fun a b => decide (a ≤ b)) = ids :=
    List.mergeSort_of_pairwise (ascending.imp fun less => decide_eq_true (UInt64.le_of_lt less))
  rw [checkKeys, sorted, adjacentFind_of_ascending ascending]
  exact if_neg real

/-- What `add_batch` does for its rows before the first of them. -/
def reserveBatch (n : Nat) : Op Unit := do
  reserveVectors n
  allocate
  ensureSize n

theorem openBatch_fresh {start : Session} (created : create (.ok ()) 0 c = .ok s) (keys : checkKeys ids = .ok ())
    (valid : validateBatch rows ids.length c.dim.toNat = .ok ()) (plain : c.effectiveNormalize = false)
    (room : ids.length ≤ kMaxVectorsPerCollection) (enough : w.memory.headD true = true)
    (run : reserveBatch ids.length ⟨s, { w with memory := w.memory.tail }⟩ = (.ok (), start)) :
    openBatch k ids rows upsert pool ⟨s, w⟩ = (.ok (batchOf c ids rows upsert pool), start) := by
  obtain ⟨sound, config, _, empty, _⟩ := create_sound created
  have size : s.vectors.size = 0 := by rw [← VectorStore.length_rows, empty, List.length_nil]
  have unknown : ids.find? s.ids.contains = none := by
    rw [create_ids created]
    exact List.find?_eq_none.mpr fun _ _ => Bool.false_ne_true
  have prepares : prepareBatch k s.config ids rows ⟨s, w⟩ =
      (.ok rows, ⟨s, { w with memory := w.memory.tail }⟩) := by
    have granted : allocate ⟨s, w⟩ = (.ok (), ⟨s, { w with memory := w.memory.tail }⟩) := if_pos enough
    refine (bind_of_ok granted).trans ?_
    rw [keys]
    refine (bind_of_ok (p := lift (.ok ())) rfl).trans ?_
    rw [config, if_neg (by rw [plain]; exact Bool.false_ne_true)]
    rfl
  have admits : admitBatch ids upsert ⟨s, { w with memory := w.memory.tail }⟩ =
      (.ok (), ⟨s, { w with memory := w.memory.tail }⟩) := by
    refine (bind_of_ok (p := state) rfl).trans ?_
    simp only [unknown, size, Nat.zero_add, sound.limit, if_neg (Nat.not_lt.mpr room)]
    cases upsert <;> rfl
  obtain ⟨_, σ₁, reserved, run⟩ := ok_of_bind run
  obtain ⟨_, σ₂, allocated, ensured⟩ := ok_of_bind run
  refine (bind_of_ok (p := state) rfl).trans ?_
  dsimp only
  rw [config, valid]
  refine (bind_of_ok (p := lift (.ok ())) rfl).trans ?_
  rw [← config]
  refine (bind_of_ok prepares).trans ((bind_of_ok admits).trans ?_)
  rw [size, Nat.zero_add]
  refine (bind_of_ok reserved).trans ((bind_of_ok allocated).trans ((bind_of_ok ensured).trans ?_))
  rw [config]
  rfl

/-- How `p` ends in a new collection that has reserved memory for some rows. -/
def inFresh {α : Type} (c : CollectionConfig) (n : Nat) (w : World) (p : Op α) : Option (Except Exit α × Session) :=
  match create (.ok ()) 0 c with
  | .error _ => none
  | .ok s =>
    match reserveBatch n ⟨s, w⟩ with
    | (.error _, _) => none
    | (.ok _, start) => some (p start)

theorem inFresh_opens {α : Type} {p : Op α} {result : Except Exit α × Session}
    (ids : List ExternalId) (rows : List F32)
    (w : World) (created : create (.ok ()) 0 c = .ok s) (keys : checkKeys ids = .ok ())
    (valid : validateBatch rows ids.length c.dim.toNat = .ok ())
    (plain : c.effectiveNormalize = false) (room : ids.length ≤ kMaxVectorsPerCollection)
    (enough : w.memory.headD true = true)
    (run : inFresh c ids.length { w with memory := w.memory.tail } p = some result) :
    ∃ start, openBatch k ids rows upsert pool ⟨s, w⟩ = (.ok (batchOf c ids rows upsert pool), start) ∧
    p start = result := by
  rw [inFresh, created] at run
  dsimp only at run
  split at run
  · cases run
  next start reserved =>
    cases run
    exact ⟨start, openBatch_fresh created keys valid plain room enough reserved, rfl⟩

end Fresh

def sharedConfig : CollectionConfig := { dim := 1, index := .hnsw, concurrency := .concurrent }

/-- The time slice is over after each row. -/
def slowWorld : World := { clock := [true, true, true] }

/-- A batch of three rows in three sections. -/
theorem serial_sections_equal_single_adds_shared : ∃ s, Reachable zeroKernels s ∧ s.config.Sectioned ∧
    ∃ here : Nat → Setting,
    (here 0).world = slowWorld ∧
    (follow zeroKernels [.mutate (.addBatch [7, 8, 9] (List.replicate 3 F32.zero) false none)] here s).1 =
      [.ok (.reply (.inserted 3))] ∧
    ∀ alone, SameIndex (follow zeroKernels
      [.mutate (.addBatch [7, 8, 9] (List.replicate 3 F32.zero) false none)] here s).2
      (follow zeroKernels ([7, 8, 9].map fun id => .mutate (.add id [F32.zero] false)) alone s).2 := by
  obtain ⟨s, created⟩ := create_ok 0 (show sharedConfig.validate = .ok () by decide)
  have config : s.config = sharedConfig := (create_sound created).2.1
  have kind : s.config.Sectioned := by rw [config]; decide
  have reached : Reachable zeroKernels s := .created created
  have evaluated : (inFresh sharedConfig 3 slowWorld (addBatchConcurrent zeroKernels
      (batchOf sharedConfig [7, 8, 9] (List.replicate 3 F32.zero) false none))).any (·.1.toOption ==
      some 3) = true := by
    decide +kernel
  obtain ⟨⟨result, τ⟩, run, value⟩ := (Option.any_eq_true _ _).mp evaluated
  obtain ⟨start, opens, run⟩ := inFresh_opens [7, 8, 9] (List.replicate 3 F32.zero) slowWorld created
    (checkKeys_of_ascending (by decide) (by decide)) rfl rfl (by decide) rfl run
  cases result with
  | error e => cases value
  | ok n =>
    obtain rfl : n = 3 := Option.some.inj (beq_iff_eq.mp value)
    have added : addBatch zeroKernels [7, 8, 9] (List.replicate 3 F32.zero) false none
        ⟨s, slowWorld⟩ = (.ok 3, τ) := by
      rw [addBatch_opens (by decide), bind_of_ok opens]
      exact (congrFun (if_pos kind) start).trans run
    let here : Nat → Setting := fun _ => { world := slowWorld }
    have step : (Operation.mutate (.addBatch [7, 8, 9] (List.replicate 3 F32.zero) false none)).run
        zeroKernels (here 0).leased
        ⟨s, (here 0).world⟩ = (.ok (.reply (.inserted 3)), τ) := bind_of_ok (bind_of_ok added)
    have all : (follow zeroKernels [.mutate (.addBatch [7, 8, 9] (List.replicate 3 F32.zero) false none)] here
        s).1 =
        [.ok (.reply (.inserted 3))] := by simp only [follow, step]
    refine ⟨s, reached, kind, here, rfl, all, fun alone => ?_⟩
    have equal := serial_sections_equal_single_adds reached
      [⟨[7, 8, 9], List.replicate 3 F32.zero, false⟩] here here alone
    rw [config] at equal
    refine (equal.2.2 fun r member => ?_).2
    have only : r ∈ [.ok (.reply (.inserted 3))] := by
      rw [← all]
      exact member
    exact ⟨_, List.mem_singleton.mp only⟩

end Guarantees
end VectorForge
