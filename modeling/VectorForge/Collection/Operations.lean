import VectorForge.Collection.Session
import VectorForge.Hnsw.Linking
import VectorForge.Hnsw.LevelGenerator

/-! The mutations of `Collection`. Locks are left out here: mutations hold `writers` from start to
end, so one runs after the other. -/

namespace VectorForge

/-- What the code asks a pool given to `add_batch`. -/
structure ThreadPool where
  size : Nat
  onWorkerThread : Bool := false

/-- The arguments of `add_batch` after validation and normalisation. -/
structure Batch where
  ids : List ExternalId
  data : List F32
  dim : Nat
  upsert : Bool := false
  pool : Option ThreadPool := none

def Batch.row (b : Batch) (i : Nat) : Checked (ExternalId × List F32) := do
  let id ← Outcome.index b.ids i
  let row ← Outcome.slice b.data (i * b.dim) b.dim
  return (id, row)

structure CompactStats where
  rowsBefore : Nat
  removedRows : Nat
  rowsAfter : Nat
  deriving DecidableEq, Repr

/-- A grow section: the reservations of the rows it committed, of which the first is row `first`,
and why it stopped early. Scratch memory is ready for `prepared` nodes. -/
structure Grown where
  first : Nat
  prepared : Nat
  rows : List IdMap.Reservation
  stop : Option Exit

namespace CollectionState

def setGraph (s : CollectionState) (g : HnswGraph) : CollectionState :=
  match s.backend with
  | .flat => s
  | .hnsw b => { s with backend := .hnsw { b with graph := g } }

/-- What an insertion reads besides the graph. A stored row is its own query. -/
def context (k : KernelTable) (s : CollectionState) (b : HnswBackend) : HnswContext where
  params := b.params
  options := b.options
  distance := fun query row => queryDistance k (scoreMode s.config.metric s.normalized)
    { data := s.vectors.row query } (s.vectors.row row)

end CollectionState

namespace Collection
open Op

def kVersion : List Char := "0.1.0".toList
def kLinkRowsPerWorker : Nat := 64

def asBytes (text : List Char) : List Byte := text.map fun c => UInt8.ofNat c.toNat

/-- `attach_backend` for a state without rows. -/
def attachBackend (config : CollectionConfig) : Result IndexBackend :=
  match config.index with
  | .flat => .ok .flat
  | .hnsw => do
    let backend ← HnswBackend.create config.hnsw
    return .hnsw backend

/-- `Collection::create`; `simd` is the status of the kernel selection and `now` the system clock. -/
def create (simd : Result Unit) (now : UInt64) (config : CollectionConfig) : Result CollectionState := do
  config.validate
  simd
  let vectors ← VectorStore.create { dim := config.dim.toNat }
  let backend ← attachBackend config
  return { config, vectors, backend, creator := asBytes ("vectorforge ".toList ++ kVersion), createdUnixMs := now }

section Insert

/-- `IdMap::reserve`, whose `try_emplace` allocates. -/
def reserveId (external : ExternalId) (upsert : Bool) : Op IdMap.Reservation := do
  let s ← state
  let (ids, reservation) ← lift (s.ids.reserve external upsert)
  allocate
  setState { s with ids }
  return reservation

def rollback (reservation : IdMap.Reservation) : Op Unit := do
  let s ← state
  let ids ← checked (s.ids.rollback reservation)
  setState { s with ids }

def popBack : Op Unit := do
  let s ← state
  checked (Outcome.check (decide (s.vectors.size > s.vectors.mappedRows))
    "VectorStore::pop_back on empty store or mapped row")
  setState { s with vectors := s.vectors.popBack }

/-- `TombstoneSet::ensure_size`. -/
def ensureSize (rows : Nat) : Op Unit := do
  allocate
  let s ← state
  setState { s with deleted := s.deleted.ensureSize rows }

/-- `VectorStore::append`, which allocates when a new chunk is needed. -/
def append (row : List F32) : Op Nat := do
  let s ← state
  let (vectors, internal) ← checked (s.vectors.append row)
  if s.vectors.size = s.vectors.capacity then allocate
  setState { s with vectors }
  return internal

/-- `TombstoneSet::set` and `clear` with their range assertion. -/
def mark (deleted : TombstoneSet) (id : Nat) : Checked TombstoneSet := do
  Outcome.check (decide (id / 64 < deleted.words.length)) "TombstoneSet::set out of range"
  return deleted.set id

def unmark (deleted : TombstoneSet) (id : Nat) : Checked TombstoneSet := do
  Outcome.check (decide (id / 64 < deleted.words.length)) "TombstoneSet::clear out of range"
  return deleted.clear id

/-- Everything after indexing, none of which can fail. -/
def commitRow (reservation : IdMap.Reservation) (internal : Nat) : Op Unit := do
  let s ← state
  let (ids, replaced) ← checked (s.ids.commit reservation internal)
  if replaced ≠ kInvalidInternalId then do
    let deleted ← checked (mark s.deleted replaced)
    setState { s with ids, deleted }
  else setState { s with ids }

def insertReserved (reservation : IdMap.Reservation) (row : List F32) (index : Nat → Op Unit) : Op Unit := do
  Effect.undo Exit.caught (rollback reservation) do
    allocate
    let s ← state
    ensureSize (s.vectors.size + 1)
  let internal ← Effect.undo Exit.caught (rollback reservation) (append row)
  Effect.undo Exit.caught (do popBack; rollback reservation) (index internal)
  commitRow reservation internal

variable (k : KernelTable)

/-- `HnswBackend::add` in a session. -/
def hnswAdd (b : HnswBackend) (internal : Nat) : Op Unit := do
  let σ ← Effect.get
  checked (Outcome.check (decide (internal = b.graph.nodeCount ∧ internal + 1 = σ.state.vectors.size))
    "HnswBackend::add: row must be the next graph node and the last appended row")
  let visited := (σ.world.scratch internal).ensureCapacity b.graph.nodeCount
  match ((σ.state.context k b).add visited internal).run (answerIn internal) ({ graph := b.graph }, σ.world) with
  | none => Effect.leave .stuck
  | some (result, shared, world) => do
    Effect.modify fun σ => { state := σ.state.setGraph shared.graph, world }
    match result with
    | none => Effect.leave .threw
    | some status => lift status

/-- `IndexBackend::add`. -/
def backendAdd (internal : Nat) : Op Unit := do
  let s ← state
  match s.backend with
  | .flat => checked (Outcome.check (decide (internal + 1 = s.vectors.size))
      "FlatBackend::add: row must be the last appended row")
  | .hnsw b => hnswAdd k b internal

def add (id : ExternalId) (vector : List F32) (upsert : Bool) : Op Unit := do
  let s ← state
  lift (validateVector vector s.config.dim.toNat)
  let row ← if s.config.effectiveNormalize then do
      allocate
      lift (normalizeInplace k vector)
    else pure vector
  let reservation ← reserveId id upsert
  insertReserved reservation row (backendAdd k)

end Insert

section Grow
variable (k : KernelTable)

/-- `static_cast<HnswBackend&>(*state->backend)`. -/
def hnswBackend : Op HnswBackend := do
  let s ← state
  match s.backend with
  | .hnsw b => pure b
  | .flat => Effect.leave (.fault .outOfBounds)

/-- `HnswBackend::reserve_node`. -/
def reserveNode (internal : Nat) : Op Unit := do
  let s ← state
  let b ← hnswBackend
  checked (Outcome.check (decide (internal = b.graph.nodeCount ∧ internal < s.vectors.size))
    "HnswBackend::reserve_node: row must be the next graph node")
  let graph ← lift (b.graph.addNode (b.params.levels.levelFor internal))
  allocate
  setState (s.setGraph graph)

/-- One row of a batch. -/
def insertRow (b : Batch) (i : Nat) (index : Nat → Op Unit) : Op IdMap.Reservation := do
  let (id, row) ← checked (b.row i)
  let reservation ← reserveId id b.upsert
  insertReserved reservation row index
  return reservation

/-- The loop of the exclusive section; an error or an exception ends it with the rows so far. -/
def growRows (b : Batch) (done : Nat) : (left : Nat) → List IdMap.Reservation →
    Op (List IdMap.Reservation × Option Exit)
  | 0, grown => return (grown, none)
  | left + 1, grown => do
    match ← Effect.attempt Exit.caught (insertRow b (done + grown.length) reserveNode) with
    | .error stop => return (grown, some stop)
    | .ok reservation =>
      if ← sliceOver then return (grown ++ [reservation], none)
      else growRows b done left (grown ++ [reservation])

def Batch.workers (b : Batch) : Nat :=
  match b.pool with
  | some pool => pool.size + 1
  | none => 1

/-- The exclusive part of a section, which begins with `prepare_insert`. -/
def growSection (b : Batch) (done : Nat) : Op Grown := do
  let _ ← hnswBackend
  let s ← state
  let want := min (kLinkRowsPerWorker * Batch.workers b) (b.ids.length - done)
  allocate
  let (rows, stop) ← growRows b done want []
  return { first := s.vectors.size, prepared := s.vectors.size + want, rows, stop }

/-- `link_range`: one node after the other. -/
def linkRange (ctx : HnswContext) (visited : Nat → VisitedSet) :
    (left i : Nat) → SharedGraph × World → Option (List Bool × SharedGraph × World)
  | 0, _, τ => some ([], τ)
  | left + 1, i, τ => do
    let (linked, τ) ← (ctx.link (visited i) i).run (answerIn i) τ
    let (rest, τ) ← linkRange ctx visited left (i + 1) τ
    return (linked :: rest, τ)

/-- The same on the threads of a pool, in the interleaving that the world has for it. -/
def linkScheduled (ctx : HnswContext) (visited : Nat → VisitedSet) (first count : Nat) (τ : SharedGraph × World) :
    Option (List Bool × SharedGraph × World) :=
  let ended := Prog.runSchedule answerIn (τ.2.schedules.headD [])
    ((τ.1, { τ.2 with schedules := τ.2.schedules.tail }), linkPool ctx visited first (first + count))
  ((List.range' first count).mapM fun i => (ended.2 i).result?).map fun linked => (linked, ended.1)

/-- Whether `parallel_for` uses the pool, for which it allocates. -/
def Batch.parallel (b : Batch) (count : Nat) : Bool :=
  match b.pool with
  | some pool => decide (count > 1) && !pool.onWorkerThread
  | none => false

/-- The shared part of a section: for each row whether `link` returned. -/
def linkSection (b : Batch) (grown : Grown) : Op (List Bool) := do
  let count := grown.rows.length
  if count = 0 then return []
  else do
    let backend ← hnswBackend
    if Batch.parallel b count then allocate
    let σ ← Effect.get
    let ctx := σ.state.context k backend
    let visited := fun i => (σ.world.scratch i).ensureCapacity grown.prepared
    let start := ({ graph := backend.graph }, σ.world)
    match if Batch.parallel b count then linkScheduled ctx visited grown.first count start
      else linkRange ctx visited count grown.first start with
    | none => Effect.leave .stuck
    | some (linked, shared, world) => do
      Effect.modify fun σ => { state := σ.state.setGraph shared.graph, world }
      return linked

def abandonRow (reservation : IdMap.Reservation) (internal : Nat) : Op Unit := do
  let s ← state
  let ids ← checked (s.ids.revert reservation internal)
  let deleted ← checked (mark s.deleted internal)
  if reservation.previous ≠ kInvalidInternalId then do
    let deleted ← checked (unmark deleted reservation.previous)
    setState { s with ids, deleted }
  else setState { s with ids, deleted }

/-- The second exclusive part, for the rows whose `link` threw. -/
def abandonRows : (internal : Nat) → List IdMap.Reservation → List Bool → Op Unit
  | internal, reservation :: rows, linked :: rest => do
    if !linked then abandonRow reservation internal
    abandonRows (internal + 1) rows rest
  | _, _, _ => return

/-- What `add_batch_concurrent` does between two acquisitions of the link mutex: the rows handled
and the rows inserted. -/
def batchSection (b : Batch) (done : Nat) : Op (Nat × Nat) := do
  let grown ← growSection b done
  let linked ← linkSection k b grown
  if linked.contains false then abandonRows grown.first grown.rows linked
  if grown.stop = some .threw then Effect.leave .threw
  else if linked.contains false then Effect.leave .threw
  else match grown.stop with
    | some stop => Effect.leave stop
    | none => return (grown.rows.length, linked.count true)

/-- `while (done < n)`. Every section handles a row or leaves, so there are at most as many
sections as rows. -/
def batchSections (b : Batch) : (fuel done inserted : Nat) → Op Nat
  | fuel, done, inserted =>
    if done < b.ids.length then
      match fuel with
      | 0 => Effect.leave (.fault .outOfBounds)
      | fuel + 1 => do
        let (handled, linked) ← batchSection k b done
        batchSections b fuel (done + handled) (inserted + linked)
    else return inserted

def addBatchConcurrent (b : Batch) : Op Nat := do
  allocate
  batchSections k b b.ids.length 0 0

end Grow

section AddBatch
variable (k : KernelTable)

/-- Rows inserted under one acquisition of the exclusive lock. -/
def addSlice (b : Batch) : (left inserted : Nat) → Op Nat
  | 0, inserted => return inserted
  | left + 1, inserted => do
    let _ ← insertRow b inserted (backendAdd k)
    if left = 0 then return inserted + 1
    else if ← sliceOver then return inserted + 1
    else addSlice b left (inserted + 1)

def addSlices (b : Batch) : (fuel inserted : Nat) → Op Nat
  | fuel, inserted =>
    if inserted < b.ids.length then
      match fuel with
      | 0 => Effect.leave (.fault .outOfBounds)
      | fuel + 1 => do
        let inserted ← addSlice k b (b.ids.length - inserted) inserted
        addSlices b fuel inserted
    else return inserted

/-- `std::adjacent_find`. -/
def adjacentFind : List ExternalId → Option ExternalId
  | a :: b :: rest => if a = b then some a else adjacentFind (b :: rest)
  | _ => none

def checkKeys (ids : List ExternalId) : Result Unit :=
  let sorted := ids.mergeSort fun a b => decide (a ≤ b)
  match adjacentFind sorted with
  | some dup => .error (.invalidArgument ("id " ++ toString dup ++ " appears more than once in batch"))
  | none =>
    if sorted.getLast? = some kInvalidExternalId then
      .error (.invalidArgument ("external id " ++ toString kInvalidExternalId ++ " is reserved"))
    else .ok ()

/-- The normalised rows from row `i` on, or the first row that cannot be normalised. -/
def normalizeRows (rows : List F32) (dim : Nat) : (left i : Nat) → Result (List F32)
  | 0, _ => .ok []
  | left + 1, i =>
    match normalizeInplace k ((rows.drop (i * dim)).take dim) with
    | .error e => .error (.invalidArgument ("row " ++ toString i ++ ": " ++ e.message))
    | .ok row => do
      let rest ← normalizeRows rows dim left (i + 1)
      return row ++ rest

/-- `VectorStore::reserve`, one allocated chunk after the other. -/
def reserveChunks (rows : Nat) : (fuel : Nat) → Op Unit
  | 0 => return
  | fuel + 1 => do
    let s ← state
    if s.vectors.capacity < rows then do
      allocate
      setState { s with vectors := s.vectors.addChunk }
      reserveChunks rows fuel
    else return

def reserveVectors (rows : Nat) : Op Unit := do
  let s ← state
  let _ ← lift (s.vectors.reserve rows)
  reserveChunks rows rows

/-- The checks under the lock. -/
def admitBatch (ids : List ExternalId) (upsert : Bool) : Op Unit := do
  let s ← state
  if !upsert then
    match ids.find? s.ids.contains with
    | some id => Effect.leave (.status (.alreadyExists ("id " ++ toString id ++ " already exists")))
    | none => pure ()
  if s.vectors.size + ids.length > s.vectors.maxRows then
    Effect.leave (.status (.resourceExhausted
      ("batch of " ++ toString ids.length ++ " vectors exceeds collection capacity")))

/-- Everything before the lock: the data to insert. -/
def prepareBatch (config : CollectionConfig) (ids : List ExternalId) (rows : List F32) : Op (List F32) := do
  allocate
  lift (checkKeys ids)
  if config.effectiveNormalize then do
    allocate
    lift (normalizeRows k rows config.dim.toNat ids.length 0)
  else return rows

def addBatch (ids : List ExternalId) (rows : List F32) (upsert : Bool) (pool : Option ThreadPool) : Op Nat := do
  let s ← state
  lift (validateBatch rows ids.length s.config.dim.toNat)
  if ids.length = 0 then return 0
  else do
    let data ← prepareBatch k s.config ids rows
    admitBatch ids upsert
    let b : Batch := { ids, data, dim := s.config.dim.toNat, upsert, pool }
    reserveVectors (s.vectors.size + ids.length)
    allocate
    ensureSize (s.vectors.size + ids.length)
    if s.config.index = .hnsw ∧ s.config.concurrency = .concurrent then addBatchConcurrent k b
    else addSlices k b ids.length 0

end AddBatch

def remove (id : ExternalId) : Op Unit := do
  let s ← state
  let (ids, internal) ← lift (s.ids.erase id)
  let deleted ← checked (mark s.deleted internal)
  setState { s with ids, deleted }

section Compact
variable (k : KernelTable)

/-- Live rows from row `r` on are inserted again in their order. -/
def reinsertRows (old : CollectionState) : (left r : Nat) → Op Unit
  | 0, _ => return
  | left + 1, r => do
    if !old.deleted.test r then do
      let label ← checked (Outcome.index old.ids.labels r)
      let reservation ← reserveId label false
      insertReserved reservation (old.vectors.row r) (backendAdd k)
    reinsertRows old left (r + 1)

def compact : Op CompactStats := do
  let old ← state
  let stats : CompactStats :=
    { rowsBefore := old.vectors.size, removedRows := old.deleted.count, rowsAfter := old.vectors.size }
  if old.deleted.count = 0 then return stats
  else do
    let vectors ← lift (VectorStore.create { dim := old.config.dim.toNat })
    allocate
    let backend ← lift (attachBackend old.config)
    let empty : CollectionState :=
      { config := old.config, vectors, backend, creator := old.creator, createdUnixMs := old.createdUnixMs }
    let (_, rebuilt) ← apart empty do
      reserveVectors old.ids.size
      allocate
      ensureSize old.ids.size
      reinsertRows k old old.vectors.size 0
    setState rebuilt
    return { stats with rowsAfter := rebuilt.vectors.size }

end Compact
end Collection
end VectorForge
