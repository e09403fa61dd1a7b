import VectorForge.Collection.SerialSections
import VectorForge.Hnsw.Query

/-! The operations of a collection that change nothing. -/

namespace VectorForge
open Effect
open IndexReader (SameState)

structure SearchParams where
  k : UInt32 := 10
  efSearch : Option UInt32 := none
  deriving DecidableEq, Repr

namespace SearchParams

def kMaxK : Nat := 1048576

def validate (p : SearchParams) : Result Unit :=
  if p.k.toNat < 1 ∨ p.k.toNat > kMaxK then .error (.invalidArgument (rangeMessage "k" p.k.toNat 1 kMaxK))
  else match p.efSearch with
    | none => .ok ()
    | some ef =>
      if ef.toNat < 1 ∨ ef.toNat > HnswParams.kMaxEf then
        .error (.invalidArgument (rangeMessage "ef_search" ef.toNat 1 HnswParams.kMaxEf))
      else .ok ()

end SearchParams

structure Neighbor where
  id : ExternalId
  distance : F32
  deriving DecidableEq, Repr

namespace Collection
open Op

/-- Validates a query and computes its view. -/
def prepareQuery (k : KernelTable) (s : CollectionState) (query : List F32) : Result QueryView := do
  validateVector query s.config.dim.toNat
  if s.normalized then
    match inverseNorm k query with
    | .error e => .error (.invalidArgument ("query: " ++ e.message))
    | .ok scale => return { data := query, invNorm := scale }
  else return { data := query }

def knobsFor (params : SearchParams) (rows : Nat) : SearchKnobs where
  k := min params.k.toNat (max rows 1)
  ef := (params.efSearch.getD 0).toNat

/-- What a query reads besides the graph. -/
def queryContext (k : KernelTable) (s : CollectionState) (b : HnswBackend) (view : QueryView) : HnswContext where
  params := b.params
  options := b.options
  distance := fun _ row => queryDistance k (scoreMode s.config.metric s.normalized) view (s.vectors.row row)

/-- The rows that a query must not return. -/
def hiddenRows (s : CollectionState) (id : Nat) : Bool := s.deleted.any && s.deleted.test id

section Search
variable (k : KernelTable) (leased : VisitedSet)

/-- `HnswBackend::search` in a session; `leased` is what the context it acquires was last used for. -/
def hnswSearch (b : HnswBackend) (view : QueryView) (knobs : SearchKnobs) : Op (List ScoredId) := do
  allocate
  let σ ← Effect.get
  match ((queryContext k σ.state b view).searchWith (hiddenRows σ.state) leased 0 b.graph.nodeCount
    knobs).run (answerIn 0)
      ({ graph := b.graph }, σ.world) with
  | none => Effect.leave .stuck
  | some (found, _, world) => do
    Effect.modify fun σ => { σ with world }
    match found with
    | none => Effect.leave .threw
    | some results => return results

/-- `IndexBackend::search`, with room for `k` results. -/
def backendSearch (view : QueryView) (knobs : SearchKnobs) : Op (List ScoredId) := do
  let s ← state
  checked (Outcome.check (decide (1 ≤ knobs.k)) "IndexBackend::search: output too small")
  match s.backend with
  | .flat => return FlatBackend.search k s.config.metric s.normalized view s.vectors s.deleted knobs
  | .hnsw b => hnswSearch k leased b view knobs

/-- Internal ids become external ids. -/
def relabel (labels : List ExternalId) : List ScoredId → Checked (List Neighbor)
  | [] => return []
  | c :: rest => do
    let id ← Outcome.index labels c.id
    let others ← relabel labels rest
    return { id, distance := c.distance } :: others

def search (query : List F32) (params : SearchParams) : Op (List Neighbor) := do
  lift params.validate
  let s ← state
  let view ← lift (prepareQuery k s query)
  allocate
  let found ← backendSearch k leased view (knobsFor params s.vectors.size)
  checked (relabel s.ids.labels found)

end Search

def get (id : ExternalId) : Op (List F32) := do
  let s ← state
  match s.ids.find id with
  | none => Effect.leave (.status (.notFound ("id " ++ toString id ++ " not found")))
  | some internal => do
    allocate
    return s.vectors.row internal

def contains (id : ExternalId) : Op Bool := do
  let s ← state
  return s.ids.contains id

def size : Op Nat := do
  let s ← state
  return s.ids.size

/-- `CollectionStats`, without the kernels and the bytes of memory: they say how a collection is kept, not what it
holds. -/
structure CollectionStats where
  liveCount : Nat
  deletedCount : Nat
  rowCount : Nat
  dim : UInt32
  metric : Metric
  index : IndexType
  normalized : Bool
  deriving DecidableEq, Repr

def stats : Op CollectionStats := do
  let s ← state
  return {
    liveCount := s.ids.size
    deletedCount := s.deleted.count
    rowCount := s.vectors.size
    dim := s.config.dim
    metric := s.config.metric
    index := s.config.index
    normalized := s.normalized }

/-- The bytes that `save` writes. -/
def save : Op (List Byte) := do
  let s ← state
  let file ← checked (IndexWriter.writeIndex s ({} : MemorySink))
  return file.bytes

end Collection
end VectorForge
