import VectorForge.Collection.Queries
import VectorForge.Collection.Operations
import VectorForge.Concurrency.ThreadPool
import VectorForge.Lib.Commuting

/-! `search_into` and `search_batch`. -/

namespace VectorForge
open Effect Commuting

/-- The spans that `search_batch` writes to. -/
structure OutputSpans where
  ids : List ExternalId
  distances : List F32
  counts : List UInt32
  /-- A span lies in memory. -/
  addressable : 4 * counts.length < 2 ^ 64
  deriving DecidableEq, Repr

namespace OutputSpans

def setId (slot : Nat) (id : ExternalId) (out : OutputSpans) : OutputSpans :=
  { out with ids := out.ids.set slot id }

def setDistance (slot : Nat) (distance : F32) (out : OutputSpans) : OutputSpans :=
  { out with distances := out.distances.set slot distance }

def setCount (i : Nat) (count : UInt32) (out : OutputSpans) : OutputSpans :=
  { out with counts := out.counts.set i count, addressable := by rw [List.length_set]; exact out.addressable }

end OutputSpans

/-- `std::numeric_limits<float>::infinity()`. -/
def F32.infinity : F32 := ⟨0x7F800000⟩

namespace Collection
open Op
variable (k : KernelTable)

/-- `run_query`: the results with external ids. -/
def runQuery (leased : VisitedSet) (view : QueryView) (knobs : SearchKnobs) : Op (List Neighbor) := do
  let found ← backendSearch k leased view knobs
  let s ← state
  checked (relabel s.ids.labels found)

/-- `search_into`: the number of results, and what the output span holds then. -/
def searchInto (leased : VisitedSet) (query : List F32) (params : SearchParams) (out : List Neighbor) :
    Op (Nat × List Neighbor) := do
  lift params.validate
  if out.length < params.k.toNat then
    Effect.leave (.status (.invalidArgument ("output span holds " ++ toString out.length ++ " results but k = " ++
      toString params.k.toNat)))
  else do
    let s ← state
    let view ← lift (prepareQuery k s query)
    let found ← runQuery k leased view (knobsFor params s.vectors.size)
    return (found.length, found ++ out.drop found.length)

/-- The arguments of `search_batch`. -/
structure BatchQuery where
  queries : List F32
  nq : Nat
  params : SearchParams
  out : OutputSpans
  pool : Option ThreadPool

def kSearchGrain : Nat := 16

namespace BatchQuery

def query (q : BatchQuery) (dim i : Nat) : List F32 := (q.queries.drop (i * dim)).take dim

def checkSpans (q : BatchQuery) : Result Unit :=
  let small : Result Unit :=
    .error (.invalidArgument ("output spans are too small for " ++ toString q.nq ++ " queries with k = " ++
    toString q.params.k.toNat))
  match checkedMul 64 q.nq q.params.k.toNat with
  | none => small
  | some slots =>
    if q.out.ids.length < slots ∨ q.out.distances.length < slots ∨ q.out.counts.length < q.nq then small else .ok ()

/-- The views of the queries from `i` on. -/
def viewsFrom (s : CollectionState) (q : BatchQuery) : (left i : Nat) → Result (List QueryView)
  | 0, _ => .ok []
  | left + 1, i => match prepareQuery k s (q.query s.config.dim.toNat i) with
    | .error e => .error ⟨e.code, "query " ++ toString i ++ ": " ++ e.message⟩
    | .ok view => do
      let rest ← viewsFrom s q left (i + 1)
      return view :: rest

/-- `search_batch` up to the first search. -/
def prepare (q : BatchQuery) : Op (List QueryView) := do
  lift q.params.validate
  let s ← state
  lift (validateBatch q.queries q.nq s.config.dim.toNat)
  lift q.checkSpans
  allocate
  lift (q.viewsFrom k s q.nq 0)

end BatchQuery

section Ranges

/-- What is written for slot `j` of query `i`. -/
def slotActions (width i : Nat) (found : List Neighbor) (j : Nat) : List (OutputSpans → OutputSpans) :=
  match found[j]? with
  | some n => [OutputSpans.setId (i * width + j) n.id, OutputSpans.setDistance (i * width + j) n.distance]
  | none =>
    [OutputSpans.setId (i * width + j) kInvalidExternalId, OutputSpans.setDistance (i * width + j) F32.infinity]

def queryActions (width i : Nat) (found : List Neighbor) : List (OutputSpans → OutputSpans) :=
  (List.range width).flatMap (slotActions width i found) ++ [OutputSpans.setCount i (UInt32.ofNat found.length)]

/-- `run_range(0, nq)` on this thread, from query `i` on, which gets the context `leased i`. -/
def runQueries (leased : Nat → VisitedSet) (params : SearchParams) (rows : Nat) : List QueryView → Nat →
    OutputSpans → Op OutputSpans
  | [], _, out => return out
  | view :: rest, i, out => do
    let found ← runQuery k (leased i) view (knobsFor params rows)
    runQueries leased params rows rest (i + 1) (perform (queryActions params.k.toNat i found) out)

/-- `search_batch` without a pool: what is in the output spans when it returns. -/
def searchBatch (leased : Nat → VisitedSet) (q : BatchQuery) : Op OutputSpans := do
  let views ← q.prepare k
  let s ← state
  allocate
  runQueries k leased q.params s.vectors.size views 0 q.out

def rangeActions (width : Nat) (found : Nat → List Neighbor) (lo hi : Nat) : List (OutputSpans → OutputSpans) :=
  (List.range' lo (hi - lo)).flatMap fun i => queryActions width i (found i)

/-- What `run_range(lo, hi)` writes when it returns. Every query finds a context that some other query
may have used, and memory as it is by then. -/
def RunsRange (s : CollectionState) (q : BatchQuery) (views : List QueryView) (lo hi : Nat)
    (actions : List (OutputSpans → OutputSpans)) : Prop :=
  ∃ found : Nat → List Neighbor, actions = rangeActions q.params.k.toNat found lo hi ∧
    ∀ i, lo ≤ i → i < hi → ∃ (view : QueryView) (leased : VisitedSet) (w : World) (τ : Session),
    views[i]? = some view ∧ leased.Settled ∧
      runQuery k leased view (knobsFor q.params s.vectors.size) ⟨s, w⟩ = (.ok (found i), τ)

/-- `parallel_for(0, nq, kSearchGrain, run_range)`; memory is all that the searches can run out of. -/
def searchCall (s : CollectionState) (q : BatchQuery) (views : List QueryView) (pool : ThreadPool) :
    ThreadPool.Call OutputSpans Exit where
  start := 0
  stop := q.nq
  grain := kSearchGrain
  size := pool.size
  onWorkerThread := pool.onWorkerThread
  body := RunsRange k s q views
  throws := fun _ _ e => e = .threw
  badAlloc := .threw

/-- How `search_batch` may end, and what is in the output spans then. It throws only when memory runs
out. -/
inductive SearchBatch (s : CollectionState) (q : BatchQuery) (w : World) : Except Exit Unit → OutputSpans → Prop
  | refused {e : Exit} {τ : Session} (run : q.prepare k ⟨s, w⟩ = (.error e, τ)) : SearchBatch s q w (.error e) q.out
  | alone {views : List QueryView} {τ : Session} {actions : List (OutputSpans → OutputSpans)}
      (run : q.prepare k ⟨s, w⟩ = (.ok views, τ))
      (pool : q.pool = none) (body : RunsRange k s q views 0 q.nq actions) :
      SearchBatch s q w (.ok ()) (perform actions q.out)
  | aloneThrew {views : List QueryView} {τ : Session} {actions : List (OutputSpans → OutputSpans)}
      {i : Nat} (lacks : ¬w.Ample)
      (run : q.prepare k ⟨s, w⟩ = (.ok views, τ)) (pool : q.pool = none) (inside : i < q.nq)
      (body : RunsRange k s q views 0 i actions) : SearchBatch s q w (.error .threw) (perform actions q.out)
  | pooled {views : List QueryView} {τ : Session} {pool : ThreadPool} {t : ThreadPool.State OutputSpans Exit}
      (run : q.prepare k ⟨s, w⟩ = (.ok views, τ)) (given : q.pool = some pool)
      (reached : (ThreadPool.runRanges (searchCall k s q views pool) q.out).Reachable t)
      (returned : t.caller = .returned) : SearchBatch s q w (.ok ()) t.shared.memory
  | pooledThrew {views : List QueryView} {τ : Session} {pool : ThreadPool}
      {t : ThreadPool.State OutputSpans Exit} {e : Exit}
      (lacks : ¬w.Ample) (run : q.prepare k ⟨s, w⟩ = (.ok views, τ)) (given : q.pool = some pool)
      (reached : (ThreadPool.runRanges (searchCall k s q views pool) q.out).Reachable t)
      (threw : t.caller = .threw e) : SearchBatch s q w (.error e) t.shared.memory

end Ranges
end Collection
end VectorForge
