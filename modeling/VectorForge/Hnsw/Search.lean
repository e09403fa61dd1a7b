import VectorForge.Lib.Interleaving
import VectorForge.Hnsw.NeighborSelect
import VectorForge.Search.VisitedSet

/-! The searches of `HnswBackend` as programs over single atomic reads of the graph, which is
what other threads see of them while they insert. -/

namespace VectorForge

/-- The steps of an insertion that other threads can observe or influence. -/
inductive GraphOp where
  | levelOf (id : Nat)
  | load (id level word : Nat)
  | store (id level word value : Nat)
  | loadEntry
  | storeEntry (e : HnswGraph.Entry)
  | lock (stripe : Nat)
  | unlock (stripe : Nat)
  | lockTop
  | unlockTop
  /-- The candidate queue grows; `false` is `std::bad_alloc`. -/
  | allocate
  | addNode (level : Nat)
  /-- No step of the source: records on how many levels `publish` is about to link `id`. -/
  | joins (id levels : Nat)
  /-- A failed `VF_ASSERT`. -/
  | abort

namespace GraphOp

def Ret : GraphOp → Type
  | levelOf _ | load _ _ _ => Nat
  | loadEntry => HnswGraph.Entry
  | allocate => Bool
  | addNode _ => Result Unit
  | abort => Empty
  | _ => Unit

end GraphOp

abbrev GraphProg (α : Type) := Prog GraphOp GraphOp.Ret α

/-- What a search or an insertion reads besides the graph; nothing of it changes meanwhile.
`distance` is between stored rows, with the inserted row as the query. -/
structure HnswContext where
  params : HnswParams
  options : HnswBuildOptions := {}
  prefetch : Bool := true
  distance : Nat → Nat → F32

namespace HnswContext

def level (id : Nat) : GraphProg Nat := Prog.op (GraphOp.levelOf id)
def load (id level word : Nat) : GraphProg Nat := Prog.op (GraphOp.load id level word)
def store (id level word value : Nat) : GraphProg Unit := Prog.op (GraphOp.store id level word value)
def entry : GraphProg HnswGraph.Entry := Prog.op GraphOp.loadEntry
def setEntry (e : HnswGraph.Entry) : GraphProg Unit := Prog.op (GraphOp.storeEntry e)
def allocate : GraphProg Bool := Prog.op GraphOp.allocate

def abort {α : Type} : GraphProg α := .call .abort nofun

/-- A node as a candidate for `query`. -/
def scored (ctx : HnswContext) (query id : Nat) : ScoredId := { distance := ctx.distance query id, id }

variable (ctx : HnswContext)

/-- `2M` on level 0, `M` above, as in the graph. -/
def capacity (level : Nat) : Nat := if level = 0 then 2 * ctx.params.M.toNat else ctx.params.M.toNat

section Greedy

/-- Where the scan of one list has moved to, which is never away from the query. -/
structure Moved (start : ScoredId) where
  current : ScoredId
  changed : Bool
  below : current.key ≤ start.key
  less : changed = true → current.key < start.key

def Moved.none (start : ScoredId) : Moved start := ⟨start, false, le_refl _, nofun⟩

/-- The slots from `i` on of the list of `owner`. -/
def greedyScan (query level owner : Nat) {start : ScoredId} :
    (left i : Nat) → Moved start → GraphProg (Moved start)
  | 0, _, moved => .done moved
  | left + 1, i, moved => do
    let neighbor ← load owner level (1 + i)
    let candidate : ScoredId := { distance := ctx.distance query neighbor, id := neighbor }
    if less : candidateLess candidate moved.current = true then
      have closer := lt_of_lt_of_le (key_lt_of_candidateLess less) moved.below
      greedyScan query level owner left (i + 1) ⟨candidate, true, closer.le, fun _ => closer⟩
    else greedyScan query level owner left (i + 1) moved

/-- Distances are 32-bit patterns, so only finitely many moves are possible. -/
def height (c : ScoredId) : Nat × Nat := ((c.distance.rank + 2 ^ 31).toNat, c.id)

theorem height_lt {a b : ScoredId} (less : a.key < b.key) :
    Prod.Lex (· < ·) (· < ·) (height a) (height b) := by
  have bounded (x : F32) : -2 ^ 31 ≤ x.rank := by
    have small : x.magnitude < 2 ^ 31 := Nat.mod_lt _ (by decide)
    unfold F32.rank
    split <;> omega
  rw [ScoredId.key, ScoredId.key, Prod.Lex.toLex_lt_toLex] at less
  have left := bounded a.distance
  have right := bounded b.distance
  rcases less with lower | ⟨same, ids⟩
  · exact Prod.Lex.left _ _ (by omega)
  · have ranks : a.distance.rank = b.distance.rank := same
    rw [height, height, ranks]
    exact Prod.Lex.right _ ids

def greedySearch (query level : Nat) (current : ScoredId) : GraphProg ScoredId := do
  let size ← load current.id level 0
  let moved ← ctx.greedyScan query level current.id size 0 (Moved.none current)
  if _changed : moved.changed = true then greedySearch query level moved.current else .done moved.current
termination_by height current
decreasing_by exact height_lt (moved.less _changed)

/-- One `greedy_search` on each level from `level` down to `top + 1`. -/
def descend (query top : Nat) : (level : Nat) → ScoredId → GraphProg ScoredId
  | 0, current => .done current
  | level + 1, current =>
    if level + 1 > top then do
      let current ← ctx.greedySearch query (level + 1) current
      descend query top level current
    else .done current

end Greedy

section Layer

/-- What `search_layer` keeps in its context. -/
structure LayerState where
  visited : VisitedSet
  candidates : MinHeap := {}
  results : BoundedMaxHeap

/-- Every visit uses up an id and adds at most one candidate. -/
def LayerState.cost (st : LayerState) : Nat := st.visited.unvisited + st.candidates.data.length

/-- The state after a step whose cost was not above `bound`; `none` when the queue could not grow. -/
abbrev LayerStep (bound : Nat) := Option { st : LayerState // st.cost ≤ bound }

def LayerState.offer (st : LayerState) (hidden : Nat → Bool) (candidate : ScoredId) : LayerState :=
  { st with
    candidates := st.candidates.push candidate
    results := if hidden candidate.id then st.results else st.results.push candidate }

/-- `!results.full() || candidate_less(candidate, results.top())`. -/
def LayerState.improves (st : LayerState) (candidate : ScoredId) : Bool :=
  !st.results.full || (match st.results.top? with
    | some worst => candidateLess candidate worst
    | none => false)

/-- `results.full() && candidate_less(results.top(), nearest)`. -/
def LayerState.exhausted (st : LayerState) (nearest : ScoredId) : Bool :=
  st.results.full && (match st.results.top? with
    | some worst => candidateLess worst nearest
    | none => false)

theorem LayerState.cost_visit {st : LayerState} {id : Nat} (inside : id < st.visited.marks.length)
    (fresh : st.visited.isFresh id = true) :
    LayerState.cost { st with visited := st.visited.visit id } + 1 ≤ st.cost := by
  have fewer := VisitedSet.unvisited_visit inside fresh
  simp only [LayerState.cost]
  omega

theorem LayerState.cost_offer (st : LayerState) (hidden : Nat → Bool) (candidate : ScoredId) :
    (st.offer hidden candidate).cost = st.cost + 1 := by
  have longer := (st.candidates.push_perm candidate).length_eq
  simp only [LayerState.cost, LayerState.offer, longer, List.length_cons]
  omega

/-- The entry points of the layer. -/
def seedLayer (hidden : Nat → Bool) : List ScoredId → LayerState → GraphProg (Option LayerState)
  | [], st => .done (some st)
  | point :: rest, st =>
    if point.id < st.visited.marks.length then
      if st.visited.isFresh point.id then do
        let grown ← allocate
        if grown then
          seedLayer hidden rest (LayerState.offer { st with visited := st.visited.visit point.id } hidden point)
        else .done none
      else seedLayer hidden rest st
    else abort

/-- The prefetch hints have no effect, but they read the list once more. -/
def prefetchList (visited : VisitedSet) (level owner : Nat) : (left i : Nat) → GraphProg Unit
  | 0, _ => .done ()
  | left + 1, i => do
    let neighbor ← load owner level (1 + i)
    if visited.visited neighbor then prefetchList visited level owner left (i + 1)
    else do
      let _ ← load owner level (1 + i)
      prefetchList visited level owner left (i + 1)

/-- The slots from `i` on of the list of `owner`. -/
def scanLayer (hidden : Nat → Bool) (query level owner bound : Nat) :
    (left i : Nat) → (st : { st : LayerState // st.cost ≤ bound }) → GraphProg (LayerStep bound)
  | 0, _, st => .done (some st)
  | left + 1, i, ⟨st, within⟩ => do
    let neighbor ← load owner level (1 + i)
    if inside : neighbor < st.visited.marks.length then
      if fresh : st.visited.isFresh neighbor = true then
        let marked : LayerState := { st with visited := st.visited.visit neighbor }
        have cheaper : marked.cost + 1 ≤ bound := (LayerState.cost_visit inside fresh).trans within
        let candidate : ScoredId := { distance := ctx.distance query neighbor, id := neighbor }
        if st.improves candidate then do
          let grown ← allocate
          if grown then
            scanLayer hidden query level owner bound left (i + 1)
              ⟨marked.offer hidden candidate, (LayerState.cost_offer marked hidden candidate).trans_le cheaper⟩
          else .done none
        else scanLayer hidden query level owner bound left (i + 1) ⟨marked, by omega⟩
      else scanLayer hidden query level owner bound left (i + 1) ⟨st, within⟩
    else abort

theorem LayerState.cost_pop {st : LayerState} {nearest : ScoredId} (front : st.candidates.top? = some nearest) :
    LayerState.cost { st with candidates := st.candidates.pop } < st.cost := by
  have shorter := MinHeap.length_pop front
  simp only [LayerState.cost]
  omega

/-- Reads the list of `owner`, with the prefetch hints first if they are on. -/
def visitNeighbors (hidden : Nat → Bool) (query level owner : Nat) (st : LayerState) :
    GraphProg (LayerStep st.cost) := do
  let size ← load owner level 0
  if ctx.prefetch then prefetchList st.visited level owner size 0
  ctx.scanLayer hidden query level owner st.cost size 0 ⟨st, le_refl _⟩

/-- `while (!context.candidates.empty())`. -/
def expandLayer (hidden : Nat → Bool) (query level : Nat) (st : LayerState) : GraphProg (Option LayerState) :=
  match front : st.candidates.top? with
  | none => .done (some st)
  | some nearest =>
    if st.exhausted nearest then .done (some st)
    else do
      let scanned ← ctx.visitNeighbors hidden query level nearest.id { st with candidates := st.candidates.pop }
      match scanned with
      | none => .done none
      | some ⟨next, within⟩ =>
        have _cheaper : next.cost < st.cost := within.trans_lt (LayerState.cost_pop front)
        expandLayer hidden query level next
termination_by st.cost

/-- The results in ascending order and the visited set for the next search; `none` when memory
ran out. -/
def searchLayer (hidden : Nat → Bool) (visited : VisitedSet) (query : Nat) (entryPoints : List ScoredId)
    (ef level : Nat) : GraphProg (Option (List ScoredId × VisitedSet)) :=
  if ef < 1 then abort
  else do
    let seeded ← seedLayer hidden entryPoints { visited := visited.reset, results := { capacity := ef } }
    match seeded with
    | none => .done none
    | some st => do
      let expanded ← ctx.expandLayer hidden query level st
      match expanded with
      | none => .done none
      | some st => .done (some (st.results.sortAscending, st.visited))

end Layer
end HnswContext
end VectorForge
