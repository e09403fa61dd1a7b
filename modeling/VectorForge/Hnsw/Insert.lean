import VectorForge.Hnsw.Search
import VectorForge.Hnsw.LevelGenerator

/-! `add` and `link` of `HnswBackend` as programs over single atomic steps. Statistics are left
out, they influence nothing. -/

namespace VectorForge.HnswContext

def kLinkStripes : Nat := 4096

/-- `StripedMutex::for_key`: a multiplicative hash, of which the bits above 32 are used. -/
def stripeOf (key : Nat) : Nat :=
  ((UInt64.ofNat key * 0x9E3779B97F4A7C15) >>> 32).toNat &&& (kLinkStripes - 1)

def lockStripe (key : Nat) : GraphProg Unit := Prog.op (GraphOp.lock (stripeOf key))
def unlockStripe (key : Nat) : GraphProg Unit := Prog.op (GraphOp.unlock (stripeOf key))
def lockTop : GraphProg Unit := Prog.op GraphOp.lockTop
def unlockTop : GraphProg Unit := Prog.op GraphOp.unlockTop
def addNode (level : Nat) : GraphProg (Result Unit) := Prog.op (GraphOp.addNode level)
def joins (id levels : Nat) : GraphProg Unit := Prog.op (GraphOp.joins id levels)

variable (ctx : HnswContext)

section Lists

/-- The id stores of `set_links`, from `word` on. -/
def storeSlots (node level : Nat) : (word : Nat) → List Nat → GraphProg Unit
  | _, [] => .done ()
  | word, value :: rest => do
    store node level word value
    storeSlots node level (word + 1) rest

def setLinks (node level : Nat) (ids : List Nat) : GraphProg Unit :=
  if ids.length > ctx.capacity level then abort
  else do
    storeSlots node level 1 ids
    store node level 0 ids.length

def writeList (node level : Nat) (selection : List ScoredId) : GraphProg Unit :=
  ctx.setLinks node level (selection.map (·.id))

def tryAppendLink (node level neighbor : Nat) : GraphProg Bool := do
  let count ← load node level 0
  if count ≥ ctx.capacity level then .done false
  else do
    store node level (1 + count) neighbor
    store node level 0 (count + 1)
    .done true

/-- The first loop of `shrink_with`: the neighbours of `node` from slot `i` on. -/
def readNeighbors (node level : Nat) : (left i : Nat) → List ScoredId → GraphProg (List ScoredId)
  | 0, _, candidates => .done candidates
  | left + 1, i, candidates => do
    let neighbor ← load node level (1 + i)
    readNeighbors node level left (i + 1)
      (candidates ++ [{ distance := ctx.distance node neighbor, id := neighbor }])

/-- One round of the insertion sort: `key` moves left past everything it is less than. -/
def insertKey (sorted : List ScoredId) (key : ScoredId) : List ScoredId :=
  sorted.rdropWhile (candidateLess key) ++ key :: sorted.rtakeWhile (candidateLess key)

def insertionSort (candidates : List ScoredId) : List ScoredId := candidates.foldl insertKey []

def shrinkWith (node level newId : Nat) (newDistance : F32) : GraphProg Bool := do
  let size ← load node level 0
  let candidates ← ctx.readNeighbors node level size 0 []
  let sorted := insertionSort (candidates ++ [{ distance := newDistance, id := newId }])
  let selected := NeighborSelect.selectNeighbors sorted (ctx.capacity level) ctx.options.selection
    ctx.options.keepPruned ctx.distance
  ctx.writeList node level selected
  .done (selected.any fun s => decide (s.id = newId))

end Lists

/-- `layer_candidates[l]` and `layer_selected[l]` of the scratch memory. -/
structure Layer where
  candidates : List ScoredId
  selected : List ScoredId
  deriving DecidableEq, Repr

section FindNeighbors

/-- Levels `l, l - 1, …, 0`. The result is in the order of the levels. -/
def searchLevels (id : Nat) : (l : Nat) → VisitedSet → List ScoredId → GraphProg (Option (List Layer))
  | l, visited, entryPoints => do
    let found ← ctx.searchLayer (fun _ => false) visited id entryPoints ctx.params.efConstruction.toNat l
    match found with
    | none => .done none
    | some (candidates, visited) =>
      let layer : Layer := {
        candidates
        selected := NeighborSelect.selectNeighbors candidates ctx.params.M.toNat ctx.options.selection
          ctx.options.keepPruned ctx.distance }
      match l with
      | 0 => .done (some [layer])
      | below + 1 => do
        let rest ← searchLevels id below visited candidates
        .done (rest.map fun layers => layers ++ [layer])

def findNeighbors (visited : VisitedSet) (id top : Nat) (e : HnswGraph.Entry) :
    GraphProg (Option (List Layer)) := do
  let current ← ctx.descend id top e.level { distance := ctx.distance id e.id, id := e.id }
  ctx.searchLevels id top visited [current]

end FindNeighbors

section Publish

/-- Phase 2, from level `l` on. Nothing else can reach the node yet, so there is no lock. -/
def writeOwn (id : Nat) : (l : Nat) → List Layer → GraphProg Unit
  | _, [] => .done ()
  | l, layer :: rest => do
    ctx.writeList id l layer.selected
    writeOwn id (l + 1) rest

/-- One back-link under the stripe of the list that changes. -/
def backLink (id l : Nat) (neighbor : ScoredId) : GraphProg Bool := do
  lockStripe neighbor.id
  let appended ← ctx.tryAppendLink neighbor.id l id
  let kept ← if appended then .done true else ctx.shrinkWith neighbor.id l id neighbor.distance
  unlockStripe neighbor.id
  .done kept

/-- The number of in-links on level `l`. -/
def backLinks (id l : Nat) : List ScoredId → (inLinks : Nat) → GraphProg Nat
  | [], inLinks => .done inLinks
  | neighbor :: rest, inLinks => do
    let kept ← ctx.backLink id l neighbor
    backLinks id l rest (if kept then inLinks + 1 else inLinks)

/-- `std::any_of` over the construction candidates: the first one with room takes the link. -/
def repairOrphan (id l : Nat) : List ScoredId → GraphProg Bool
  | [] => .done false
  | c :: rest => do
    lockStripe c.id
    let appended ← ctx.tryAppendLink c.id l id
    unlockStripe c.id
    if appended then .done true else repairOrphan id l rest

/-- Phase 3, from level `l` on. -/
def linkBack (id : Nat) : (l : Nat) → List Layer → GraphProg Unit
  | _, [] => .done ()
  | l, layer :: rest => do
    let inLinks ← ctx.backLinks id l layer.selected 0
    if inLinks = 0 ∧ ctx.options.repairOrphans then
      let _ ← ctx.repairOrphan id l layer.candidates
    linkBack id (l + 1) rest

/-- `publish(scratch, id, top)` with one layer for each of the levels up to `top`. -/
def publish (id : Nat) (layers : List Layer) : GraphProg Unit := do
  joins id layers.length
  ctx.writeOwn id 0 layers
  ctx.linkBack id 0 layers

end Publish

/-- The second half of `link`; `false` when the search ran out of memory. -/
def insertBelow (visited : VisitedSet) (id level : Nat) (e : HnswGraph.Entry) : GraphProg Bool := do
  let layers ← ctx.findNeighbors visited id (min level e.level) e
  match layers with
  | none => .done false
  | some layers => do
    ctx.publish id layers
    if level > e.level then setEntry { id, level }
    .done true

/-- `link(id)` with a leased visited set; `false` when it throws, after which the lock is
released as well. -/
def link (visited : VisitedSet) (id : Nat) : GraphProg Bool := do
  let level ← HnswContext.level id
  let e ← entry
  if !e.valid ∨ level > e.level then do
    lockTop
    let e ← entry
    if !e.valid then do
      setEntry { id, level }
      unlockTop
      .done true
    else do
      let linked ← ctx.insertBelow visited id level e
      unlockTop
      .done linked
  else ctx.insertBelow visited id level e

/-- `add(id)`; `none` when it throws. Preparing the scratch memory and `add_node` can run out of
memory just like the candidate queue. -/
def add (visited : VisitedSet) (id : Nat) : GraphProg (Option (Result Unit)) := do
  let level := ctx.params.levels.levelFor id
  let e ← entry
  if !e.valid then do
    if !(← allocate) then .done none
    else do
      match ← addNode level with
      | .error status => .done (some (.error status))
      | .ok _ => do
        setEntry { id, level }
        .done (some (.ok ()))
  else do
    if !(← allocate) then .done none
    else do
      match ← ctx.findNeighbors visited id (min level e.level) e with
      | none => .done none
      | some layers => do
        if !(← allocate) then .done none
        else do
          match ← addNode level with
          | .error status => .done (some (.error status))
          | .ok _ => do
            ctx.publish id layers
            if level > e.level then setEntry { id, level }
            .done (some (.ok ()))

end VectorForge.HnswContext
