import VectorForge.Hnsw.Search
import VectorForge.Hnsw.Validator

/-! What a search computes while nobody changes the graph: its loops as folds over lists of links. -/

namespace VectorForge

namespace HnswGraph

/-- What the steps of a search return, with enough memory. -/
def answers (g : HnswGraph) : (o : GraphOp) → Option o.Ret
  | .levelOf id => some (g.level id)
  | .load id level word => some (g.words id level word)
  | .loadEntry => some g.entry
  | .allocate => some true
  | _ => none

end HnswGraph

/-- The value of a search of the graph. -/
abbrev GraphProg.value {α : Type} (g : HnswGraph) (p : GraphProg α) : Option α := p.eval g.answers

namespace HnswContext
variable {g : HnswGraph} {α β : Type} {ctx : HnswContext} {hidden : Nat → Bool} {query level owner : Nat}

theorem value_bind (p : GraphProg α) (f : α → GraphProg β) :
    GraphProg.value g (p >>= f) = (GraphProg.value g p).bind fun a => GraphProg.value g (f a) :=
    Prog.eval_bind _ p f

@[simp] theorem value_load {id word : Nat} {f : Nat → GraphProg α} :
    GraphProg.value g (load id level word >>= f) = GraphProg.value g (f (g.words id level word)) := rfl

@[simp] theorem value_entry {f : HnswGraph.Entry → GraphProg α} :
    GraphProg.value g (entry >>= f) = GraphProg.value g (f g.entry) := rfl

@[simp] theorem value_allocate {f : Bool → GraphProg α} :
    GraphProg.value g (allocate >>= f) = GraphProg.value g (f true) := rfl

@[simp] theorem value_done {a : α} : GraphProg.value g (.done a : GraphProg α) = some a := rfl

/-- The links of `owner` from slot `i` on. -/
def linksFrom (g : HnswGraph) (level owner : Nat) (left i : Nat) : List Nat :=
  (List.range' i left).map fun j => g.words owner level (1 + j)

theorem linksFrom_all (g : HnswGraph) (level owner : Nat) : linksFrom g level owner (g.words owner level 0) 0 =
    g.links owner level := by
  rw [linksFrom, HnswGraph.links, List.range_eq_range']

theorem linksFrom_succ (left i : Nat) : linksFrom g level owner (left + 1) i =
    g.words owner level (1 + i) :: linksFrom g level owner left (i + 1) := by
  rw [linksFrom, List.range'_succ, List.map_cons, linksFrom]

section Layer

/-- What `search_layer` does with one neighbour. -/
def LayerState.meet (ctx : HnswContext) (hidden : Nat → Bool) (query : Nat) (st : LayerState)
    (neighbor : Nat) : LayerState :=
  if st.visited.isFresh neighbor then
    if st.improves (ctx.scored query neighbor) then
      LayerState.offer { st with visited := st.visited.visit neighbor } hidden (ctx.scored query neighbor)
    else { st with visited := st.visited.visit neighbor }
  else st

/-- What it does with the nearest candidate. -/
def LayerState.expand (ctx : HnswContext) (g : HnswGraph) (hidden : Nat → Bool) (query level : Nat)
    (st : LayerState) (nearest : ScoredId) : LayerState :=
  (g.links nearest.id level).foldl (LayerState.meet ctx hidden query) { st with candidates := st.candidates.pop }

/-- The loop from one state to the state in which it ends. -/
inductive Explores (ctx : HnswContext) (g : HnswGraph) (hidden : Nat → Bool) (query level : Nat) :
    LayerState → LayerState → Prop
  | empty {st : LayerState} (front : st.candidates.top? = none) : Explores ctx g hidden query level st st
  | exhausted {st : LayerState} {nearest : ScoredId} (front : st.candidates.top? = some nearest)
      (far : st.exhausted nearest = true) : Explores ctx g hidden query level st st
  | step {st last : LayerState} {nearest : ScoredId} (front : st.candidates.top? = some nearest)
      (near : st.exhausted nearest = false)
      (rest : Explores ctx g hidden query level (st.expand ctx g hidden query level nearest) last) :
      Explores ctx g hidden query level st last

theorem LayerState.length_meet (st : LayerState) (neighbor : Nat) :
    (st.meet ctx hidden query neighbor).visited.marks.length = st.visited.marks.length := by
  rw [LayerState.meet]
  split
  · split
    · exact VisitedSet.length_visit _ _
    · exact VisitedSet.length_visit _ _
  · rfl

theorem LayerState.meet_old {st : LayerState} {x : Nat} (old : st.visited.isFresh x = false) :
    st.meet ctx hidden query x = st := by
  rw [LayerState.meet, if_neg (by rw [old]; exact Bool.false_ne_true)]

theorem value_prefetchList {visited : VisitedSet} : ∀ {left i : Nat},
    GraphProg.value g (prefetchList visited level owner left i) = some ()
  | 0, _ => rfl
  | left + 1, i => by
    rw [prefetchList, value_load]
    split
    · exact value_prefetchList
    · rw [value_load]
      exact value_prefetchList

variable (ctx hidden query) in
theorem value_scanLayer {bound : Nat} : ∀ {left i : Nat} (st : { st : LayerState // st.cost ≤ bound }),
    (∀ x ∈ linksFrom g level owner left i, x < st.1.visited.marks.length) → ∃ within,
    GraphProg.value g (ctx.scanLayer hidden query level owner bound left i st) =
      some (some ⟨(linksFrom g level owner left i).foldl (LayerState.meet ctx hidden query) st.1, within⟩) := by
  intro left
  induction left with
  | zero => exact fun st _ => ⟨st.2, rfl⟩
  | succ left ih =>
    rintro i ⟨st, within⟩ inside
    rw [linksFrom_succ] at inside
    obtain ⟨here, others⟩ := List.forall_mem_cons.mp inside
    dsimp only at here others
    have next (st' : { st : LayerState // st.cost ≤ bound })
        (same : st'.1 = st.meet ctx hidden query (g.words owner level (1 + i))) :
        ∃ within, GraphProg.value g (ctx.scanLayer hidden query level owner bound left (i + 1) st') =
          some (some ⟨(linksFrom g level owner (left + 1) i).foldl (LayerState.meet ctx hidden query) st,
            within⟩) := by
      obtain ⟨within', run⟩ := ih st' fun x member => by
        rw [same, LayerState.length_meet]
        exact others x member
      rw [linksFrom_succ, List.foldl_cons]
      simp only [same] at within' run
      exact ⟨within', run⟩
    rw [scanLayer, value_load, dif_pos here]
    split
    next fresh =>
      dsimp only
      split
      next better =>
        rw [value_allocate, if_pos rfl]
        exact next _ (by rw [LayerState.meet, if_pos fresh, scored, if_pos better])
      next worse => exact next _ (by rw [LayerState.meet, if_pos fresh, scored, if_neg worse])
    next old => exact next _ (by rw [LayerState.meet, if_neg old])

variable (ctx hidden query) in
theorem value_visitNeighbors (st : LayerState)
    (inside : ∀ x ∈ g.links owner level, x < st.visited.marks.length) : ∃ within,
    GraphProg.value g (ctx.visitNeighbors hidden query level owner st) =
      some (some ⟨(g.links owner level).foldl (LayerState.meet ctx hidden query) st, within⟩) := by
  rw [← linksFrom_all] at inside ⊢
  obtain ⟨within, run⟩ := value_scanLayer ctx hidden query ⟨st, le_refl st.cost⟩ inside
  refine ⟨within, ?_⟩
  rw [visitNeighbors, value_load]
  split
  · rw [value_bind, value_prefetchList]
    exact run
  · exact run

/-- Nodes of the level, in range of the visited set, are linked among themselves. -/
structure Terrain (g : HnswGraph) (level marks : Nat) : Prop where
  closed : ∀ x y, g.hasList x level = true → y ∈ g.links x level → g.hasList y level = true
  inside : ∀ x, g.hasList x level = true → x < marks

/-- Whether the node was visited in this search. -/
def LayerState.Visited (st : LayerState) (x : Nat) : Prop := st.visited.isFresh x = false

theorem LayerState.visited_visit {st : LayerState} {x y : Nat} (inside : x < st.visited.marks.length) :
    LayerState.Visited { st with visited := st.visited.visit x } y ↔ y = x ∨ st.Visited y := by
  rw [LayerState.Visited, VisitedSet.isFresh_visit inside, LayerState.Visited, Bool.and_eq_false_iff,
    decide_eq_false_iff_not, not_not]

/-- What a search meets, whatever the distances are. -/
structure Walks (g : HnswGraph) (level : Nat) (st : LayerState) : Prop where
  terrain : Terrain g level st.visited.marks.length
  candidates : ∀ c ∈ st.candidates.data, g.hasList c.id level = true
  visited : ∀ x, st.Visited x → g.hasList x level = true
  results : ∀ c ∈ st.results.data, st.Visited c.id
  distinct : (st.results.data.map (·.id)).Nodup

namespace Walks
variable {st last : LayerState} {x : Nat}

theorem visit (walks : Walks g level st) (listed : g.hasList x level = true) :
    Walks g level { st with visited := st.visited.visit x } := by
  have inside := walks.terrain.inside x listed
  refine { walks with terrain := ?_, visited := ?_, results := ?_ }
  · rw [VisitedSet.length_visit]
    exact walks.terrain
  · intro y seen
    rcases (LayerState.visited_visit inside).mp seen with rfl | before
    · exact listed
    · exact walks.visited y before
  · exact fun c member => (LayerState.visited_visit inside).mpr (.inr (walks.results c member))

theorem offer (walks : Walks g level st) {c : ScoredId} (listed : g.hasList c.id level = true)
    (fresh : st.visited.isFresh c.id = true) :
    Walks g level (LayerState.offer { st with visited := st.visited.visit c.id } hidden c) := by
  have inside := walks.terrain.inside c.id listed
  have marked := walks.visit listed
  have gone : c.id ∉ st.results.data.map (·.id) := by
    intro member
    obtain ⟨d, inResults, same⟩ := List.mem_map.mp member
    have seen := walks.results d inResults
    rw [LayerState.Visited, same, fresh] at seen
    cases seen
  refine { terrain := marked.terrain, candidates := ?_, visited := marked.visited, results := ?_, distinct := ?_ }
  · intro d member
    rcases List.mem_cons.mp ((MinHeap.push_perm _ c).mem_iff.mp member) with rfl | old
    · exact listed
    · exact walks.candidates d old
  · intro d member
    simp only [LayerState.offer] at member
    split at member
    · exact marked.results d member
    · rcases BoundedMaxHeap.mem_push member with rfl | old
      · exact (LayerState.visited_visit inside).mpr (.inl rfl)
      · exact marked.results d old
  · simp only [LayerState.offer]
    split
    · exact walks.distinct
    · exact BoundedMaxHeap.nodup_push walks.distinct gone

theorem meet (walks : Walks g level st) (listed : g.hasList x level = true) :
    Walks g level (st.meet ctx hidden query x) := by
  rw [LayerState.meet]
  split
  next fresh =>
    split
    · exact walks.offer (c := ctx.scored query x) listed fresh
    · exact walks.visit listed
  next => exact walks

theorem foldl {links : List Nat} (walks : Walks g level st) (listed : ∀ x ∈ links, g.hasList x level = true) :
    Walks g level (links.foldl (LayerState.meet ctx hidden query) st) := by
  induction links generalizing st with
  | nil => exact walks
  | cons x links ih =>
    exact ih (walks.meet (listed x List.mem_cons_self)) fun y member => listed y (List.mem_cons_of_mem x member)

theorem pop (walks : Walks g level st) {nearest : ScoredId} (front : st.candidates.top? = some nearest) :
    Walks g level { st with candidates := st.candidates.pop } :=
  { walks with candidates := fun c member => walks.candidates c (MinHeap.mem_pop front member) }

theorem front (walks : Walks g level st) {nearest : ScoredId} (front : st.candidates.top? = some nearest) :
    g.hasList nearest.id level = true :=
  walks.candidates nearest (List.mem_of_mem_head? front)

theorem expand (walks : Walks g level st) {nearest : ScoredId} (front : st.candidates.top? = some nearest) :
    Walks g level (st.expand ctx g hidden query level nearest) :=
  (walks.pop front).foldl fun _ member => walks.terrain.closed _ _ (walks.front front) member

theorem explores (walks : Walks g level st) (explores : Explores ctx g hidden query level st last) :
    Walks g level last := by
  induction explores with
  | empty => exact walks
  | exhausted => exact walks
  | step front _ _ ih => exact ih (walks.expand front)

end Walks

variable (ctx hidden query) in
theorem value_expandLayer (st : LayerState) (walks : Walks g level st) :
    ∃ last, Explores ctx g hidden query level st last ∧
    GraphProg.value g (ctx.expandLayer hidden query level st) = some (some last) := by
  rw [expandLayer]
  split
  next front => exact ⟨st, .empty front, rfl⟩
  next nearest front =>
  split
  next far => exact ⟨st, .exhausted front far, rfl⟩
  next near =>
    obtain ⟨within, run⟩ := value_visitNeighbors ctx hidden query { st with candidates := st.candidates.pop }
      fun x member => walks.terrain.inside x (walks.terrain.closed _ _ (walks.front front) member)
    have _cheaper : (st.expand ctx g hidden query level nearest).cost < st.cost :=
      within.trans_lt (LayerState.cost_pop front)
    obtain ⟨last, explores, value⟩ := value_expandLayer (st.expand ctx g hidden query level nearest)
      (walks.expand front)
    refine ⟨last, .step front (by simpa using near) explores, ?_⟩
    rw [value_bind, run]
    exact value
termination_by st.cost

/-- The start of a search from one node. -/
def startLayer (hidden : Nat → Bool) (visited : VisitedSet) (ef : Nat) (point : ScoredId) : LayerState :=
  LayerState.offer { visited := visited.reset.visit point.id, results := { capacity := ef } } hidden point

/-- Before the first visit. -/
def emptyLayer (visited : VisitedSet) (ef : Nat) : LayerState :=
  { visited := visited.reset, results := { capacity := ef } }

theorem emptyLayer_fresh {visited : VisitedSet} (settled : visited.Settled) (ef x : Nat) :
    (emptyLayer visited ef).visited.isFresh x = true := settled.isFresh_reset x

theorem walks_empty {visited : VisitedSet} {ef : Nat} (terrain : Terrain g level visited.marks.length)
    (settled : visited.Settled) : Walks g level (emptyLayer visited ef) := by
  refine ⟨?_, nofun, ?_, nofun, List.nodup_nil⟩
  · rw [emptyLayer, VisitedSet.length_reset]
    exact terrain
  · intro x seen
    rw [LayerState.Visited, emptyLayer_fresh settled] at seen
    cases seen

theorem walks_start {visited : VisitedSet} {point : ScoredId} {ef : Nat}
    (terrain : Terrain g level visited.marks.length)
    (settled : visited.Settled) (listed : g.hasList point.id level = true) :
    Walks g level (startLayer hidden visited ef point) :=
  (walks_empty terrain settled).offer listed (emptyLayer_fresh settled ef point.id)

variable (ctx hidden query) in
/-- A search from one node of the level. -/
theorem value_searchLayer {visited : VisitedSet} {point : ScoredId} {ef : Nat} (wide : 1 ≤ ef)
    (terrain : Terrain g level visited.marks.length)
    (settled : visited.Settled) (listed : g.hasList point.id level = true) : ∃ last,
    Explores ctx g hidden query level (startLayer hidden visited ef point) last ∧
    GraphProg.value g (ctx.searchLayer hidden visited query [point] ef level) =
      some (some (last.results.sortAscending, last.visited)) := by
  obtain ⟨last, explores, value⟩ := value_expandLayer ctx hidden query (startLayer hidden visited ef point)
    (walks_start terrain settled listed)
  refine ⟨last, explores, ?_⟩
  have inside : point.id < visited.reset.marks.length := by
    rw [VisitedSet.length_reset]
    exact terrain.inside _ listed
  have seeded : GraphProg.value g (seedLayer hidden [point]
      { visited := visited.reset, results := { capacity := ef } }) =
      some (some (startLayer hidden visited ef point)) := by
    rw [seedLayer, if_pos inside, if_pos (settled.isFresh_reset point.id), value_allocate]
    rfl
  rw [searchLayer, if_neg (by omega), value_bind, seeded, Option.bind_some, value_bind, value]
  rfl

/-! A beam with room for all nodes: how much more room there is makes no difference. -/

namespace Walks
variable {st last : LayerState} {x : Nat}

theorem below (walks : Walks g level st) : ∀ c ∈ st.results.data, c.id < g.nodeCount :=
  fun c member => (of_decide_eq_true (walks.visited c.id (walks.results c member))).1

theorem length_results (walks : Walks g level st) : st.results.data.length ≤ g.nodeCount := by
  have inside : (st.results.data.map (·.id)) ⊆ List.range g.nodeCount := by
    intro y member
    obtain ⟨c, inData, rfl⟩ := List.mem_map.mp member
    exact List.mem_range.mpr (walks.below c inData)
  have count := (List.subperm_of_subset walks.distinct inside).length_le
  rw [List.length_map, List.length_range] at count
  exact count

/-- As long as a node was not visited, there is room. -/
theorem room (walks : Walks g level st) (listed : g.hasList x level = true) (fresh : st.visited.isFresh x = true) :
    st.results.data.length < g.nodeCount := by
  have distinct : (x :: st.results.data.map (·.id)).Nodup := by
    refine List.nodup_cons.mpr ⟨fun member => ?_, walks.distinct⟩
    obtain ⟨c, inData, same⟩ := List.mem_map.mp member
    have seen := walks.results c inData
    rw [LayerState.Visited, same, fresh] at seen
    cases seen
  have inside : (x :: st.results.data.map (·.id)) ⊆ List.range g.nodeCount := by
    intro y member
    rcases List.mem_cons.mp member with rfl | inResults
    · exact List.mem_range.mpr (of_decide_eq_true listed).1
    · obtain ⟨c, inData, rfl⟩ := List.mem_map.mp inResults
      exact List.mem_range.mpr (walks.below c inData)
  have count := (List.subperm_of_subset distinct inside).length_le
  rw [List.length_cons, List.length_map, List.length_range] at count
  exact count

theorem all_visited (walks : Walks g level st) (full : g.nodeCount ≤ st.results.data.length)
    (listed : g.hasList x level = true) : st.visited.isFresh x = false := by
  cases fresh : st.visited.isFresh x with
  | false => rfl
  | true => exact absurd (walks.room listed fresh) (by omega)

/-- Nothing is left to find. -/
theorem explores_full (walks : Walks g level st) (full : g.nodeCount ≤ st.results.data.length)
    (explores : Explores ctx g hidden query level st last) : last.results = st.results := by
  induction explores with
  | empty => rfl
  | exhausted => rfl
  | @step st last nearest front _ _ ih =>
    have same : st.expand ctx g hidden query level nearest = { st with candidates := st.candidates.pop } := by
      rw [LayerState.expand]
      have links (x : Nat) (member : x ∈ g.links nearest.id level) : g.hasList x level = true :=
        walks.terrain.closed _ _ (walks.front front) member
      generalize g.links nearest.id level = rest at links
      induction rest with
      | nil => rfl
      | cons x rest more =>
        have old : ({ st with candidates := st.candidates.pop } : LayerState).visited.isFresh x = false :=
          walks.all_visited full (links x List.mem_cons_self)
        rw [List.foldl_cons, LayerState.meet_old old]
        exact more fun y member => links y (List.mem_cons_of_mem x member)
    have still := ih (walks.expand front) (by rw [same]; exact full)
    rw [same] at still
    exact still

end Walks

/-- States of two searches that differ in the room of their beams. -/
structure Twins (g : HnswGraph) (st st' : LayerState) : Prop where
  visited : st.visited = st'.visited
  candidates : st.candidates = st'.candidates
  results : st.results.data = st'.results.data
  room : g.nodeCount ≤ st.results.capacity
  room' : g.nodeCount ≤ st'.results.capacity

namespace Twins
variable {st st' last last' : LayerState} {x : Nat}

theorem symm (twins : Twins g st st') : Twins g st' st :=
  ⟨twins.visited.symm, twins.candidates.symm, twins.results.symm, twins.room', twins.room⟩

theorem push {h h' : BoundedMaxHeap} (same : h.data = h'.data) (room : h.data.length < h.capacity)
    (room' : h.data.length < h'.capacity) (c : ScoredId) : (h.push c).data = (h'.push c).data := by
  simp only [BoundedMaxHeap.push, BinaryHeap.pushBounded, ← same, if_pos room, if_pos room']

theorem meet (twins : Twins g st st') (walks : Walks g level st) (listed : g.hasList x level = true) :
    Twins g (st.meet ctx hidden query x) (st'.meet ctx hidden query x) := by
  cases fresh : st.visited.isFresh x with
  | false =>
    rw [LayerState.meet_old fresh, LayerState.meet_old (twins.visited ▸ fresh)]
    exact twins
  | true =>
    have few := walks.room listed fresh
    have free : st.results.data.length < st.results.capacity := few.trans_le twins.room
    have free' : st.results.data.length < st'.results.capacity := few.trans_le twins.room'
    have better : st.improves (ctx.scored query x) = true := by
      rw [LayerState.improves, BoundedMaxHeap.full, decide_eq_false (by omega)]
      rfl
    have better' : st'.improves (ctx.scored query x) = true := by
      rw [LayerState.improves, BoundedMaxHeap.full, ← twins.results, decide_eq_false (by omega)]
      rfl
    have fresh' : st'.visited.isFresh x = true := twins.visited ▸ fresh
    rw [LayerState.meet, if_pos fresh, if_pos better, LayerState.meet, if_pos fresh', if_pos better']
    simp only [LayerState.offer]
    refine ⟨?_, ?_, ?_, ?_, ?_⟩
    · rw [twins.visited]
    · rw [twins.candidates]
    · dsimp only
      split
      · exact twins.results
      · exact push twins.results free free' _
    · dsimp only
      split <;> exact twins.room
    · dsimp only
      split <;> exact twins.room'

theorem foldl {links : List Nat} (twins : Twins g st st') (walks : Walks g level st)
    (listed : ∀ x ∈ links, g.hasList x level = true) : Twins g (links.foldl (LayerState.meet ctx hidden query) st)
      (links.foldl (LayerState.meet ctx hidden query) st') := by
  induction links generalizing st st' with
  | nil => exact twins
  | cons x links ih =>
    have here := listed x List.mem_cons_self
    exact ih (twins.meet walks here) (walks.meet here) fun y member => listed y (List.mem_cons_of_mem x member)

theorem walks (twins : Twins g st st') (walks : Walks g level st) : Walks g level st' := by
  obtain ⟨visited, candidates, results, _, _⟩ := twins
  refine ⟨visited ▸ walks.terrain, candidates ▸ walks.candidates, fun x seen => walks.visited x ?_,
    fun c member => ?_, results ▸ walks.distinct⟩
  · rw [LayerState.Visited, visited]
    exact seen
  · have seen := walks.results c (results.symm ▸ member)
    rw [LayerState.Visited, visited] at seen
    exact seen

theorem expand (twins : Twins g st st') (walks : Walks g level st) {nearest : ScoredId}
    (front : st.candidates.top? = some nearest) :
    Twins g (st.expand ctx g hidden query level nearest) (st'.expand ctx g hidden query level nearest) := by
  refine foldl ?_ (walks.pop front) fun x member => walks.terrain.closed _ _ (walks.front front) member
  exact { twins with candidates := congrArg MinHeap.pop twins.candidates }

/-- When one of them is full, all nodes were visited. -/
theorem full (twins : Twins g st st') {nearest : ScoredId} (far : st.exhausted nearest = true) :
    g.nodeCount ≤ st.results.data.length := by
  simp only [LayerState.exhausted, Bool.and_eq_true] at far
  have whole : st.results.data.length = st.results.capacity := of_decide_eq_true far.1
  exact twins.room.trans whole.ge

/-- Both end with the same results. -/
theorem explores (twins : Twins g st st') (start : Walks g level st)
    (left : Explores ctx g hidden query level st last)
    (right : Explores ctx g hidden query level st' last') : last.results.data = last'.results.data := by
  induction left generalizing st' with
  | empty front =>
    cases right with
    | empty => exact twins.results
    | exhausted => exact twins.results
    | step front' _ _ =>
      rw [← twins.candidates, front] at front'
      cases front'
  | exhausted _ far =>
    rw [(twins.walks start).explores_full (twins.results ▸ twins.full far) right]
    exact twins.results
  | @step st last nearest front near rest ih =>
    cases right with
    | empty front' =>
      rw [← twins.candidates, front] at front'
      cases front'
    | exhausted _ far =>
      rw [start.explores_full (twins.results ▸ twins.symm.full far) (.step front near rest)]
      exact twins.results
    | step front' _ rest' =>
      rw [← twins.candidates, front] at front'
      cases front'
      exact ih (twins.expand start front) (start.expand front) rest'

end Twins

theorem twins_start {visited : VisitedSet} {point : ScoredId} {ef ef' : Nat} (some : 1 ≤ g.nodeCount)
    (wide : g.nodeCount ≤ ef) (wide' : g.nodeCount ≤ ef') :
      Twins g (startLayer hidden visited ef point) (startLayer hidden visited ef' point) := by
  have pushed : (BoundedMaxHeap.push { capacity := ef } point).data =
      (BoundedMaxHeap.push { capacity := ef' } point).data :=
    @Twins.push { capacity := ef } { capacity := ef' } rfl (some.trans wide) (some.trans wide') point
  refine ⟨rfl, rfl, ?_, ?_, ?_⟩ <;> simp only [startLayer, LayerState.offer]
  · split
    · rfl
    · exact pushed
  · split <;> exact wide
  · split <;> exact wide'

end Layer

section Greedy

variable (g ctx query level owner) in
theorem value_greedyScan {start : ScoredId} : ∀ (left i : Nat) (moved : Moved start), ∃ moved' : Moved start,
    GraphProg.value g (ctx.greedyScan query level owner left i moved) = some moved' ∧
      (moved'.current = moved.current ∨ ∃ x ∈ linksFrom g level owner left i,
        moved'.current = ctx.scored query x) := by
  intro left
  induction left with
  | zero => exact fun _ moved => ⟨moved, rfl, .inl rfl⟩
  | succ left ih =>
    intro i moved
    rw [greedyScan, value_load, linksFrom_succ]
    dsimp only
    split
    · obtain ⟨moved', run, here | ⟨x, member, here⟩⟩ := ih (i + 1) _
      · exact ⟨moved', run, .inr ⟨_, List.mem_cons_self, here⟩⟩
      · exact ⟨moved', run, .inr ⟨x, List.mem_cons_of_mem _ member, here⟩⟩
    · obtain ⟨moved', run, here | ⟨x, member, here⟩⟩ := ih (i + 1) moved
      · exact ⟨moved', run, .inl here⟩
      · exact ⟨moved', run, .inr ⟨x, List.mem_cons_of_mem _ member, here⟩⟩

/-- A node of the level with its distance. -/
structure Stands (ctx : HnswContext) (g : HnswGraph) (query level : Nat) (c : ScoredId) : Prop where
  listed : g.hasList c.id level = true
  scored : c = ctx.scored query c.id

theorem value_greedySearch (current : ScoredId)
    (closed : ∀ x y, g.hasList x level = true → y ∈ g.links x level → g.hasList y level = true)
    (stands : Stands ctx g query level current) :
    ∃ c, GraphProg.value g (ctx.greedySearch query level current) = some c ∧ Stands ctx g query level c := by
  obtain ⟨moved, run, here⟩ := value_greedyScan g ctx query level current.id (g.words current.id level 0) 0
    (Moved.none current)
  have next : Stands ctx g query level moved.current := by
    rcases here with same | ⟨x, member, same⟩
    · rw [same]
      exact stands
    · rw [linksFrom_all] at member
      rw [same]
      exact ⟨closed _ _ stands.listed member, rfl⟩
  rw [greedySearch, value_load, value_bind, run, Option.bind_some]
  split
  next changed => exact value_greedySearch moved.current closed next
  next => exact ⟨moved.current, rfl, next⟩
termination_by height current
decreasing_by exact height_lt (moved.less ‹_›)

theorem value_descend {top : Nat} : ∀ {level : Nat} {current : ScoredId},
    (∀ l x y, g.hasList x l = true → y ∈ g.links x l → g.hasList y l = true) →
    Stands ctx g query level current → top ≤ level →
    ∃ c, GraphProg.value g (ctx.descend query top level current) = some c ∧ Stands ctx g query top c := by
  have lower {l l' : Nat} {c : ScoredId} (below : l ≤ l') (stands : Stands ctx g query l' c) :
      Stands ctx g query l c := by
    obtain ⟨node, high⟩ := of_decide_eq_true stands.listed
    exact ⟨decide_eq_true ⟨node, below.trans high⟩, stands.scored⟩
  intro level
  induction level with
  | zero => exact fun _ stands below => ⟨_, rfl, lower below stands⟩
  | succ level ih =>
    intro current closed stands below
    rw [descend]
    split
    next above =>
      obtain ⟨c, run, next⟩ := value_greedySearch current (closed (level + 1)) stands
      rw [value_bind, run]
      exact ih closed (lower (Nat.le_succ level) next) (Nat.lt_succ_iff.mp above)
    next => exact ⟨current, rfl, lower below stands⟩

end Greedy
end HnswContext
end VectorForge
