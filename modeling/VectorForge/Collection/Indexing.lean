import VectorForge.Collection.Insertion

/-! Both ways to index a row: `add`, which links it, and `reserve_node`, which does not. -/

namespace VectorForge
open Effect
open HnswIo (SameGraph)

/-- What an insertion into a graph over these rows reads. -/
def rowContext (k : KernelTable) (mode : ScoreMode) (b : HnswBackend) (rows : List (List F32)) : HnswContext where
  params := b.params
  options := b.options
  distance := fun query row => queryDistance k mode { data := rows.getD query [] } (rows.getD row [])

/-- The graph after `add` of the last of the rows, with enough memory and clean scratch memory. -/
def addedGraph (k : KernelTable) (mode : ScoreMode) (b : HnswBackend) (rows : List (List F32)) : Option HnswGraph :=
  let visited := ({} : VisitedSet).ensureCapacity b.graph.nodeCount
  match ((rowContext k mode b rows).add visited b.graph.nodeCount).run (answerIn b.graph.nodeCount)
  ({ graph := b.graph }, {}) with
  | some (some (.ok _), s, _) => some s.graph
  | _ => none

theorem HnswParams.Valid.wide {p : HnswParams} (valid : p.Valid) : 1 ≤ p.efConstruction.toNat := by
  have minM := valid.minM
  have minEf := valid.minEfConstruction
  omega

theorem covers_scratch (n : Nat) {visited : VisitedSet} (settled : visited.Settled) :
    HnswContext.Covers n (visited.ensureCapacity n) :=
  ⟨VisitedSet.length_ensureCapacity visited n, settled.ensureCapacity n⟩

theorem addedGraph_some {k : KernelTable} {mode : ScoreMode} {b : HnswBackend}
    {rows : List (List F32)} {h : HnswGraph} (run : addedGraph k mode b rows = some h) : ∃ u s w,
    ((rowContext k mode b rows).add (({} : VisitedSet).ensureCapacity b.graph.nodeCount) b.graph.nodeCount).run
      (answerIn b.graph.nodeCount) ({ graph := b.graph }, {}) = some (some (.ok u), s, w) ∧ s.graph = h := by
  simp only [addedGraph] at run
  split at run
  next u s w result => exact ⟨u, s, w, result, Option.some.inj run⟩
  next => cases run

/-- Backends that hold the same graph get the same graph. -/
theorem addedGraph_same {k : KernelTable} {mode : ScoreMode} {b c : HnswBackend}
    {rows : List (List F32)} {h h' : HnswGraph}
    {lost : Nat → Prop} (rest : Resting b.params lost { graph := b.graph })
    (wide : 1 ≤ b.params.efConstruction.toNat)
    (params : b.params = c.params) (options : b.options = c.options) (same : SameGraph b.graph c.graph)
    (left : addedGraph k mode b rows = some h) (right : addedGraph k mode c rows = some h') : SameGraph h h' := by
  obtain ⟨_, s, w, runB, rfl⟩ := addedGraph_some left
  obtain ⟨_, t, v, runC, rfl⟩ := addedGraph_some right
  have count : c.graph.nodeCount = b.graph.nodeCount := same.shape.nodeCount_eq.symm
  have agrees : (rowContext k mode b rows).Agrees b.graph.nodeCount (rowContext k mode c rows) :=
    ⟨params, options, rfl, fun _ _ _ _ => rfl⟩
  have peers : HnswContext.Peers b.graph.nodeCount (rowContext k mode b rows) (rowContext k mode c rows)
      { graph := b.graph } { graph := c.graph } :=
    ⟨rest.mirror same, agrees, rest.m, wide, fun _ => rfl, fun _ => rfl⟩
  have ample : ({} : World).Ample := rfl
  rw [count] at runC
  have covers := covers_scratch b.graph.nodeCount VisitedSet.settled_empty
  obtain ⟨r, ⟨s', w'⟩, run, outcome⟩ := HnswContext.add_follows (i := b.graph.nodeCount) (j := b.graph.nodeCount)
    (w := ({} : World)) peers same.shape rfl covers covers ample
  cases runB.symm.trans run
  rcases outcome with ⟨none, _⟩ | ⟨r', ⟨t', v'⟩, run', alike, _⟩
  · cases none
  · cases runC.symm.trans run'
    cases alike with
    | @added _ _ g g' grows grows' mirror shape shape' =>
      rcases HnswGraph.addNode_congr same.shape (b.params.levels.levelFor b.graph.nodeCount) with
        ⟨e, failed, _⟩ | ⟨g₁, g₂, ok, ok', one⟩
      · exact absurd (failed.symm.trans grows) (by simp)
      · cases ok.symm.trans grows
        cases ok'.symm.trans grows'
        refine mirror.same ((shape.trans one).trans shape'.symm) ?_
        rw [shape.nodeCount_eq, HnswGraph.addNode_nodeCount grows]

namespace CollectionState
variable {k : KernelTable} {s t : CollectionState} {b c : HnswBackend}

def mode (s : CollectionState) : ScoreMode := scoreMode s.config.metric s.normalized

theorem row_eq_getD (s : CollectionState) {i : Nat} (inside : i < s.vectors.size) :
    s.vectors.row i = s.vectors.rows.getD i [] := by
  rw [List.getD_eq_getElem?_getD, VectorStore.getElem?_rows, if_pos inside, Option.getD_some]

/-- A state and a list that starts with the same rows. -/
theorem context_agrees {n : Nat} {rows : List (List F32)} (params : b.params = c.params)
    (options : b.options = c.options) {mode : ScoreMode} (same : s.mode = mode) (inside : n < s.vectors.size)
    (agree : ∀ i, i ≤ n → s.vectors.rows.getD i [] = rows.getD i []) :
    (s.context k b).Agrees n (rowContext k mode c rows) where
  params := params
  options := options
  prefetch := rfl
  distance := by
    intro x y low low'
    simp only [context, rowContext, ← same, CollectionState.mode]
    rw [row_eq_getD s (by omega), row_eq_getD s (by omega), agree x low, agree y low']

/-- The invariant between operations. The nodes in `lost` were reserved, but linking them failed. -/
structure Sound (lost : Nat → Prop) (s : CollectionState) : Prop extends Coupled s where
  bounded : ∀ x, lost x → x < s.vectors.size
  rests : ∀ b, s.backend = .hnsw b → Resting b.params lost { graph := b.graph }

theorem Sound.fits {lost : Nat → Prop} (sound : s.Sound lost) (kind : s.backend = .hnsw b) :
    s.config.index = .hnsw ∧ b.Fits s.config.hnsw s.vectors.size := by
  have fits := sound.backend
  rw [kind] at fits
  exact fits

/-- Linked as by `add`. -/
structure Linked (k : KernelTable) (mode : ScoreMode) (lost : Nat → Prop) (rows : List (List F32))
    (b c : HnswBackend) : Prop where
  params : c.params = b.params
  options : c.options = b.options
  graph : ∃ h, addedGraph k mode b rows = some h ∧ SameGraph c.graph h
  shape : ∃ g, b.graph.addNode (b.params.levels.levelFor b.graph.nodeCount) = .ok g ∧ HnswGraph.SameShape c.graph g
  rests : Resting b.params lost { graph := c.graph }

theorem Linked.nodeCount {mode : ScoreMode} {lost : Nat → Prop} {rows : List (List F32)}
    (linked : Linked k mode lost rows b c) : c.graph.nodeCount = b.graph.nodeCount + 1 := by
  obtain ⟨g, run, shape⟩ := linked.shape
  rw [shape.nodeCount_eq, HnswGraph.addNode_nodeCount run]

theorem Linked.fits {mode : ScoreMode} {lost : Nat → Prop} {rows : List (List F32)} {p : HnswParams} {n : Nat}
    (linked : Linked k mode lost rows b c) (fits : b.Fits p n) : c.Fits p (n + 1) where
  params := linked.params.trans fits.params
  valid := fits.valid
  options := linked.options.trans fits.options
  m := linked.rests.m.trans (by rw [fits.params])
  maxLevel := linked.rests.maxLevel.trans (by rw [fits.params])
  nodes := linked.nodeCount.trans (by rw [fits.nodes])
  laid := linked.rests.laid

end CollectionState

namespace Collection
open Op CollectionState
variable {k : KernelTable} {s t : CollectionState} {ids : IdMap} {row : List F32}
  {lost : Nat → Prop} {b : HnswBackend}

theorem indexRefusal_none (kind : s.backend = .hnsw b) (nodes : b.graph.nodeCount = s.vectors.size) {g : HnswGraph}
    (run : b.graph.addNode (b.params.levels.levelFor b.graph.nodeCount) = .ok g) : s.indexRefusal = none := by
  simp only [indexRefusal, kind, ← nodes, run]

theorem indexRefusal_some (kind : s.backend = .hnsw b) (nodes : b.graph.nodeCount = s.vectors.size) {e : Status}
    (run : b.graph.addNode (b.params.levels.levelFor b.graph.nodeCount) = .error e) : s.indexRefusal = some e := by
  simp only [indexRefusal, kind, ← nodes, run]

theorem setGraph_eq {g : HnswGraph} (kind : s.backend = .hnsw b) :
    s.setGraph g = { s with backend := .hnsw { b with graph := g } } := by
  simp only [CollectionState.setGraph, kind]

/-- `HnswBackend::add` links the row as it would be linked in any other session, or changes nothing. -/
theorem hnswAdd_indexes (sound : s.Sound lost) (kind : s.backend = .hnsw b) (appended : Appended s ids row t) :
    Indexes (hnswAdd k b) s (fun backend => ∃ c, backend = .hnsw c ∧
      Linked k s.mode lost (s.vectors.rows ++ [row]) b c) t := by
  intro w
  obtain ⟨_, fits⟩ := sound.fits kind
  have nodes := fits.nodes
  have rest := sound.rests b kind
  have wide : 1 ≤ b.params.efConstruction.toNat := by
    rw [fits.params]
    exact fits.valid.wide
  have mine : t.backend = .hnsw b := appended.backend.trans kind
  have size := appended.size
  have agrees : (t.context k b).Agrees b.graph.nodeCount (rowContext k s.mode b (s.vectors.rows ++ [row])) := by
    refine context_agrees rfl rfl ?_ (by omega) fun i _ => by rw [appended.rows]
    rw [CollectionState.mode, appended.frame]
    rfl
  have peers : HnswContext.Peers b.graph.nodeCount (t.context k b) (rowContext k s.mode b (s.vectors.rows ++ [row]))
      { graph := b.graph } { graph := b.graph } :=
    ⟨rest.mirror (.refl _), agrees, rest.m, wide, fun _ => rfl, fun _ => rfl⟩
  have ample : ({} : World).Ample := rfl
  obtain ⟨r, ⟨s', w'⟩, run, outcome⟩ :=
    HnswContext.add_follows (i := b.graph.nodeCount) (j := b.graph.nodeCount) (w := w)
    peers (.refl _) rfl (covers_scratch _ (w.settled b.graph.nodeCount))
    (covers_scratch _ VisitedSet.settled_empty) ample
  have inside : b.graph.nodeCount ≤ ((w.scratch b.graph.nodeCount).ensureCapacity b.graph.nodeCount).marks.length :=
    VisitedSet.length_ensureCapacity _ _
  have rests := add_run_rests rest rfl wide inside (fun x gone => (sound.bounded x gone).trans_eq nodes.symm) run
  rw [← nodes]
  refine Ends.get (ends_check (decide_eq_true ⟨rfl, show b.graph.nodeCount + 1 = t.vectors.size by omega⟩) ?_)
  dsimp only
  rw [run]
  refine Ends.modify ?_
  rcases outcome with ⟨rfl, same, lacked⟩ | ⟨r', ⟨t', v'⟩, reference, alike, spent, _⟩
  · have still : t.setGraph s'.graph = t := by
      rw [setGraph_eq mine, show s'.graph = b.graph from congrArg SharedGraph.graph same, ← mine]
    exact Ends.leave ⟨still, lacked.1.later, .inl ⟨rfl, lacked.2⟩⟩
  · cases alike with
    | failed refused =>
      have still : t.setGraph b.graph = t := by rw [setGraph_eq mine, ← mine]
      exact Ends.leave ⟨still, spent.later, .inr ⟨_, rfl, indexRefusal_some kind nodes refused⟩⟩
    | @added _ _ g h left right mirror leftShape rightShape =>
      have one : g = h := Except.ok.inj (left.symm.trans right)
      subst one
      have count : s'.graph.nodeCount ≤ b.graph.nodeCount + 1 := by
        rw [leftShape.nodeCount_eq, HnswGraph.addNode_nodeCount left]
      refine Ends.pure ⟨spent.later, indexRefusal_none kind nodes left, .hnsw { b with graph := s'.graph },
        ⟨_, rfl, rfl, rfl, ⟨t'.graph, ?_, ?_⟩, ⟨g, left, leftShape⟩, rests⟩, setGraph_eq mine⟩
      · simp only [addedGraph, reference]
      · exact mirror.same (leftShape.trans rightShape.symm) count

/-- `IndexBackend::add` for both backends. -/
theorem backendAdd_indexes (sound : s.Sound lost) (appended : Appended s ids row t) :
    Indexes (backendAdd k) s (fun backend => match s.backend with
      | .flat => backend = .flat
      | .hnsw b => ∃ c, backend = .hnsw c ∧ Linked k s.mode lost (s.vectors.rows ++ [row]) b c) t := by
  intro w
  have same := appended.backend
  refine ends_state ?_
  cases kind : s.backend with
  | flat =>
    rw [show ({ state := t, world := w } : Session).state.backend = .flat from same.trans kind]
    have ok : Outcome.check (decide (s.vectors.size + 1 = t.vectors.size))
        "FlatBackend::add: row must be the last appended row" = (.ok () : Checked Unit) :=
      if_pos (decide_eq_true appended.size.symm)
    rw [show ({ state := t, world := w } : Session).state.vectors.size = t.vectors.size from rfl, ok]
    refine Ends.pure ⟨.refl w, ?_, .flat, rfl, ?_⟩
    · simp only [indexRefusal, kind]
    · rw [← same.trans kind]
  | hnsw b =>
    rw [show ({ state := t, world := w } : Session).state.backend = .hnsw b from same.trans kind]
    exact hnswAdd_indexes sound kind appended w

theorem hnswBackend_run {σ : Session} (kind : σ.state.backend = .hnsw b) : hnswBackend σ = (.ok b, σ) := by
  obtain ⟨s, w⟩ := σ
  cases s
  cases kind
  rfl

theorem hnswBackend_ends {α : Type} {f : HnswBackend → Op α} {σ : Session} {post : α → Session → Prop}
    {exits : Exit → Session → Prop} (kind : σ.state.backend = .hnsw b) (rest : Ends (f b) σ post exits) :
    Ends (hnswBackend >>= f) σ post exits :=
  Ends.of_ok (hnswBackend_run kind) rest

/-- `reserve_node` only adds the node. -/
theorem reserveNode_indexes (nodes : b.graph.nodeCount = s.vectors.size) (kind : s.backend = .hnsw b)
    (appended : Appended s ids row t) :
    Indexes reserveNode s (fun backend => ∃ g, backend = .hnsw { b with graph := g } ∧
      b.graph.addNode (b.params.levels.levelFor b.graph.nodeCount) = .ok g) t := by
  intro w
  have mine : t.backend = .hnsw b := appended.backend.trans kind
  have size := appended.size
  rw [← nodes]
  refine ends_state (hnswBackend_ends mine (ends_check ?_ (ends_lift ?_ ?_)))
  · exact decide_eq_true ⟨rfl, show b.graph.nodeCount < t.vectors.size by omega⟩
  · intro g run
    refine ends_allocate (fun w' lacked => ⟨rfl, lacked.1.later, .inl ⟨rfl, lacked.2⟩⟩) fun w' spent => ends_set ?_
    exact ⟨spent.later, indexRefusal_none kind nodes run, _, ⟨g, rfl, run⟩, setGraph_eq mine⟩
  · exact fun e refused => ⟨rfl, .refl w, .inr ⟨e, rfl, indexRefusal_some kind nodes refused⟩⟩

end Collection
end VectorForge
