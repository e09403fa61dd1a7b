import VectorForge.Hnsw.Relink

/-! `add` computes the same on graphs that hold the same, and `link` of a node that was reserved
earlier computes what `add` of that node would have computed. -/

namespace VectorForge

/-- `g'` is `g` with node `n` on `level`, which has no links yet. -/
structure Extends (n level : Nat) (g g' : HnswGraph) : Prop where
  m : g'.m = g.m
  entry : g'.entry = g.entry
  count : n + 1 ≤ g'.nodeCount
  old : ∀ c, c < n → g'.level c = g.level c
  links : ∀ c l, c < n → g'.links c l = g.links c l
  new : g'.level n = level
  empty : ∀ l, g'.links n l = []

theorem extends_addNode {g g' : HnswGraph} {level : Nat} (run : g.addNode level = .ok g') :
    Extends g.nodeCount level g g' := by
  obtain ⟨_, _, _, m, _, entry, words⟩ := HnswGraph.addNode_spec run
  refine ⟨m, entry, (HnswGraph.addNode_nodeCount run).ge, ?_, ?_, ?_, ?_⟩
  · intro c old
    rw [HnswGraph.addNode_level run, if_neg old.ne]
  · intro c l old
    simp only [HnswGraph.links, words, if_neg old.ne]
  · rw [HnswGraph.addNode_level run, if_pos rfl]
  · intro l
    simp only [HnswGraph.links, words, if_pos, List.range_zero, List.map_nil]

theorem extends_self {g : HnswGraph} {n : Nat} (count : n + 1 ≤ g.nodeCount) (empty : ∀ l, g.links n l = []) :
    Extends n (g.level n) g g :=
  ⟨rfl, rfl, count, fun _ _ => rfl, fun _ _ _ => rfl, rfl, empty⟩

namespace Mirror
variable {n level : Nat} {g h g' h' : HnswGraph}

theorem extend (mirror : Mirror n g h) (left : Extends n level g g') (right : Extends n level h h') :
    Mirror (n + 1) g' h' where
  m := left.m.trans (mirror.m.trans right.m.symm)
  left := left.count
  right := right.count
  levels := by
    intro c node
    rcases Nat.lt_succ_iff_lt_or_eq.mp node with old | rfl
    · rw [left.old c old, right.old c old, mirror.levels c old]
    · rw [left.new, right.new]
  links := by
    intro c l node high
    rcases Nat.lt_succ_iff_lt_or_eq.mp node with old | rfl
    · rw [left.links c l old, right.links c l old]
      exact mirror.links c l old (high.trans (left.old c old).le)
    · rw [left.empty, right.empty]
  counts := by
    intro c l node high
    have same : g'.capacity l = g.capacity l := by rw [HnswGraph.capacity, HnswGraph.capacity, left.m]
    rcases Nat.lt_succ_iff_lt_or_eq.mp node with old | rfl
    · rw [left.links c l old, same]
      exact mirror.counts c l old (high.trans (left.old c old).le)
    · rw [left.empty]
      exact Nat.zero_le _
  closed := by
    intro c l v node high member
    rcases Nat.lt_succ_iff_lt_or_eq.mp node with old | rfl
    · rw [left.links c l old] at member
      obtain ⟨inside, below⟩ := mirror.closed c l v old (high.trans (left.old c old).le) member
      exact ⟨by omega, below.trans (left.old v inside).ge⟩
    · rw [left.empty] at member
      cases member
  valid := by
    rw [left.entry, right.entry]
    exact mirror.valid
  entry := by
    intro valid
    rw [left.entry] at valid ⊢
    obtain ⟨same, inside, level⟩ := mirror.entry valid
    exact ⟨same.trans right.entry.symm, by omega, level.trans (left.old _ inside).ge⟩

theorem setEntry (mirror : Mirror n g h) {e : HnswGraph.Entry} (inside : e.id < n)
    (level : e.level ≤ g.level e.id) : Mirror n (g.setEntry e) (h.setEntry e) :=
  { mirror with
    valid := rfl
    entry := fun _ => ⟨rfl, inside, level⟩ }

end Mirror

/-- `add_node` looks at nothing but the shape. -/
theorem HnswGraph.addNode_congr {g h : HnswGraph} (shape : SameShape g h) (level : Nat) :
    (∃ e, g.addNode level = .error e ∧ h.addNode level = .error e) ∨
      ∃ g' h', g.addNode level = .ok g' ∧ h.addNode level = .ok h' ∧ SameShape g' h' := by
  have count := shape.nodeCount_eq
  have shift : g.arenaShift = h.arenaShift := by rw [arenaShift, arenaShift, shape.arenaChunkWords]
  have opens : g.opensArenaChunk level = h.opensArenaChunk level := by
    rw [opensArenaChunk, opensArenaChunk, shape.arenaUsed, shape.m, shape.arenaChunkWords]
  by_cases tall : level > h.maxLevel
  · refine .inl ⟨_, ?_, if_pos tall⟩
    rw [addNode, shape.maxLevel, if_pos tall]
  by_cases full : h.nodeCount ≥ kMaxVectorsPerCollection
  · refine .inl ⟨_, ?_, (if_neg tall).trans (if_pos full)⟩
    rw [addNode, shape.maxLevel, if_neg tall, count, if_pos full]
  by_cases spent : h.opensArenaChunk level = true ∧ h.arenaChunks ≥ 2 ^ (32 - h.arenaShift)
  · refine .inl ⟨_, ?_, (if_neg tall).trans ((if_neg full).trans (if_pos spent))⟩
    rw [addNode, shape.maxLevel, if_neg tall, count, if_neg full, opens, shift, shape.arenaChunks,
      if_pos spent]
  · have tall' : ¬level > g.maxLevel := by rwa [shape.maxLevel]
    have full' : ¬g.nodeCount ≥ kMaxVectorsPerCollection := by rwa [count]
    have spent' : ¬(g.opensArenaChunk level = true ∧ g.arenaChunks ≥ 2 ^ (32 - g.arenaShift)) := by
      rwa [opens, shape.arenaChunks, shift]
    refine .inr ⟨_, _, (if_neg tall').trans ((if_neg full').trans (if_neg spent')),
      (if_neg tall).trans ((if_neg full).trans (if_neg spent)), ?_⟩
    have mask : g.chunkMask = h.chunkMask := by rw [chunkMask, chunkMask, shape.nodesPerChunk]
    constructor <;> simp only [shape.m, shape.maxLevel, shape.nodesPerChunk, shape.arenaChunkWords, shape.arenaUsed,
      shape.arenaChunks, shape.l0Chunks, shape.levels, shape.upper, mask, shift, opens, count]

theorem Calm.setEntry {n : Nat} {u u' : SharedGraph} (calm : Calm n u u') (e : HnswGraph.Entry) :
    Calm n u { u' with graph := u'.graph.setEntry e } where
  stripes := calm.stripes
  top := calm.top
  shape := (HnswGraph.setEntry_shape _ e).trans calm.shape
  beyond := calm.beyond

namespace HnswContext
variable {i j id : Nat} {w v : World} {ctx ctx' : HnswContext} {s t : SharedGraph} {α β : Type}

/-- From the writing half on, both insertions do the same. -/
theorem finish_follows {layers : List Layer} {level below : Nat} {f : GraphProg α} {g : GraphProg β}
    {fails : α → SharedGraph × World → Prop} {post : α → SharedGraph × World → β → SharedGraph × World → Prop}
    (writers : Writers id ctx ctx' s t) (mirror : Mirror (id + 1) s.graph t.graph)
    (known : LayersFrom id 0 ctx.params.M.toNat s.graph layers) (high : level ≤ s.graph.level id)
    (rest : ∀ s' t', Mirror (id + 1) s'.graph t'.graph → Calm (id + 1) s s' → Calm (id + 1) t t' →
      Prog.Follows (answerIn i) (answerIn j) f g (s', w) (t', v) fails post) :
    Prog.Follows (answerIn i) (answerIn j)
      (ctx.publish id layers >>= fun _ =>
        if level > below then HnswContext.setEntry { id, level } >>= fun _ => f else f)
      (ctx'.publish id layers >>= fun _ =>
        if level > below then HnswContext.setEntry { id, level } >>= fun _ => g else g)
      (s, w) (t, v) fails post := by
  have start : Publishing (id + 1) s t w v (s, w) (t, v) := ⟨mirror, .refl _ s, .refl _ t, rfl, rfl⟩
  refine Prog.Follows.bind (publish_republishes writers known _ _ start) (fun _ _ none => none.elim) ?_
  rintro _ ⟨s', w'⟩ _ ⟨t', v'⟩ ⟨_, _, still⟩
  obtain ⟨rfl, rfl⟩ := still.worlds
  split
  · refine rest { s' with graph := s'.graph.setEntry { id, level } }
      { t' with graph := t'.graph.setEntry { id, level } } ?_
      (still.left.toCalm.setEntry _) (still.right.toCalm.setEntry _)
    exact still.mirror.setEntry (Nat.lt_succ_self id) (high.trans (still.left.shape.level_eq id).ge)
  · exact rest s' t' still.mirror still.left.toCalm still.right.toCalm

theorem run_addNode_ok {level : Nat} {g : HnswGraph} {next : Result Unit → GraphProg α}
    (run : s.graph.addNode level = .ok g) :
    (addNode level >>= next).run (answerIn i) (s, w) = (next (.ok ())).run (answerIn i)
      ({ s with graph := g }, w) := by
  have step : answerIn i (.addNode level) (s, w) = some (.ok (), { s with graph := g }, w) := by
    simp only [answerIn, SharedGraph.answer, run]
    rfl
  change (answerIn i (.addNode level) (s, w)).bind (fun x => (next x.1).run (answerIn i) x.2) = _
  rw [step]
  rfl

theorem run_addNode_error {level : Nat} {e : Status} {next : Result Unit → GraphProg α}
    (run : s.graph.addNode level = .error e) :
    (addNode level >>= next).run (answerIn i) (s, w) = (next (.error e)).run (answerIn i) (s, w) := by
  have step : answerIn i (.addNode level) (s, w) = some (.error e, s, w) := by
    simp only [answerIn, SharedGraph.answer, run]
    rfl
  change (answerIn i (.addNode level) (s, w)).bind (fun x => (next x.1).run (answerIn i) x.2) = _
  rw [step]
  rfl

theorem run_allocate_ample {next : Bool → GraphProg α} (ample : v.Ample) :
    (allocate >>= next).run (answerIn j) (t, v) = (next true).run (answerIn j) (t, v) := by
  have step : answerIn j .allocate (t, v) = some (true, t, v) := by
    change some (v.memory.headD true, t, { v with memory := v.memory.tail }) = _
    rw [ample.tail, show v.memory = [] from ample]
    rfl
  change (answerIn j .allocate (t, v)).bind (fun x => (next x.1).run (answerIn j) x.2) = _
  rw [step]
  rfl

theorem follows_entry {f : HnswGraph.Entry → GraphProg α} {g : HnswGraph.Entry → GraphProg β}
    {fails : α → SharedGraph × World → Prop} {post : α → SharedGraph × World → β → SharedGraph × World → Prop}
    (rest : Prog.Follows (answerIn i) (answerIn j) (f s.graph.entry) (g t.graph.entry) (s, w) (t, v) fails post) :
    Prog.Follows (answerIn i) (answerIn j) (entry >>= f) (entry >>= g) (s, w) (t, v) fails post := rest

theorem follows_setEntry {e : HnswGraph.Entry} {f : GraphProg α} {g : GraphProg β}
    {fails : α → SharedGraph × World → Prop} {post : α → SharedGraph × World → β → SharedGraph × World → Prop}
    (rest : Prog.Follows (answerIn i) (answerIn j) f g ({ s with graph := s.graph.setEntry e }, w)
      ({ t with graph := t.graph.setEntry e }, v) fails post) :
    Prog.Follows (answerIn i) (answerIn j) (setEntry e >>= fun _ => f) (setEntry e >>= fun _ => g) (s, w)
      (t, v) fails post :=
  rest

section OneSided
variable {p : GraphProg α} {q : GraphProg β} {fails : α → SharedGraph × World → Prop}
  {post : α → SharedGraph × World → β → SharedGraph × World → Prop}

theorem left_level {x : Nat} {f : Nat → GraphProg α}
    (rest : Prog.Follows (answerIn i) (answerIn j) (f (s.graph.level x)) q (s, w) (t, v) fails post) :
    Prog.Follows (answerIn i) (answerIn j) (HnswContext.level x >>= f) q (s, w) (t, v) fails post := rest

theorem left_entry {f : HnswGraph.Entry → GraphProg α}
    (rest : Prog.Follows (answerIn i) (answerIn j) (f s.graph.entry) q (s, w) (t, v) fails post) :
    Prog.Follows (answerIn i) (answerIn j) (entry >>= f) q (s, w) (t, v) fails post := rest

theorem right_entry {g : HnswGraph.Entry → GraphProg β}
    (rest : Prog.Follows (answerIn i) (answerIn j) p (g t.graph.entry) (s, w) (t, v) fails post) :
    Prog.Follows (answerIn i) (answerIn j) p (entry >>= g) (s, w) (t, v) fails post := rest

theorem left_lockTop {f : Unit → GraphProg α} (free : s.top = none)
    (rest : Prog.Follows (answerIn i) (answerIn j) (f ()) q ({ s with top := some i }, w) (t, v) fails post) :
    Prog.Follows (answerIn i) (answerIn j) (lockTop >>= f) q (s, w) (t, v) fails post := by
  have step : answerIn i .lockTop (s, w) = some ((), { s with top := some i }, w) := by
    simp only [answerIn, SharedGraph.answer, if_pos free]
    rfl
  refine Prog.Follows.left ?_ rest
  change (answerIn i .lockTop (s, w)).bind (fun x => (f x.1).run (answerIn i) x.2) = _
  rw [step]
  rfl

end OneSided

/-- The layers found before the node existed are layers for the node. -/
theorem LayersInside.from_ {top level links : Nat} {g g' : HnswGraph} {layers : List Layer}
    (inside : LayersInside id top links g layers) (extends_ : Extends id level g g') (low : top ≤ level) :
    LayersFrom id 0 links g' layers := by
  intro k layer at_
  have below := (List.getElem?_eq_some_iff.mp at_).1
  rw [inside.size] at below
  have here := inside.each k layer at_
  rw [Nat.zero_add, extends_.new]
  refine ⟨⟨?_, here.selected, here.few⟩, by omega⟩
  intro c member
  obtain ⟨node, high⟩ := here.candidates c member
  exact ⟨node, high.trans (extends_.old c.id node).ge⟩

/-- Two graphs at rest that agree on the nodes below `id`, which is about to be inserted. -/
structure Peers (id : Nat) (ctx ctx' : HnswContext) (s t : SharedGraph) : Prop where
  mirror : Mirror id s.graph t.graph
  agrees : ctx.Agrees id ctx'
  sized : s.graph.m = ctx.params.M.toNat
  wide : 1 ≤ ctx.params.efConstruction.toNat
  left : ∀ k, s.stripes k = none
  right : ∀ k, t.stripes k = none

/-- How two calls of `add` end that do not run out of memory: as `add_node` does. -/
inductive AddsAlike (level : Nat) (s t : SharedGraph) : Option (Result Unit) → SharedGraph →
    Option (Result Unit) → SharedGraph → Prop
  | failed {e : Status} (refused : s.graph.addNode level = .error e) :
      AddsAlike level s t (some (.error e)) s (some (.error e)) t
  | added {s' t' : SharedGraph} {g h : HnswGraph} (left : s.graph.addNode level = .ok g)
      (right : t.graph.addNode level = .ok h) (mirror : Mirror (s.graph.nodeCount + 1) s'.graph t'.graph)
      (leftShape : HnswGraph.SameShape s'.graph g) (rightShape : HnswGraph.SameShape t'.graph h) :
      AddsAlike level s t (some (.ok ())) s' (some (.ok ())) t'

theorem add_follows {visited visited' : VisitedSet} (peers : Peers id ctx ctx' s t)
    (shape : HnswGraph.SameShape s.graph t.graph) (count : s.graph.nodeCount = id) (left : Covers id visited)
    (right : Covers id visited') (ample : v.Ample) :
    Prog.Follows (answerIn i) (answerIn j) (ctx.add visited id) (ctx'.add visited' id) (s, w) (t, v)
      (fun a s' => a = none ∧ s'.1 = s ∧ w.Lacked s'.2)
      fun a s' b t' => AddsAlike (ctx.params.levels.levelFor id) s t a s'.1 b t'.1 ∧ w.Spent s'.2 ∧ t'.2 = v := by
  have levels : ctx'.params.levels.levelFor id = ctx.params.levels.levelFor id := by rw [peers.agrees.params]
  have count' : t.graph.nodeCount = id := shape.nodeCount_eq.symm.trans count
  rw [add, add, levels]
  generalize ctx.params.levels.levelFor id = level
  refine follows_entry ?_
  cases valid : s.graph.entry.valid with
  | false =>
    have other : (!t.graph.entry.valid) = true := by rw [← peers.mirror.valid, valid]; rfl
    rw [if_pos other]
    refine follows_allocate ample (fun w' spent => ⟨none, rfl, rfl, rfl, spent⟩) ?_
    intro w' spent
    rcases HnswGraph.addNode_congr shape level with ⟨e, runS, runT⟩ | ⟨g, h, runS, runT, after⟩
    · exact Prog.Follows.of_runs (run_addNode_error runS) (run_addNode_error runT)
        (Prog.Follows.done ⟨.failed runS, spent, rfl⟩)
    · refine Prog.Follows.of_runs (run_addNode_ok runS) (run_addNode_ok runT) ?_
      have grown := peers.mirror.extend (count ▸ extends_addNode runS) (count' ▸ extends_addNode runT)
      have here : level ≤ g.level id := by rw [HnswGraph.addNode_level runS, if_pos count.symm]
      rw [← count] at grown
      exact follows_setEntry (Prog.Follows.done
        ⟨.added runS runT (grown.setEntry (show id < s.graph.nodeCount + 1 by omega) here)
        (HnswGraph.setEntry_shape _ _) (HnswGraph.setEntry_shape _ _), spent, rfl⟩)
  | true =>
    obtain ⟨same, node, high⟩ := peers.mirror.entry valid
    have other : ¬(!t.graph.entry.valid) = true := by rw [← peers.mirror.valid, valid]; decide
    rw [if_neg other, ← same]
    refine follows_allocate ample (fun w' spent => ⟨none, rfl, rfl, rfl, spent⟩) ?_
    intro w₁ spent₁
    refine Prog.Follows.bind (findNeighbors_rereads peers.mirror peers.agrees ample
      (Nat.le_refl id) peers.wide left right
      ⟨node, high⟩ (Nat.min_le_right _ _)) ?_ ?_
    · rintro _ ⟨s', w'⟩ ⟨rfl, rfl, spent⟩
      exact Prog.Reaches.done ⟨rfl, rfl, spent₁.lacked spent⟩
    · rintro _ ⟨s', w'⟩ _ _ ⟨⟨layers, rfl, rfl, found⟩, rfl, spent₂, rfl⟩
      refine follows_allocate ample (fun w'' lacked =>
        ⟨none, rfl, rfl, rfl, (spent₁.trans spent₂).lacked lacked⟩) ?_
      intro w₃ spent₃
      have spent := (spent₁.trans spent₂).trans spent₃
      rcases HnswGraph.addNode_congr shape level with ⟨e, runS, runT⟩ | ⟨g, h, runS, runT, after⟩
      · exact Prog.Follows.of_runs (run_addNode_error runS) (run_addNode_error runT)
          (Prog.Follows.done ⟨.failed runS, spent, rfl⟩)
      · refine Prog.Follows.of_runs (run_addNode_ok runS) (run_addNode_ok runT) ?_
        have grown : Extends id level s'.graph g := count ▸ extends_addNode runS
        have writers : Writers id ctx ctx' { s' with graph := g } { t with graph := h } :=
          ⟨peers.agrees, grown.m.trans peers.sized, peers.left, peers.right⟩
        refine finish_follows writers (peers.mirror.extend grown (count' ▸ extends_addNode runT))
          (found.from_ grown (Nat.min_le_left _ _)) grown.new.ge ?_
        intro s'' t'' mirror calm calm'
        rw [← count] at mirror
        exact Prog.Follows.done ⟨.added runS runT mirror calm.shape calm'.shape, spent, rfl⟩

/-- Linking a reserved node gives what `add` gives on a graph that ends before it. -/
theorem link_follows {visited visited' : VisitedSet} {h : HnswGraph} (peers : Peers id ctx ctx' s t)
    (free : s.top = none)
    (level : s.graph.level id = ctx.params.levels.levelFor id) (empty : ∀ l, s.graph.links id l = [])
    (node : id + 1 ≤ s.graph.nodeCount) (count : t.graph.nodeCount = id)
    (grows : t.graph.addNode (ctx.params.levels.levelFor id) = .ok h) (left : Covers id visited)
    (right : Covers id visited') (ample : v.Ample) :
    Prog.Follows (answerIn i) (answerIn j) (ctx.link visited id) (ctx'.add visited' id) (s, w) (t, v)
      (fun a s' => a = false ∧ w.Lacked s'.2)
      fun a s' b t' => a = true ∧ b = some (.ok ()) ∧ Mirror (id + 1) s'.1.graph t'.1.graph ∧ Calm (id + 1) s s'.1 ∧
        HnswGraph.SameShape t'.1.graph h ∧ w.Spent s'.2 ∧ t'.2 = v := by
  have levels : ctx'.params.levels.levelFor id = ctx.params.levels.levelFor id := by rw [peers.agrees.params]
  have here := extends_self node empty
  have there : Extends id (ctx.params.levels.levelFor id) t.graph h := by
    have grown := extends_addNode grows
    rwa [count] at grown
  rw [level] at here
  have mirror := peers.mirror.extend here there
  rw [link]
  refine left_level (left_entry ?_)
  rw [level]
  cases valid : s.graph.entry.valid with
  | false =>
    have other : (!t.graph.entry.valid) = true := by rw [← peers.mirror.valid, valid]; rfl
    rw [if_pos (.inl rfl)]
    refine left_lockTop free (left_entry ?_)
    have empty : ({ s with top := some i } : SharedGraph).graph.entry.valid = false := valid
    rw [if_pos (by rw [empty]; rfl), add]
    refine right_entry ?_
    rw [if_pos other]
    refine Prog.Follows.right (run_allocate_ample ample) (Prog.Follows.right (run_addNode_ok (levels ▸ grows)) ?_)
    rw [levels]
    refine ⟨true, ({ s with graph := s.graph.setEntry { id, level := ctx.params.levels.levelFor id }, top := none },
      w), rfl, .inr ?_⟩
    refine ⟨some (.ok ()), ({ t with graph := h.setEntry { id, level := ctx.params.levels.levelFor id } }, v), rfl,
      rfl, rfl,
      mirror.setEntry (Nat.lt_succ_self id) level.ge, ?_, ?_, .refl w, rfl⟩
    · exact ⟨rfl, free.symm, HnswGraph.setEntry_shape _ _, fun _ _ _ => rfl⟩
    · exact HnswGraph.setEntry_shape _ _
  | true =>
    obtain ⟨same, inside, high⟩ := peers.mirror.entry valid
    have other : ¬(!t.graph.entry.valid) = true := by rw [← peers.mirror.valid, valid]; decide
    -- the search and what it leads to are the same with and without the top lock
    have core (u : SharedGraph) (graph : u.graph = s.graph) (stripes : u.stripes = s.stripes) :
        Prog.Follows (answerIn i) (answerIn j)
        (ctx.insertBelow visited id (ctx.params.levels.levelFor id) s.graph.entry)
          (ctx'.add visited' id) (u, w) (t, v) (fun a s' => a = false ∧ s'.1 = u ∧ w.Lacked s'.2)
          fun a s' b t' => a = true ∧ b = some (.ok ()) ∧ Mirror (id + 1) s'.1.graph t'.1.graph ∧
          Calm (id + 1) u s'.1 ∧
            HnswGraph.SameShape t'.1.graph h ∧ w.Spent s'.2 ∧ t'.2 = v := by
      have mirrorU : Mirror id u.graph t.graph := graph ▸ peers.mirror
      rw [insertBelow, add, levels]
      refine right_entry ?_
      rw [if_neg other, ← same]
      refine Prog.Follows.right (run_allocate_ample ample) ?_
      refine Prog.Follows.bind (findNeighbors_rereads mirrorU peers.agrees ample
        (Nat.le_refl id) peers.wide left right
        ⟨inside, graph ▸ high⟩ (Nat.min_le_right _ _)) ?_ ?_
      · rintro _ ⟨s', w'⟩ ⟨rfl, rfl, spent⟩
        exact Prog.Reaches.done ⟨rfl, rfl, spent⟩
      · rintro _ ⟨s', w'⟩ _ _ ⟨⟨layers, rfl, rfl, found⟩, rfl, spent, rfl⟩
        refine Prog.Follows.right (run_allocate_ample ample) (Prog.Follows.right (run_addNode_ok grows) ?_)
        have hereU : Extends id (ctx.params.levels.levelFor id) s'.graph s'.graph := graph ▸ here
        have writers : Writers id ctx ctx' s' { t with graph := h } :=
          ⟨peers.agrees, graph ▸ peers.sized, stripes ▸ peers.left, peers.right⟩
        refine finish_follows writers (mirrorU.extend hereU there)
          (found.from_ hereU (Nat.min_le_left _ _)) hereU.new.ge ?_
        intro s'' t'' after calm calm'
        exact Prog.Follows.done ⟨rfl, rfl, after, calm, calm'.shape, spent, rfl⟩
    by_cases raises : ctx.params.levels.levelFor id > s.graph.entry.level
    · rw [if_pos (.inr raises)]
      refine left_lockTop free (left_entry ?_)
      have filled : ({ s with top := some i } : SharedGraph).graph.entry.valid = true := valid
      rw [if_neg (by rw [filled]; decide)]
      refine Prog.Follows.bind_left (core { s with top := some i } rfl rfl) ?_ ?_
      · rintro _ ⟨s', w'⟩ ⟨rfl, rfl, spent⟩
        exact ⟨false, ({ s with top := none }, w'), rfl, rfl, spent⟩
      · rintro _ ⟨s', w'⟩ _ ⟨t', v'⟩ ⟨rfl, rfl, after, calm, shape, spent, rfl⟩
        refine ⟨true, ({ s' with top := none }, w'), rfl, rfl, rfl, after, ?_, shape, spent, rfl⟩
        exact ⟨calm.stripes, free.symm, calm.shape, calm.beyond⟩
    · rw [if_neg (by rw [not_or]; exact ⟨by decide, raises⟩)]
      exact (core s rfl rfl).mono (fun _ _ ⟨failed, _, spent⟩ => ⟨failed, spent⟩) fun _ _ _ _ holds => holds

end HnswContext
end VectorForge
