import VectorForge.Hnsw.Replay
import VectorForge.Hnsw.LinkSafety

/-! The writing half of an insertion that runs alone: what each step makes of the lists depends on
nothing but the lists, so graphs that agree still agree afterwards. -/

namespace VectorForge

/-- `b` is `a` with a new list of node `c` on level `l`. -/
structure Relinked (c l : Nat) (list : List Nat) (a b : HnswGraph) : Prop where
  shape : HnswGraph.SameShape b a
  entry : b.entry = a.entry
  here : b.links c l = list
  other : ∀ x k, ¬(x = c ∧ k = l) → b.links x k = a.links x k

theorem relinked_storeList (g : HnswGraph) (c l : Nat) (ids : List Nat) :
    Relinked c l ids g (g.storeList c l ids) where
  shape := HnswGraph.storeList_shape g c l ids
  entry := HnswGraph.storeList_entry ids
  here := HnswGraph.links_storeList ids
  other := fun _ _ => HnswGraph.links_storeList_of_ne ids

/-- An appended id: the slot behind the last one first, then the count. -/
theorem relinked_append (g : HnswGraph) (c l v : Nat) : Relinked c l (g.links c l ++ [v]) g
    ((g.storeWord c l (1 + g.words c l 0) v).storeWord c l 0 (g.words c l 0 + 1)) where
  shape := HnswGraph.storeWord_shape.trans HnswGraph.storeWord_shape
  entry := rfl
  here := by
    have count : ((g.storeWord c l (1 + g.words c l 0) v).storeWord c l 0 (g.words c l 0 + 1)).words c l 0 =
        g.words c l 0 + 1 := if_pos ⟨rfl, rfl, rfl⟩
    have slot (k : Nat) : ((g.storeWord c l (1 + g.words c l 0) v).storeWord c l 0
        (g.words c l 0 + 1)).words c l (1 + k) =
        if k = g.words c l 0 then v else g.words c l (1 + k) := by
      simp only [HnswGraph.storeWord, true_and]
      rw [if_neg (by omega)]
      exact if_congr (by omega) rfl rfl
    rw [HnswGraph.links, HnswGraph.links, count, List.range_succ, List.map_append,
      List.map_singleton, slot, if_pos rfl]
    congr 1
    refine List.map_congr_left ?_
    intro k member
    rw [slot, if_neg (List.mem_range.mp member).ne]
  other := by
    intro x k away
    have same (word : Nat) : ((g.storeWord c l (1 + g.words c l 0) v).storeWord c l 0
        (g.words c l 0 + 1)).words x k word =
        g.words x k word := by
      simp only [HnswGraph.storeWord]
      rw [if_neg (by tauto), if_neg (by tauto)]
    simp only [HnswGraph.links, same]

/-- Both graphs get the same new list. -/
theorem Mirror.relink {n c l : Nat} {list : List Nat} {g h g' h' : HnswGraph} (mirror : Mirror n g h)
    (left : Relinked c l list g g') (right : Relinked c l list h h') (few : list.length ≤ g.capacity l)
    (inside : ∀ v ∈ list, v < n ∧ l ≤ g.level v) : Mirror n g' h' where
  m := left.shape.m.trans (mirror.m.trans right.shape.m.symm)
  left := mirror.left.trans left.shape.nodeCount_eq.ge
  right := mirror.right.trans right.shape.nodeCount_eq.ge
  levels := by
    intro x node
    rw [left.shape.level_eq, right.shape.level_eq, mirror.levels x node]
  links := by
    intro x k node high
    rw [left.shape.level_eq] at high
    by_cases same : x = c ∧ k = l
    · rw [same.1, same.2, left.here, right.here]
    · rw [left.other x k same, right.other x k same, mirror.links x k node high]
  counts := by
    intro x k node high
    rw [left.shape.level_eq] at high
    rw [left.shape.capacity_eq]
    by_cases same : x = c ∧ k = l
    · rw [same.1, same.2, left.here]
      exact few
    · rw [left.other x k same]
      exact mirror.counts x k node high
  closed := by
    intro x k v node high member
    rw [left.shape.level_eq] at high ⊢
    by_cases same : x = c ∧ k = l
    · rw [same.1, same.2, left.here] at member
      rw [same.2]
      exact inside v member
    · rw [left.other x k same] at member
      exact mirror.closed x k v node high member
  valid := by
    rw [left.entry, right.entry]
    exact mirror.valid
  entry := by
    intro valid
    rw [left.entry, right.entry, left.shape.level_eq]
    exact mirror.entry (left.entry ▸ valid)

/-- The locks are as they were, and so are the nodes and the lists from `n` on. -/
structure Calm (n : Nat) (s s' : SharedGraph) : Prop where
  stripes : s'.stripes = s.stripes
  top : s'.top = s.top
  shape : HnswGraph.SameShape s'.graph s.graph
  beyond : ∀ c l, n ≤ c → s'.graph.links c l = s.graph.links c l

/-- The entry point is still the same as well. -/
structure Steady (n : Nat) (s s' : SharedGraph) : Prop extends Calm n s s' where
  entry : s'.graph.entry = s.graph.entry

theorem Steady.refl (n : Nat) (s : SharedGraph) : Steady n s s := ⟨⟨rfl, rfl, .refl _, fun _ _ _ => rfl⟩, rfl⟩

theorem Steady.trans {n : Nat} {s s₁ s₂ : SharedGraph} (first : Steady n s s₁)
    (second : Steady n s₁ s₂) : Steady n s s₂ where
  stripes := second.stripes.trans first.stripes
  top := second.top.trans first.top
  shape := second.shape.trans first.shape
  entry := second.entry.trans first.entry
  beyond := fun c l above => (second.beyond c l above).trans (first.beyond c l above)

namespace HnswContext
variable {n : Nat} {i j : Nat} {w v : World} {ctx ctx' : HnswContext}

section Lists
variable {s : SharedGraph} {c l : Nat}

/-- A program of node `i` that runs alone and only rewrites the list of `c` on level `l`. -/
def Sets {α : Type} (i : Nat) (s : SharedGraph) (w : World) (c l : Nat) (p : GraphProg α) (result : α)
    (list : List Nat) : Prop :=
  p.Reaches (answerIn i) (s, w) fun a s' => a = result ∧ s'.2 = w ∧ s'.1.stripes = s.stripes ∧ s'.1.top = s.top ∧
    Relinked c l list s.graph s'.1.graph

theorem Sets.steady {α : Type} {p : GraphProg α} {result : α} {list : List Nat}
    (sets : Sets i s w c l p result list)
    (below : c < n) : p.Reaches (answerIn i) (s, w) fun a s' => a = result ∧ s'.2 = w ∧ Steady n s s'.1 ∧
      Relinked c l list s.graph s'.1.graph := by
  refine sets.mono ?_
  rintro a s' ⟨same, world, stripes, top, relinked⟩
  exact ⟨same, world, ⟨⟨stripes, top, relinked.shape, fun x k above => relinked.other x k (by omega)⟩,
    relinked.entry⟩, relinked⟩

theorem storeSlots_reaches : ∀ (ids : List Nat) (word : Nat) (s : SharedGraph),
    (storeSlots c l word ids).Reaches (answerIn i)
    (s, w) fun _ s' => s'.2 = w ∧ s'.1.stripes = s.stripes ∧ s'.1.top = s.top ∧
      s'.1.graph = HnswGraph.storeIds c l word ids s.graph
  | [], _, _ => Prog.Reaches.done ⟨rfl, rfl, rfl, rfl⟩
  | value :: rest, word, s => storeSlots_reaches rest (word + 1) (s.storeWord c l word value)

theorem setLinks_sets {ids : List Nat} (few : ids.length ≤ ctx.capacity l) :
    Sets i s w c l (ctx.setLinks c l ids) () ids := by
  rw [Sets, setLinks, if_neg (by omega)]
  refine Prog.Reaches.bind (storeSlots_reaches ids 1 s) ?_
  rintro _ ⟨s', w'⟩ ⟨rfl, stripes, top, graph⟩
  refine ⟨(), (s'.storeWord c l 0 ids.length, w'), rfl, rfl, rfl, stripes, top, ?_⟩
  change Relinked c l ids s.graph (s'.graph.storeWord c l 0 ids.length)
  rw [graph]
  exact relinked_storeList s.graph c l ids

theorem tryAppendLink_sets (v : Nat) (room : (s.graph.links c l).length < ctx.capacity l) :
    Sets i s w c l (ctx.tryAppendLink c l v) true (s.graph.links c l ++ [v]) := by
  rw [HnswGraph.length_links] at room
  refine ⟨true, ((s.storeWord c l (1 + s.graph.words c l 0) v).storeWord c l 0 (s.graph.words c l 0 + 1), w), ?_,
    rfl, rfl, rfl,
    rfl, relinked_append s.graph c l v⟩
  change (if s.graph.words c l 0 ≥ ctx.capacity l then _ else _ : GraphProg Bool).run (answerIn i) (s, w) = _
  rw [if_neg (by omega)]
  rfl

theorem tryAppendLink_full (v : Nat) (full : ctx.capacity l ≤ (s.graph.links c l).length) :
    (ctx.tryAppendLink c l v).run (answerIn i) (s, w) = some (false, s, w) := by
  rw [HnswGraph.length_links] at full
  change (if s.graph.words c l 0 ≥ ctx.capacity l then _ else _ : GraphProg Bool).run (answerIn i) (s, w) = _
  rw [if_pos full]
  rfl

theorem readNeighbors_run : ∀ (left k : Nat) (candidates : List ScoredId),
    (ctx.readNeighbors c l left k candidates).run (answerIn i) (s, w) =
      some (candidates ++ (List.range' k left).map fun k => ctx.scored c (s.graph.words c l (1 + k)), s, w)
  | 0, _, candidates => by
    rw [List.range'_zero, List.map_nil, List.append_nil]
    rfl
  | left + 1, k, candidates => by
    rw [List.range'_succ, List.map_cons]
    change (ctx.readNeighbors c l left (k + 1) _).run (answerIn i) (s, w) = _
    rw [readNeighbors_run left (k + 1), List.append_assoc]
    rfl

/-- What `shrink_with` keeps of a list and a new neighbour. -/
def shrunk (ctx : HnswContext) (c l : Nat) (list : List Nat) (new : ScoredId) : List ScoredId :=
  NeighborSelect.selectNeighbors (insertionSort (list.map (ctx.scored c) ++ [new]))
    (ctx.capacity l) ctx.options.selection
    ctx.options.keepPruned ctx.distance

theorem shrinkWith_sets (new : ScoredId) : Sets i s w c l (ctx.shrinkWith c l new.id new.distance)
    ((ctx.shrunk c l (s.graph.links c l) new).any fun x => decide (x.id = new.id))
    ((ctx.shrunk c l (s.graph.links c l) new).map (·.id)) := by
  have size : (load c l 0).Reaches (answerIn i) (s, w) fun count s' => count = s.graph.words c l 0 ∧ s' = (s, w) :=
    ⟨_, _, rfl, rfl, rfl⟩
  have read : (ctx.readNeighbors c l (s.graph.words c l 0) 0 []).Reaches (answerIn i) (s, w) fun candidates s' =>
      candidates = (s.graph.links c l).map (ctx.scored c) ∧ s' = (s, w) := by
    refine ⟨_, _, readNeighbors_run _ _ _, ?_, rfl⟩
    rw [List.nil_append, ← List.range_eq_range', HnswGraph.links, List.map_map]
    rfl
  refine Prog.Reaches.bind size ?_
  rintro _ _ ⟨rfl, rfl⟩
  refine Prog.Reaches.bind read ?_
  rintro _ _ ⟨rfl, rfl⟩
  refine Prog.Reaches.bind (setLinks_sets ?_) ?_
  · rw [List.length_map]
    exact NeighborSelect.length_selectNeighbors ..
  · rintro _ s' ⟨_, world, stripes, top, relinked⟩
    exact Prog.Reaches.done ⟨rfl, world, stripes, top, relinked⟩

/-- A list after a back-link, and whether the new neighbour is on it. -/
def backLinked (ctx : HnswContext) (c l : Nat) (list : List Nat) (new : ScoredId) : List Nat × Bool :=
  if list.length < ctx.capacity l then (list ++ [new.id], true)
  else ((ctx.shrunk c l list new).map (·.id), (ctx.shrunk c l list new).any fun x => decide (x.id = new.id))

/-- The new node as its neighbour sees it. -/
def seen (id : Nat) (neighbor : ScoredId) : ScoredId := { distance := neighbor.distance, id }

/-- `s` while node `i` holds the stripe of `c`. -/
def holding (s : SharedGraph) (i c : Nat) : SharedGraph :=
  { s with stripes := Function.update s.stripes (stripeOf c) (some i) }

theorem lockStripe_reaches (free : s.stripes (stripeOf c) = none) :
    (lockStripe c).Reaches (answerIn i) (s, w) fun _ s' => s' = (holding s i c, w) := by
  refine ⟨(), (holding s i c, w), ?_, rfl⟩
  change (answerIn i (.lock (stripeOf c)) (s, w)).bind _ = _
  simp only [answerIn, SharedGraph.answer, if_pos free]
  rfl

/-- After the lock is given back the locks are as before it was taken. -/
theorem unlockStripe_reaches {α : Type} {a : α} {s' : SharedGraph} {list : List Nat}
    (free : s.stripes (stripeOf c) = none) (stripes : s'.stripes = (holding s i c).stripes) (top : s'.top = s.top)
    (relinked : Relinked c l list s.graph s'.graph) :
    Prog.Reaches (answerIn i) (unlockStripe c >>= fun _ => .done a) (s', w) fun b s'' => b = a ∧ s''.2 = w ∧
      s''.1.stripes = s.stripes ∧ s''.1.top = s.top ∧ Relinked c l list s.graph s''.1.graph := by
  refine ⟨a, ({ s' with stripes := Function.update s'.stripes (stripeOf c) none }, w), rfl, rfl,
    rfl, ?_, top, relinked⟩
  simp only [stripes, holding, Function.update_idem]
  rw [← free, Function.update_eq_self]

theorem backLink_sets (id : Nat) (neighbor : ScoredId) (free : s.stripes (stripeOf neighbor.id) = none) :
    Sets i s w neighbor.id l (ctx.backLink id l neighbor)
      (ctx.backLinked neighbor.id l (s.graph.links neighbor.id l) (seen id neighbor)).2
      (ctx.backLinked neighbor.id l (s.graph.links neighbor.id l) (seen id neighbor)).1 := by
  refine Prog.Reaches.bind (lockStripe_reaches free) ?_
  rintro _ _ rfl
  rw [backLinked]
  split
  next room =>
    have appended : Sets i (holding s i neighbor.id) w neighbor.id l _ true _ := tryAppendLink_sets id room
    refine Prog.Reaches.bind appended ?_
    rintro _ ⟨s', w'⟩ ⟨rfl, rfl, stripes, top, relinked⟩
    exact unlockStripe_reaches free stripes top relinked
  next full =>
    have failed : (ctx.tryAppendLink neighbor.id l id).Reaches (answerIn i)
        (holding s i neighbor.id, w) fun appended s' =>
        appended = false ∧ s' = (holding s i neighbor.id, w) :=
      ⟨_, _, tryAppendLink_full id (Nat.le_of_not_lt full), rfl, rfl⟩
    refine Prog.Reaches.bind failed ?_
    rintro _ _ ⟨rfl, rfl⟩
    refine Prog.Reaches.bind (shrinkWith_sets (seen id neighbor)) ?_
    rintro _ ⟨s', w'⟩ ⟨rfl, rfl, stripes, top, relinked⟩
    exact unlockStripe_reaches free stripes top relinked

/-- One candidate of `repair_orphan`, under its lock: an append or nothing, and what follows. -/
theorem repairStep_run {α : Type} (ctx : HnswContext) (c l : Nat) (next : Bool → GraphProg α) (id : Nat)
    (free : s.stripes (stripeOf c) = none) : ∃ s' : SharedGraph, s'.stripes = s.stripes ∧ s'.top = s.top ∧
      Relinked c l
        (if (s.graph.links c l).length < ctx.capacity l then s.graph.links c l ++ [id] else s.graph.links c l)
        s.graph s'.graph ∧
      (lockStripe c >>= fun _ => ctx.tryAppendLink c l id >>= fun appended => unlockStripe c >>=
        fun _ => next appended).run
        (answerIn i) (s, w) = (next (decide ((s.graph.links c l).length < ctx.capacity l))).run
          (answerIn i) (s', w) := by
  have tried : ∃ s₁ : SharedGraph, s₁.stripes = (holding s i c).stripes ∧ s₁.top = s.top ∧
      Relinked c l
        (if (s.graph.links c l).length < ctx.capacity l then s.graph.links c l ++ [id] else s.graph.links c l)
        s.graph s₁.graph ∧
      (ctx.tryAppendLink c l id).run (answerIn i) (holding s i c, w) =
          some (decide ((s.graph.links c l).length < ctx.capacity l), s₁, w) := by
    by_cases room : (s.graph.links c l).length < ctx.capacity l
    · have appended : Sets i (holding s i c) w c l (ctx.tryAppendLink c l id) true _ := tryAppendLink_sets id room
      obtain ⟨_, ⟨s₁, _⟩, run, rfl, rfl, stripes, top, relinked⟩ := appended
      rw [if_pos room, decide_eq_true room]
      exact ⟨s₁, stripes, top, relinked, run⟩
    · rw [if_neg room, decide_eq_false room]
      exact ⟨holding s i c, rfl, rfl, ⟨.refl _, rfl, rfl, fun _ _ _ => rfl⟩,
        tryAppendLink_full id (Nat.le_of_not_lt room)⟩
  obtain ⟨s₁, stripes, top, relinked, run⟩ := tried
  refine ⟨{ s₁ with stripes := Function.update s₁.stripes (stripeOf c) none }, ?_, top, relinked, ?_⟩
  · simp only [stripes, holding, Function.update_idem]
    rw [← free, Function.update_eq_self]
  · obtain ⟨_, _, locked, rfl⟩ := lockStripe_reaches (i := i) (w := w) free
    simp only [Prog.run_bind, locked, run, Option.bind_some]
    rfl

end Lists

section Publish
variable {s t : SharedGraph} {query : Nat}

/-- Between two steps of both insertions. -/
structure Publishing (n : Nat) (s t : SharedGraph) (w v : World) (s' t' : SharedGraph × World) : Prop where
  mirror : Mirror n s'.1.graph t'.1.graph
  left : Steady n s s'.1
  right : Steady n t t'.1
  worlds : s'.2 = w ∧ t'.2 = v

/-- The programs come to the same result from any two such states. -/
def Republishes {α : Type} (n : Nat) (i j : Nat) (s t : SharedGraph) (w v : World) (p q : GraphProg α)
    (good : α → Prop) : Prop :=
  ∀ s' t', Publishing n s t w v s' t' → Prog.Follows (answerIn i) (answerIn j) p q s' t' (fun _ _ => False)
    fun a s'' b t'' => a = b ∧ good a ∧ Publishing n s t w v s'' t''

/-- Sequencing. -/
theorem Republishes.bind {α β : Type} {p q : GraphProg α} {f g : α → GraphProg β}
    {good : α → Prop} {fine : β → Prop}
    (first : Republishes n i j s t w v p q good) (rest : ∀ a, good a → Republishes n i j s t w v (f a) (g a) fine) :
    Republishes n i j s t w v (p >>= f) (q >>= g) fine := by
  intro s' t' publishing
  refine Prog.Follows.bind (first s' t' publishing) (fun _ _ none => none.elim) ?_
  rintro a s'' _ t'' ⟨rfl, holds, still⟩
  exact rest a holds s'' t'' still

theorem Republishes.done {α : Type} {a : α} {good : α → Prop} (holds : good a) :
    Republishes n i j s t w v (.done a) (.done a) good :=
  fun _ _ publishing => Prog.Follows.done ⟨rfl, holds, publishing⟩

/-- Both rewrite one list in the same way. -/
theorem Republishes.sets {α : Type} {p q : GraphProg α} {c l : Nat} {s' t' : SharedGraph × World} {result : α}
    {list : List Nat} (publishing : Publishing n s t w v s' t') (below : c < n)
    (left : Sets i s'.1 s'.2 c l p result list) (right : Sets j t'.1 t'.2 c l q result list)
    (few : list.length ≤ s'.1.graph.capacity l) (inside : ∀ x ∈ list, x < n ∧ l ≤ s'.1.graph.level x) :
    Prog.Follows (answerIn i) (answerIn j) p q s' t' (fun _ _ => False)
      fun a s'' b t'' => a = b ∧ a = result ∧ Publishing n s t w v s'' t'' := by
  refine (left.steady below).mono ?_
  rintro _ s'' ⟨rfl, world, steady, relinked⟩
  refine .inr ((right.steady below).mono ?_)
  rintro _ t'' ⟨rfl, world', steady', relinked'⟩
  exact ⟨rfl, rfl, publishing.mirror.relink relinked relinked' few inside, publishing.left.trans steady,
    publishing.right.trans steady', world.trans publishing.worlds.1, world'.trans publishing.worlds.2⟩

variable {id : Nat}

/-- What the writing half needs to know of two insertions of node `id`. -/
structure Writers (id : Nat) (ctx ctx' : HnswContext) (s t : SharedGraph) : Prop where
  agrees : ctx.Agrees id ctx'
  sized : s.graph.m = ctx.params.M.toNat
  left : ∀ k, s.stripes k = none
  right : ∀ k, t.stripes k = none

theorem Writers.rooms (writers : Writers id ctx ctx' s t) (l : Nat) :
    ctx.capacity l = s.graph.capacity l ∧ ctx'.capacity l = s.graph.capacity l := by
  rw [capacity, capacity, HnswGraph.capacity, ← writers.agrees.params, writers.sized]
  exact ⟨rfl, rfl⟩

theorem scored_congr (agrees : ctx.Agrees id ctx') {c x : Nat} (owner : c < id + 1) (node : x < id + 1) :
    ctx.scored c x = ctx'.scored c x := by
  rw [scored, scored, agrees.distance c x (by omega) (by omega)]

theorem mem_shrunk {c l x : Nat} {list : List Nat} {new : ScoredId}
    (member : x ∈ (ctx.shrunk c l list new).map (·.id)) : x ∈ list ∨ x = new.id := by
  obtain ⟨y, chosen, rfl⟩ := List.mem_map.mp member
  have offered := (insertionSort_perm _).mem_iff.mp ((NeighborSelect.selectNeighbors_subperm ..).subset chosen)
  rcases List.mem_append.mp offered with old | last
  · obtain ⟨z, inList, rfl⟩ := List.mem_map.mp old
    exact .inl inList
  · rw [List.mem_singleton.mp last]
    exact .inr rfl

theorem shrunk_congr (agrees : ctx.Agrees id ctx') {c l : Nat} {list : List Nat} {new : ScoredId}
    (owner : c < id + 1) (nodes : ∀ x ∈ list, x < id + 1) (here : new.id < id + 1) :
    ctx.shrunk c l list new = ctx'.shrunk c l list new := by
  have read : list.map (ctx.scored c) = list.map (ctx'.scored c) :=
    List.map_congr_left fun x member => scored_congr agrees owner (nodes x member)
  have inside (x : ScoredId) (member : x ∈ insertionSort (list.map (ctx.scored c) ++ [new])) : x.id < id + 1 := by
    rcases List.mem_append.mp ((insertionSort_perm _).mem_iff.mp member) with old | last
    · obtain ⟨z, inList, rfl⟩ := List.mem_map.mp old
      exact nodes z inList
    · rw [List.mem_singleton.mp last]
      exact here
  have room : ctx'.capacity l = ctx.capacity l := by rw [capacity, capacity, agrees.params]
  rw [shrunk, shrunk, ← read, room, ← agrees.options]
  refine NeighborSelect.selectNeighbors_congr ?_
  intro a left b right
  exact agrees.distance a.id b.id (by have := inside a left; omega) (by have := inside b right; omega)

theorem backLinked_congr (writers : Writers id ctx ctx' s t) {c l : Nat} {list : List Nat} {new : ScoredId}
    (owner : c < id + 1) (nodes : ∀ x ∈ list, x < id + 1) (here : new.id < id + 1) :
    ctx.backLinked c l list new = ctx'.backLinked c l list new := by
  obtain ⟨room, room'⟩ := writers.rooms l
  rw [backLinked, backLinked, shrunk_congr writers.agrees owner nodes here, room, room']

theorem mem_backLinked {c l x : Nat} {list : List Nat} {new : ScoredId}
    (member : x ∈ (ctx.backLinked c l list new).1) : x ∈ list ∨ x = new.id := by
  rw [backLinked] at member
  split at member
  · simpa using member
  · exact mem_shrunk member

theorem length_backLinked {c l : Nat} {list : List Nat} {new : ScoredId} :
    (ctx.backLinked c l list new).1.length ≤ ctx.capacity l := by
  rw [backLinked]
  split
  · simp only [List.length_append, List.length_singleton]
    omega
  · simp only [List.length_map]
    exact NeighborSelect.length_selectNeighbors ..

/-- The lists that a step finds, in terms of the state it started from. -/
theorem Publishing.lists {s' t' : SharedGraph × World} (publishing : Publishing n s t w v s' t')
    {c l : Nat} (node : c < n) (high : l ≤ s.graph.level c) : s'.1.graph.links c l = t'.1.graph.links c l ∧
      ∀ x ∈ s'.1.graph.links c l, x < n ∧ l ≤ s'.1.graph.level x := by
  have level := publishing.left.shape.level_eq c
  exact ⟨publishing.mirror.links c l node (by omega), fun x => publishing.mirror.closed c l x node (by omega)⟩

theorem backLink_republishes (writers : Writers id ctx ctx' s t) {l : Nat} {neighbor : ScoredId}
    (node : neighbor.id < id ∧ l ≤ s.graph.level neighbor.id) (high : l ≤ s.graph.level id) :
    Republishes (id + 1) i j s t w v (ctx.backLink id l neighbor) (ctx'.backLink id l neighbor) fun _ => True := by
  intro s' t' publishing
  have owner : neighbor.id < id + 1 := by omega
  obtain ⟨same, closed⟩ := publishing.lists owner node.2
  have equal : ctx.backLinked neighbor.id l (s'.1.graph.links neighbor.id l) (seen id neighbor) =
      ctx'.backLinked neighbor.id l (t'.1.graph.links neighbor.id l) (seen id neighbor) := by
    rw [← same]
    exact backLinked_congr writers owner (fun x member => (closed x member).1) (Nat.lt_succ_self id)
  have left : Sets i s'.1 s'.2 neighbor.id l (ctx.backLink id l neighbor) _ _ :=
    backLink_sets id neighbor (by rw [publishing.left.stripes]; exact writers.left _)
  have right : Sets j t'.1 t'.2 neighbor.id l (ctx'.backLink id l neighbor) _ _ :=
    backLink_sets id neighbor (by rw [publishing.right.stripes]; exact writers.right _)
  rw [← equal] at right
  refine (Republishes.sets publishing owner left right ?_ ?_).mono (fun _ _ none => none) ?_
  · rw [publishing.left.shape.capacity_eq, ← (writers.rooms l).1]
    exact length_backLinked
  · intro x member
    rcases mem_backLinked member with old | new
    · exact closed x old
    · rw [show x = id from new]
      exact ⟨Nat.lt_succ_self id, high.trans (publishing.left.shape.level_eq id).ge⟩
  · exact fun _ _ _ _ ⟨same, _, still⟩ => ⟨same, trivial, still⟩

theorem backLinks_republishes (writers : Writers id ctx ctx' s t) {l : Nat} (high : l ≤ s.graph.level id) :
    ∀ (neighbors : List ScoredId) (inLinks : Nat), (∀ c ∈ neighbors, c.id < id ∧ l ≤ s.graph.level c.id) →
    Republishes (id + 1) i j s t w v (ctx.backLinks id l neighbors inLinks) (ctx'.backLinks id l neighbors inLinks)
      fun _ => True
  | [], _, _ => .done trivial
  | neighbor :: rest, inLinks, known => by
    obtain ⟨first, others⟩ := List.forall_mem_cons.mp known
    refine Republishes.bind (backLink_republishes writers first high) ?_
    intro kept _
    exact backLinks_republishes writers high rest _ others

theorem repairOrphan_republishes (writers : Writers id ctx ctx' s t) {l : Nat} (high : l ≤ s.graph.level id) :
    ∀ (candidates : List ScoredId), (∀ c ∈ candidates, c.id < id ∧ l ≤ s.graph.level c.id) →
    Republishes (id + 1) i j s t w v (ctx.repairOrphan id l candidates)
      (ctx'.repairOrphan id l candidates) fun _ => True
  | [], _ => .done trivial
  | c :: rest, known => by
    obtain ⟨first, others⟩ := List.forall_mem_cons.mp known
    rintro ⟨s', w'⟩ ⟨t', v'⟩ publishing
    have owner : c.id < id + 1 := by omega
    obtain ⟨same, closed⟩ := publishing.lists owner first.2
    obtain ⟨rooms, rooms'⟩ := writers.rooms l
    obtain ⟨s₁, stripes, top, relinked, left⟩ := repairStep_run (i := i) (w := w') ctx c.id l
      (fun appended => if appended then .done true else ctx.repairOrphan id l rest) id
      (by rw [publishing.left.stripes]; exact writers.left _)
    obtain ⟨t₁, stripes', top', relinked', right⟩ := repairStep_run (i := j) (w := v') ctx' c.id l
      (fun appended => if appended then .done true else ctx'.repairOrphan id l rest) id
      (by rw [publishing.right.stripes]; exact writers.right _)
    simp only at same closed relinked relinked' left right
    rw [rooms', ← same, ← rooms] at relinked' right
    have room : ctx.capacity l = s'.graph.capacity l := by rw [rooms, publishing.left.shape.capacity_eq]
    have mirror : Mirror (id + 1) s₁.graph t₁.graph := by
      refine publishing.mirror.relink relinked relinked' ?_ ?_
      · have count := publishing.mirror.counts c.id l owner (first.2.trans (publishing.left.shape.level_eq c.id).ge)
        simp only at count ⊢
        split
        · rw [List.length_append, List.length_singleton, ← room]
          omega
        · exact count
      · intro x member
        split at member
        · rcases List.mem_append.mp member with old | last
          · exact closed x old
          · rw [List.mem_singleton.mp last]
            exact ⟨Nat.lt_succ_self id, high.trans (publishing.left.shape.level_eq id).ge⟩
        · exact closed x member
    have still : Publishing (id + 1) s t w v (s₁, w') (t₁, v') :=
      ⟨mirror, publishing.left.trans ⟨⟨stripes, top, relinked.shape,
        fun x k above => relinked.other x k (by omega)⟩, relinked.entry⟩,
        publishing.right.trans ⟨⟨stripes', top', relinked'.shape, fun x k above => relinked'.other x k (by omega)⟩,
          relinked'.entry⟩,
        publishing.worlds⟩
    refine Prog.Follows.of_runs left right ?_
    cases decide ((s'.graph.links c.id l).length < ctx.capacity l) with
    | true => exact Prog.Follows.done ⟨rfl, trivial, still⟩
    | false => exact repairOrphan_republishes writers high rest others _ _ still

/-- Layers from level `l` on. -/
def LayersFrom (id l links : Nat) (g : HnswGraph) (layers : List Layer) : Prop :=
  ∀ k layer, layers[k]? = some layer → LayerInside id (l + k) links g layer ∧ l + k ≤ g.level id

theorem LayersFrom.tail {l links : Nat} {g : HnswGraph} {layer : Layer} {layers : List Layer}
    (from_ : LayersFrom id l links g (layer :: layers)) : LayersFrom id (l + 1) links g layers := by
  intro k here at_
  have next := from_ (k + 1) here at_
  rwa [show l + (k + 1) = l + 1 + k by omega] at next

theorem writeList_republishes (writers : Writers id ctx ctx' s t) {l : Nat} {layer : Layer}
    (inside : LayerInside id l ctx.params.M.toNat s.graph layer) :
    Republishes (id + 1) i j s t w v (ctx.writeList id l layer.selected) (ctx'.writeList id l layer.selected)
      fun _ => True := by
  intro s' t' publishing
  obtain ⟨rooms, rooms'⟩ := writers.rooms l
  have few : (layer.selected.map (·.id)).length ≤ ctx.capacity l := by
    have count := inside.few
    rw [List.length_map, capacity]
    split <;> omega
  have left : Sets i s'.1 s'.2 id l (ctx.writeList id l layer.selected) () (layer.selected.map (·.id)) :=
    setLinks_sets few
  have right : Sets j t'.1 t'.2 id l (ctx'.writeList id l layer.selected) () (layer.selected.map (·.id)) :=
    setLinks_sets (by rw [rooms', ← rooms]; exact few)
  refine (Republishes.sets publishing (Nat.lt_succ_self id) left right ?_ ?_).mono (fun _ _ none => none) ?_
  · rw [publishing.left.shape.capacity_eq, ← rooms]
    exact few
  · intro x member
    obtain ⟨c, chosen, rfl⟩ := List.mem_map.mp member
    obtain ⟨node, level⟩ := inside.candidates c (inside.selected chosen)
    exact ⟨by omega, level.trans (publishing.left.shape.level_eq c.id).ge⟩
  · exact fun _ _ _ _ ⟨same, _, still⟩ => ⟨same, trivial, still⟩

theorem writeOwn_republishes (writers : Writers id ctx ctx' s t) : ∀ (layers : List Layer) (l : Nat),
    LayersFrom id l ctx.params.M.toNat s.graph layers →
    Republishes (id + 1) i j s t w v (ctx.writeOwn id l layers) (ctx'.writeOwn id l layers) fun _ => True
  | [], _, _ => .done trivial
  | layer :: rest, l, layers => by
    obtain ⟨inside, high⟩ := layers 0 layer rfl
    have own : Republishes (id + 1) i j s t w v (ctx.writeList id l layer.selected)
        (ctx'.writeList id l layer.selected)
        fun _ => True := writeList_republishes writers inside
    exact Republishes.bind own fun _ _ => writeOwn_republishes writers rest (l + 1) layers.tail

theorem linkBack_republishes (writers : Writers id ctx ctx' s t) : ∀ (layers : List Layer) (l : Nat),
    LayersFrom id l ctx.params.M.toNat s.graph layers →
    Republishes (id + 1) i j s t w v (ctx.linkBack id l layers) (ctx'.linkBack id l layers) fun _ => True
  | [], _, _ => .done trivial
  | layer :: rest, l, layers => by
    obtain ⟨inside, high⟩ := layers 0 layer rfl
    refine Republishes.bind (backLinks_republishes writers high layer.selected 0 fun c chosen =>
      inside.candidates c (inside.selected chosen)) ?_
    intro inLinks _
    have after : Republishes (id + 1) i j s t w v (ctx.linkBack id (l + 1) rest) (ctx'.linkBack id (l + 1) rest)
        fun _ => True := linkBack_republishes writers rest (l + 1) layers.tail
    simp only [← writers.agrees.options]
    split
    · exact Republishes.bind (repairOrphan_republishes writers high layer.candidates inside.candidates) fun _ _ =>
        after
    · exact after

/-- Publishing the same layers keeps the graphs alike. -/
theorem publish_republishes (writers : Writers id ctx ctx' s t) {layers : List Layer}
    (known : LayersFrom id 0 ctx.params.M.toNat s.graph layers) :
    Republishes (id + 1) i j s t w v (ctx.publish id layers) (ctx'.publish id layers) fun _ => True := by
  have joined : Republishes (id + 1) i j s t w v (joins id layers.length)
      (joins id layers.length) fun _ => True := by
    rintro ⟨s', w'⟩ ⟨t', v'⟩ publishing
    refine Prog.Follows.call (r := ()) rfl rfl (Prog.Follows.done ⟨rfl, trivial, ?_⟩)
    have calm {u u' : SharedGraph} (steady : Steady (id + 1) u u') (joined : Nat → Nat) :
        Steady (id + 1) u { u' with joined } :=
      ⟨⟨steady.stripes, steady.top, steady.shape, steady.beyond⟩, steady.entry⟩
    exact ⟨publishing.mirror, calm publishing.left _, calm publishing.right _, publishing.worlds⟩
  exact Republishes.bind joined fun _ _ => Republishes.bind (writeOwn_republishes writers layers 0 known) fun _ _ =>
    linkBack_republishes writers layers 0 known

end Publish

end HnswContext
end VectorForge
