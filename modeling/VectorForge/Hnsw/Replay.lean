import VectorForge.Lib.Lockstep
import VectorForge.Collection.Session

/-! An insertion that runs alone computes the same on every graph that agrees on the nodes it can
reach: stale slots, nodes that are not linked yet, the size and the age of the visited set and
how much memory is left have no influence, unless memory runs out. -/

namespace VectorForge

/-- The graphs agree on the nodes below `n`, which refer only to each other. -/
structure Mirror (n : Nat) (g h : HnswGraph) : Prop where
  m : g.m = h.m
  left : n ≤ g.nodeCount
  right : n ≤ h.nodeCount
  levels : ∀ c, c < n → g.level c = h.level c
  links : ∀ c l, c < n → l ≤ g.level c → g.links c l = h.links c l
  counts : ∀ c l, c < n → l ≤ g.level c → (g.links c l).length ≤ g.capacity l
  closed : ∀ c l v, c < n → l ≤ g.level c → v ∈ g.links c l → v < n ∧ l ≤ g.level v
  valid : g.entry.valid = h.entry.valid
  entry : g.entry.valid = true → g.entry = h.entry ∧ g.entry.id < n ∧ g.entry.level ≤ g.level g.entry.id

/-- What insertions of nodes up to `n` read besides the graph. -/
structure HnswContext.Agrees (n : Nat) (a b : HnswContext) : Prop where
  params : a.params = b.params
  options : a.options = b.options
  prefetch : a.prefetch = b.prefetch
  distance : ∀ x y, x ≤ n → y ≤ n → a.distance x y = b.distance x y

/-- What one query reads besides the graph. -/
structure HnswContext.Scores (n query : Nat) (a b : HnswContext) : Prop where
  params : a.params = b.params
  prefetch : a.prefetch = b.prefetch
  distance : ∀ y, y < n → a.distance query y = b.distance query y

theorem HnswContext.Agrees.scores {n query : Nat} {a b : HnswContext} (agrees : a.Agrees n b)
    (reached : query ≤ n) : a.Scores n query b :=
  ⟨agrees.params, agrees.prefetch, fun y below => agrees.distance query y reached below.le⟩

namespace Mirror
variable {n : Nat} {g h : HnswGraph} {c l k : Nat}

theorem count (mirror : Mirror n g h) (node : c < n) (high : l ≤ g.level c) : g.words c l 0 = h.words c l 0 := by
  have same := congrArg List.length (mirror.links c l node high)
  rwa [HnswGraph.length_links, HnswGraph.length_links] at same

theorem slot (mirror : Mirror n g h) (node : c < n) (high : l ≤ g.level c) (below : k < g.words c l 0) :
    g.words c l (1 + k) = h.words c l (1 + k) ∧ g.words c l (1 + k) < n ∧ l ≤ g.level (g.words c l (1 + k)) := by
  have member : g.words c l (1 + k) ∈ g.links c l := List.mem_map_of_mem (List.mem_range.mpr below)
  have same : (g.links c l)[k]? = (h.links c l)[k]? := by rw [mirror.links c l node high]
  have other : k < h.words c l 0 := by rwa [← mirror.count node high]
  simp only [HnswGraph.links, List.getElem?_map, List.getElem?_range below,
    List.getElem?_range other, Option.map_some,
    Option.some.injEq] at same
  exact ⟨same, mirror.closed c l _ node high member⟩

end Mirror

/-- Two visited sets that cover `n` ids and have the same of them left. -/
structure SameVisited (n : Nat) (v w : VisitedSet) : Prop where
  left : n ≤ v.marks.length
  right : n ≤ w.marks.length
  fresh : ∀ id, id < n → v.isFresh id = w.isFresh id
  settled : v.Settled ∧ w.Settled

namespace SameVisited
variable {n id : Nat} {v w : VisitedSet}

theorem visit (same : SameVisited n v w) (inside : id < n) : SameVisited n (v.visit id) (w.visit id) where
  left := by
    rw [VisitedSet.length_visit]
    exact same.left
  right := by
    rw [VisitedSet.length_visit]
    exact same.right
  fresh := by
    intro other below
    rw [VisitedSet.isFresh_visit (inside.trans_le same.left), VisitedSet.isFresh_visit (inside.trans_le same.right),
      same.fresh other below]
  settled := ⟨same.settled.1.visit id, same.settled.2.visit id⟩

theorem reset (left : n ≤ v.marks.length) (right : n ≤ w.marks.length) (first : v.Settled) (second : w.Settled) :
    SameVisited n v.reset w.reset where
  left := by
    rw [VisitedSet.length_reset]
    exact left
  right := by
    rw [VisitedSet.length_reset]
    exact right
  fresh := fun id _ => by rw [first.isFresh_reset, second.isFresh_reset]
  settled := ⟨first.reset, second.reset⟩

end SameVisited

/-- Every allocation succeeds. -/
def World.Ample (w : World) : Prop := w.memory = []

/-- Some of the memory has been used, nothing else. -/
def World.Spent (w w' : World) : Prop := ∃ used, w' = { w with memory := w.memory.drop used }

theorem World.Spent.refl (w : World) : w.Spent w := ⟨0, rfl⟩

theorem World.Spent.trans {w w₁ w₂ : World} (first : w.Spent w₁) (second : w₁.Spent w₂) : w.Spent w₂ := by
  obtain ⟨used, rfl⟩ := first
  obtain ⟨more, rfl⟩ := second
  exact ⟨used + more, by simp only [List.drop_drop]⟩

theorem World.Spent.ample {w w' : World} (spent : w.Spent w') (ample : w.Ample) : w' = w := by
  obtain ⟨used, rfl⟩ := spent
  have none : w.memory = [] := ample
  cases w
  simp_all

theorem World.Ample.tail {w : World} (ample : w.Ample) : { w with memory := w.memory.tail } = w := by
  have none : w.memory = [] := ample
  cases w
  simp_all

theorem World.spent_tail (w : World) : w.Spent { w with memory := w.memory.tail } := ⟨1, by rw [List.drop_one]⟩

/-- An allocation has failed. -/
def World.Lacked (w w' : World) : Prop := w.Spent w' ∧ ¬w.Ample

theorem World.Spent.lacked {w w₁ w₂ : World} (first : w.Spent w₁) (second : w₁.Lacked w₂) : w.Lacked w₂ := by
  refine ⟨first.trans second.1, ?_⟩
  intro ample
  rw [first.ample ample] at second
  exact second.2 ample

theorem World.lacked_tail {w : World} (fails : w.memory.headD true = false) :
    w.Lacked { w with memory := w.memory.tail } := by
  refine ⟨w.spent_tail, ?_⟩
  intro ample
  rw [show w.memory = [] from ample] at fails
  cases fails

/-- An allocation: the left program fails without memory, the right one always has some. -/
theorem follows_allocate {α β : Type} {s t : SharedGraph} {i j : Nat} {w v : World} {f : Bool → GraphProg α}
    {g : Bool → GraphProg β} {fails : α → SharedGraph × World → Prop}
    {post : α → SharedGraph × World → β → SharedGraph × World → Prop} (ample : v.Ample)
    (lacks : ∀ w', w.Lacked w' → ∃ a, f false = .done a ∧ fails a (s, w'))
    (rest : ∀ w', w.Spent w' → Prog.Follows (answerIn i) (answerIn j) (f true) (g true) (s, w') (t, v) fails post) :
    Prog.Follows (answerIn i) (answerIn j) (HnswContext.allocate >>= f) (HnswContext.allocate >>= g) (s, w)
      (t, v) fails post := by
  have right : answerIn j .allocate (t, v) = some (true, t, v) := by
    change some (v.memory.headD true, t, { v with memory := v.memory.tail }) = _
    rw [ample.tail, show v.memory = [] from ample]
    rfl
  have left : answerIn i .allocate (s, w) = some (w.memory.headD true, s, { w with memory := w.memory.tail }) := rfl
  cases enough : w.memory.headD true with
  | true =>
    rw [enough] at left
    exact Prog.Follows.call left right (rest _ w.spent_tail)
  | false =>
    rw [enough] at left
    obtain ⟨a, same, holds⟩ := lacks _ (World.lacked_tail enough)
    refine ⟨a, (s, { w with memory := w.memory.tail }), ?_, .inl holds⟩
    change (answerIn i .allocate (s, w)).bind (fun x => (f x.1).run (answerIn i) x.2) = _
    rw [left]
    change (f false).run (answerIn i) _ = _
    rw [same]
    rfl

/-- The left program may run out of memory and then fails; otherwise the right one, which has
enough, comes to a related result. Neither changes its graph. -/
def Rereads {α β : Type} (s t : SharedGraph) (i j : Nat) (w v : World) (p : GraphProg α) (q : GraphProg β)
    (fails : α → Prop) (post : α → β → Prop) : Prop :=
  Prog.Follows (answerIn i) (answerIn j) p q (s, w) (t, v) (fun a s' => fails a ∧ s'.1 = s ∧ w.Lacked s'.2)
    fun a s' b t' => post a b ∧ s'.1 = s ∧ w.Spent s'.2 ∧ t' = (t, v)

namespace Rereads
variable {α β α' β' : Type} {s t : SharedGraph} {i j : Nat} {w v : World} {p : GraphProg α} {q : GraphProg β}
  {fails : α → Prop} {post : α → β → Prop}

theorem done {a : α} {b : β} (holds : post a b) : Rereads s t i j w v (.done a) (.done b) fails post :=
  Prog.Follows.done ⟨holds, rfl, .refl w, rfl⟩

theorem mono {fails' : α → Prop} {weaker : α → β → Prop} (reads : Rereads s t i j w v p q fails post)
    (ends : ∀ a, fails a → fails' a) (imp : ∀ a b, post a b → weaker a b) : Rereads s t i j w v p q fails' weaker :=
  Prog.Follows.mono reads (fun a _ holds => ⟨ends a holds.1, holds.2⟩) fun a _ b _ holds =>
    ⟨imp a b holds.1, holds.2⟩

/-- Reading programs one after the other. A failure of the first is handed on. -/
theorem bind {f : α → GraphProg α'} {g : β → GraphProg β'} {fails' : α' → Prop} {after : α' → β' → Prop}
    (first : Rereads s t i j w v p q fails post) (ends : ∀ a, fails a → ∃ a', f a = .done a' ∧ fails' a')
    (rest : ∀ a b w', post a b → Rereads s t i j w' v (f a) (g b) fails' after) :
    Rereads s t i j w v (p >>= f) (q >>= g) fails' after := by
  refine Prog.Follows.bind first ?_ ?_
  · rintro a ⟨s', w'⟩ ⟨failed, rfl, spent⟩
    obtain ⟨a', same, holds⟩ := ends a failed
    rw [same]
    exact Prog.Reaches.done ⟨holds, rfl, spent⟩
  · rintro a ⟨s', w'⟩ b t' ⟨holds, rfl, spent, rfl⟩
    refine Prog.Follows.mono (rest a b w' holds) ?_ ?_
    · exact fun _ _ ⟨failed, same, more⟩ => ⟨failed, same, spent.lacked more⟩
    · exact fun _ _ _ _ ⟨last, same, more, right⟩ => ⟨last, same, spent.trans more, right⟩

theorem load {c l k : Nat} {f : Nat → GraphProg α} {g : Nat → GraphProg β}
    (same : s.graph.words c l k = t.graph.words c l k)
    (rest : Rereads s t i j w v (f (s.graph.words c l k)) (g (s.graph.words c l k)) fails post) :
    Rereads s t i j w v (HnswContext.load c l k >>= f) (HnswContext.load c l k >>= g) fails post := by
  refine Prog.Follows.call (r := s.graph.words c l k) rfl ?_ rest
  rw [same]
  rfl

theorem allocate {f : Bool → GraphProg α} {g : Bool → GraphProg β} (ample : v.Ample)
    (lacks : ∃ a, f false = .done a ∧ fails a) (rest : ∀ w', Rereads s t i j w' v (f true) (g true) fails post) :
    Rereads s t i j w v (HnswContext.allocate >>= f) (HnswContext.allocate >>= g) fails post := by
  refine follows_allocate ample ?_ ?_
  · intro w' spent
    obtain ⟨a, same, holds⟩ := lacks
    exact ⟨a, same, holds, rfl, spent⟩
  · intro w' spent
    refine Prog.Follows.mono (rest w') ?_ ?_
    · exact fun _ _ ⟨failed, same, more⟩ => ⟨failed, same, spent.lacked more⟩
    · exact fun _ _ _ _ ⟨last, same, more, right⟩ => ⟨last, same, spent.trans more, right⟩

end Rereads

namespace HnswContext
variable {n : Nat} {s t : SharedGraph} {i j : Nat} {w v : World} {ctx ctx' : HnswContext} {query l : Nat}

section Greedy

/-- Two scans that have moved to the same place. -/
structure SameMove {start start' : ScoredId} (a : Moved start) (b : Moved start') : Prop where
  current : a.current = b.current
  changed : a.changed = b.changed

theorem greedyScan_rereads {owner : Nat} {start : ScoredId} (mirror : Mirror n s.graph t.graph)
    (scores : ctx.Scores n query ctx')
    (node : owner < n) (high : l ≤ s.graph.level owner) : ∀ (left k : Nat) (moved moved' : Moved start),
    k + left ≤ s.graph.words owner l 0 → SameMove moved moved' →
    moved.current.id < n ∧ l ≤ s.graph.level moved.current.id →
    Rereads s t i j w v (ctx.greedyScan query l owner left k moved) (ctx'.greedyScan query l owner left k moved')
      (fun _ => False) fun a b => SameMove a b ∧ a.current.id < n ∧ l ≤ s.graph.level a.current.id
  | 0, _, _, _, _, same, known => Rereads.done ⟨same, known⟩
  | left + 1, k, moved, moved', inside, same, known => by
    obtain ⟨slot, below, level⟩ := mirror.slot node high (by omega : k < s.graph.words owner l 0)
    have distance := scores.distance _ below
    simp only [greedyScan]
    refine Rereads.load slot ?_
    split
    next closer =>
      rw [dif_pos (by rw [← distance, ← same.current]; exact closer)]
      refine greedyScan_rereads mirror scores node high left (k + 1) _ _ (by omega) ⟨?_, rfl⟩ ⟨below, level⟩
      simp only [distance]
    next farther =>
      rw [dif_neg (by rw [← distance, ← same.current]; exact farther)]
      exact greedyScan_rereads mirror scores node high left (k + 1) _ _ (by omega) same known

theorem greedySearch_rereads {w : World} (mirror : Mirror n s.graph t.graph) (scores : ctx.Scores n query ctx')
    (current : ScoredId) (known : current.id < n ∧ l ≤ s.graph.level current.id) :
    Rereads s t i j w v (ctx.greedySearch query l current) (ctx'.greedySearch query l current) (fun _ => False)
      fun a b => a = b ∧ a.id < n ∧ l ≤ s.graph.level a.id := by
  rw [greedySearch, greedySearch]
  refine Rereads.load (mirror.count known.1 known.2) ?_
  refine Rereads.bind (greedyScan_rereads mirror scores known.1 known.2 _ 0 _ _ (by omega)
    ⟨rfl, rfl⟩ known) nofun ?_
  rintro moved moved' w' ⟨same, found⟩
  split
  next changed =>
    rw [dif_pos (same.changed ▸ changed), ← same.current]
    exact greedySearch_rereads mirror scores moved.current found
  next still =>
    rw [dif_neg (same.changed ▸ still)]
    exact Rereads.done ⟨same.current, found⟩
termination_by height current
decreasing_by exact height_lt (moved.less ‹_›)

theorem descend_rereads {top : Nat} (mirror : Mirror n s.graph t.graph) (scores : ctx.Scores n query ctx') :
    ∀ (level : Nat) (current : ScoredId) {w : World}, current.id < n ∧
    level ≤ s.graph.level current.id → top ≤ level →
    Rereads s t i j w v (ctx.descend query top level current)
      (ctx'.descend query top level current) (fun _ => False)
      fun a b => a = b ∧ a.id < n ∧ top ≤ s.graph.level a.id
  | 0, _, _, known, low => Rereads.done ⟨rfl, known.1, low.trans known.2⟩
  | level + 1, current, _, known, low => by
    simp only [descend]
    split
    next above =>
      refine Rereads.bind (greedySearch_rereads mirror scores current known) nofun ?_
      rintro next _ w' ⟨rfl, node, high⟩
      exact descend_rereads mirror scores level next ⟨node, by omega⟩ (by omega)
    next => exact Rereads.done ⟨rfl, known.1, low.trans known.2⟩

end Greedy

section Layer
variable {hidden : Nat → Bool}

/-- The same queue and the same results, with visited sets that have the same ids left. -/
structure SameLayer (n : Nat) (a b : LayerState) : Prop where
  visited : SameVisited n a.visited b.visited
  candidates : a.candidates = b.candidates
  results : a.results = b.results

/-- Everything in the queue and in the results is a node of the level. -/
structure Inside (n l : Nat) (g : HnswGraph) (st : LayerState) : Prop where
  candidates : ∀ c ∈ st.candidates.data, c.id < n ∧ l ≤ g.level c.id
  results : ∀ c ∈ st.results.data, c.id < n ∧ l ≤ g.level c.id

section Inside
variable {g : HnswGraph} {st st' : LayerState}

theorem Inside.visit (inside : Inside n l g st) (id : Nat) :
    Inside n l g { st with visited := st.visited.visit id } :=
  ⟨inside.candidates, inside.results⟩

theorem Inside.offer (inside : Inside n l g st) {c : ScoredId} (known : c.id < n ∧ l ≤ g.level c.id) :
    Inside n l g (st.offer hidden c) := by
  constructor
  · intro x member
    rcases List.mem_cons.mp ((MinHeap.push_perm _ c).mem_iff.mp member) with rfl | old
    · exact known
    · exact inside.candidates x old
  · intro x member
    simp only [LayerState.offer] at member
    split at member
    · exact inside.results x member
    · rcases BoundedMaxHeap.mem_push member with rfl | old
      · exact known
      · exact inside.results x old

theorem Inside.pop (inside : Inside n l g st) {nearest : ScoredId} (front : st.candidates.top? = some nearest) :
    Inside n l g { st with candidates := st.candidates.pop } :=
  ⟨fun c member => inside.candidates c (MinHeap.mem_pop front member), inside.results⟩

theorem SameLayer.visit (same : SameLayer n st st') {id : Nat} (inside : id < n) :
    SameLayer n { st with visited := st.visited.visit id } { st' with visited := st'.visited.visit id } :=
  ⟨same.visited.visit inside, same.candidates, same.results⟩

theorem SameLayer.offer (same : SameLayer n st st') {c c' : ScoredId} (equal : c = c') :
    SameLayer n (st.offer hidden c) (st'.offer hidden c') where
  visited := same.visited
  candidates := by
    simp only [LayerState.offer, same.candidates, equal]
  results := by
    simp only [LayerState.offer, same.results, equal]

theorem SameLayer.pop (same : SameLayer n st st') :
    SameLayer n { st with candidates := st.candidates.pop } { st' with candidates := st'.candidates.pop } :=
  ⟨same.visited, congrArg MinHeap.pop same.candidates, same.results⟩

theorem SameLayer.improves (same : SameLayer n st st') (c : ScoredId) : st.improves c = st'.improves c := by
  simp only [LayerState.improves, same.results]

theorem SameLayer.exhausted (same : SameLayer n st st') (c : ScoredId) : st.exhausted c = st'.exhausted c := by
  simp only [LayerState.exhausted, same.results]

end Inside

theorem seedLayer_rereads (ample : v.Ample) : ∀ (points : List ScoredId) {st st' : LayerState} {w : World},
    SameLayer n st st' → Inside n l s.graph st → (∀ c ∈ points, c.id < n ∧ l ≤ s.graph.level c.id) →
    Rereads s t i j w v (seedLayer hidden points st) (seedLayer hidden points st') (· = none)
      fun a b => ∃ x y, a = some x ∧ b = some y ∧ SameLayer n x y ∧ Inside n l s.graph x
  | [], _, _, _, same, inside, _ => Rereads.done ⟨_, _, rfl, rfl, same, inside⟩
  | point :: rest, st, st', _, same, inside, known => by
    obtain ⟨first, others⟩ := List.forall_mem_cons.mp known
    rw [seedLayer, seedLayer, if_pos (first.1.trans_le same.visited.left),
      if_pos (first.1.trans_le same.visited.right),
      same.visited.fresh point.id first.1]
    split
    · refine Rereads.allocate ample ⟨none, rfl, rfl⟩ ?_
      intro w'
      exact seedLayer_rereads ample rest ((same.visit first.1).offer rfl)
        ((inside.visit point.id).offer first) others
    · exact seedLayer_rereads ample rest same inside others

theorem prefetchList_rereads {owner : Nat} {visited visited' : VisitedSet} (mirror : Mirror n s.graph t.graph)
    (same : ∀ id, id < n → visited.visited id = visited'.visited id) (node : owner < n)
    (high : l ≤ s.graph.level owner) : ∀ (left k : Nat) {w : World}, k + left ≤ s.graph.words owner l 0 →
    Rereads s t i j w v (prefetchList visited l owner left k)
      (prefetchList visited' l owner left k) (fun _ => False)
      fun _ _ => True
  | 0, _, _, _ => Rereads.done trivial
  | left + 1, k, _, inside => by
    obtain ⟨slot, below, _⟩ := mirror.slot node high (by omega : k < s.graph.words owner l 0)
    rw [prefetchList, prefetchList]
    refine Rereads.load slot ?_
    rw [same _ below]
    split
    · exact prefetchList_rereads mirror same node high left (k + 1) (by omega)
    · exact Rereads.load slot (prefetchList_rereads mirror same node high left (k + 1) (by omega))

/-- How two scans of one list end. -/
def SameScan (n l : Nat) (g : HnswGraph) {bound bound' : Nat} (a : LayerStep bound) (b : LayerStep bound') : Prop :=
  ∃ x y, a = some x ∧ b = some y ∧ SameLayer n x.1 y.1 ∧ Inside n l g x.1

theorem scanLayer_rereads {owner bound bound' : Nat} (mirror : Mirror n s.graph t.graph)
    (scores : ctx.Scores n query ctx') (ample : v.Ample) (node : owner < n) (high : l ≤ s.graph.level owner) :
    ∀ (left k : Nat) (st : { st : LayerState // st.cost ≤ bound })
      (st' : { st : LayerState // st.cost ≤ bound' }) {w : World},
    k + left ≤ s.graph.words owner l 0 → SameLayer n st.1 st'.1 → Inside n l s.graph st.1 →
    Rereads s t i j w v (ctx.scanLayer hidden query l owner bound left k st)
      (ctx'.scanLayer hidden query l owner bound' left k st') (· = none) (SameScan n l s.graph)
  | 0, _, st, st', _, _, same, known => Rereads.done ⟨st, st', rfl, rfl, same, known⟩
  | left + 1, k, ⟨st, within⟩, ⟨st', within'⟩, _, inside, same, known => by
    obtain ⟨slot, below, level⟩ := mirror.slot node high (by omega : k < s.graph.words owner l 0)
    have distance := scores.distance _ below
    have fresh := same.visited.fresh _ below
    rw [scanLayer, scanLayer]
    refine Rereads.load slot ?_
    rw [dif_pos (below.trans_le same.visited.left), dif_pos (below.trans_le same.visited.right)]
    split
    next new =>
      rw [dif_pos (fresh ▸ new)]
      simp only
      have better :
          st.improves { distance := ctx.distance query (s.graph.words owner l (1 + k))
                        id := s.graph.words owner l (1 + k) } =
          st'.improves { distance := ctx'.distance query (s.graph.words owner l (1 + k))
                         id := s.graph.words owner l (1 + k) } := by
        rw [same.improves, distance]
      rw [← better]
      split
      · refine Rereads.allocate ample ⟨none, rfl, rfl⟩ ?_
        intro w'
        exact scanLayer_rereads mirror scores ample node high left (k + 1) _ _ (by omega)
          ((same.visit below).offer (by rw [distance])) ((known.visit _).offer ⟨below, level⟩)
      · exact scanLayer_rereads mirror scores ample node high left (k + 1) _ _ (by omega)
          (same.visit below) (known.visit _)
    next old =>
      rw [dif_neg (fresh ▸ old)]
      exact scanLayer_rereads mirror scores ample node high left (k + 1) _ _ (by omega) same known

theorem visitNeighbors_rereads {owner : Nat} {st st' : LayerState} (mirror : Mirror n s.graph t.graph)
    (scores : ctx.Scores n query ctx') (ample : v.Ample) (node : owner < n)
    (high : l ≤ s.graph.level owner) (same : SameLayer n st st') (known : Inside n l s.graph st) :
    Rereads s t i j w v (ctx.visitNeighbors hidden query l owner st) (ctx'.visitNeighbors hidden query l owner st')
      (· = none) (SameScan n l s.graph) := by
  have marks (id : Nat) (below : id < n) : st.visited.visited id = st'.visited.visited id := by
    have fresh := same.visited.fresh id below
    simp only [VisitedSet.isFresh, VisitedSet.visited, ne_eq, decide_not] at fresh ⊢
    simpa using fresh
  rw [visitNeighbors, visitNeighbors]
  refine Rereads.load (mirror.count node high) ?_
  rw [← scores.prefetch]
  split
  · refine Rereads.bind (prefetchList_rereads mirror marks node high _ 0 (by omega)) (fun _ never => never.elim) ?_
    intro _ _ w' _
    exact scanLayer_rereads mirror scores ample node high _ 0 _ _ (by omega) same known
  · exact scanLayer_rereads mirror scores ample node high _ 0 _ _ (by omega) same known

theorem expandLayer_rereads {w : World} (mirror : Mirror n s.graph t.graph)
    (scores : ctx.Scores n query ctx') (ample : v.Ample)
    (st st' : LayerState) (same : SameLayer n st st') (known : Inside n l s.graph st) :
    Rereads s t i j w v (ctx.expandLayer hidden query l st) (ctx'.expandLayer hidden query l st') (· = none)
      fun a b => ∃ x y, a = some x ∧ b = some y ∧ SameLayer n x y ∧ Inside n l s.graph x := by
  have fronts := congrArg MinHeap.top? same.candidates
  rw [expandLayer]
  split
  next empty =>
    rw [expandLayer]
    split
    next => exact Rereads.done ⟨st, st', rfl, rfl, same, known⟩
    next nearest front => rw [← fronts, empty] at front; cases front
  next nearest front =>
    split
    next full =>
      rw [expandLayer]
      split
      next empty => rw [← fronts, front] at empty; cases empty
      next nearest' front' =>
        obtain rfl : nearest = nearest' := Option.some.inj (front.symm.trans (fronts.trans front'))
        rw [if_pos (same.exhausted nearest ▸ full)]
        exact Rereads.done ⟨st, st', rfl, rfl, same, known⟩
    next more =>
      rw [expandLayer]
      split
      next empty => rw [← fronts, front] at empty; cases empty
      next nearest' front' =>
        obtain rfl : nearest = nearest' := Option.some.inj (front.symm.trans (fronts.trans front'))
        rw [if_neg (same.exhausted nearest ▸ more)]
        obtain ⟨node, high⟩ := known.candidates nearest (List.mem_of_mem_head? front)
        refine Rereads.bind (visitNeighbors_rereads mirror scores ample node high same.pop (known.pop front)) ?_ ?_
        · rintro _ rfl
          exact ⟨none, rfl, rfl⟩
        · rintro _ _ w' ⟨⟨next, within⟩, ⟨next', within'⟩, rfl, rfl, after, still⟩
          have _cheaper : next.cost < st.cost := within.trans_lt (LayerState.cost_pop front)
          exact expandLayer_rereads mirror scores ample next next' after still
termination_by st.cost

/-- A visited set that covers `n` ids. -/
structure Covers (n : Nat) (visited : VisitedSet) : Prop where
  size : n ≤ visited.marks.length
  settled : visited.Settled

/-- What two searches of one layer return. -/
def SameFound (n l : Nat) (g : HnswGraph) (a b : Option (List ScoredId × VisitedSet)) : Prop :=
  ∃ found visited visited', a = some (found, visited) ∧ b = some (found, visited') ∧ Covers n visited ∧
    Covers n visited' ∧ ∀ c ∈ found, c.id < n ∧ l ≤ g.level c.id

theorem searchLayer_rereads {visited visited' : VisitedSet} {points : List ScoredId} {ef : Nat}
    (mirror : Mirror n s.graph t.graph) (scores : ctx.Scores n query ctx') (ample : v.Ample)
    (left : Covers n visited) (right : Covers n visited') (wide : 1 ≤ ef)
    (known : ∀ c ∈ points, c.id < n ∧ l ≤ s.graph.level c.id) :
    Rereads s t i j w v (ctx.searchLayer hidden visited query points ef l)
      (ctx'.searchLayer hidden visited' query points ef l)
      (· = none) (SameFound n l s.graph) := by
  rw [searchLayer, searchLayer, if_neg (by omega), if_neg (by omega)]
  have seed : SameLayer n { visited := visited.reset, results := { capacity := ef } }
      { visited := visited'.reset, results := { capacity := ef } } :=
    ⟨.reset left.size right.size left.settled right.settled, rfl, rfl⟩
  refine Rereads.bind (seedLayer_rereads ample points seed ⟨nofun, nofun⟩ known) ?_ ?_
  · rintro _ rfl
    exact ⟨none, rfl, rfl⟩
  · rintro _ _ w₁ ⟨st, st', rfl, rfl, same, inside⟩
    refine Rereads.bind (expandLayer_rereads mirror scores ample st st' same inside) ?_ ?_
    · rintro _ rfl
      exact ⟨none, rfl, rfl⟩
    · rintro _ _ w₂ ⟨x, y, rfl, rfl, after, still⟩
      refine Rereads.done ⟨x.results.sortAscending, x.visited, y.visited, rfl, ?_, ?_, ?_, ?_⟩
      · rw [after.results]
      · exact ⟨after.visited.left, after.visited.settled.1⟩
      · exact ⟨after.visited.right, after.visited.settled.2⟩
      · exact fun c member => still.results c ((BoundedMaxHeap.sortAscending_perm _).mem_iff.mp member)

end Layer

section FindNeighbors

/-- A layer of the search on level `l` over nodes below `n`. -/
structure LayerInside (n l links : Nat) (g : HnswGraph) (layer : Layer) : Prop where
  candidates : ∀ c ∈ layer.candidates, c.id < n ∧ l ≤ g.level c.id
  selected : layer.selected ⊆ layer.candidates
  few : layer.selected.length ≤ links

/-- The layers of the levels up to `top`. -/
structure LayersInside (n top links : Nat) (g : HnswGraph) (layers : List Layer) : Prop where
  size : layers.length = top + 1
  each : ∀ l layer, layers[l]? = some layer → LayerInside n l links g layer

/-- What two searches of the levels up to `top` return. -/
def SameLevels (n top links : Nat) (g : HnswGraph) (a b : Option (List Layer)) : Prop :=
  ∃ layers, a = some layers ∧ b = some layers ∧ LayersInside n top links g layers

theorem LayersInside.snoc {top links : Nat} {g : HnswGraph} {layers : List Layer} {layer : Layer}
    (below : LayersInside n top links g layers) (here : LayerInside n (top + 1) links g layer) :
    LayersInside n (top + 1) links g (layers ++ [layer]) where
  size := by rw [List.length_append, below.size, List.length_singleton]
  each := by
    intro l found at_
    rcases Nat.lt_or_ge l layers.length with low | high
    · rw [List.getElem?_append_left low] at at_
      exact below.each l found at_
    · rw [List.getElem?_append_right high, List.getElem?_singleton] at at_
      split at at_
      next zero =>
        cases at_
        have size := below.size
        obtain rfl : l = top + 1 := by omega
        exact here
      next => cases at_

theorem searchLevels_rereads (mirror : Mirror n s.graph t.graph) (agrees : ctx.Agrees n ctx') (ample : v.Ample)
    (reached : query ≤ n) (wide : 1 ≤ ctx.params.efConstruction.toNat) :
    ∀ (top : Nat) {visited visited' : VisitedSet}
    {points : List ScoredId} {w : World}, Covers n visited → Covers n visited' →
    (∀ c ∈ points, c.id < n ∧ top ≤ s.graph.level c.id) →
    Rereads s t i j w v (ctx.searchLevels query top visited points) (ctx'.searchLevels query top visited' points)
      (· = none) (SameLevels n top ctx.params.M.toNat s.graph) := by
  intro top
  -- the layer of one level, whatever is searched below it
  have chosen (found : List ScoredId) (known : ∀ c ∈ found, c.id < n) :
      NeighborSelect.selectNeighbors found ctx'.params.M.toNat ctx'.options.selection
      ctx'.options.keepPruned ctx'.distance =
        NeighborSelect.selectNeighbors found ctx.params.M.toNat ctx.options.selection
        ctx.options.keepPruned ctx.distance := by
    rw [← agrees.params, ← agrees.options]
    exact NeighborSelect.selectNeighbors_congr fun a left b right =>
      (agrees.distance _ _ (known a left).le (known b right).le).symm
  have layer {l : Nat} {found : List ScoredId} (known : ∀ c ∈ found, c.id < n ∧ l ≤ s.graph.level c.id) :
      LayerInside n l ctx.params.M.toNat s.graph ⟨found, NeighborSelect.selectNeighbors found ctx.params.M.toNat
        ctx.options.selection ctx.options.keepPruned ctx.distance⟩ :=
    ⟨known, (NeighborSelect.selectNeighbors_subperm ..).subset, NeighborSelect.length_selectNeighbors ..⟩
  induction top with
  | zero =>
    intro visited visited' points w left right known
    rw [searchLevels, searchLevels, ← agrees.params]
    refine Rereads.bind (searchLayer_rereads mirror (agrees.scores reached) ample left right wide known) ?_ ?_
    · rintro _ rfl
      exact ⟨none, rfl, rfl⟩
    · rintro _ _ w' ⟨found, rest, rest', rfl, rfl, _, _, inside⟩
      refine Rereads.done ⟨_, rfl, ?_, rfl, ?_⟩
      · rw [← chosen found fun c member => (inside c member).1, agrees.params]
      · intro l here at_
        rw [List.getElem?_singleton] at at_
        split at at_
        next zero => cases at_; rw [zero]; exact layer inside
        next => cases at_
  | succ below ih =>
    intro visited visited' points w left right known
    rw [searchLevels, searchLevels, ← agrees.params]
    refine Rereads.bind (searchLayer_rereads mirror (agrees.scores reached) ample left right wide known) ?_ ?_
    · rintro _ rfl
      exact ⟨none, rfl, rfl⟩
    · rintro _ _ w' ⟨found, rest, rest', rfl, rfl, more, more', inside⟩
      refine Rereads.bind (ih more more' fun c member =>
        ⟨(inside c member).1, by have := (inside c member).2; omega⟩) ?_ ?_
      · rintro _ rfl
        exact ⟨none, rfl, rfl⟩
      · rintro _ _ w'' ⟨layers, rfl, rfl, lower⟩
        refine Rereads.done ⟨_, rfl, ?_, lower.snoc (layer inside)⟩
        simp only [Option.map_some]
        rw [← chosen found fun c member => (inside c member).1, agrees.params]

/-- The search of an insertion finds the same layers. -/
theorem findNeighbors_rereads {top : Nat} {visited visited' : VisitedSet} {e : HnswGraph.Entry}
    (mirror : Mirror n s.graph t.graph) (agrees : ctx.Agrees n ctx') (ample : v.Ample) (reached : query ≤ n)
    (wide : 1 ≤ ctx.params.efConstruction.toNat) (left : Covers n visited) (right : Covers n visited')
    (known : e.id < n ∧ e.level ≤ s.graph.level e.id) (low : top ≤ e.level) :
    Rereads s t i j w v (ctx.findNeighbors visited query top e) (ctx'.findNeighbors visited' query top e) (· = none)
      (SameLevels n top ctx.params.M.toNat s.graph) := by
  rw [findNeighbors, findNeighbors, ← agrees.distance query e.id reached known.1.le]
  refine Rereads.bind (descend_rereads mirror (agrees.scores reached) e.level _ known low) nofun ?_
  rintro current _ w' ⟨rfl, node, high⟩
  refine searchLevels_rereads mirror agrees ample reached wide top left right ?_
  intro c member
  rw [List.mem_singleton.mp member]
  exact ⟨node, high⟩

end FindNeighbors

end HnswContext
end VectorForge
