import VectorForge.Hnsw.Query
import VectorForge.Lib.Progress
import VectorForge.Search.HeapContents

/-! What a search returns, whatever the lists hold that it reads while they are changed. -/

namespace VectorForge

namespace BoundedMaxHeap
variable {capacity : Nat} {pushed : List ScoredId}

theorem pushes_append (capacity : Nat) (pushed : List ScoredId) (c : ScoredId) :
    pushes capacity (pushed ++ [c]) = (pushes capacity pushed).push c := List.foldl_append

theorem mem_pushes : ∀ {c : ScoredId}, c ∈ (pushes capacity pushed).data → c ∈ pushed := by
  induction pushed using List.reverseRecOn with
  | nil => exact fun {c} member => member
  | append_singleton pushed last ih =>
    intro c member
    rw [pushes_append] at member
    rcases mem_push member with rfl | old
    · exact List.mem_append_right _ List.mem_cons_self
    · exact List.mem_append_left _ (ih old)

theorem length_pushes_le (capacity : Nat) (pushed : List ScoredId) :
    (pushes capacity pushed).data.length ≤ capacity := by
  induction pushed using List.reverseRecOn with
  | nil => exact Nat.zero_le _
  | append_singleton pushed last ih =>
    have kept := length_push_le (h := pushes capacity pushed) last (by rw [capacity_pushes]; exact ih)
    rw [capacity_pushes] at kept
    rw [pushes_append]
    exact kept

theorem nodup_pushes (distinct : (pushed.map (·.id)).Nodup) : ((pushes capacity pushed).data.map (·.id)).Nodup := by
  induction pushed using List.reverseRecOn with
  | nil => exact List.nodup_nil
  | append_singleton pushed last ih =>
    rw [List.map_append, List.map_singleton, List.nodup_append] at distinct
    rw [pushes_append]
    refine nodup_push (ih distinct.1) fun member => ?_
    obtain ⟨c, inHeap, same⟩ := List.mem_map.mp member
    exact distinct.2.2 _ (List.mem_map_of_mem (mem_pushes inHeap)) _ List.mem_cons_self same

end BoundedMaxHeap

/-- What reads of a graph of `n` nodes return: slots and the entry point name nodes of it. -/
def GraphOp.Inside (n : Nat) : (o : GraphOp) → o.Ret → Prop
  | .load _ _ word, (value : Nat) => word ≠ 0 → value < n
  | .loadEntry, (e : HnswGraph.Entry) => e.valid = true → e.id < n
  | _, _ => True

namespace HnswContext
variable {ctx : HnswContext} {hidden : Nat → Bool} {query n ef level : Nat} {st : LayerState} {c : ScoredId}

/-- A candidate is a node of the graph with its own distance. -/
def Genuine (ctx : HnswContext) (query n : Nat) (c : ScoredId) : Prop := c = ctx.scored query c.id ∧ c.id < n

section Rules
variable {α : Type} {post : α → Prop}

theorem returns_load {id word : Nat} {next : Nat → GraphProg α}
    (rest : ∀ value, (word ≠ 0 → value < n) → (next value).Returns (GraphOp.Inside n) post) :
    (load id level word >>= next).Returns (GraphOp.Inside n) post := rest

theorem returns_entry {next : HnswGraph.Entry → GraphProg α}
    (rest : ∀ e, (e.valid = true → e.id < n) → (next e).Returns (GraphOp.Inside n) post) :
    (entry >>= next).Returns (GraphOp.Inside n) post := rest

theorem returns_allocate {next : Bool → GraphProg α}
    (rest : ∀ grown, (next grown).Returns (GraphOp.Inside n) post) :
    (allocate >>= next).Returns (GraphOp.Inside n) post := fun grown _ => rest grown

end Rules

section Greedy

theorem greedyScan_returns {owner : Nat} {start : ScoredId} {left : Nat} : ∀ {i : Nat} {moved : Moved start},
    Genuine ctx query n moved.current →
    (ctx.greedyScan query level owner left i moved).Returns (GraphOp.Inside n) fun moved =>
      Genuine ctx query n moved.current := by
  induction left with
  | zero => exact fun genuine => genuine
  | succ left ih =>
    intro i moved genuine
    refine returns_load fun neighbor answered => ?_
    have inside : neighbor < n := answered (by omega)
    dsimp only
    split
    · exact ih ⟨rfl, inside⟩
    · exact ih genuine

theorem greedySearch_returns (current : ScoredId) (genuine : Genuine ctx query n current) :
    (ctx.greedySearch query level current).Returns (GraphOp.Inside n) (Genuine ctx query n) := by
  rw [greedySearch]
  refine returns_load fun size _ => ?_
  refine Prog.Returns.bind ((greedyScan_returns genuine).mono fun moved genuine => ?_)
  split
  next => exact greedySearch_returns moved.current genuine
  next => exact genuine
termination_by height current
decreasing_by exact height_lt (moved.less ‹_›)

theorem descend_returns {top : Nat} : ∀ {current : ScoredId}, Genuine ctx query n current →
    (ctx.descend query top level current).Returns (GraphOp.Inside n) (Genuine ctx query n) := by
  induction level with
  | zero => exact fun genuine => genuine
  | succ level ih =>
    intro current genuine
    rw [descend]
    split
    · exact Prog.Returns.bind ((greedySearch_returns current genuine).mono fun moved genuine => ih genuine)
    · exact genuine

end Greedy

section Layer

/-- The results of a search are the best of some nodes that it visited and may return. -/
structure Gathers (ctx : HnswContext) (hidden : Nat → Bool) (query n ef : Nat) (st : LayerState)
    (pushed : List ScoredId) : Prop where
  heap : st.results = BoundedMaxHeap.pushes ef pushed
  distinct : (pushed.map (·.id)).Nodup
  genuine : ∀ c ∈ pushed, Genuine ctx query n c ∧ hidden c.id = false
  visited : ∀ c ∈ pushed, st.visited.isFresh c.id = false

def Gathered (ctx : HnswContext) (hidden : Nat → Bool) (query n ef : Nat) (st : LayerState) : Prop :=
  ∃ pushed, Gathers ctx hidden query n ef st pushed

theorem Gathered.visit (gathered : Gathered ctx hidden query n ef st) {id : Nat}
    (inside : id < st.visited.marks.length) :
    Gathered ctx hidden query n ef { st with visited := st.visited.visit id } := by
  obtain ⟨pushed, gathers⟩ := gathered
  refine ⟨pushed, { gathers with visited := fun c member => ?_ }⟩
  rw [VisitedSet.isFresh_visit inside, gathers.visited c member, Bool.and_false]

theorem Gathered.offer (gathered : Gathered ctx hidden query n ef st) (genuine : Genuine ctx query n c)
    (inside : c.id < st.visited.marks.length) (fresh : st.visited.isFresh c.id = true) :
    Gathered ctx hidden query n ef (LayerState.offer { st with visited := st.visited.visit c.id } hidden c) := by
  cases shown : hidden c.id with
  | true =>
    have same : (LayerState.offer { st with visited := st.visited.visit c.id } hidden c).results =
        st.results := if_pos shown
    obtain ⟨pushed, gathers⟩ := gathered.visit inside
    exact ⟨pushed, { gathers with heap := same.trans gathers.heap }⟩
  | false =>
    have longer : (LayerState.offer { st with visited := st.visited.visit c.id } hidden c).results =
        st.results.push c :=
      if_neg (by rw [shown]; decide)
    obtain ⟨pushed, gathers⟩ := gathered
    have seen (x : ScoredId) (member : x ∈ pushed) : x.id ≠ c.id := by
      intro same
      have old := gathers.visited x member
      rw [same, fresh] at old
      cases old
    refine ⟨pushed ++ [c], ?_, ?_, ?_, ?_⟩
    · rw [longer, BoundedMaxHeap.pushes_append, gathers.heap]
    · rw [List.map_append, List.map_singleton, List.nodup_append]
      refine ⟨gathers.distinct, List.nodup_singleton _, ?_⟩
      rintro _ old _ new
      obtain ⟨x, member, rfl⟩ := List.mem_map.mp old
      rw [List.mem_singleton.mp new]
      exact seen x member
    · intro x member
      rcases List.mem_append.mp member with old | new
      · exact gathers.genuine x old
      · rw [List.mem_singleton.mp new]
        exact ⟨genuine, shown⟩
    · intro x member
      show (st.visited.visit c.id).isFresh x.id = false
      rw [VisitedSet.isFresh_visit inside]
      rcases List.mem_append.mp member with old | new
      · rw [gathers.visited x old, Bool.and_false]
      · rw [List.mem_singleton.mp new]
        simp

theorem seedLayer_returns {points : List ScoredId} : ∀ {st : LayerState}, Gathered ctx hidden query n ef st →
    (∀ c ∈ points, Genuine ctx query n c) →
    (seedLayer hidden points st).Returns (GraphOp.Inside n) fun r =>
      ∀ st ∈ r, Gathered ctx hidden query n ef st := by
  induction points with
  | nil =>
    rintro st gathered _ _ ⟨⟩
    exact gathered
  | cons point rest ih =>
    intro st gathered genuine
    obtain ⟨first, others⟩ := List.forall_mem_cons.mp genuine
    rw [seedLayer]
    split
    next inside =>
      split
      next fresh =>
        refine returns_allocate fun grown => ?_
        cases grown with
        | true => exact ih (gathered.offer first inside fresh) others
        | false => exact fun _ none => (by cases none)
      next => exact ih gathered others
    next => rintro ⟨⟩

theorem prefetchList_returns {visited : VisitedSet} {owner left : Nat} : ∀ {i : Nat},
    (prefetchList visited level owner left i).Returns (GraphOp.Inside n) fun _ => True := by
  induction left with
  | zero => exact trivial
  | succ left ih =>
    intro i
    refine returns_load fun neighbor _ => ?_
    split
    · exact ih
    · exact returns_load fun _ _ => ih

theorem scanLayer_returns {owner bound left : Nat} : ∀ {i : Nat} {st : { st : LayerState // st.cost ≤ bound }},
    Gathered ctx hidden query n ef st.1 →
    (ctx.scanLayer hidden query level owner bound left i st).Returns (GraphOp.Inside n) fun r =>
      ∀ st ∈ r, Gathered ctx hidden query n ef st.1 := by
  induction left with
  | zero =>
    rintro i st gathered _ ⟨⟩
    exact gathered
  | succ left ih =>
    rintro i ⟨st, within⟩ gathered
    refine returns_load fun neighbor answered => ?_
    have node : neighbor < n := answered (by omega)
    dsimp only
    split
    next inside =>
      split
      next fresh =>
        split
        · refine returns_allocate fun grown => ?_
          cases grown with
          | true => exact ih (gathered.offer (c := ctx.scored query neighbor) ⟨rfl, node⟩ inside fresh)
          | false => exact nofun
        · exact ih (gathered.visit inside)
      next => exact ih gathered
    next => exact nofun

theorem visitNeighbors_returns {owner : Nat} (gathered : Gathered ctx hidden query n ef st) :
    (ctx.visitNeighbors hidden query level owner st).Returns (GraphOp.Inside n) fun r =>
      ∀ st ∈ r, Gathered ctx hidden query n ef st.1 := by
  refine returns_load fun size _ => ?_
  split
  · exact Prog.Returns.bind (prefetchList_returns.mono fun _ _ => scanLayer_returns gathered)
  · exact scanLayer_returns gathered

theorem expandLayer_returns (st : LayerState) (gathered : Gathered ctx hidden query n ef st) :
    (ctx.expandLayer hidden query level st).Returns (GraphOp.Inside n) fun r =>
      ∀ st ∈ r, Gathered ctx hidden query n ef st := by
  have stop : (Prog.done (some st) : GraphProg (Option LayerState)).Returns (GraphOp.Inside n) fun r =>
      ∀ st ∈ r, Gathered ctx hidden query n ef st := by
    rintro _ ⟨⟩
    exact gathered
  rw [expandLayer]
  split
  next => exact stop
  next nearest front =>
    split
    · exact stop
    have popped : Gathered ctx hidden query n ef { st with candidates := st.candidates.pop } := by
      obtain ⟨pushed, gathers⟩ := gathered
      exact ⟨pushed, { gathers with }⟩
    refine Prog.Returns.bind ((visitNeighbors_returns popped).mono fun scanned gathers => ?_)
    match scanned with
    | none => exact nofun
    | some ⟨next, within⟩ =>
      have _cheaper : next.cost < st.cost := within.trans_lt (LayerState.cost_pop front)
      exact expandLayer_returns next (gathers _ rfl)
termination_by st.cost

/-- What a query may return: nodes that are not hidden, each once and with its own distance, at most `k`
of them, the nearest first if the distances are numbers. -/
structure SoundAnswers (ctx : HnswContext) (hidden : Nat → Bool) (query n k : Nat)
    (found : List ScoredId) : Prop where
  few : found.length ≤ k
  shown : ∀ c ∈ found, c.id < n ∧ hidden c.id = false
  scores : ∀ c ∈ found, c.distance = ctx.distance query c.id
  distinct : (found.map (·.id)).Nodup
  ascending : (∀ x, x < n → (ctx.distance query x).isNan = false) → found.Pairwise fun a b =>
    candidateLess a b = true

theorem SoundAnswers.take {k : Nat} {found : List ScoredId} (answers : SoundAnswers ctx hidden query n ef found) :
    SoundAnswers ctx hidden query n k (found.take k) where
  few := List.length_take_le k found
  shown := fun c member => answers.shown c (List.mem_of_mem_take member)
  scores := fun c member => answers.scores c (List.mem_of_mem_take member)
  distinct := answers.distinct.sublist ((List.take_sublist k found).map _)
  ascending := fun real => (answers.ascending real).sublist (List.take_sublist k found)

theorem Gathered.answers (gathered : Gathered ctx hidden query n ef st) :
    SoundAnswers ctx hidden query n ef st.results.sortAscending := by
  obtain ⟨pushed, gathers⟩ := gathered
  have perm := st.results.sortAscending_perm
  have source (c : ScoredId) (member : c ∈ st.results.sortAscending) : c ∈ pushed := by
    have inHeap := perm.mem_iff.mp member
    rw [gathers.heap] at inHeap
    exact BoundedMaxHeap.mem_pushes inHeap
  have distinct : (st.results.sortAscending.map (·.id)).Nodup := by
    rw [(perm.map _).nodup_iff, gathers.heap]
    exact BoundedMaxHeap.nodup_pushes gathers.distinct
  refine ⟨?_, ?_, ?_, distinct, ?_⟩
  · rw [perm.length_eq, gathers.heap]
    exact BoundedMaxHeap.length_pushes_le ef pushed
  · intro c member
    obtain ⟨⟨_, node⟩, shown⟩ := gathers.genuine c (source c member)
    exact ⟨node, shown⟩
  · intro c member
    obtain ⟨⟨same, _⟩, _⟩ := gathers.genuine c (source c member)
    exact congrArg ScoredId.distance same
  · intro real
    have numbers : Scored pushed := by
      intro c member
      obtain ⟨⟨same, node⟩, _⟩ := gathers.genuine c member
      rw [same]
      exact real c.id node
    have number (c : ScoredId) (member : c ∈ st.results.sortAscending) : c.distance.isNan = false :=
      numbers c (source c member)
    have keeps := BoundedMaxHeap.keeps_pushes ef numbers
    rw [← gathers.heap] at keeps
    have scored : Scored st.results.data := fun c member => number c (perm.mem_iff.mpr member)
    have sorted := BinaryHeap.sortAscending_sorted (candidateLess_sorts scored) keeps.ordered
    -- two results never tie, since their ids differ
    refine (sorted.and (List.pairwise_map.mp distinct)).imp_of_mem fun {a b} inA inB ⟨below, other⟩ => ?_
    rw [candidateLess_iff (number a inA) (number b inB)]
    exact lt_of_le_of_ne below fun same => other (ScoredId.key_inj same)

theorem searchLayer_returns {visited : VisitedSet} {points : List ScoredId}
    (genuine : ∀ c ∈ points, Genuine ctx query n c) :
    (ctx.searchLayer hidden visited query points ef level).Returns (GraphOp.Inside n) fun r =>
      ∀ found ∈ r, SoundAnswers ctx hidden query n ef found.1 := by
  have start : Gathered ctx hidden query n ef { visited := visited.reset, results := { capacity := ef } } :=
    ⟨[], rfl, List.nodup_nil, fun _ member => absurd member List.not_mem_nil,
      fun _ member => absurd member List.not_mem_nil⟩
  rw [searchLayer]
  split
  · rintro ⟨⟩
  refine Prog.Returns.bind ((seedLayer_returns start genuine).mono fun seeded gathered => ?_)
  cases seeded with
  | none => exact fun _ none => (by cases none)
  | some st =>
    refine Prog.Returns.bind ((expandLayer_returns st (gathered st rfl)).mono fun expanded gathered => ?_)
    cases expanded with
    | none => exact fun _ none => (by cases none)
    | some last =>
      rintro _ ⟨⟩
      exact (gathered last rfl).answers

end Layer

/-- The answer of a query, if it has the memory for it. -/
theorem searchWith_returns {visited : VisitedSet} {nodes : Nat} {knobs : SearchKnobs} :
    (ctx.searchWith hidden visited query nodes knobs).Returns (GraphOp.Inside n) fun r =>
      ∀ found ∈ r, SoundAnswers ctx hidden query n knobs.k found := by
  refine returns_entry fun entry answered => ?_
  split
  next valid =>
    refine returns_allocate fun grown => ?_
    cases grown with
    | false => exact nofun
    | true =>
      have genuine : Genuine ctx query n { distance := ctx.distance query entry.id, id := entry.id } :=
        ⟨rfl, answered valid⟩
      refine Prog.Returns.bind ((descend_returns genuine).mono fun current genuine => ?_)
      refine Prog.Returns.bind ((searchLayer_returns (fun c member => ?_)).mono fun found answers => ?_)
      · rw [List.mem_singleton.mp member]
        exact genuine
      · match found with
        | none => exact nofun
        | some (results, _) =>
          rintro _ ⟨⟩
          exact (answers _ rfl).take
  next =>
    rintro _ ⟨⟩
    exact ⟨Nat.zero_le _, nofun, nofun, List.nodup_nil, fun _ => List.Pairwise.nil⟩

end HnswContext
end VectorForge
