import VectorForge.Hnsw.QuietSearch

/-! The beam that a search of a quiet graph ends with, when no distance is a NaN. -/

namespace VectorForge

namespace BoundedMaxHeap

/-- The heap is full of candidates that are better than `c`. -/
def Beyond (h : BoundedMaxHeap) (c : ScoredId) : Prop := h.data.length = h.capacity ∧ ∀ d ∈ h.data, d.key < c.key

/-- What was out of reach stays so. -/
theorem Beyond.push {h : BoundedMaxHeap} {c : ScoredId} (beyond : h.Beyond c) (d : ScoredId) :
    (h.push d).Beyond c := by
  obtain ⟨full, better⟩ := beyond
  simp only [BoundedMaxHeap.push, BinaryHeap.pushBounded, if_neg (show ¬h.data.length < h.capacity by omega)]
  cases known : h.data with
  | nil =>
    rw [known] at full
    exact ⟨full, fun d member => absurd member List.not_mem_nil⟩
  | cons top rest =>
    rw [known] at full better
    dsimp only
    split
    next less =>
      have perm : (BinaryHeap.replaceTop candidateLess (top :: rest) d).Perm (d :: rest) :=
        BinaryHeap.replaceTop_perm
      refine ⟨perm.length_eq.trans full, fun e member => ?_⟩
      rcases List.mem_cons.mp (perm.mem_iff.mp member) with rfl | old
      · exact (key_lt_of_candidateLess less).trans (better top List.mem_cons_self)
      · exact better e (List.mem_cons_of_mem top old)
    next => exact ⟨full, better⟩

end BoundedMaxHeap

namespace HnswContext
variable {g : HnswGraph} {ctx : HnswContext} {hidden : Nat → Bool} {query level start ef : Nat} {busy : Nat → Prop}
  {st last : LayerState} {x y : Nat}

/-- A candidate that does not improve the results would not get into them. -/
theorem LayerState.push_of_not_improves {c : ScoredId} (worse : st.improves c = false) :
    st.results.push c = st.results := by
  simp only [LayerState.improves, Bool.or_eq_false_iff, Bool.not_eq_false'] at worse
  obtain ⟨full, worse⟩ := worse
  have whole : st.results.data.length = st.results.capacity := of_decide_eq_true full
  simp only [BoundedMaxHeap.push, BinaryHeap.pushBounded,
    if_neg (show ¬st.results.data.length < st.results.capacity by omega)]
  simp only [BoundedMaxHeap.top?] at worse
  cases known : st.results.data with
  | nil =>
    dsimp only
    rw [← known]
  | cons top rest =>
    rw [known] at worse
    dsimp only [List.head?_cons] at worse
    dsimp only
    rw [worse, if_neg Bool.false_ne_true, ← known]

/-- Every link of the node was visited. -/
def LayerState.Expanded (g : HnswGraph) (level : Nat) (st : LayerState) (x : Nat) : Prop :=
  ∀ y ∈ g.links x level, st.Visited y

/-- The distances of the nodes on the level. -/
def Real (ctx : HnswContext) (g : HnswGraph) (query level : Nat) : Prop :=
  ∀ x, g.hasList x level = true → (ctx.distance query x).isNan = false

/-- Nodes that can be reached along links of the level. -/
def Reaches (g : HnswGraph) (level : Nat) : Nat → Nat → Prop := Relation.ReflTransGen fun x y => y ∈ g.links x level

/-- The results are the best of the visited nodes that may be returned. -/
structure Best (ctx : HnswContext) (hidden : Nat → Bool) (query : Nat) (st : LayerState)
    (seen : List ScoredId) : Prop where
  keeps : BinaryHeap.Keeps ScoredId.key st.results.capacity seen st.results.data
  distinct : seen.Nodup
  members : ∀ c, c ∈ seen ↔ c = ctx.scored query c.id ∧ st.Visited c.id ∧ hidden c.id = false

/-- The loop invariant. Every visited node is waiting as a candidate, has been expanded, or is worse than a
full beam, except for those in `busy`, whose links are being read. -/
structure Searching (ctx : HnswContext) (g : HnswGraph) (hidden : Nat → Bool)
    (query level start : Nat) (busy : Nat → Prop) (st : LayerState) : Prop extends Walks g level st where
  scores : ∀ c ∈ st.candidates.data, c = ctx.scored query c.id
  known : ∀ c ∈ st.candidates.data, st.Visited c.id
  heap : BinaryHeap.Ordered (fun c : ScoredId => OrderDual.toDual c.key) st.candidates.data
    st.candidates.data.length
  origin : st.Visited start
  reached : ∀ x, st.Visited x → Reaches g level start x
  best : ∃ seen, Best ctx hidden query st seen
  settled : ∀ x, st.Visited x → busy x ∨ ctx.scored query x ∈ st.candidates.data ∨ st.Expanded g level x ∨
    st.results.Beyond (ctx.scored query x)

variable (ctx hidden query) in
/-- A node that is visited for the first time. -/
theorem LayerState.meet_fresh (fresh : st.visited.isFresh x = true) :
    (st.meet ctx hidden query x).visited = st.visited.visit x ∧
    (st.meet ctx hidden query x).results = (if hidden x then st.results else st.results.push (ctx.scored query x)) ∧
    (st.meet ctx hidden query x).candidates =
      (if st.improves (ctx.scored query x) then st.candidates.push (ctx.scored query x) else st.candidates) := by
  rw [LayerState.meet, if_pos fresh]
  cases better : st.improves (ctx.scored query x) with
  | true => exact ⟨rfl, rfl, rfl⟩
  | false =>
    refine ⟨rfl, ?_, rfl⟩
    rw [LayerState.push_of_not_improves better, ite_self]
    rfl

/-- One more node is visited. -/
theorem Best.meet {seen : List ScoredId} (best : Best ctx hidden query st seen) (real : Real ctx g query level)
    (walks : Walks g level st) (listed : g.hasList x level = true) (fresh : st.visited.isFresh x = true) :
    ∃ seen, Best ctx hidden query (st.meet ctx hidden query x) seen := by
  obtain ⟨visited, results, _⟩ := LayerState.meet_fresh ctx hidden query fresh
  have marked (y : Nat) : (st.meet ctx hidden query x).Visited y ↔ y = x ∨ st.Visited y := by
    rw [LayerState.Visited, visited]
    exact LayerState.visited_visit (walks.terrain.inside x listed)
  have unseen (c : ScoredId) (member : c ∈ seen) : c.id ≠ x := by
    intro same
    have old := ((best.members c).mp member).2.1
    rw [same, LayerState.Visited, fresh] at old
    cases old
  cases shown : hidden x with
  | true =>
    rw [shown, if_pos rfl] at results
    refine ⟨seen, ⟨results ▸ best.keeps, best.distinct, fun c => ?_⟩⟩
    rw [best.members, marked]
    refine and_congr_right fun _ => ⟨fun holds => ⟨.inr holds.1, holds.2⟩, fun holds => ⟨?_, holds.2⟩⟩
    rcases holds.1 with same | old
    · rw [same, shown] at holds
      cases holds.2
    · exact old
  | false =>
    rw [shown, if_neg Bool.false_ne_true] at results
    refine ⟨ctx.scored query x :: seen, ⟨?_, ?_, fun c => ?_⟩⟩
    · rw [results]
      refine best.keeps.push (candidateLess_sorts fun c member => ?_)
      rcases List.mem_cons.mp member with rfl | old
      · exact real x listed
      · obtain ⟨same, old, _⟩ := (best.members c).mp old
        rw [same]
        exact real c.id (walks.visited c.id old)
    · exact List.nodup_cons.mpr ⟨fun member => unseen _ member rfl, best.distinct⟩
    · rw [List.mem_cons, best.members, marked]
      constructor
      · rintro (rfl | ⟨same, old, live⟩)
        · exact ⟨rfl, .inl rfl, shown⟩
        · exact ⟨same, .inr old, live⟩
      · rintro ⟨same, rfl | old, live⟩
        · exact .inl same
        · exact .inr ⟨same, old, live⟩

/-- What is not better than the worst of a full beam. -/
theorem beyond_of_not_improves {seen : List ScoredId} (best : Best ctx hidden query st seen)
    (real : Real ctx g query level)
    (walks : Walks g level st) (listed : g.hasList x level = true) (fresh : st.visited.isFresh x = true)
    (worse : st.improves (ctx.scored query x) = false) : st.results.Beyond (ctx.scored query x) := by
  simp only [LayerState.improves, Bool.or_eq_false_iff, Bool.not_eq_false', BoundedMaxHeap.top?] at worse
  obtain ⟨full, worse⟩ := worse
  refine ⟨of_decide_eq_true full, fun d member => ?_⟩
  have inSeen (e : ScoredId) (inResults : e ∈ st.results.data) : e ∈ seen := by
    obtain ⟨rest, split, _⟩ := best.keeps.split
    exact split.mem_iff.mpr (List.mem_append_left rest inResults)
  have number (e : ScoredId) (inResults : e ∈ st.results.data) : e.distance.isNan = false := by
    obtain ⟨same, old, _⟩ := (best.members e).mp (inSeen e inResults)
    rw [same]
    exact real e.id (walks.visited e.id old)
  cases known : st.results.data with
  | nil =>
    rw [known] at member
    cases member
  | cons top rest =>
    have front : top ∈ st.results.data := by
      rw [known]
      exact List.mem_cons_self
    have ordered := best.keeps.ordered
    rw [known] at worse ordered member
    dsimp only [List.head?_cons] at worse
    have least : top.key ≤ (ctx.scored query x).key := by
      rw [← not_lt, ← candidateLess_iff (real x listed) (number top front), worse]
      exact Bool.false_ne_true
    refine lt_of_le_of_ne ((ordered.le_head member).trans least) fun same => ?_
    have id := ScoredId.key_inj same
    have old := ((best.members d).mp (inSeen d (known ▸ member))).2.1
    rw [id, LayerState.Visited, show (ctx.scored query x).id = x from rfl, fresh] at old
    cases old

namespace Searching

theorem real_candidates (searching : Searching ctx g hidden query level start busy st)
    (real : Real ctx g query level) : ∀ c ∈ st.candidates.data, c.distance.isNan = false := by
  intro c member
  rw [searching.scores c member]
  exact real c.id (searching.candidates c member)

/-- One link of a node that is being expanded. -/
theorem meet (searching : Searching ctx g hidden query level start busy st) (real : Real ctx g query level)
    (listed : g.hasList x level = true) (reached : Reaches g level start x) :
    Searching ctx g hidden query level start busy (st.meet ctx hidden query x) ∧
    (st.meet ctx hidden query x).Visited x ∧
      ∀ y, st.Visited y → (st.meet ctx hidden query x).Visited y := by
  cases fresh : st.visited.isFresh x with
  | false =>
    rw [LayerState.meet_old fresh]
    exact ⟨searching, fresh, fun _ seen => seen⟩
  | true =>
    have inside := searching.terrain.inside x listed
    obtain ⟨visited, results, candidates⟩ := LayerState.meet_fresh ctx hidden query fresh
    have walks : Walks g level (st.meet ctx hidden query x) := searching.toWalks.meet listed
    have seen (y : Nat) : (st.meet ctx hidden query x).Visited y ↔ y = x ∨ st.Visited y := by
      rw [LayerState.Visited, visited]
      exact LayerState.visited_visit inside
    have within (c : ScoredId) (member : c ∈ (st.meet ctx hidden query x).candidates.data) :
        c = ctx.scored query x ∧ st.improves (ctx.scored query x) = true ∨ c ∈ st.candidates.data := by
      rw [candidates] at member
      split at member
      next better =>
        exact (List.mem_cons.mp ((MinHeap.push_perm _ _).mem_iff.mp member)).imp_left fun same => ⟨same, better⟩
      next => exact .inr member
    have still (c : ScoredId) (member : c ∈ st.candidates.data) :
        c ∈ (st.meet ctx hidden query x).candidates.data := by
      rw [candidates]
      split
      · exact (MinHeap.push_perm _ _).mem_iff.mpr (List.mem_cons_of_mem _ member)
      · exact member
    have beyond (c : ScoredId) (far : st.results.Beyond c) : (st.meet ctx hidden query x).results.Beyond c := by
      rw [results]
      split
      · exact far
      · exact far.push _
    refine ⟨{ walks with
      scores := ?_
      known := ?_
      heap := ?_
      origin := (seen start).mpr (.inr searching.origin)
      reached := ?_
      best := ?_
      settled := ?_ }, (seen x).mpr (.inl rfl), fun y before => (seen y).mpr (.inr before)⟩
    · intro c member
      rcases within c member with ⟨rfl, _⟩ | old
      · rfl
      · exact searching.scores c old
    · intro c member
      rcases within c member with ⟨rfl, _⟩ | old
      · exact (seen x).mpr (.inl rfl)
      · exact (seen c.id).mpr (.inr (searching.known c old))
    · rw [candidates]
      split
      · refine BinaryHeap.push_ordered (MinHeap.greater_sorts fun c member => ?_) searching.heap
        rcases List.mem_cons.mp member with rfl | old
        · exact real x listed
        · exact searching.real_candidates real c old
      · exact searching.heap
    · intro y visited
      rcases (seen y).mp visited with rfl | before
      · exact reached
      · exact searching.reached y before
    · obtain ⟨old, best⟩ := searching.best
      exact best.meet real searching.toWalks listed fresh
    · intro y visited
      rcases (seen y).mp visited with rfl | before
      · cases better : st.improves (ctx.scored query y) with
        | true =>
          refine .inr (.inl ?_)
          rw [candidates, if_pos better]
          exact (MinHeap.push_perm _ _).mem_iff.mpr List.mem_cons_self
        | false =>
          obtain ⟨old, best⟩ := searching.best
          exact .inr
            (.inr (.inr (beyond _ (beyond_of_not_improves best real searching.toWalks listed fresh better))))
      · rcases searching.settled y before with waits | waits | done | far
        · exact .inl waits
        · exact .inr (.inl (still _ waits))
        · exact .inr (.inr (.inl fun z link => (seen z).mpr (.inr (done z link))))
        · exact .inr (.inr (.inr (beyond _ far)))

theorem foldl {links : List Nat} (searching : Searching ctx g hidden query level start busy st)
    (real : Real ctx g query level)
    (listed : ∀ y ∈ links, g.hasList y level = true) (reached : ∀ y ∈ links, Reaches g level start y) :
    Searching ctx g hidden query level start busy (links.foldl (LayerState.meet ctx hidden query) st) ∧
      (∀ y ∈ links, (links.foldl (LayerState.meet ctx hidden query) st).Visited y) ∧
      ∀ y, st.Visited y → (links.foldl (LayerState.meet ctx hidden query) st).Visited y := by
  induction links generalizing st with
  | nil => exact ⟨searching, nofun, fun _ seen => seen⟩
  | cons x links ih =>
    obtain ⟨next, here, before⟩ := searching.meet real (listed x List.mem_cons_self) (reached x List.mem_cons_self)
    obtain ⟨last, rest, earlier⟩ := ih next (fun y member => listed y (List.mem_cons_of_mem x member))
      fun y member => reached y (List.mem_cons_of_mem x member)
    refine ⟨last, fun y member => ?_, fun y seen => earlier y (before y seen)⟩
    rcases List.mem_cons.mp member with rfl | later
    · exact earlier y here
    · exact rest y later

theorem candidates_front {nearest : ScoredId} (front : st.candidates.top? = some nearest) :
    (nearest :: st.candidates.pop.data).Perm st.candidates.data := by
  obtain ⟨rest, same⟩ := List.head?_eq_some_iff.mp front
  rw [MinHeap.pop, same]
  exact BinaryHeap.pop_perm

theorem pop (searching : Searching ctx g hidden query level start (fun _ => False) st)
    (real : Real ctx g query level) {nearest : ScoredId} (front : st.candidates.top? = some nearest) :
    Searching ctx g hidden query level start (fun x => x = nearest.id)
      { st with candidates := st.candidates.pop } := by
  have perm := candidates_front front
  have old (c : ScoredId) (member : c ∈ st.candidates.pop.data) : c ∈ st.candidates.data :=
    perm.mem_iff.mp (List.mem_cons_of_mem nearest member)
  refine { searching.toWalks.pop front with
    scores := fun c member => searching.scores c (old c member)
    known := fun c member => searching.known c (old c member)
    heap := BinaryHeap.pop_ordered (MinHeap.greater_sorts (searching.real_candidates real)) searching.heap
    origin := searching.origin
    reached := searching.reached
    best := searching.best.imp fun _ best => ⟨best.keeps, best.distinct, best.members⟩
    settled := ?_ }
  intro x seen
  rcases searching.settled x seen with waits | waits | done | far
  · exact waits.elim
  · rcases List.mem_cons.mp (perm.mem_iff.mpr waits) with same | later
    · exact .inl (congrArg ScoredId.id same)
    · exact .inr (.inl later)
  · exact .inr (.inr (.inl done))
  · exact .inr (.inr (.inr far))

theorem expand (searching : Searching ctx g hidden query level start (fun _ => False) st)
    (real : Real ctx g query level) {nearest : ScoredId} (front : st.candidates.top? = some nearest) :
    Searching ctx g hidden query level start (fun _ => False) (st.expand ctx g hidden query level nearest) := by
  have member := List.mem_of_mem_head? front
  have here := searching.reached nearest.id (searching.known nearest member)
  obtain ⟨next, visited, _⟩ := (searching.pop real front).foldl real
    (fun y link => searching.terrain.closed _ _ (searching.candidates nearest member) link)
    fun y link => here.tail link
  refine { next with settled := fun x seen => ?_ }
  rcases next.settled x seen with rfl | rest
  · exact .inr (.inr (.inl visited))
  · exact .inr rest

/-- When the loop ends, every visited node has been expanded or is worse than a full beam. -/
theorem ends (searching : Searching ctx g hidden query level start (fun _ => False) st)
    (real : Real ctx g query level) (explores : Explores ctx g hidden query level st last) :
    Searching ctx g hidden query level start (fun _ => False) last ∧
      ∀ x, last.Visited x → last.Expanded g level x ∨ last.results.Beyond (ctx.scored query x) := by
  induction explores with
  | @empty st front =>
    refine ⟨searching, fun x seen => ?_⟩
    rcases searching.settled x seen with waits | waits | rest
    · exact waits.elim
    · rw [List.head?_eq_none_iff.mp front] at waits
      cases waits
    · exact rest
  | @exhausted st nearest front far =>
    refine ⟨searching, fun x seen => ?_⟩
    rcases searching.settled x seen with waits | waits | rest
    · exact waits.elim
    · -- no candidate is closer than the nearest, which is worse than the worst result
      refine .inr ?_
      simp only [LayerState.exhausted, Bool.and_eq_true, BoundedMaxHeap.top?] at far
      obtain ⟨full, far⟩ := far
      refine ⟨of_decide_eq_true full, fun d member => ?_⟩
      have closest : nearest.key ≤ (ctx.scored query x).key := by
        obtain ⟨rest, same⟩ := List.head?_eq_some_iff.mp front
        have heap := searching.heap
        rw [same] at heap waits
        exact heap.le_head waits
      obtain ⟨seen, best⟩ := searching.best
      have ordered := best.keeps.ordered
      cases known : st.results.data with
      | nil =>
        rw [known] at member
        cases member
      | cons worst others =>
        rw [known] at far ordered member
        exact ((ordered.le_head member).trans_lt (key_lt_of_candidateLess far)).trans_le closest
    · exact rest
  | step front _ _ ih => exact ih (searching.expand real front)

end Searching

variable (hidden) in
theorem searching_start {visited : VisitedSet} (wide : 1 ≤ ef) (real : Real ctx g query level)
    (terrain : Terrain g level visited.marks.length)
    (settled : visited.Settled) (listed : g.hasList x level = true) :
    Searching ctx g hidden query level x (fun _ => False) (startLayer hidden visited ef (ctx.scored query x)) := by
  have inside : x < visited.reset.marks.length := by
    rw [VisitedSet.length_reset]
    exact terrain.inside x listed
  have only (y : Nat) : (startLayer hidden visited ef (ctx.scored query x)).Visited y ↔ y = x := by
    have marks : (startLayer hidden visited ef (ctx.scored query x)).Visited y ↔
        LayerState.Visited { emptyLayer visited ef with visited := (emptyLayer visited ef).visited.visit x } y :=
        Iff.rfl
    rw [marks, LayerState.visited_visit inside, LayerState.Visited, emptyLayer_fresh settled]
    simp
  have waiting (c : ScoredId) (member : c ∈ (startLayer hidden visited ef (ctx.scored query x)).candidates.data) :
      c = ctx.scored query x := by
    rcases List.mem_cons.mp ((MinHeap.push_perm _ _).mem_iff.mp member) with same | none
    · exact same
    · cases none
  refine { walks_start terrain settled listed with
    scores := fun c member => by rw [waiting c member]; rfl
    known := fun c member => (only c.id).mpr (congrArg ScoredId.id (waiting c member))
    heap := ?_
    origin := (only x).mpr rfl
    reached := ?_
    best := ?_
    settled := ?_ }
  · refine BinaryHeap.push_ordered (MinHeap.greater_sorts fun c member => ?_) fun i _ bound =>
      absurd bound (Nat.not_lt_zero i)
    rw [List.mem_singleton.mp member]
    exact real x listed
  · intro y seen
    rw [(only y).mp seen]
    exact .refl
  · have first : Best ctx hidden query (emptyLayer visited ef) [] := by
      refine ⟨.nil _ _, List.nodup_nil, fun c => ⟨fun member => absurd member List.not_mem_nil, fun holds => ?_⟩⟩
      have seen := holds.2.1
      rw [LayerState.Visited, emptyLayer_fresh settled] at seen
      cases seen
    have room : (emptyLayer visited ef).improves (ctx.scored query x) = true := by
      have free : (emptyLayer visited ef).results.full = false := decide_eq_false (by
        change ¬0 = ef
        omega)
      rw [LayerState.improves, free]
      rfl
    have same : (emptyLayer visited ef).meet ctx hidden query x = startLayer hidden visited ef
        (ctx.scored query x) := by
      rw [LayerState.meet, if_pos (emptyLayer_fresh settled ef x), if_pos room]
      rfl
    rw [← same]
    exact first.meet real (walks_empty terrain settled) listed (emptyLayer_fresh settled ef x)
  · intro y seen
    rw [(only y).mp seen]
    exact .inr (.inl ((MinHeap.push_perm _ _).mem_iff.mpr List.mem_cons_self))

theorem LayerState.capacity_meet (st : LayerState) (x : Nat) :
    (st.meet ctx hidden query x).results.capacity = st.results.capacity := by
  rw [LayerState.meet]
  split
  · split
    · rw [LayerState.offer]
      dsimp only
      split <;> rfl
    · rfl
  · rfl

theorem LayerState.capacity_foldl : ∀ (links : List Nat) (st : LayerState),
    (links.foldl (LayerState.meet ctx hidden query) st).results.capacity = st.results.capacity
  | [], _ => rfl
  | x :: links, st => (capacity_foldl links (st.meet ctx hidden query x)).trans (st.capacity_meet x)

theorem Explores.capacity (explores : Explores ctx g hidden query level st last) :
    last.results.capacity = st.results.capacity := by
  induction explores with
  | empty => rfl
  | exhausted => rfl
  | step _ _ _ ih => exact ih.trans (LayerState.capacity_foldl _ _)

theorem capacity_start {visited : VisitedSet} {point : ScoredId} :
    (startLayer hidden visited ef point).results.capacity = ef := by
  rw [startLayer, LayerState.offer]
  dsimp only
  split <;> rfl

theorem Walks.reaches (walks : Walks g level st) (seen : st.Visited start) (reached : Reaches g level start x) :
    g.hasList x level = true := by
  induction reached with
  | refl => exact walks.visited start seen
  | tail _ link ih => exact walks.terrain.closed _ _ ih link

/-- The nodes that may be returned. -/
def shown (g : HnswGraph) (hidden : Nat → Bool) : Finset Nat :=
  (Finset.range g.nodeCount).filter fun x => hidden x = false

/-- A beam of at most `ef` nodes around `start`, in ascending order: a node that is linked to one of them but is not
among them is worse than all of them, and then there is no more room. -/
structure FinalBeam (ctx : HnswContext) (g : HnswGraph) (hidden : Nat → Bool) (query level start ef : Nat)
    (beam : List ScoredId) : Prop where
  sorted : beam.Pairwise fun a b => a.key < b.key
  few : beam.length ≤ ef
  members : ∀ c ∈ beam, c = ctx.scored query c.id ∧ c.id < g.nodeCount ∧ hidden c.id = false ∧
    Reaches g level start c.id
  closed : ∀ c ∈ beam, ∀ y ∈ g.links c.id level, hidden y = false →
    ctx.scored query y ∈ beam ∨ beam.length = ef ∧ ∀ d ∈ beam, d.key < (ctx.scored query y).key
  whole : (shown g hidden).card ≤ ef → ∀ x, Reaches g level start x → hidden x = false → ctx.scored query x ∈ beam

/-- What is not among the results of a search that has ended. -/
theorem Best.absent {seen : List ScoredId} (best : Best ctx hidden query st seen) (visited : st.Visited x)
    (live : hidden x = false) : ctx.scored query x ∈ st.results.data ∨ st.results.Beyond (ctx.scored query x) := by
  have member : ctx.scored query x ∈ seen := (best.members _).mpr ⟨rfl, visited, live⟩
  obtain ⟨rest, split, smaller⟩ := best.keeps.split
  rcases List.mem_append.mp (split.mem_iff.mp member) with inside | outside
  · exact .inl inside
  · refine .inr ⟨?_, fun d inResults => lt_of_le_of_ne (smaller d inResults _ outside) fun same => ?_⟩
    · have total := split.length_eq
      have some : 0 < rest.length := List.length_pos_of_mem outside
      have count := best.keeps.count
      rw [List.length_append] at total
      omega
    · -- each candidate was seen once
      have known := ((best.members d).mp (split.mem_iff.mpr (List.mem_append_left rest inResults))).1
      rw [ScoredId.key_inj same] at known
      have distinct := (split.nodup_iff.mp best.distinct)
      exact (List.disjoint_of_nodup_append distinct) inResults (known ▸ outside)

theorem Searching.finalBeam (searching : Searching ctx g hidden query level start (fun _ => False) last)
    (capacity : last.results.capacity = ef)
    (done : ∀ x, last.Visited x → last.Expanded g level x ∨ last.results.Beyond (ctx.scored query x))
    (real : Real ctx g query level) : FinalBeam ctx g hidden query level start ef last.results.sortAscending := by
  obtain ⟨seen, best⟩ := searching.best
  have perm := last.results.sortAscending_perm
  have member (c : ScoredId) : c ∈ last.results.sortAscending ↔ c ∈ last.results.data := perm.mem_iff
  have known (c : ScoredId) (inResults : c ∈ last.results.data) : c = ctx.scored query c.id ∧ last.Visited c.id ∧
      hidden c.id = false := by
    obtain ⟨rest, split, _⟩ := best.keeps.split
    exact (best.members c).mp (split.mem_iff.mpr (List.mem_append_left rest inResults))
  have few : last.results.data.length ≤ ef := by
    rw [best.keeps.count, capacity]
    exact min_le_left _ _
  have node (x : Nat) (listed : g.hasList x level = true) : x < g.nodeCount := (of_decide_eq_true listed).1
  refine { sorted := ?_, few := perm.length_eq.trans_le few, members := ?_, closed := ?_, whole := ?_ }
  · have sorts : BinaryHeap.Sorts candidateLess ScoredId.key last.results.data :=
      candidateLess_sorts fun c inResults => by
      rw [(known c inResults).1]
      exact real c.id (searching.visited c.id (known c inResults).2.1)
    have ascending := BinaryHeap.sortAscending_sorted sorts best.keeps.ordered
    have distinct : (last.results.sortAscending.map (·.id)).Nodup := (perm.map _).nodup_iff.mpr searching.distinct
    refine (ascending.and (List.pairwise_map.mp distinct)).imp ?_
    rintro a b ⟨below, other⟩
    exact lt_of_le_of_ne below fun same => other (ScoredId.key_inj same)
  · intro c inBeam
    obtain ⟨same, visited, live⟩ := known c ((member c).mp inBeam)
    exact ⟨same, node _ (searching.visited c.id visited), live, searching.reached c.id visited⟩
  · intro c inBeam y link live
    have inResults := (member c).mp inBeam
    obtain ⟨same, visited, _⟩ := known c inResults
    rcases done c.id visited with expanded | far
    · rcases best.absent (expanded y link) live with inside | beyond
      · exact .inl ((member _).mpr inside)
      · refine .inr ⟨?_, fun d inBeam => beyond.2 d ((member d).mp inBeam)⟩
        rw [perm.length_eq, beyond.1, capacity]
    · rw [← same] at far
      exact absurd (far.2 c inResults) (lt_irrefl _)
  · intro small x reached live
    have listed := searching.toWalks.reaches searching.origin reached
    rw [member]
    by_cases full : last.results.data.length = ef
    · -- the beam has room for all nodes that may be returned, and no more room
      have inside : (last.results.data.map (·.id)).toFinset ⊆ shown g hidden := by
        intro y inResults
        obtain ⟨c, inData, rfl⟩ := List.mem_map.mp (List.mem_toFinset.mp inResults)
        obtain ⟨_, visited, live⟩ := known c inData
        exact Finset.mem_filter.mpr ⟨Finset.mem_range.mpr (node _ (searching.visited c.id visited)), live⟩
      have count : (last.results.data.map (·.id)).toFinset.card = ef := by
        rw [List.toFinset_card_of_nodup searching.distinct, List.length_map, full]
      have all := Finset.eq_of_subset_of_card_le inside (by omega)
      have here : x ∈ shown g hidden := Finset.mem_filter.mpr ⟨Finset.mem_range.mpr (node x listed), live⟩
      rw [← all] at here
      obtain ⟨c, inData, rfl⟩ := List.mem_map.mp (List.mem_toFinset.mp here)
      rw [← (known c inData).1]
      exact inData
    · have room (c : ScoredId) : ¬last.results.Beyond c := fun beyond => full (beyond.1.trans capacity)
      have visited (y : Nat) (path : Reaches g level start y) : last.Visited y := by
        induction path with
        | refl => exact searching.origin
        | tail _ link ih =>
          rcases done _ ih with expanded | beyond
          · exact expanded _ link
          · exact absurd beyond (room _)
      rcases best.absent (visited x reached) live with inside | beyond
      · exact inside
      · exact absurd beyond (room _)

end HnswContext
end VectorForge
