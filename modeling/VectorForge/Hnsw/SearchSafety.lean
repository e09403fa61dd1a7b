import VectorForge.Hnsw.LinkSteps
import VectorForge.Lib.Progress

/-! Searches that run while other insertions change the graph read only lists that exist and find
only published nodes of the levels they search. -/

namespace VectorForge

abbrev LinkOk (params : HnswParams) (mayFail : Nat → Prop) (solo : Option Nat) (i : Nat)
    {α : Type} (p : GraphProg α)
    (post : α → SharedGraph → LinkGhost → Prop) (s : SharedGraph) (γ : LinkGhost) : Prop :=
  (linkDiscipline params mayFail solo).Ok i p post s γ

/-- Node `x` is published and has a list on level `l`. -/
structure Known (l x : Nat) (s : SharedGraph) (γ : LinkGhost) : Prop where
  pub : γ.pub x
  node : x < s.graph.nodeCount
  high : l ≤ s.graph.level x

/-- The same for a program whose operations have other preconditions. -/
abbrev WalkOk (allowed : Nat → GraphOp → SharedGraph → Prop) (params : HnswParams) (mayFail : Nat → Prop)
    (solo : Option Nat) (i : Nat)
    {α : Type} (p : GraphProg α) (post : α → SharedGraph → LinkGhost → Prop) (s : SharedGraph)
    (γ : LinkGhost) : Prop :=
  ((linkDiscipline params mayFail solo).allowing allowed).Ok i p post s γ

section Known
variable {solo : Option Nat} {i l x : Nat} {s s₁ : SharedGraph} {γ γ₁ : LinkGhost}

theorem Known.later (known : Known l x s γ) (rely : LinkRely solo i s γ s₁ γ₁) : Known l x s₁ γ₁ where
  pub := rely.pub x known.pub
  node := known.node.trans_le rely.nodeCount_le
  high := known.high.trans (rely.level_eq known.node).ge

theorem Known.lower (known : Known l x s γ) {below : Nat} (le : below ≤ l) : Known below x s γ :=
  { known with high := le.trans known.high }

theorem Known.listed (known : Known l x s γ) : s.graph.hasList x l = true :=
  decide_eq_true ⟨known.node, known.high⟩

end Known

/-- What a search needs to be allowed: the entry point, memory, and the lists of known nodes. -/
class Admits (allowed : Nat → GraphOp → SharedGraph → Prop) (params : HnswParams) (solo : Option Nat)
    (i : Nat) : Prop where
  entry : ∀ {s γ}, LinkInv params solo s γ → allowed i .loadEntry s
  allocate : ∀ s, allowed i .allocate s
  count : ∀ {s γ c l}, LinkInv params solo s γ → Known l c s γ → allowed i (.load c l 0) s
  slot : ∀ {s γ c l k}, LinkInv params solo s γ → Known l c s γ → k < γ.high c l → allowed i (.load c l (1 + k)) s

instance {params : HnswParams} {solo : Option Nat} {i : Nat} : Admits SharedGraph.Allowed params solo i where
  entry := fun _ => trivial
  allocate := fun _ => trivial
  count := fun _ known => ⟨known.listed, Nat.zero_le _⟩
  slot := by
    intro s γ c l k inv known inside
    have bound := inv.high c l
    exact ⟨known.listed, by omega⟩

section Rules
variable {allowed : Nat → GraphOp → SharedGraph → Prop} {params : HnswParams} {mayFail : Nat → Prop}
  {solo : Option Nat} {i : Nat} {α : Type}
  {post : α → SharedGraph → LinkGhost → Prop} {s : SharedGraph} {γ : LinkGhost}

theorem ok_done {a : α} (holds : ∀ s₁ γ₁, LinkRely solo i s γ s₁ γ₁ → LinkInv params solo s₁ γ₁ → post a s₁ γ₁) :
    WalkOk allowed params mayFail solo i (.done a) post s γ := holds

/-- A step that leaves the shared state alone. -/
theorem ok_read {o : GraphOp} {next : o.Ret → GraphProg α}
    (rest : ∀ s₁ γ₁, LinkRely solo i s γ s₁ γ₁ → LinkInv params solo s₁ γ₁ → allowed i o s₁ ∧
      ∀ r s₂, SharedGraph.Does mayFail i o s₁ r s₂ → s₂ = s₁ ∧ WalkOk allowed params mayFail solo i
      (next r) post s₁ γ₁) :
    WalkOk allowed params mayFail solo i (.call o next) post s γ := by
  intro s₁ γ₁ rely inv
  obtain ⟨may, each⟩ := rest s₁ γ₁ rely inv
  refine ⟨may, ?_⟩
  intro r s₂ does
  obtain ⟨rfl, ok⟩ := each r s₂ does
  exact ⟨γ₁, inv, fun j _ => LinkRely.refl solo j s₂ γ₁, ok⟩

theorem ok_level {x : Nat} {next : Nat → GraphProg α} (node : x < s.graph.nodeCount)
    (rest : ∀ s₁ γ₁, LinkRely solo i s γ s₁ γ₁ → LinkInv params solo s₁ γ₁ →
      LinkOk params mayFail solo i (next (s.graph.level x)) post s₁ γ₁) :
    LinkOk params mayFail solo i (HnswContext.level x >>= next) post s γ := by
  refine ok_read ?_
  intro s₁ γ₁ rely inv
  refine ⟨node.trans_le rely.nodeCount_le, ?_⟩
  rintro r s₂ ⟨rfl, rfl⟩
  have same := rely.level_eq node
  refine ⟨rfl, ?_⟩
  rw [same]
  exact rest s₂ γ₁ rely inv

section Walks
variable [admits : Admits allowed params solo i]

theorem ok_entry {next : HnswGraph.Entry → GraphProg α}
    (rest : ∀ s₁ γ₁, LinkRely solo i s γ s₁ γ₁ → LinkInv params solo s₁ γ₁ →
      WalkOk allowed params mayFail solo i (next s₁.graph.entry) post s₁ γ₁) :
    WalkOk allowed params mayFail solo i (HnswContext.entry >>= next) post s γ := by
  refine ok_read ?_
  intro s₁ γ₁ rely inv
  refine ⟨admits.entry inv, ?_⟩
  rintro r s₂ ⟨rfl, rfl⟩
  exact ⟨rfl, rest s₂ γ₁ rely inv⟩

theorem ok_allocate {next : Bool → GraphProg α}
    (grown : ∀ s₁ γ₁, LinkRely solo i s γ s₁ γ₁ → LinkInv params solo s₁ γ₁ →
      WalkOk allowed params mayFail solo i (next true) post s₁ γ₁)
    (failed : ∀ s₁ γ₁, LinkRely solo i s γ s₁ γ₁ → LinkInv params solo s₁ γ₁ → mayFail i →
      WalkOk allowed params mayFail solo i (next false) post s₁ γ₁) :
    WalkOk allowed params mayFail solo i (HnswContext.allocate >>= next) post s γ := by
  refine ok_read ?_
  intro s₁ γ₁ rely inv
  refine ⟨admits.allocate s₁, ?_⟩
  rintro r s₂ ⟨rfl, fails⟩
  refine ⟨rfl, ?_⟩
  cases r with
  | true => exact grown s₂ γ₁ rely inv
  | false => exact failed s₂ γ₁ rely inv (fails rfl)

/-- The count of a list is never above its high-water mark. -/
theorem ok_count {c l : Nat} {next : Nat → GraphProg α} (known : Known l c s γ)
    (rest : ∀ n s₁ γ₁, LinkRely solo i s γ s₁ γ₁ → LinkInv params solo s₁ γ₁ → n ≤ γ₁.high c l →
      WalkOk allowed params mayFail solo i (next n) post s₁ γ₁) :
    WalkOk allowed params mayFail solo i (HnswContext.load c l 0 >>= next) post s γ := by
  refine ok_read ?_
  intro s₁ γ₁ rely inv
  have there := known.later rely
  refine ⟨admits.count inv there, ?_⟩
  rintro r s₂ ⟨rfl, rfl⟩
  exact ⟨rfl, rest _ s₂ γ₁ rely inv (inv.counts c l there.listed)⟩

/-- Below the high-water mark every slot holds a published node of the level. -/
theorem ok_slot {c l k : Nat} {next : Nat → GraphProg α} (known : Known l c s γ) (below : k < γ.high c l)
    (rest : ∀ v s₁ γ₁, LinkRely solo i s γ s₁ γ₁ → LinkInv params solo s₁ γ₁ → Known l v s₁ γ₁ →
      WalkOk allowed params mayFail solo i (next v) post s₁ γ₁) :
    WalkOk allowed params mayFail solo i (HnswContext.load c l (1 + k) >>= next) post s γ := by
  refine ok_read ?_
  intro s₁ γ₁ rely inv
  have inside : k < γ₁.high c l := below.trans_le (rely.high c l)
  refine ⟨admits.slot inv (known.later rely) inside, ?_⟩
  rintro r s₂ ⟨rfl, rfl⟩
  obtain ⟨pub, _, high⟩ := inv.may c l _ (inv.slots c l k inside)
  exact ⟨rfl, rest _ s₂ γ₁ rely inv ⟨pub, inv.inside _ pub, high⟩⟩

end Walks
end Rules

namespace HnswContext

section Greedy
variable {allowed : Nat → GraphOp → SharedGraph → Prop} {params : HnswParams} {mayFail : Nat → Prop}
  {solo : Option Nat} {i : Nat} {s₀ : SharedGraph} {γ₀ : LinkGhost}
  [Admits allowed params solo i] (ctx : HnswContext) {query level : Nat}

theorem greedyScan_ok {owner : Nat} {start : ScoredId} {left : Nat} :
    ∀ {k : Nat} {moved : Moved start} {s : SharedGraph}
    {γ : LinkGhost}, LinkRely solo i s₀ γ₀ s γ → Known level owner s γ → k + left ≤ γ.high owner level →
    Known level moved.current.id s γ →
    WalkOk allowed params mayFail solo i (ctx.greedyScan query level owner left k moved)
      (fun moved s γ => LinkRely solo i s₀ γ₀ s γ ∧ Known level moved.current.id s γ) s γ := by
  induction left with
  | zero =>
    intro k moved s γ since _ _ current
    refine ok_done ?_
    intro s₁ γ₁ rely _
    exact ⟨since.trans rely, current.later rely⟩
  | succ left ih =>
    intro k moved s γ since known below current
    refine ok_slot known (by omega) ?_
    intro neighbor s₁ γ₁ rely inv found
    have more := rely.high owner level
    dsimp only
    split
    · exact ih (since.trans rely) (known.later rely) (by omega) found
    · exact ih (since.trans rely) (known.later rely) (by omega) (current.later rely)

theorem greedySearch_ok (current : ScoredId) {s : SharedGraph} {γ : LinkGhost} (since : LinkRely solo i s₀ γ₀ s γ)
    (known : Known level current.id s γ) :
    WalkOk allowed params mayFail solo i (ctx.greedySearch query level current)
      (fun c s γ => LinkRely solo i s₀ γ₀ s γ ∧ Known level c.id s γ) s γ := by
  rw [greedySearch]
  refine ok_count known ?_
  intro size s₁ γ₁ rely inv bound
  have here := known.later rely
  refine Discipline.Ok.bind ?_ inv
  refine (ctx.greedyScan_ok (since.trans rely) here (by omega) here).mono ?_
  rintro moved s₂ γ₂ inv₂ ⟨since₂, known₂⟩
  split
  next changed => exact greedySearch_ok moved.current since₂ known₂
  next =>
    refine ok_done ?_
    intro s₃ γ₃ rely₃ _
    exact ⟨since₂.trans rely₃, known₂.later rely₃⟩
termination_by height current
decreasing_by exact height_lt (moved.less ‹_›)

theorem descend_ok {top : Nat} : ∀ {level : Nat} {current : ScoredId} {s : SharedGraph} {γ : LinkGhost},
    LinkInv params solo s γ → LinkRely solo i s₀ γ₀ s γ → Known level current.id s γ → top ≤ level →
    WalkOk allowed params mayFail solo i (ctx.descend query top level current)
      (fun c s γ => LinkRely solo i s₀ γ₀ s γ ∧ Known top c.id s γ) s γ := by
  intro level
  induction level with
  | zero =>
    intro current s γ _ since known below
    refine ok_done ?_
    intro s₁ γ₁ rely _
    exact ⟨since.trans rely, (known.later rely).lower below⟩
  | succ level ih =>
    intro current s γ inv since known below
    rw [descend]
    split
    · refine Discipline.Ok.bind ?_ inv
      refine (ctx.greedySearch_ok current since known).mono ?_
      rintro c s₁ γ₁ inv₁ ⟨since₁, known₁⟩
      exact ih inv₁ since₁ (known₁.lower (Nat.le_succ level)) (by omega)
    · refine ok_done ?_
      intro s₁ γ₁ rely _
      exact ⟨since.trans rely, (known.later rely).lower below⟩

end Greedy

section Layer
variable {allowed : Nat → GraphOp → SharedGraph → Prop} {params : HnswParams} {mayFail : Nat → Prop}
  {solo : Option Nat} {i : Nat} {s₀ : SharedGraph} {γ₀ : LinkGhost}
  (ctx : HnswContext) {hidden : Nat → Bool} {query level : Nat}

/-- What holds of the beam of a search on level `l`. -/
structure Beam (l : Nat) (st : LayerState) (s : SharedGraph) (γ : LinkGhost) : Prop where
  covers : s.graph.nodeCount ≤ st.visited.marks.length
  candidates : ∀ c ∈ st.candidates.data, Known l c.id s γ
  results : ∀ c ∈ st.results.data, Known l c.id s γ
  visited : ∀ c ∈ st.results.data, st.visited.isFresh c.id = false
  distinct : (st.results.data.map (·.id)).Nodup

/-- No other insertion runs alone, so nobody else adds nodes. -/
def NoOther (solo : Option Nat) (i : Nat) : Prop := ∀ j, solo = some j → j = i

section Beam
variable {l : Nat} {st : LayerState} {s s₁ : SharedGraph} {γ γ₁ : LinkGhost}

theorem nodeCount_fixed (only : NoOther solo i) (rely : LinkRely solo i s γ s₁ γ₁) :
    s₁.graph.nodeCount = s.graph.nodeCount := by
  rw [HnswGraph.nodeCount, rely.fixed only]
  rfl

theorem Beam.later (beam : Beam l st s γ) (only : NoOther solo i) (rely : LinkRely solo i s γ s₁ γ₁) :
    Beam l st s₁ γ₁ where
  covers := (nodeCount_fixed only rely).trans_le beam.covers
  candidates := fun c member => (beam.candidates c member).later rely
  results := fun c member => (beam.results c member).later rely
  visited := beam.visited
  distinct := beam.distinct

theorem Beam.visit (beam : Beam l st s γ) {id : Nat} (inside : id < st.visited.marks.length) :
    Beam l { st with visited := st.visited.visit id } s γ := by
  refine { beam with covers := ?_, visited := ?_ }
  · rw [VisitedSet.length_visit]
    exact beam.covers
  · intro c member
    rw [VisitedSet.isFresh_visit inside, beam.visited c member, Bool.and_false]

theorem Beam.offer (beam : Beam l st s γ) {c : ScoredId} (inside : c.id < st.visited.marks.length)
    (fresh : st.visited.isFresh c.id = true) (known : Known l c.id s γ) :
    Beam l (LayerState.offer { st with visited := st.visited.visit c.id } hidden c) s γ := by
  have marked := beam.visit inside
  have gone : c.id ∉ st.results.data.map (·.id) := by
    intro member
    obtain ⟨x, inResults, same⟩ := List.mem_map.mp member
    have old := beam.visited x inResults
    rw [same, fresh] at old
    cases old
  refine { covers := marked.covers, candidates := ?_, results := ?_, visited := ?_, distinct := ?_ }
  · intro x member
    rcases List.mem_cons.mp ((MinHeap.push_perm _ c).mem_iff.mp member) with rfl | old
    · exact known
    · exact beam.candidates x old
  · intro x member
    simp only [LayerState.offer] at member
    split at member
    · exact beam.results x member
    · rcases BoundedMaxHeap.mem_push member with rfl | old
      · exact known
      · exact beam.results x old
  · intro x member
    simp only [LayerState.offer] at member
    split at member
    · exact marked.visited x member
    · rcases BoundedMaxHeap.mem_push member with rfl | old
      · simp [LayerState.offer, VisitedSet.isFresh_visit inside]
      · exact marked.visited x old
  · simp only [LayerState.offer]
    split
    · exact beam.distinct
    · exact BoundedMaxHeap.nodup_push beam.distinct gone

theorem Beam.pop (beam : Beam l st s γ) {nearest : ScoredId} (front : st.candidates.top? = some nearest) :
    Beam l { st with candidates := st.candidates.pop } s γ :=
  { beam with candidates := fun c member => beam.candidates c (MinHeap.mem_pop front member) }

theorem Beam.nearest (beam : Beam l st s γ) {nearest : ScoredId} (front : st.candidates.top? = some nearest) :
    Known l nearest.id s γ :=
  beam.candidates nearest (List.mem_of_mem_head? front)

end Beam

section Walk
variable [Admits allowed params solo i]

theorem seedLayer_ok (only : NoOther solo i) {points : List ScoredId} : ∀ {st : LayerState} {s : SharedGraph}
    {γ : LinkGhost}, LinkRely solo i s₀ γ₀ s γ → Beam level st s γ → (∀ c ∈ points, Known level c.id s γ) →
    WalkOk allowed params mayFail solo i (seedLayer hidden points st)
      (fun r s γ => LinkRely solo i s₀ γ₀ s γ ∧ (r = none → mayFail i) ∧ ∀ st ∈ r, Beam level st s γ) s γ := by
  induction points with
  | nil =>
    intro st s γ since beam _
    refine ok_done ?_
    intro s₁ γ₁ rely _
    refine ⟨since.trans rely, nofun, ?_⟩
    rintro _ ⟨⟩
    exact beam.later only rely
  | cons point rest ih =>
    intro st s γ since beam known
    obtain ⟨first, others⟩ := List.forall_mem_cons.mp known
    have inside : point.id < st.visited.marks.length := first.node.trans_le beam.covers
    rw [seedLayer, if_pos inside]
    split
    next fresh =>
      refine ok_allocate ?_ ?_
      · intro s₁ γ₁ rely inv
        have beam₁ := beam.later only rely
        exact ih (since.trans rely) (beam₁.offer inside fresh (first.later rely)) fun c member =>
          (others c member).later rely
      · intro s₁ γ₁ rely inv fails
        refine ok_done ?_
        intro s₂ γ₂ rely₂ _
        exact ⟨(since.trans rely).trans rely₂, fun _ => fails, nofun⟩
    next => exact ih since beam others

theorem prefetchList_ok {visited : VisitedSet} {owner left : Nat} : ∀ {k : Nat} {s : SharedGraph} {γ : LinkGhost},
    LinkRely solo i s₀ γ₀ s γ → Known level owner s γ → k + left ≤ γ.high owner level →
    WalkOk allowed params mayFail solo i (prefetchList visited level owner left k)
      (fun _ s γ => LinkRely solo i s₀ γ₀ s γ) s γ := by
  induction left with
  | zero =>
    intro k s γ since _ _
    exact ok_done fun s₁ γ₁ rely _ => since.trans rely
  | succ left ih =>
    intro k s γ since known below
    refine ok_slot known (by omega) ?_
    intro neighbor s₁ γ₁ rely inv _
    have more := rely.high owner level
    split
    · exact ih (since.trans rely) (known.later rely) (by omega)
    · refine ok_slot (known.later rely) (by omega) ?_
      intro again s₂ γ₂ rely₂ _ _
      have still := rely₂.high owner level
      exact ih ((since.trans rely).trans rely₂) ((known.later rely).later rely₂) (by omega)

theorem scanLayer_ok (only : NoOther solo i) {owner bound left : Nat} : ∀ {k : Nat}
    {st : { st : LayerState // st.cost ≤ bound }} {s : SharedGraph} {γ : LinkGhost}, LinkRely solo i s₀ γ₀ s γ →
    Known level owner s γ → k + left ≤ γ.high owner level → Beam level st.1 s γ →
    WalkOk allowed params mayFail solo i (ctx.scanLayer hidden query level owner bound left k st)
      (fun r s γ => LinkRely solo i s₀ γ₀ s γ ∧ (r = none → mayFail i) ∧ ∀ st ∈ r, Beam level st.1 s γ) s γ := by
  induction left with
  | zero =>
    intro k st s γ since _ _ beam
    refine ok_done ?_
    intro s₁ γ₁ rely _
    refine ⟨since.trans rely, nofun, ?_⟩
    rintro _ ⟨⟩
    exact beam.later only rely
  | succ left ih =>
    rintro k ⟨st, within⟩ s γ since known below beam
    refine ok_slot known (by omega) ?_
    intro neighbor s₁ γ₁ rely inv found
    have more := rely.high owner level
    have beam₁ := beam.later only rely
    have inside : neighbor < st.visited.marks.length := found.node.trans_le beam₁.covers
    rw [dif_pos inside]
    split
    next fresh =>
      dsimp only
      split
      · refine ok_allocate ?_ ?_
        · intro s₂ γ₂ rely₂ inv₂
          have still := rely₂.high owner level
          have beam₂ : Beam level st s₂ γ₂ := beam₁.later only rely₂
          let candidate : ScoredId := { distance := ctx.distance query neighbor, id := neighbor }
          have offered : Beam level (LayerState.offer
              { st with visited := st.visited.visit neighbor } hidden candidate)
              s₂ γ₂ := beam₂.offer (c := candidate) inside fresh (found.later rely₂)
          exact ih ((since.trans rely).trans rely₂) ((known.later rely).later rely₂) (by omega) offered
        · intro s₂ γ₂ rely₂ inv₂ fails
          refine ok_done ?_
          intro s₃ γ₃ rely₃ _
          exact ⟨((since.trans rely).trans rely₂).trans rely₃, fun _ => fails, nofun⟩
      · exact ih (since.trans rely) (known.later rely) (by omega) (beam₁.visit inside)
    next => exact ih (since.trans rely) (known.later rely) (by omega) beam₁

theorem visitNeighbors_ok (only : NoOther solo i) {owner : Nat} {st : LayerState} {s : SharedGraph} {γ : LinkGhost}
    (since : LinkRely solo i s₀ γ₀ s γ) (known : Known level owner s γ) (beam : Beam level st s γ) :
    WalkOk allowed params mayFail solo i (ctx.visitNeighbors hidden query level owner st)
      (fun r s γ => LinkRely solo i s₀ γ₀ s γ ∧ (r = none → mayFail i) ∧ ∀ st ∈ r, Beam level st.1 s γ) s γ := by
  refine ok_count known ?_
  intro size s₁ γ₁ rely inv bound
  have since₁ := since.trans rely
  have known₁ := known.later rely
  have beam₁ := beam.later only rely
  split
  · refine Discipline.Ok.bind ?_ inv
    refine (prefetchList_ok (LinkRely.refl solo i s₁ γ₁) known₁ (by omega)).mono ?_
    intro _ s₂ γ₂ inv₂ rely₂
    have more := rely₂.high owner level
    exact ctx.scanLayer_ok only (since₁.trans rely₂) (known₁.later rely₂) (by omega) (beam₁.later only rely₂)
  · exact ctx.scanLayer_ok only since₁ known₁ (by omega) beam₁

theorem expandLayer_ok (only : NoOther solo i) (st : LayerState) {s : SharedGraph} {γ : LinkGhost}
    (inv : LinkInv params solo s γ) (since : LinkRely solo i s₀ γ₀ s γ) (beam : Beam level st s γ) :
    WalkOk allowed params mayFail solo i (ctx.expandLayer hidden query level st)
      (fun r s γ => LinkRely solo i s₀ γ₀ s γ ∧ (r = none → mayFail i) ∧ ∀ st ∈ r, Beam level st s γ) s γ := by
  have stop : WalkOk allowed params mayFail solo i (.done (some st))
      (fun r s γ => LinkRely solo i s₀ γ₀ s γ ∧ (r = none → mayFail i) ∧ ∀ st ∈ r, Beam level st s γ) s γ := by
    refine ok_done ?_
    intro s₁ γ₁ rely _
    refine ⟨since.trans rely, fun none => (by cases none), ?_⟩
    rintro _ ⟨⟩
    exact beam.later only rely
  rw [expandLayer]
  split
  next => exact stop
  next nearest front =>
  split
  · exact stop
  refine Discipline.Ok.bind ?_ inv
  refine (ctx.visitNeighbors_ok only since (beam.nearest front) (beam.pop front)).mono ?_
  rintro scanned s₁ γ₁ inv₁ ⟨since₁, fails, beam₁⟩
  rcases scanned with _ | ⟨next, within⟩
  · refine ok_done ?_
    intro s₂ γ₂ rely _
    exact ⟨since₁.trans rely, fun _ => fails rfl, fun _ none => (by cases none)⟩
  · have _cheaper : next.cost < st.cost := within.trans_lt (LayerState.cost_pop front)
    exact expandLayer_ok only next inv₁ since₁ (beam₁ _ rfl)
termination_by st.cost

end Walk

/-- What a search returns are known nodes of its level, each once. -/
structure Found (l : Nat) (found : List ScoredId) (s : SharedGraph) (γ : LinkGhost) : Prop where
  known : ∀ c ∈ found, Known l c.id s γ
  distinct : (found.map (·.id)).Nodup

theorem length_reset (visited : VisitedSet) : visited.reset.marks.length = visited.marks.length := by
  unfold VisitedSet.reset
  split
  · exact List.length_map ..
  · rfl

theorem searchLayer_ok [Admits allowed params solo i] (only : NoOther solo i) {visited : VisitedSet}
    {points : List ScoredId} {ef : Nat} {s : SharedGraph} {γ : LinkGhost} (inv : LinkInv params solo s γ)
    (since : LinkRely solo i s₀ γ₀ s γ) (wide : 1 ≤ ef)
    (covers : s.graph.nodeCount ≤ visited.marks.length) (known : ∀ c ∈ points, Known level c.id s γ) :
    WalkOk allowed params mayFail solo i (ctx.searchLayer hidden visited query points ef level)
      (fun r s γ => LinkRely solo i s₀ γ₀ s γ ∧ (r = none → mayFail i) ∧
        ∀ found visited, r = some (found, visited) →
          Found level found s γ ∧ s.graph.nodeCount ≤ visited.marks.length) s γ := by
  have start : Beam level { visited := visited.reset, results := { capacity := ef } } s γ :=
    ⟨covers.trans (length_reset visited).ge, nofun, nofun, nofun, List.nodup_nil⟩
  rw [searchLayer, if_neg (by omega)]
  refine Discipline.Ok.bind ?_ inv
  refine (seedLayer_ok only since start known).mono ?_
  rintro seeded s₁ γ₁ inv₁ ⟨since₁, fails, beam⟩
  match seeded with
  | none =>
    refine ok_done ?_
    intro s₂ γ₂ rely _
    exact ⟨since₁.trans rely, fun _ => fails rfl, nofun⟩
  | some st =>
    refine Discipline.Ok.bind ?_ inv₁
    refine (ctx.expandLayer_ok only st inv₁ since₁ (beam st rfl)).mono ?_
    rintro expanded s₂ γ₂ inv₂ ⟨since₂, fails₂, beam₂⟩
    match expanded with
    | none =>
      refine ok_done ?_
      intro s₃ γ₃ rely _
      exact ⟨since₂.trans rely, fun _ => fails₂ rfl, nofun⟩
    | some last =>
      refine ok_done ?_
      intro s₃ γ₃ rely _
      have final := (beam₂ last rfl).later only rely
      have perm := last.results.sortAscending_perm
      refine ⟨since₂.trans rely, nofun, ?_⟩
      rintro _ _ ⟨⟩
      refine ⟨⟨?_, ?_⟩, final.covers⟩
      · exact fun c member => final.results c (perm.mem_iff.mp member)
      · exact (perm.map _).nodup_iff.mpr final.distinct

end Layer

section FindNeighbors
variable {params : HnswParams} {mayFail : Nat → Prop} {solo : Option Nat} {i : Nat}
  {s₀ : SharedGraph} {γ₀ : LinkGhost} (ctx : HnswContext)

/-- One level of an insertion: the candidates of the search and at most `M` of them. -/
structure LayerOk (l : Nat) (layer : Layer) (s : SharedGraph) (γ : LinkGhost) : Prop where
  found : Found l layer.candidates s γ
  chosen : layer.selected.Subperm layer.candidates
  few : layer.selected.length ≤ ctx.params.M.toNat

theorem Found.later {l : Nat} {found : List ScoredId} {s s₁ : SharedGraph} {γ γ₁ : LinkGhost}
    (ok : Found l found s γ) (rely : LinkRely solo i s γ s₁ γ₁) : Found l found s₁ γ₁ :=
  { ok with known := fun c member => (ok.known c member).later rely }

variable {ctx} in
theorem LayerOk.later {l : Nat} {layer : Layer} {s s₁ : SharedGraph} {γ γ₁ : LinkGhost}
    (ok : ctx.LayerOk l layer s γ) (rely : LinkRely solo i s γ s₁ γ₁) : ctx.LayerOk l layer s₁ γ₁ :=
  { ok with found := ok.found.later rely }

/-- The layers of levels `0, 1, …, top`. -/
def LayersOk (top : Nat) (layers : List Layer) (s : SharedGraph) (γ : LinkGhost) : Prop :=
  layers.length = top + 1 ∧ ∀ l layer, layers[l]? = some layer → ctx.LayerOk l layer s γ

variable {ctx} in
theorem LayersOk.later {top : Nat} {layers : List Layer} {s s₁ : SharedGraph} {γ γ₁ : LinkGhost}
    (ok : ctx.LayersOk top layers s γ) (rely : LinkRely solo i s γ s₁ γ₁) : ctx.LayersOk top layers s₁ γ₁ :=
  ⟨ok.1, fun l layer at_ => (ok.2 l layer at_).later rely⟩

variable {ctx} in
theorem LayersOk.snoc {top : Nat} {layers : List Layer} {layer : Layer} {s : SharedGraph} {γ : LinkGhost}
    (ok : ctx.LayersOk top layers s γ) (last : ctx.LayerOk (top + 1) layer s γ) :
    ctx.LayersOk (top + 1) (layers ++ [layer]) s γ := by
  refine ⟨by rw [List.length_append, ok.1, List.length_singleton], ?_⟩
  intro l x at_
  rcases Nat.lt_or_ge l layers.length with below | past
  · rw [List.getElem?_append_left below] at at_
    exact ok.2 l x at_
  · rw [List.getElem?_append_right past, List.getElem?_singleton] at at_
    split at at_
    next zero =>
      cases at_
      have same : l = top + 1 := by have := ok.1; omega
      rw [same]
      exact last
    next => cases at_

theorem searchLevels_ok (only : NoOther solo i) (wide : 1 ≤ ctx.params.efConstruction.toNat) {id top : Nat} :
    ∀ {visited : VisitedSet} {points : List ScoredId} {s : SharedGraph} {γ : LinkGhost}, LinkInv params solo s γ →
    LinkRely solo i s₀ γ₀ s γ → s.graph.nodeCount ≤ visited.marks.length → (∀ c ∈ points, Known top c.id s γ) →
    LinkOk params mayFail solo i (ctx.searchLevels id top visited points)
      (fun r s γ => LinkRely solo i s₀ γ₀ s γ ∧ (r = none → mayFail i) ∧
        ∀ layers, r = some layers → ctx.LayersOk top layers s γ) s γ := by
  induction top generalizing s₀ γ₀ with
  | zero =>
    intro visited points s γ inv since covers known
    rw [searchLevels]
    refine Discipline.Ok.bind ?_ inv
    refine (ctx.searchLayer_ok only inv since wide covers known).mono ?_
    rintro found s₁ γ₁ inv₁ ⟨since₁, fails, ok⟩
    match found with
    | none =>
      refine ok_done ?_
      intro s₂ γ₂ rely _
      exact ⟨since₁.trans rely, fun _ => fails rfl, nofun⟩
    | some (candidates, visited) =>
      refine ok_done ?_
      intro s₂ γ₂ rely _
      refine ⟨since₁.trans rely, nofun, ?_⟩
      rintro _ ⟨⟩
      refine ⟨rfl, ?_⟩
      intro l layer at_
      rw [List.getElem?_singleton] at at_
      split at at_
      next zero =>
        cases at_
        rw [zero]
        exact ⟨(ok _ _ rfl).1.later rely, NeighborSelect.selectNeighbors_subperm ..,
          NeighborSelect.length_selectNeighbors ..⟩
      next => cases at_
  | succ below ih =>
    intro visited points s γ inv since covers known
    rw [searchLevels]
    refine Discipline.Ok.bind ?_ inv
    refine (ctx.searchLayer_ok only inv since wide covers known).mono ?_
    rintro found s₁ γ₁ inv₁ ⟨since₁, fails, ok⟩
    match found with
    | none =>
      refine ok_done ?_
      intro s₂ γ₂ rely _
      exact ⟨since₁.trans rely, fun _ => fails rfl, nofun⟩
    | some (candidates, visited) =>
      obtain ⟨here, covers₁⟩ := ok _ _ rfl
      refine Discipline.Ok.bind ?_ inv₁
      -- the lower levels start from all candidates of this one, which stay known meanwhile
      refine (ih inv₁ (LinkRely.refl solo i s₁ γ₁) covers₁ fun c member =>
        (here.known c member).lower (Nat.le_succ below)).mono ?_
      rintro rest s₂ γ₂ inv₂ ⟨rely₂, fails₂, lower⟩
      refine ok_done ?_
      intro s₃ γ₃ rely₃ _
      refine ⟨(since₁.trans rely₂).trans rely₃, ?_, ?_⟩
      · intro none
        exact fails₂ (Option.map_eq_none_iff.mp none)
      · intro layers some
        obtain ⟨lowerLayers, rfl, rfl⟩ := Option.map_eq_some_iff.mp some
        refine ((lower _ rfl).later rely₃).snoc ?_
        exact ⟨(here.later rely₂).later rely₃, NeighborSelect.selectNeighbors_subperm ..,
          NeighborSelect.length_selectNeighbors ..⟩

/-- The search of an insertion that starts from a known entry point. -/
theorem findNeighbors_ok (only : NoOther solo i) (wide : 1 ≤ ctx.params.efConstruction.toNat) {id top : Nat}
    {visited : VisitedSet} {e : HnswGraph.Entry} {s : SharedGraph} {γ : LinkGhost} (inv : LinkInv params solo s γ)
    (covers : s.graph.nodeCount ≤ visited.marks.length) (known : Known e.level e.id s γ) (low : top ≤ e.level) :
    LinkOk params mayFail solo i (ctx.findNeighbors visited id top e)
      (fun r s₁ γ₁ => LinkRely solo i s γ s₁ γ₁ ∧ (r = none → mayFail i) ∧
        ∀ layers, r = some layers → ctx.LayersOk top layers s₁ γ₁) s γ := by
  refine Discipline.Ok.bind ?_ inv
  refine (ctx.descend_ok inv (LinkRely.refl solo i s γ) known low).mono ?_
  rintro current s₁ γ₁ inv₁ ⟨since, found⟩
  refine ctx.searchLevels_ok only wide inv₁ since ((nodeCount_fixed only since).trans_le covers) ?_
  intro c member
  rw [List.mem_singleton.mp member]
  exact found

end FindNeighbors

end HnswContext
end VectorForge
