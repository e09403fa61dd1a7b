import VectorForge.Hnsw.InsertSafety

/-! Insertions one after the other and sections of concurrent insertions, from any graph at rest. -/

namespace VectorForge
open HnswContext (Quiet Unborn Ended Added NoOther noOther_none noOther_self)

/-- A graph that no insertion is working on. The nodes in `lost` have been added but never linked:
they are reachable from nowhere, and the entry point need not be as high as they are. -/
structure Resting (params : HnswParams) (lost : Nat → Prop) (s : SharedGraph) : Prop where
  free : ∀ k, s.stripes k = none
  top : s.top = none
  m : s.graph.m = params.M.toNat
  maxLevel : s.graph.maxLevel = params.maxLevel.toNat
  laid : s.graph.Laid
  room : s.graph.nodeCount ≤ kMaxVectorsPerCollection
  tops : ∀ x, x < s.graph.nodeCount → s.graph.level x ≤ s.graph.maxLevel
  entry : s.graph.entry.valid = true → s.graph.entry.id < s.graph.nodeCount ∧ ¬lost s.graph.entry.id ∧
    s.graph.level s.graph.entry.id = s.graph.entry.level
  reach : ∀ x, x < s.graph.nodeCount → ¬lost x → s.graph.entry.valid = true ∧ s.graph.level x ≤ s.graph.entry.level
  counts : ∀ c l, s.graph.hasList c l = true → (s.graph.links c l).length ≤ s.graph.capacity l
  members : ∀ c l v, s.graph.hasList c l = true → v ∈ s.graph.links c l →
    v < s.graph.nodeCount ∧ ¬lost v ∧ v ≠ c ∧ l ≤ s.graph.level v
  distinct : ∀ c l, s.graph.hasList c l = true → (s.graph.links c l).Nodup
  written : ∀ x, x < s.graph.nodeCount → ¬lost x → ∀ l, l < s.joined x → s.stored x l = true
  fresh : ∀ x, s.graph.nodeCount ≤ x → s.joined x = 0

namespace Resting
variable {params : HnswParams} {lost : Nat → Prop} {s : SharedGraph}

/-- The auxiliary state of a graph at rest: everything that is not lost is published, and the lists
hold what they hold. -/
def ghost (lost : Nat → Prop) (s : SharedGraph) : LinkGhost where
  pub := fun x => x < s.graph.nodeCount ∧ ¬lost x
  may := fun c l v => s.graph.hasList c l = true ∧ v ∈ s.graph.links c l
  high := fun c l => if s.graph.hasList c l then s.graph.words c l 0 else 0
  dirty := fun _ => none

theorem inv (rest : Resting params lost s) (solo : Option Nat) : LinkInv params solo s (ghost lost s) where
  m := rest.m
  maxLevel := rest.maxLevel
  laid := rest.laid
  room := rest.room
  tops := rest.tops
  inside := fun _ known => known.1
  counts := fun _ _ listed => (if_pos listed).ge
  high := by
    intro c l
    simp only [ghost]
    split
    next listed =>
      have bound := rest.counts c l listed
      rwa [HnswGraph.length_links] at bound
    next => exact Nat.zero_le _
  unlisted := by
    intro c l missing
    exact if_neg (by rw [missing]; decide)
  slots := by
    intro c l k below
    simp only [ghost] at below ⊢
    split at below
    next listed => exact ⟨listed, List.mem_map_of_mem (List.mem_range.mpr below)⟩
    next => exact absurd below (Nat.not_lt_zero k)
  may := by
    rintro c l v ⟨listed, member⟩
    obtain ⟨node, kept, other, high⟩ := rest.members c l v listed member
    exact ⟨⟨node, kept⟩, other, high⟩
  distinct := fun c l listed _ => rest.distinct c l listed
  locked := nofun
  entry := by
    intro valid
    obtain ⟨node, kept, level⟩ := rest.entry valid
    exact ⟨⟨node, kept⟩, level⟩
  reach := fun x known => (rest.reach x known.1 known.2).imp_right .inl
  written := fun x known => rest.written x known.1 known.2

theorem congr {lost' : Nat → Prop} (rest : Resting params lost s)
    (same : ∀ x, x < s.graph.nodeCount → (lost' x ↔ lost x)) : Resting params lost' s :=
  { rest with
    entry := fun valid =>
      have ok := rest.entry valid
      ⟨ok.1, fun gone => ok.2.1 ((same _ ok.1).mp gone), ok.2.2⟩
    reach := fun x node here => rest.reach x node fun gone => here ((same x node).mpr gone)
    members := fun c l v listed member =>
      have ok := rest.members c l v listed member
      ⟨ok.1, fun gone => ok.2.1 ((same v ok.1).mp gone), ok.2.2⟩
    written := fun x node here => rest.written x node fun gone => here ((same x node).mpr gone) }

theorem quiet (rest : Resting params lost s) (i : Nat) : Quiet i s (ghost lost s) := by
  refine ⟨?_, rfl⟩
  intro k held
  rw [rest.free k] at held
  cases held

/-- Whatever ran in between, a graph is at rest again once all insertions are quiet. -/
theorem of_inv {solo : Option Nat} {γ : LinkGhost} (inv : LinkInv params solo s γ) (quiet : ∀ i, Quiet i s γ)
    (top : ∀ i, s.top ≠ some i) (gone : ∀ x, lost x → ¬γ.pub x)
    (kept : ∀ x, x < s.graph.nodeCount → ¬lost x →
      s.graph.entry.valid = true ∧ s.graph.level x ≤ s.graph.entry.level ∧ ∀ l, l < s.joined x →
      s.stored x l = true)
    (fresh : ∀ x, s.graph.nodeCount ≤ x → s.joined x = 0) : Resting params lost s where
  free := fun k => Option.eq_none_iff_forall_ne_some.mpr fun i => (quiet i).free k
  top := Option.eq_none_iff_forall_ne_some.mpr top
  m := inv.m
  maxLevel := inv.maxLevel
  laid := inv.laid
  room := inv.room
  tops := inv.tops
  entry := by
    intro valid
    obtain ⟨known, level⟩ := inv.entry valid
    exact ⟨inv.inside _ known, fun none => gone _ none known, level⟩
  reach := fun x node here => ⟨(kept x node here).1, (kept x node here).2.1⟩
  counts := by
    intro c l listed
    rw [HnswGraph.length_links]
    exact (inv.counts c l listed).trans (inv.high c l)
  members := by
    intro c l v listed member
    obtain ⟨k, inside, rfl⟩ := List.mem_map.mp member
    have below : k < γ.high c l := (List.mem_range.mp inside).trans_le (inv.counts c l listed)
    obtain ⟨known, other, high⟩ := inv.may c l _ (inv.slots c l k below)
    exact ⟨inv.inside _ known, fun none => gone _ none known, other, high⟩
  distinct := by
    intro c l listed
    refine inv.distinct c l listed ?_
    intro j dirty
    rw [(quiet j).clean] at dirty
    cases dirty
  written := fun x node here => (kept x node here).2.2
  fresh := fresh

/-- Without lost nodes above the entry point the graph passes the validator, and only then. -/
theorem invariants_iff (rest : Resting params lost s) : HnswValidator.Invariants s.graph ↔
    ∀ x, x < s.graph.nodeCount → lost x → s.graph.entry.valid = true ∧ s.graph.level x ≤ s.graph.entry.level := by
  constructor
  · intro ok x node _
    exact ⟨(ok.entry (by omega)).1, (ok.levels x node).2⟩
  · intro low
    have all (x : Nat) (node : x < s.graph.nodeCount) :
        s.graph.entry.valid = true ∧ s.graph.level x ≤ s.graph.entry.level := by
      by_cases gone : lost x
      · exact low x node gone
      · exact rest.reach x node gone
    refine ⟨?_, ?_, ?_, ?_⟩
    · intro empty
      cases valid : s.graph.entry.valid with
      | false => rfl
      | true => exact absurd (rest.entry valid).1 (by omega)
    · intro some
      have valid := (all 0 (by omega)).1
      obtain ⟨node, _, level⟩ := rest.entry valid
      exact ⟨valid, node, level⟩
    · exact fun x node => ⟨rest.tops x node, (all x node).2⟩
    · intro c l node high
      have listed : s.graph.hasList c l = true := decide_eq_true ⟨node, high⟩
      exact ⟨rest.counts c l listed, fun v member => (rest.members c l v listed member).1,
        fun v member => (rest.members c l v listed member).2.2.1,
        fun v member => (rest.members c l v listed member).2.2.2, rest.distinct c l listed⟩

/-- A valid graph without any history is at rest. -/
theorem of_invariants {g : HnswGraph} (ok : HnswValidator.Invariants g) (m : g.m = params.M.toNat)
    (maxLevel : g.maxLevel = params.maxLevel.toNat) (laid : g.Laid)
    (room : g.nodeCount ≤ kMaxVectorsPerCollection) : Resting params (fun _ => False) { graph := g } where
  free := fun _ => rfl
  top := rfl
  m := m
  maxLevel := maxLevel
  laid := laid
  room := room
  tops := fun x node => (ok.levels x node).1
  entry := by
    intro valid
    have some : g.nodeCount ≠ 0 := fun empty => absurd (ok.empty empty) (by rw [valid]; decide)
    obtain ⟨_, node, level⟩ := ok.entry some
    exact ⟨node, id, level⟩
  reach := by
    intro x node _
    have below : x < g.nodeCount := node
    exact ⟨(ok.entry (by omega)).1, (ok.levels x node).2⟩
  counts := by
    intro c l listed
    obtain ⟨node, high⟩ := of_decide_eq_true listed
    exact (ok.lists c l node high).count
  members := by
    intro c l v listed member
    obtain ⟨node, high⟩ := of_decide_eq_true listed
    have list := ok.lists c l node high
    exact ⟨list.exists_ v member, id, list.other v member, list.high v member⟩
  distinct := by
    intro c l listed
    obtain ⟨node, high⟩ := of_decide_eq_true listed
    exact (ok.lists c l node high).distinct
  written := fun _ _ _ l below => absurd below (Nat.not_lt_zero l)
  fresh := fun _ _ => rfl

/-- A new node is lost until it is linked. -/
theorem addNode (rest : Resting params lost s) {level : Nat} {g : HnswGraph} (run : s.graph.addNode level = .ok g) :
    Resting params (fun x => lost x ∨ x = s.graph.nodeCount) { s with graph := g } := by
  have solo : LinkInv params (some s.graph.nodeCount) s (ghost lost s) := rest.inv _
  have inv := addNode_inv solo run
  have count := HnswGraph.addNode_nodeCount run
  obtain ⟨_, _, _, _, _, entry, _⟩ := HnswGraph.addNode_spec run
  refine of_inv inv (fun i => ⟨(rest.quiet i).free, rfl⟩) (fun i held => ?_) ?_ ?_ ?_
  · have none : s.top = some i := held
    rw [rest.top] at none
    cases none
  · rintro x (gone | rfl) known
    · exact known.2 gone
    · exact absurd known.1 (Nat.lt_irrefl _)
  · intro x node here
    have below : x < g.nodeCount := node
    rw [not_or] at here
    have old : x < s.graph.nodeCount := by omega
    obtain ⟨valid, low⟩ := rest.reach x old here.1
    change g.entry.valid = true ∧ g.level x ≤ g.entry.level ∧ _
    rw [entry, HnswGraph.addNode_level run, if_neg here.2]
    exact ⟨valid, low, rest.written x old here.1⟩
  · intro x above
    have past : g.nodeCount ≤ x := above
    exact rest.fresh x (by omega)

end Resting

section Sections
variable {params : HnswParams} {first : Nat} {lost mayFail : Nat → Prop} {s s' : SharedGraph} {ctx : HnswContext}

/-- The nodes from `first` on have been reserved for a section, and nothing has been linked yet. -/
structure Reserved (params : HnswParams) (first : Nat) (lost : Nat → Prop) (s : SharedGraph) : Prop where
  rest : Resting params (fun x => lost x ∨ first ≤ x) s
  bound : first ≤ s.graph.nodeCount
  joined : ∀ x, first ≤ x → s.joined x = 0
  empty : ∀ x l, first ≤ x → x < s.graph.nodeCount → s.graph.words x l 0 = 0

theorem Reserved.start (rest : Resting params lost s) : Reserved params s.graph.nodeCount lost s where
  rest := rest.congr fun _ node => ⟨fun gone => gone.resolve_right (Nat.not_le_of_lt node), .inl⟩
  bound := Nat.le_refl _
  joined := rest.fresh
  empty := fun _ _ above below => absurd below (Nat.not_lt_of_le above)

theorem Reserved.addNode (reserved : Reserved params first lost s) {level : Nat} {g : HnswGraph}
    (run : s.graph.addNode level = .ok g) : Reserved params first lost { s with graph := g } := by
  have added := reserved.rest.addNode run
  have count := HnswGraph.addNode_nodeCount run
  have bound := reserved.bound
  obtain ⟨_, _, _, _, _, _, words⟩ := HnswGraph.addNode_spec run
  refine ⟨?_, ?_, reserved.joined, ?_⟩
  · exact added.congr fun x _ => ⟨.inl, fun gone => gone.elim id fun new => .inr (by omega)⟩
  · change first ≤ g.nodeCount
    omega
  · intro x l above below
    change g.words x l 0 = 0
    have inside : x < g.nodeCount := below
    rw [words]
    split
    · rfl
    · exact reserved.empty x l above (by omega)

/-- The insertions of a section: one thread for each reserved node from `first` on. A worker that
links several nodes one after the other is a special case. -/
def linkPool (ctx : HnswContext) (visited : Nat → VisitedSet) (first count : Nat) (i : Nat) : GraphProg Bool :=
  if first ≤ i ∧ i < count then ctx.link (visited i) i else .done true

/-- How thread `i` of a section ends; a thread without a node does nothing. -/
structure LinkPost (mayFail lost : Nat → Prop) (first : Nat) (s : SharedGraph) (i : Nat) (linked : Bool)
    (s' : SharedGraph) (γ' : LinkGhost) : Prop where
  levels : s'.graph.levels = s.graph.levels
  quiet : Quiet i s' γ'
  top : s'.top ≠ some i
  old : i < first → (¬lost i → γ'.pub i) ∧ (lost i → ¬γ'.pub i)
  new : first ≤ i → i < s.graph.nodeCount → Ended mayFail i linked s s' γ'
  fresh : s.graph.nodeCount ≤ i → s'.joined i = 0

/-- Every thread of a section is safe, whatever the others do. -/
theorem linkPool_ok (reserved : Reserved params first lost s) (sized : params = ctx.params)
    (wide : 1 ≤ ctx.params.efConstruction.toNat) {visited : Nat → VisitedSet}
    (covers : ∀ i, s.graph.nodeCount ≤ (visited i).marks.length) (i : Nat) :
    LinkOk params mayFail none i (linkPool ctx visited first s.graph.nodeCount i)
      (LinkPost mayFail lost first s i) s
      (Resting.ghost (fun x => lost x ∨ first ≤ x) s) := by
  have rest := reserved.rest
  have free : s.top ≠ some i := by
    rw [rest.top]
    exact nofun
  have bound := reserved.bound
  rw [linkPool]
  split
  next mine =>
    have unborn : Unborn i 0 s (Resting.ghost (fun x => lost x ∨ first ≤ x) s) :=
      ⟨mine.2, fun known => known.2 (.inr mine.1), fun l _ => reserved.empty i l mine.1 mine.2⟩
    refine (HnswContext.link_ok sized wide (rest.quiet i) unborn (reserved.joined i mine.1) free (covers i)).mono ?_
    intro linked s₁ γ₁ _ ended
    exact ⟨ended.levels, ended.quiet, fun held => free (ended.top.mp held), fun low => by omega, fun _ _ => ended,
      fun high => by omega⟩
  next other =>
    refine ok_done ?_
    intro s₁ γ₁ rely inv
    refine ⟨rely.fixed noOther_none, (rest.quiet i).later rely, fun held => free (rely.top.mp held), ?_, ?_, ?_⟩
    · intro low
      refine ⟨fun here => rely.pub i ⟨by omega, ?_⟩, fun gone => rely.hidden fun known => known.2 (.inl gone)⟩
      rintro (gone | high)
      · exact here gone
      · omega
    · exact fun high low => absurd ⟨high, low⟩ other
    · exact fun above => rely.joined.trans (rest.fresh i above)

/-- The nodes that are lost after a section with the given results. -/
def lostAfter (lost : Nat → Prop) (first : Nat) (linked : Nat → Bool) (x : Nat) : Prop :=
  (x < first ∧ lost x) ∨ (first ≤ x ∧ linked x = false)

/-- A section that has ended leaves a graph at rest, in which exactly the failed nodes are lost. -/
theorem section_rests {γ : LinkGhost} {linked : Nat → Bool} (inv : LinkInv params none s' γ)
    (each : ∀ i, LinkPost mayFail lost first s i (linked i) s' γ) :
    Resting params (lostAfter lost first linked) s' := by
  have levels := (each 0).levels
  have count : s'.graph.nodeCount = s.graph.nodeCount := by
    rw [HnswGraph.nodeCount, levels]
    rfl
  refine Resting.of_inv inv (fun i => (each i).quiet) (fun i => (each i).top) ?_ ?_ ?_
  · rintro x (⟨low, gone⟩ | ⟨high, failed⟩) known
    · exact ((each x).old low).2 gone known
    · exact (((each x).new high ((inv.inside x known).trans_eq count)).failed failed).2 known
  · intro x node here
    simp only [lostAfter, not_or, not_and] at here
    rcases Nat.lt_or_ge x first with low | high
    · have known := ((each x).old low).1 (here.1 low)
      obtain ⟨valid, below | raising⟩ := inv.reach x known
      · exact ⟨valid, below, inv.written x known⟩
      · exact absurd raising ((each x).top)
    · have ended := (each x).new high (node.trans_eq count)
      have ok : linked x = true := by simpa using here.2 high
      obtain ⟨valid, below⟩ := ended.reached ok
      have level : s'.graph.level x = s.graph.level x := by
        rw [HnswGraph.level, levels]
        rfl
      exact ⟨valid, level.trans_le below, ended.written ok⟩
  · intro x above
    exact (each x).fresh (count.symm.trans_le above)

end Sections

section Adding
variable {params : HnswParams} {lost mayFail : Nat → Prop} {s s' : SharedGraph} {ctx : HnswContext}

/-- `add` runs alone. -/
def addPool (ctx : HnswContext) (visited : VisitedSet) (id : Nat) (i : Nat) : GraphProg (Option (Result Unit)) :=
  if i = id then ctx.add visited id else .done none

structure AddPost (ctx : HnswContext) (mayFail lost : Nat → Prop) (s : SharedGraph) (i : Nat)
    (r : Option (Result Unit)) (s' : SharedGraph) (γ' : LinkGhost) : Prop where
  quiet : Quiet i s' γ'
  top : s'.top ≠ some i
  old : i < s.graph.nodeCount → (¬lost i → γ'.pub i) ∧ (lost i → ¬γ'.pub i)
  new : i = s.graph.nodeCount → Added ctx mayFail i r s s' γ'
  fresh : s.graph.nodeCount < i → s'.joined i = 0

theorem addPool_ok (rest : Resting params lost s) (sized : params = ctx.params)
    (wide : 1 ≤ ctx.params.efConstruction.toNat) {visited : VisitedSet}
    (covers : s.graph.nodeCount ≤ visited.marks.length) (i : Nat) :
    LinkOk params mayFail (some s.graph.nodeCount) i (addPool ctx visited s.graph.nodeCount i)
      (AddPost ctx mayFail lost s i) s (Resting.ghost lost s) := by
  have free : s.top ≠ some i := by
    rw [rest.top]
    exact nofun
  rw [addPool]
  split
  next mine =>
    rw [← mine]
    refine (HnswContext.add_ok sized wide mine (rest.quiet i) (rest.fresh i mine.ge) covers).mono ?_
    intro r s₁ γ₁ _ added
    exact ⟨added.quiet, fun held => free (added.top.mp held),
      fun low => by omega, fun _ => added, fun high => by omega⟩
  next other =>
    refine ok_done ?_
    intro s₁ γ₁ rely _
    refine ⟨(rest.quiet i).later rely, fun held => free (rely.top.mp held), ?_, fun mine => absurd mine other, ?_⟩
    · exact fun low => ⟨fun here => rely.pub i ⟨low, here⟩, fun gone => rely.hidden fun known => known.2 gone⟩
    · exact fun above => rely.joined.trans (rest.fresh i (by omega))

/-- `add` loses nothing: without success there is no new node. -/
theorem add_rests {γ : LinkGhost} {results : Nat → Option (Result Unit)}
    (inv : LinkInv params (some s.graph.nodeCount) s' γ) (rest : Resting params lost s)
    (each : ∀ i, AddPost ctx mayFail lost s i (results i) s' γ) :
    Resting params (fun x => x < s.graph.nodeCount ∧ lost x) s' := by
  have added := (each s.graph.nodeCount).new rfl
  have count : s'.graph.nodeCount =
      s.graph.nodeCount + if results s.graph.nodeCount = some (.ok ()) then 1 else 0 := by
    rw [HnswGraph.nodeCount, added.levels]
    split
    · exact List.length_append
    · rfl
  refine Resting.of_inv inv (fun i => (each i).quiet) (fun i => (each i).top) ?_ ?_ ?_
  · exact fun x gone known => ((each x).old gone.1).2 gone.2 known
  · intro x node here
    rcases Nat.lt_or_ge x s.graph.nodeCount with old | new
    · have kept : ¬lost x := fun gone => here ⟨old, gone⟩
      have known := ((each x).old old).1 kept
      obtain ⟨valid, below | raising⟩ := inv.reach x known
      · exact ⟨valid, below, inv.written x known⟩
      · have self : s.graph.nodeCount = x := Option.some.inj raising
        omega
    · split at count
      next ok =>
        obtain rfl : x = s.graph.nodeCount := by omega
        obtain ⟨valid, below⟩ := added.linked ok
        refine ⟨valid, ?_, added.written ok⟩
        rw [HnswGraph.level, added.levels, if_pos ok, HnswGraph.level_append]
        exact (if_pos rfl).trans_le below
      next => omega
  · intro x above
    rcases Nat.lt_or_ge s.graph.nodeCount x with past | here
    · exact (each x).fresh past
    · split at count
      next => omega
      next failed =>
        obtain rfl : x = s.graph.nodeCount := by omega
        exact (added.joined failed).trans (rest.fresh _ (Nat.le_refl _))

end Adding
end VectorForge
