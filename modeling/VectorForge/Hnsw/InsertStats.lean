import VectorForge.Hnsw.Construction
import VectorForge.Hnsw.BackLinks
import VectorForge.Hnsw.SerialInsert

/-! The insertion with what it counts, and what it makes of the lists of a quiet graph. -/

namespace VectorForge

/-- The counters of `HnswBuildStats` that `publish` changes. -/
structure HnswBuildStats where
  orphanRepairs : UInt64 := 0
  orphansUnrepaired : UInt64 := 0
  deriving DecidableEq, Repr

/-- `record(scratch)` adds the counts of one insertion to the totals. -/
def HnswBuildStats.record (totals stats : HnswBuildStats) : HnswBuildStats where
  orphanRepairs := totals.orphanRepairs + stats.orphanRepairs
  orphansUnrepaired := totals.orphansUnrepaired + stats.orphansUnrepaired

namespace HnswContext

section Counted
variable (ctx : HnswContext)

/-- Phase 3 on one level. -/
def linkLevel (id l : Nat) (layer : Layer) (stats : HnswBuildStats) : GraphProg HnswBuildStats := do
  let inLinks ← ctx.backLinks id l layer.selected 0
  if inLinks = 0 ∧ ctx.options.repairOrphans then do
    let repaired ← ctx.repairOrphan id l layer.candidates
    if repaired then .done { stats with orphanRepairs := stats.orphanRepairs + 1 }
    else .done { stats with orphansUnrepaired := stats.orphansUnrepaired + 1 }
  else if inLinks = 0 then .done { stats with orphansUnrepaired := stats.orphansUnrepaired + 1 }
  else .done stats

def linkBackCounted (id : Nat) : (l : Nat) → List Layer → HnswBuildStats → GraphProg HnswBuildStats
  | _, [], stats => .done stats
  | l, layer :: rest, stats => do
    let stats ← ctx.linkLevel id l layer stats
    linkBackCounted id (l + 1) rest stats

def publishCounted (id : Nat) (layers : List Layer) : GraphProg HnswBuildStats := do
  joins id layers.length
  ctx.writeOwn id 0 layers
  ctx.linkBackCounted id 0 layers {}

/-- `add(id)` with the totals of `build_stats()`, which only an insertion that links changes. -/
def addCounted (visited : VisitedSet) (id : Nat) (totals : HnswBuildStats) :
    GraphProg (Option (Result Unit) × HnswBuildStats) := do
  let level := ctx.params.levels.levelFor id
  let e ← entry
  if !e.valid then do
    if !(← allocate) then .done (none, totals)
    else do
      match ← addNode level with
      | .error status => .done (some (.error status), totals)
      | .ok _ => do
        setEntry { id, level }
        .done (some (.ok ()), totals)
  else do
    if !(← allocate) then .done (none, totals)
    else do
      match ← ctx.findNeighbors visited id (min level e.level) e with
      | none => .done (none, totals)
      | some layers => do
        if !(← allocate) then .done (none, totals)
        else do
          match ← addNode level with
          | .error status => .done (some (.error status), totals)
          | .ok _ => do
            let stats ← ctx.publishCounted id layers
            if level > e.level then setEntry { id, level }
            .done (some (.ok ()), totals.record stats)

end Counted

section Erasure
variable {ctx : HnswContext}

theorem linkBack_eq (id : Nat) : ∀ (layers : List Layer) (l : Nat) (stats : HnswBuildStats),
    ctx.linkBack id l layers = ctx.linkBackCounted id l layers stats >>= fun _ => .done ()
  | [], _, _ => rfl
  | layer :: rest, l, stats => by
    rw [linkBack, linkBackCounted, linkLevel]
    simp only [Prog.bind_assoc]
    refine congrArg (_ >>= ·) (funext fun inLinks => ?_)
    split
    · rw [Prog.bind_assoc]
      refine congrArg (_ >>= ·) (funext fun repaired => ?_)
      split
      · exact linkBack_eq id rest (l + 1) _
      · exact linkBack_eq id rest (l + 1) _
    · split
      · exact linkBack_eq id rest (l + 1) _
      · exact linkBack_eq id rest (l + 1) _

theorem publish_eq (id : Nat) (layers : List Layer) : ctx.publish id layers = ctx.publishCounted id layers >>=
    fun _ => .done () := by
  rw [publish, publishCounted, linkBack_eq id layers 0 {}]
  simp only [Prog.bind_assoc]

/-- The counters influence nothing. -/
theorem add_eq (visited : VisitedSet) (id : Nat) (totals : HnswBuildStats) :
    ctx.add visited id = ctx.addCounted visited id totals >>= fun outcome => .done outcome.1 := by
  rw [add, addCounted]
  simp only [publish_eq, Prog.bind_assoc]
  refine congrArg (_ >>= ·) (funext fun e => ?_)
  split
  · rw [Prog.bind_assoc]
    refine congrArg (_ >>= ·) (funext fun enough => ?_)
    split
    · rfl
    · rw [Prog.bind_assoc]
      refine congrArg (_ >>= ·) (funext fun added => ?_)
      cases added <;> rfl
  · rw [Prog.bind_assoc]
    refine congrArg (_ >>= ·) (funext fun enough => ?_)
    split
    · rfl
    · rw [Prog.bind_assoc]
      refine congrArg (_ >>= ·) (funext fun found => ?_)
      cases found with
      | none => rfl
      | some layers =>
        dsimp only
        rw [Prog.bind_assoc]
        refine congrArg (_ >>= ·) (funext fun enough => ?_)
        split
        · rfl
        · rw [Prog.bind_assoc]
          refine congrArg (_ >>= ·) (funext fun added => ?_)
          cases added with
          | error => rfl
          | ok =>
            dsimp only
            simp only [Prog.bind_assoc]
            refine congrArg (_ >>= ·) (funext fun stats => ?_)
            split <;> rfl

end Erasure

/-- Alone, `p` ends with the locks as they were and rewrites nothing but lists. -/
def Rewrites {α : Type} (i : Nat) (s : SharedGraph) (w : World) (p : GraphProg α)
    (post : α → HnswGraph → Prop) : Prop :=
  p.Reaches (answerIn i) (s, w) fun a s' => s'.2 = w ∧ s'.1.stripes = s.stripes ∧
    HnswGraph.SameShape s'.1.graph s.graph ∧
    s'.1.graph.entry = s.graph.entry ∧ post a s'.1.graph

namespace Rewrites
variable {α β : Type} {i : Nat} {s : SharedGraph} {w : World} {p : GraphProg α} {post : α → HnswGraph → Prop}

theorem done {a : α} (holds : post a s.graph) : Rewrites i s w (.done a) post :=
  Prog.Reaches.done ⟨rfl, rfl, .refl _, rfl, holds⟩

theorem bind {f : α → GraphProg β} {after : β → HnswGraph → Prop} (first : Rewrites i s w p post)
    (rest : ∀ a s', s'.stripes = s.stripes → HnswGraph.SameShape s'.graph s.graph → post a s'.graph →
      Rewrites i s' w (f a) after) :
    Rewrites i s w (p >>= f) after := by
  refine Prog.Reaches.bind first ?_
  rintro a ⟨s', w'⟩ ⟨rfl, stripes, shape, entry, holds⟩
  refine (rest a s' stripes shape holds).mono ?_
  rintro b s'' ⟨world, stripes', shape', entry', last⟩
  exact ⟨world, stripes'.trans stripes, shape'.trans shape, entry'.trans entry, last⟩

end Rewrites

section Levels
variable {ctx : HnswContext} {i id l : Nat} {s : SharedGraph} {w : World} {layer : Layer} {stats : HnswBuildStats}

/-- What phase 3 makes of one level, with its count. -/
structure LevelCounted (ctx : HnswContext) (id l : Nat) (layer : Layer) (a b : HnswGraph) (orphaned : Bool)
    (before after : HnswBuildStats) : Prop where
  linked : ∃ repair, LevelLinked ctx id l layer (fun x => a.links x l) (fun x => b.links x l) repair orphaned
  others : ∀ x k, k ≠ l → b.links x k = a.links x k
  count : after.orphansUnrepaired = before.orphansUnrepaired + if orphaned then 1 else 0

theorem linkLevel_rewrites (measures : Measures ctx id) (default : ctx.options = {})
    (awaits : Awaits ctx id layer fun x => s.graph.links x l)
    (free : ∀ k, s.stripes k = none) : Rewrites i s w (ctx.linkLevel id l layer stats) fun after g =>
      ∃ orphaned, LevelCounted ctx id l layer s.graph g orphaned stats after := by
  have kept : ctx.options.keepPruned = true := by rw [default]
  refine Prog.Reaches.bind (backLinks_reaches ctx id l awaits.distinct free) ?_
  rintro _ ⟨s₁, w₁⟩ ⟨rfl, stripes, _, inLinks, rfl, linked⟩
  dsimp only at stripes linked
  have others (x k : Nat) (other : k ≠ l) : s₁.graph.links x k = s.graph.links x k :=
    linked.other x k fun here => other here.1
  rw [Nat.zero_add]
  by_cases none : inLinks = 0
  · rw [if_pos ⟨none, by rw [default]⟩]
    refine Prog.Reaches.bind (repairOrphan_reaches ctx id l (by rw [stripes]; exact free)) ?_
    rintro found ⟨s₂, w₂⟩ ⟨rfl, stripes₂, _, repaired⟩
    dsimp only at stripes₂ repaired
    have level := LinkedBack.repaired measures awaits linked kept none repaired
    have away (x k : Nat) (other : k ≠ l) : s₂.graph.links x k = s.graph.links x k := by
      refine Eq.trans ?_ (others x k other)
      cases found with
      | false => exact repaired.full rfl x k
      | true =>
        obtain ⟨c, _, _, _, same⟩ := repaired.took rfl
        exact same x k fun here => other here.2
    have shape := repaired.shape.trans linked.shape
    have entry := repaired.entry.trans linked.entry
    cases found with
    | false => exact Prog.Reaches.done ⟨rfl, stripes₂.trans stripes, shape, entry, true, level, away, rfl⟩
    | true => exact Prog.Reaches.done ⟨rfl, stripes₂.trans stripes, shape, entry, false, level, away,
      (UInt64.add_zero _).symm⟩
  · rw [if_neg fun both => none both.1, if_neg none]
    exact Prog.Reaches.done ⟨rfl, stripes, linked.shape, linked.entry, false,
      ⟨_, LinkedBack.levelLinked measures awaits linked none⟩, others, (UInt64.add_zero _).symm⟩

/-- What phase 3 makes of the levels from `l` on, and what it counts. -/
structure LevelsCounted (ctx : HnswContext) (id l : Nat) (layers : List Layer) (a b : HnswGraph)
    (before after : HnswBuildStats) (orphaned : List Bool) : Prop where
  size : orphaned.length = layers.length
  linked : ∀ (k : Nat) layer alone, layers[k]? = some layer → orphaned[k]? = some alone →
    ∃ repair, LevelLinked ctx id (l + k) layer (fun x => a.links x (l + k))
    (fun x => b.links x (l + k)) repair alone
  others : ∀ x k, k < l ∨ l + layers.length ≤ k → b.links x k = a.links x k
  count : after.orphansUnrepaired = before.orphansUnrepaired + UInt64.ofNat (orphaned.count true)

theorem linkBackCounted_rewrites (measures : Measures ctx id) (default : ctx.options = {}) :
    ∀ (layers : List Layer) {l : Nat} {s : SharedGraph}
    (stats : HnswBuildStats), (∀ (k : Nat) layer, layers[k]? = some layer → Awaits ctx id layer fun x =>
      s.graph.links x (l + k)) →
    (∀ k, s.stripes k = none) → Rewrites i s w (ctx.linkBackCounted id l layers stats) fun after g =>
      ∃ orphaned, LevelsCounted ctx id l layers s.graph g stats after orphaned := by
  intro layers
  induction layers with
  | nil =>
    intro l s stats _ _
    exact Rewrites.done ⟨[], rfl, nofun, fun _ _ _ => rfl, (UInt64.add_zero _).symm⟩
  | cons layer rest ih =>
    intro l s stats awaits free
    refine Rewrites.bind (linkLevel_rewrites measures default (awaits 0 layer rfl) free) ?_
    rintro stats₁ s₁ stripes shape ⟨alone, here⟩
    have later (k : Nat) (x : Nat) : s₁.graph.links x (l + 1 + k) = s.graph.links x (l + 1 + k) :=
      here.others x _ (by omega)
    have next : ∀ (k : Nat) layer, rest[k]? = some layer → Awaits ctx id layer fun x =>
        s₁.graph.links x (l + 1 + k) := by
      intro k layer at_
      rw [funext (later k)]
      have at_' := awaits (k + 1) layer at_
      rwa [show l + (k + 1) = l + 1 + k by omega] at at_'
    refine (ih stats₁ next (by rw [stripes]; exact free)).mono ?_
    rintro after ⟨s₂, w₂⟩ ⟨rfl, stripes₂, shape₂, entry₂, orphaned, counted⟩
    dsimp only at stripes₂ shape₂ entry₂ counted
    refine ⟨rfl, stripes₂, shape₂, entry₂, alone :: orphaned, ?_, ?_, ?_, ?_⟩
    · rw [List.length_cons, List.length_cons, counted.size]
    · intro k found single atLayer atSingle
      cases k with
      | zero =>
        cases atLayer
        cases atSingle
        have same (x : Nat) : s₂.graph.links x l = s₁.graph.links x l :=
          counted.others x l (.inl (Nat.lt_succ_self l))
        rw [Nat.add_zero, funext same]
        exact here.linked
      | succ k =>
        have level := counted.linked k found single atLayer atSingle
        rwa [funext (later k), show l + 1 + k = l + (k + 1) by omega] at level
    · intro x k outside
      rw [List.length_cons] at outside
      rw [counted.others x k (by omega), here.others x k (by omega)]
    · rw [counted.count, here.count, List.count_cons, UInt64.add_assoc, Nat.add_comm, UInt64.ofNat_add]
      cases alone <;> rfl

variable (ctx id) in
/-- The new node's own lists from level `l` on. -/
theorem writeOwn_rewrites : ∀ (layers : List Layer) {l : Nat} {s : SharedGraph},
    (∀ (k : Nat) layer, layers[k]? = some layer → layer.selected.length ≤ ctx.capacity (l + k)) →
    Rewrites i s w (ctx.writeOwn id l layers) fun _ g => (∀ x k, x ≠ id ∨ k < l → g.links x k = s.graph.links x k) ∧
      ∀ (k : Nat) layer, layers[k]? = some layer → g.links id (l + k) = layer.selected.map (·.id) := by
  intro layers
  induction layers with
  | nil => exact fun _ => Rewrites.done ⟨fun _ _ _ => rfl, nofun⟩
  | cons layer rest ih =>
    intro l s few
    have here : (layer.selected.map (·.id)).length ≤ ctx.capacity l := by
      rw [List.length_map]
      exact few 0 layer rfl
    refine Prog.Reaches.bind (setLinks_sets here) ?_
    rintro _ ⟨s₁, w₁⟩ ⟨_, rfl, stripes, _, relinked⟩
    dsimp only at stripes relinked
    have next : ∀ (k : Nat) layer, rest[k]? = some layer → layer.selected.length ≤ ctx.capacity (l + 1 + k) := by
      intro k layer at_
      have fits := few (k + 1) layer at_
      rwa [show l + (k + 1) = l + 1 + k by omega] at fits
    refine (ih next).mono ?_
    rintro _ s₂ ⟨world, stripes₂, shape₂, entry₂, others, own⟩
    refine ⟨world, stripes₂.trans stripes, shape₂.trans relinked.shape, entry₂.trans relinked.entry, ?_, ?_⟩
    · intro x k outside
      rw [others x k (outside.imp_right fun low => low.trans (Nat.lt_succ_self l)),
        relinked.other x k fun same => by omega]
    · intro k found at_
      cases k with
      | zero =>
        cases at_
        rw [Nat.add_zero, others id l (.inr (Nat.lt_succ_self l)), relinked.here]
      | succ k =>
        rw [show l + (k + 1) = l + 1 + k by omega]
        exact own k found at_

end Levels

section Inserted
variable {ctx : HnswContext} {i l : Nat} {g : HnswGraph} {w : World} {layer : Layer}

/-- The level of `g` after an insertion whose neighbours on it are those of `layer`. -/
structure InsertedLevel (ctx : HnswContext) (g g' : HnswGraph) (l : Nat) (layer : Layer)
    (orphaned : Bool) : Prop where
  own : g'.links g.nodeCount l = layer.selected.map (·.id)
  nonempty : g'.links g.nodeCount l ≠ []
  distinct : (g'.links g.nodeCount l).Nodup
  older : ∀ x ∈ g'.links g.nodeCount l, x < g.nodeCount ∧ l ≤ g'.level x
  size : (g'.links g.nodeCount l).length = min ctx.params.M.toNat layer.candidates.length
  lists : ∃ repair : Option Nat,
    (∀ x, repair = some x → x ∈ layer.candidates.map (·.id) ∧ x ∉ g'.links g.nodeCount l) ∧
    ∀ x, x < g.nodeCount → g'.links x l = if x ∈ g'.links g.nodeCount l ∨ repair = some x
      then ctx.withLink x l (g.links x l) g.nodeCount else g.links x l
  known : orphaned = false → ∃ x, x < g.nodeCount ∧ l ≤ g'.level x ∧ g.nodeCount ∈ g'.links x l
  unknown : orphaned = true → ∀ x, x < g.nodeCount → l ≤ g'.level x → g.nodeCount ∉ g'.links x l

/-- What an insertion asks of the graph and of the context. -/
structure Insertable (ctx : HnswContext) (g : HnswGraph) : Prop where
  valid : HnswValidator.Invariants g
  nodes : g.nodeCount ≠ 0
  params : ctx.params.Valid
  sized : g.m = ctx.params.M.toNat
  default : ctx.options = {}
  measures : Measures ctx g.nodeCount

namespace Insertable
variable (insertable : Insertable ctx g)
include insertable

theorem several : 1 ≤ ctx.params.M.toNat := by
  have least := insertable.params.minM
  omega

theorem wide : 1 ≤ ctx.params.efConstruction.toNat := by
  have least := insertable.params.minEfConstruction
  have several := insertable.several
  omega

theorem entry : g.entry.valid = true := (insertable.valid.entry insertable.nodes).1

theorem spec (chosen : Chosen ctx g g.nodeCount l layer) : layer.selected ≠ [] ∧ layer.selected ⊆ layer.candidates ∧
    (layer.selected.map (·.id)).Nodup ∧ layer.selected.length = min ctx.params.M.toNat layer.candidates.length :=
  chosen.spec insertable.default insertable.several fun _ below => insertable.measures.real _ _ (le_refl _) below.le

theorem few (chosen : Chosen ctx g g.nodeCount l layer) : layer.selected.length ≤ ctx.capacity l := by
  have size := (insertable.spec chosen).2.2.2
  unfold HnswContext.capacity
  split <;> omega

/-- A candidate is an older node of the level with a list of older nodes. -/
theorem candidate (chosen : Chosen ctx g g.nodeCount l layer) {c : ScoredId} (member : c ∈ layer.candidates) :
    c = ctx.scored g.nodeCount c.id ∧ c.id < g.nodeCount ∧ l ≤ g.level c.id ∧ (g.links c.id l).Nodup ∧
      ∀ x ∈ g.links c.id l, x < g.nodeCount := by
  obtain ⟨listed, scored⟩ := chosen.candidates.listed c member
  obtain ⟨node, high⟩ := of_decide_eq_true listed
  have ok := insertable.valid.lists c.id l node high
  exact ⟨scored, node, high, ok.distinct, ok.exists_⟩

theorem awaits (chosen : Chosen ctx g g.nodeCount l layer) {lists : Nat → List Nat}
    (same : ∀ x, x < g.nodeCount → lists x = g.links x l) : Awaits ctx g.nodeCount layer lists := by
  obtain ⟨_, members, distinct, _⟩ := insertable.spec chosen
  refine ⟨members, distinct, fun c member => (insertable.candidate chosen member).1, fun c member => ?_⟩
  obtain ⟨_, node, _, nodup, older⟩ := insertable.candidate chosen member
  rw [same c.id node]
  exact ⟨node, nodup, older⟩

/-- One level of the graph, from before the insertion to its end. -/
theorem insertedLevel (chosen : Chosen ctx g g.nodeCount l layer) {a b : HnswGraph}
    {repair : Option Nat} {orphaned : Bool} (levels : ∀ x, x < g.nodeCount → b.level x = g.level x)
    (same : ∀ x, x < g.nodeCount → a.links x l = g.links x l)
    (own : a.links g.nodeCount l = layer.selected.map (·.id))
    (linked : LevelLinked ctx g.nodeCount l layer (fun x => a.links x l) (fun x => b.links x l) repair orphaned) :
    InsertedLevel ctx g b l layer orphaned := by
  obtain ⟨some, members, distinct, size⟩ := insertable.spec chosen
  have older {x : Nat} (inside : x ∈ layer.candidates.map (·.id)) : x < g.nodeCount ∧ l ≤ g.level x := by
    obtain ⟨c, member, rfl⟩ := List.mem_map.mp inside
    obtain ⟨_, node, high, _⟩ := insertable.candidate chosen member
    exact ⟨node, high⟩
  have selected {x : Nat} (inside : x ∈ layer.selected.map (·.id)) : x ∈ layer.candidates.map (·.id) :=
    List.map_subset _ members inside
  have mine : b.links g.nodeCount l = layer.selected.map (·.id) := by
    refine (linked.kept g.nodeCount ?_).trans own
    rintro (here | repair)
    · exact lt_irrefl _ (older (selected here)).1
    · exact lt_irrefl _ (older (linked.repaired _ repair).1).1
  refine ⟨mine, ?_, ?_, ?_, ?_, ⟨repair, ?_, fun x below => ?_⟩, fun known => ?_, fun alone x below high => ?_⟩
  · rw [mine]
    exact fun none => some (List.map_eq_nil_iff.mp none)
  · rw [mine]
    exact distinct
  · rw [mine]
    intro x inside
    obtain ⟨node, high⟩ := older (selected inside)
    exact ⟨node, high.trans (levels x node).ge⟩
  · rw [mine, List.length_map, size]
  · rw [mine]
    exact linked.repaired
  · rw [mine, ← same x below]
    split
    next changed => exact linked.linked x changed
    next unchanged => exact linked.kept x unchanged
  · have reached : ¬∀ c ∈ layer.candidates, g.nodeCount ∉ b.links c.id l := fun missing => by
      have counted := linked.counted.mpr missing
      rw [known] at counted
      cases counted
    simp only [not_forall, not_not] at reached
    obtain ⟨c, member, link⟩ := reached
    obtain ⟨_, node, high, _⟩ := insertable.candidate chosen member
    exact ⟨c.id, node, high.trans (levels c.id node).ge, link⟩
  · by_cases inside : x ∈ layer.candidates.map (·.id)
    · obtain ⟨c, member, rfl⟩ := List.mem_map.mp inside
      exact linked.counted.mp alone c member
    · have kept := linked.kept x fun changed =>
        inside (changed.elim selected fun repair => (linked.repaired x repair).1)
      rw [kept, same x below]
      rw [levels x below] at high
      exact fun old => lt_irrefl _ ((insertable.valid.lists x l below high).exists_ _ old)

end Insertable

/-- A completed insertion. `after` counts the levels on which no node knows the new one. -/
structure Inserted (ctx : HnswContext) (g g' : HnswGraph) (layers : List Layer)
    (before after : HnswBuildStats) : Prop where
  levels : g'.levels = g.levels ++ [ctx.params.levels.levelFor g.nodeCount]
  each : ∃ orphaned : List Bool, orphaned.length = layers.length ∧
    after.orphansUnrepaired = before.orphansUnrepaired + UInt64.ofNat (orphaned.count true) ∧
    ∀ (l : Nat) layer alone, layers[l]? = some layer → orphaned[l]? = some alone →
    InsertedLevel ctx g g' l layer alone
  above : ∀ x l, x < g.nodeCount → layers.length ≤ l → g'.links x l = g.links x l

theorem InsertedLevel.setEntry {g' : HnswGraph} {orphaned : Bool} (level : InsertedLevel ctx g g' l layer orphaned)
    (e : HnswGraph.Entry) : InsertedLevel ctx g (g'.setEntry e) l layer orphaned :=
  ⟨level.own, level.nonempty, level.distinct, level.older, level.size, level.lists, level.known, level.unknown⟩

theorem Inserted.setEntry {g' : HnswGraph} {layers : List Layer} {before after : HnswBuildStats}
    (inserted : Inserted ctx g g' layers before after) (e : HnswGraph.Entry) :
    Inserted ctx g (g'.setEntry e) layers before after := by
  obtain ⟨orphaned, size, count, each⟩ := inserted.each
  refine ⟨inserted.levels, ⟨orphaned, size, count, fun l layer alone atLayer atAlone => ?_⟩, inserted.above⟩
  exact (each l layer alone atLayer atAlone).setEntry e

theorem reaches_allocate {α : Type} {s : SharedGraph} {f : Bool → GraphProg α}
    {post : α → SharedGraph × World → Prop} (enough : ∀ w', w.Spent w' → (f true).Reaches (answerIn i) (s, w') post)
    (lacks : ∀ w', w.Lacked w' → (f false).Reaches (answerIn i) (s, w') post) :
    (allocate >>= f).Reaches (answerIn i) (s, w) post := by
  have step : answerIn i .allocate (s, w) = some (w.memory.headD true, s, { w with memory := w.memory.tail }) := rfl
  have goes : (f (w.memory.headD true)).Reaches (answerIn i) (s, { w with memory := w.memory.tail }) post := by
    cases some : w.memory.headD true with
    | true => exact enough _ w.spent_tail
    | false => exact lacks _ (World.lacked_tail some)
  obtain ⟨a, s', run, holds⟩ := goes
  refine ⟨a, s', ?_, holds⟩
  change (answerIn i .allocate (s, w)).bind (fun x => (f x.1).run (answerIn i) x.2) = _
  rw [step]
  exact run

/-- With little memory the search for neighbours finds the same ones or gives up. -/
theorem findNeighbors_reaches {visited : VisitedSet} {top : Nat} {layers : List Layer}
    (mirror : Mirror g.nodeCount g g)
    (wide : 1 ≤ ctx.params.efConstruction.toNat) (covers : Covers g.nodeCount visited)
    (valid : g.entry.valid = true) (low : top ≤ g.entry.level)
    (value : GraphProg.value g (ctx.findNeighbors visited g.nodeCount top g.entry) = some (some layers)) :
    (ctx.findNeighbors visited g.nodeCount top g.entry).Reaches (answerIn i) ({ graph := g }, w) fun found τ =>
      τ.1 = { graph := g } ∧ (found = none ∧ w.Lacked τ.2 ∨ found = some layers ∧ w.Spent τ.2) := by
  obtain ⟨_, node, high⟩ := mirror.entry valid
  have agrees : ctx.Agrees g.nodeCount ctx := ⟨rfl, rfl, rfl, fun _ _ _ _ => rfl⟩
  have ample : ({} : World).Ample := rfl
  have reference := run_of_value (i := i) value ample
  refine Prog.Reaches.mono (findNeighbors_rereads (s := { graph := g }) (t := { graph := g }) (i := i) (j := i)
    (w := w) mirror agrees
    ample (le_refl _) wide covers covers ⟨node, high⟩ low) ?_
  rintro found τ (⟨none, same, lacked⟩ | ⟨other, υ, again, ⟨list, rfl, rfl, _⟩, same, spent, _⟩)
  · exact ⟨same, .inl ⟨none, lacked⟩⟩
  · cases reference.symm.trans again
    exact ⟨same, .inr ⟨rfl, spent⟩⟩

/-- From a graph with the new node on, the insertion is completed. -/
theorem Insertable.publishes (insertable : Insertable ctx g) {h : HnswGraph} {top : Nat} {layers : List Layer}
    {totals : HnswBuildStats} (grows : g.addNode (ctx.params.levels.levelFor g.nodeCount) = .ok h)
    (chosen : AllChosen ctx g g.nodeCount top layers) :
    Rewrites i { graph := h } w (ctx.publishCounted g.nodeCount layers) fun stats g' =>
      Inserted ctx g g' layers totals (totals.record stats) := by
  obtain ⟨_, _, levels, _⟩ := HnswGraph.addNode_spec grows
  have grown := extends_addNode grows
  have joined : Rewrites i { graph := h } w (joins g.nodeCount layers.length) fun _ g' => g' = h :=
    ⟨(), _, rfl, rfl, rfl, .refl _, rfl, rfl⟩
  refine Rewrites.bind joined ?_
  rintro _ s stripes _ rfl
  refine Rewrites.bind (writeOwn_rewrites ctx g.nodeCount layers (l := 0) fun k layer at_ => ?_) ?_
  · rw [Nat.zero_add]
    exact insertable.few (chosen.each k layer at_)
  · rintro _ s₁ stripes₁ shape₁ ⟨others, own⟩
    have same (x l : Nat) (below : x < g.nodeCount) : s₁.graph.links x l = g.links x l :=
      (others x l (.inl below.ne)).trans (grown.links x l below)
    have awaits (k : Nat) (layer : Layer) (at_ : layers[k]? = some layer) :
        Awaits ctx g.nodeCount layer fun x => s₁.graph.links x (0 + k) := by
      rw [Nat.zero_add]
      exact insertable.awaits (chosen.each k layer at_) fun x below => same x k below
    have free (k : Nat) : s₁.stripes k = none := by rw [stripes₁, stripes]
    refine (linkBackCounted_rewrites insertable.measures insertable.default layers {} awaits free).mono ?_
    rintro stats ⟨s₂, w₂⟩ ⟨rfl, stripes₂, shape₂, entry₂, orphaned, counted⟩
    dsimp only at stripes₂ shape₂ entry₂ counted
    have all := shape₂.levels.trans (shape₁.levels.trans levels)
    refine ⟨rfl, stripes₂, shape₂, entry₂, all,
      ⟨orphaned, counted.size, ?_, fun l layer alone atLayer atAlone => ?_⟩, fun x l below high => ?_⟩
    · change totals.orphansUnrepaired + stats.orphansUnrepaired = _
      rw [counted.count]
      exact congrArg (totals.orphansUnrepaired + ·) (UInt64.zero_add _)
    · have linked := counted.linked l layer alone atLayer atAlone
      rw [Nat.zero_add] at linked
      obtain ⟨repair, linked⟩ := linked
      have old (x : Nat) (below : x < g.nodeCount) : s₂.graph.level x = g.level x := by
        rw [shape₂.level_eq, shape₁.level_eq, grown.old x below]
      have mine := own l layer atLayer
      rw [Nat.zero_add] at mine
      exact insertable.insertedLevel (chosen.each l layer atLayer) old (fun x below => same x l below) mine linked
    · rw [counted.others x l (.inr (by omega)), same x l below]

/-- Every row that is inserted into a valid graph is linked on each of its levels or counted there, and nothing
but the lists of its neighbours changes. -/
theorem inserted_rows_are_linked_or_counted (valid : HnswValidator.checkInvariants g = .ok ())
    (nodes : g.nodeCount ≠ 0)
    (params : ctx.params.Valid) (sized : g.m = ctx.params.M.toNat) (default : ctx.options = {})
    (measures : Measures ctx g.nodeCount)
    {leased : VisitedSet} (used : leased.Used) (totals : HnswBuildStats) (i : Nat) (w : World) :
    ∃ layers outcome after τ,
    GraphProg.value g (ctx.findNeighbors (leased.ensureCapacity g.nodeCount) g.nodeCount
      (min (ctx.params.levels.levelFor g.nodeCount) g.entry.level) g.entry) = some (some layers) ∧
    layers.length = min (ctx.params.levels.levelFor g.nodeCount) g.entry.level + 1 ∧
    (ctx.addCounted (leased.ensureCapacity g.nodeCount) g.nodeCount totals).run (answerIn i) ({ graph := g }, w) =
      some ((outcome, after), τ) ∧
    (outcome = some (.ok ()) ∧ Inserted ctx g τ.1.graph layers totals after ∨
      outcome ≠ some (.ok ()) ∧ τ.1.graph = g ∧ after = totals ∧
        (¬w.Ample ∨ ∃ e, g.addNode (ctx.params.levels.levelFor g.nodeCount) = .error e)) := by
  have insertable : Insertable ctx g :=
    ⟨HnswValidator.checkInvariants_ok_iff.mp valid, nodes, params, sized, default, measures⟩
  have mirror := mirror_of_invariants insertable.valid
  have covers : Covers g.nodeCount (leased.ensureCapacity g.nodeCount) :=
    ⟨VisitedSet.length_ensureCapacity leased g.nodeCount, used.settled.ensureCapacity g.nodeCount⟩
  have low := Nat.min_le_right (ctx.params.levels.levelFor g.nodeCount) g.entry.level
  obtain ⟨layers, value, chosen⟩ := value_findNeighbors mirror insertable.wide insertable.entry low covers
  suffices reaches : (ctx.addCounted (leased.ensureCapacity g.nodeCount) g.nodeCount totals).Reaches
      (answerIn i) ({ graph := g }, w)
      fun r τ => r.1 = some (.ok ()) ∧ Inserted ctx g τ.1.graph layers totals r.2 ∨
        r.1 ≠ some (.ok ()) ∧ τ.1.graph = g ∧ r.2 = totals ∧
          (¬w.Ample ∨ ∃ e, g.addNode (ctx.params.levels.levelFor g.nodeCount) = .error e) by
    obtain ⟨⟨outcome, after⟩, τ, run, holds⟩ := reaches
    exact ⟨layers, outcome, after, τ, value, chosen.size, run, holds⟩
  have start : (entry).Reaches (answerIn i) ({ graph := g }, w) fun e τ => e = g.entry ∧ τ = ({ graph := g }, w) :=
    ⟨_, _, rfl, rfl, rfl⟩
  rw [addCounted]
  refine Prog.Reaches.bind start ?_
  rintro _ _ ⟨rfl, rfl⟩
  rw [if_neg (by rw [insertable.entry]; decide)]
  refine reaches_allocate (fun w₁ spent₁ => ?_) fun w₁ lacked =>
    Prog.Reaches.done (.inr ⟨nofun, rfl, rfl, .inl lacked.2⟩)
  refine Prog.Reaches.bind (findNeighbors_reaches mirror insertable.wide covers insertable.entry low value) ?_
  rintro found ⟨s₂, w₂⟩ ⟨rfl, ⟨rfl, lacked⟩ | ⟨rfl, spent₂⟩⟩
  · exact Prog.Reaches.done (.inr ⟨nofun, rfl, rfl, .inl (spent₁.lacked lacked).2⟩)
  refine reaches_allocate (fun w₃ spent₃ => ?_)
    fun w₃ lacked => Prog.Reaches.done (.inr ⟨nofun, rfl, rfl, .inl ((spent₁.trans spent₂).lacked lacked).2⟩)
  cases grows : g.addNode (ctx.params.levels.levelFor g.nodeCount) with
  | error e =>
    refine ⟨(some (.error e), totals), ({ graph := g }, w₃), ?_, .inr ⟨nofun, rfl, rfl, .inr ⟨e, rfl⟩⟩⟩
    exact run_addNode_error grows
  | ok h =>
    have publishes : Rewrites i { graph := h } w₃ (ctx.publishCounted g.nodeCount layers) fun stats g' =>
        Inserted ctx g g' layers totals (totals.record stats) := insertable.publishes grows chosen
    have finished : (ctx.publishCounted g.nodeCount layers >>= fun stats =>
        if ctx.params.levels.levelFor g.nodeCount > g.entry.level then
          setEntry { id := g.nodeCount, level := ctx.params.levels.levelFor g.nodeCount } >>= fun _ =>
            .done (some (.ok ()), totals.record stats)
        else .done (some (.ok ()), totals.record stats) :
        GraphProg (Option (Result Unit) × HnswBuildStats)).Reaches (answerIn i) ({ graph := h }, w₃)
          fun r τ => r.1 = some (.ok ()) ∧ Inserted ctx g τ.1.graph layers totals r.2 := by
      refine Prog.Reaches.bind publishes ?_
      rintro stats ⟨s₄, w₄⟩ ⟨_, _, _, _, inserted⟩
      split
      · exact ⟨_, ({ s₄ with graph := s₄.graph.setEntry _ }, w₄), rfl, rfl, inserted.setEntry _⟩
      · exact Prog.Reaches.done ⟨rfl, inserted⟩
    obtain ⟨r, τ, run, holds⟩ := finished
    exact ⟨r, τ, (run_addNode_ok grows).trans run, .inl holds⟩

/-- A third row that equals the two of `pairGraph`. -/
def duplicates : HnswContext :=
  { params := { M := 2, efConstruction := 8, maxLevel := 4 }, distance := fun _ _ => F32.zero }

theorem inserted_rows_are_linked_or_counted_pair : ∃ g layers after τ, pairGraph = .ok g ∧
    (duplicates.addCounted (VisitedSet.ensureCapacity {} g.nodeCount) g.nodeCount {}).run (answerIn 2)
      ({ graph := g }, {}) =
      some ((some (.ok ()), after), τ) ∧ Inserted duplicates g τ.1.graph layers {} after := by
  obtain ⟨g, made, valid, nodes, _⟩ := exists_pair
  have evaluated : (pairGraph.toOption.any fun g =>
      decide (g.m = 2) && (g.addNode (duplicates.params.levels.levelFor g.nodeCount)).isOk) =
        true := by decide +kernel
  rw [made] at evaluated
  change (decide (g.m = 2) && (g.addNode (duplicates.params.levels.levelFor g.nodeCount)).isOk) = true at evaluated
  obtain ⟨m, fits⟩ := Bool.and_eq_true_iff.mp evaluated
  have sized : g.m = duplicates.params.M.toNat := of_decide_eq_true m
  have some : g.nodeCount ≠ 0 := by omega
  have params : duplicates.params.Valid := HnswParams.validate_ok_iff.mp (by decide)
  have measures : Measures duplicates g.nodeCount := ⟨fun _ _ _ _ => rfl, fun _ _ _ _ => rfl⟩
  obtain ⟨layers, outcome, after, τ, _, _, run, ⟨rfl, inserted⟩ | ⟨_, _, _, short | ⟨e, refused⟩⟩⟩ :=
    inserted_rows_are_linked_or_counted valid some params sized rfl measures .new {} 2 {}
  · exact ⟨g, layers, after, τ, made, run, inserted⟩
  · exact absurd rfl short
  · rw [refused] at fits
    cases fits

end Inserted
end HnswContext
end VectorForge
