import VectorForge.Hnsw.SearchAnswers
import VectorForge.Hnsw.QuietSearch
import VectorForge.Hnsw.SelectionSpec
import VectorForge.Hnsw.QueryBeam

/-! The construction candidates and the chosen neighbours of an insertion into a quiet graph. -/

namespace VectorForge

namespace BoundedMaxHeap

/-- A heap with room for anything is never empty again. -/
theorem push_ne_nil {h : BoundedMaxHeap} (positive : 1 ≤ h.capacity) (c : ScoredId) : (h.push c).data ≠ [] := by
  simp only [push, BinaryHeap.pushBounded]
  split
  next room => exact fun none => List.cons_ne_nil c h.data (List.perm_nil.mp (none ▸ BinaryHeap.push_perm.symm))
  next full =>
    cases known : h.data with
    | nil =>
      rw [known, List.length_nil] at full
      omega
    | cons top rest =>
      dsimp only
      split
      · exact fun none => List.cons_ne_nil c rest (List.perm_nil.mp (none ▸ BinaryHeap.replaceTop_perm.symm))
      · exact List.cons_ne_nil top rest

end BoundedMaxHeap

namespace HnswContext
variable {g : HnswGraph} {ctx : HnswContext} {query level ef : Nat} {st last : LayerState} {x : Nat}

/-- Insertions search among all rows. -/
def nothingHidden (_ : Nat) : Bool := false

/-- A search of an insertion, from the first entry point on. -/
structure Building (ctx : HnswContext) (g : HnswGraph) (query level ef : Nat) (st : LayerState) :
    Prop extends Walks g level st where
  gathered : Gathered ctx nothingHidden query g.nodeCount ef st
  settled : st.visited.Settled
  covers : g.nodeCount ≤ st.visited.marks.length
  positive : 1 ≤ st.results.capacity
  found : st.results.data ≠ []

theorem Building.offer (building : Building ctx g query level ef st) {c : ScoredId}
    (listed : g.hasList c.id level = true)
    (scored : c = ctx.scored query c.id) (fresh : st.visited.isFresh c.id = true) :
    Building ctx g query level ef (LayerState.offer { st with visited := st.visited.visit c.id }
      nothingHidden c) where
  toWalks := building.toWalks.offer listed fresh
  gathered := building.gathered.offer ⟨scored, (of_decide_eq_true listed).1⟩
    (building.terrain.inside _ listed) fresh
  settled := building.settled.visit c.id
  covers := building.covers.trans (VisitedSet.length_visit _ _).ge
  positive := building.positive
  found := BoundedMaxHeap.push_ne_nil building.positive c

theorem Building.visit (building : Building ctx g query level ef st) (listed : g.hasList x level = true) :
    Building ctx g query level ef { st with visited := st.visited.visit x } where
  toWalks := building.toWalks.visit listed
  gathered := building.gathered.visit (building.terrain.inside x listed)
  settled := building.settled.visit x
  covers := building.covers.trans (VisitedSet.length_visit _ _).ge
  positive := building.positive
  found := building.found

theorem Building.foldl {links : List Nat} (building : Building ctx g query level ef st)
    (listed : ∀ x ∈ links, g.hasList x level = true) :
    Building ctx g query level ef (links.foldl (LayerState.meet ctx nothingHidden query) st) := by
  induction links generalizing st with
  | nil => exact building
  | cons x links ih =>
    obtain ⟨here, others⟩ := List.forall_mem_cons.mp listed
    refine ih ?_ others
    rw [LayerState.meet]
    split
    next fresh =>
      split
      · exact building.offer (c := ctx.scored query x) here rfl fresh
      · exact building.visit here
    next => exact building

theorem Building.explores (building : Building ctx g query level ef st)
    (explores : Explores ctx g nothingHidden query level st last) : Building ctx g query level ef last := by
  induction explores with
  | empty => exact building
  | exhausted => exact building
  | @step st last nearest front near rest ih =>
    have popped : Building ctx g query level ef { st with candidates := st.candidates.pop } := by
      obtain ⟨pushed, gathers⟩ := building.gathered
      exact { building with toWalks := building.toWalks.pop front, gathered := ⟨pushed, { gathers with }⟩ }
    exact ih (popped.foldl fun y member => building.terrain.closed _ _ (building.toWalks.front front) member)

/-- The entry points, nodes of the level with their distances. -/
def Points (ctx : HnswContext) (g : HnswGraph) (query level : Nat) (points : List ScoredId) : Prop :=
  ∀ c ∈ points, Stands ctx g query level c

theorem Points.lower {points : List ScoredId} {below : Nat} (known : Points ctx g query level points)
    (le : below ≤ level) : Points ctx g query below points := by
  intro c member
  obtain ⟨listed, scored⟩ := known c member
  obtain ⟨node, high⟩ := of_decide_eq_true listed
  exact ⟨decide_eq_true ⟨node, le.trans high⟩, scored⟩

theorem value_seedLayer {points : List ScoredId} : ∀ {st : LayerState}, Building ctx g query level ef st →
    Points ctx g query level points → ∃ seeded, GraphProg.value g (seedLayer nothingHidden points st) =
      some (some seeded) ∧
      Building ctx g query level ef seeded := by
  induction points with
  | nil => exact fun building _ => ⟨_, rfl, building⟩
  | cons point rest ih =>
    intro st building known
    obtain ⟨first, others⟩ := List.forall_mem_cons.mp known
    rw [seedLayer, if_pos (building.terrain.inside _ first.listed)]
    split
    next fresh =>
      rw [value_allocate, if_pos rfl]
      exact ih (building.offer first.listed first.scored fresh) others
    next => exact ih building others

/-- The candidates of one level: some nodes of the level, each once and with its distance, at most `ef` of them,
the nearest first. -/
structure Candidates (ctx : HnswContext) (g : HnswGraph) (query level ef : Nat) (found : List ScoredId) : Prop
    extends SoundAnswers ctx nothingHidden query g.nodeCount ef found where
  nonempty : found ≠ []
  listed : Points ctx g query level found

/-- A search from several nodes of the level. -/
theorem value_searchPoints (mirror : Mirror g.nodeCount g g) (wide : 1 ≤ ef) {visited : VisitedSet}
    (covers : Covers g.nodeCount visited)
    {points : List ScoredId} (known : Points ctx g query level points) (several : points ≠ []) : ∃ found next,
    GraphProg.value g (ctx.searchLayer nothingHidden visited query points ef level) = some (some (found, next)) ∧
    Candidates ctx g query level ef found ∧ Covers g.nodeCount next := by
  obtain ⟨point, rest, rfl⟩ := List.exists_cons_of_ne_nil several
  obtain ⟨first, others⟩ := List.forall_mem_cons.mp known
  have terrain : Terrain g level visited.marks.length := terrain_of_mirror mirror level covers.size
  have inside : point.id < visited.reset.marks.length := by
    rw [VisitedSet.length_reset]
    exact terrain.inside _ first.listed
  have fresh : visited.reset.isFresh point.id = true := covers.settled.isFresh_reset point.id
  have start : Gathered ctx nothingHidden query g.nodeCount ef (emptyLayer visited ef) :=
    ⟨[], rfl, List.nodup_nil, nofun, nofun⟩
  have seeding : Building ctx g query level ef (startLayer nothingHidden visited ef point) :=
    { walks_start terrain covers.settled first.listed with
      gathered := start.offer ⟨first.scored, (of_decide_eq_true first.listed).1⟩ inside fresh
      settled := covers.settled.reset.visit point.id
      covers := by
        show g.nodeCount ≤ (visited.reset.visit point.id).marks.length
        rw [VisitedSet.length_visit, VisitedSet.length_reset]
        exact covers.size
      positive := wide
      found := BoundedMaxHeap.push_ne_nil wide point }
  obtain ⟨seeded, seeds, building⟩ := value_seedLayer seeding others
  obtain ⟨last, explores, expands⟩ := value_expandLayer ctx nothingHidden query seeded building.toWalks
  have final := building.explores explores
  have perm := last.results.sortAscending_perm
  refine ⟨last.results.sortAscending, last.visited, ?_,
    { final.gathered.answers with nonempty := ?_, listed := ?_ }, final.covers, final.settled⟩
  · rw [searchLayer, if_neg (by omega), value_bind, seedLayer, if_pos inside, if_pos fresh,
      value_allocate, if_pos rfl]
    change (GraphProg.value g (seedLayer nothingHidden rest (startLayer nothingHidden visited ef point))).bind _ = _
    rw [seeds, Option.bind_some, value_bind, expands]
    rfl
  · exact fun none => final.found (List.perm_nil.mp (none ▸ perm.symm))
  · intro c member
    obtain ⟨pushed, gathers⟩ := final.gathered
    have inHeap := perm.mem_iff.mp member
    have listed := final.visited c.id (final.results c inHeap)
    rw [gathers.heap] at inHeap
    exact ⟨listed, (gathers.genuine c (BoundedMaxHeap.mem_pushes inHeap)).1.1⟩

section Levels

/-- The neighbours that are chosen among the candidates of a level. -/
def layerOf (ctx : HnswContext) (found : List ScoredId) : Layer where
  candidates := found
  selected := NeighborSelect.selectNeighbors found ctx.params.M.toNat ctx.options.selection
    ctx.options.keepPruned ctx.distance

/-- One level of an insertion: its candidates, and the neighbours that are chosen among them. -/
structure Chosen (ctx : HnswContext) (g : HnswGraph) (query level : Nat) (layer : Layer) : Prop where
  candidates : Candidates ctx g query level ctx.params.efConstruction.toNat layer.candidates
  selected : layer = ctx.layerOf layer.candidates

/-- The levels `0, 1, …, top` of an insertion. -/
structure AllChosen (ctx : HnswContext) (g : HnswGraph) (query top : Nat) (layers : List Layer) : Prop where
  size : layers.length = top + 1
  each : ∀ l layer, layers[l]? = some layer → Chosen ctx g query l layer

theorem AllChosen.snoc {top : Nat} {layers : List Layer} {layer : Layer} (below : AllChosen ctx g query top layers)
    (here : Chosen ctx g query (top + 1) layer) : AllChosen ctx g query (top + 1) (layers ++ [layer]) where
  size := by rw [List.length_append, below.size, List.length_singleton]
  each := by
    intro l found at_
    have size := below.size
    rcases Nat.lt_or_ge l layers.length with low | high
    · rw [List.getElem?_append_left low] at at_
      exact below.each l found at_
    · rw [List.getElem?_append_right high, List.getElem?_singleton] at at_
      split at at_
      next zero =>
        cases at_
        obtain rfl : l = top + 1 := by omega
        exact here
      next => cases at_

theorem value_searchLevels (mirror : Mirror g.nodeCount g g)
    (wide : 1 ≤ ctx.params.efConstruction.toNat) : ∀ (top : Nat)
    {visited : VisitedSet} {points : List ScoredId}, Covers g.nodeCount visited →
    Points ctx g query top points → points ≠ [] →
    ∃ layers, GraphProg.value g (ctx.searchLevels query top visited points) = some (some layers) ∧
    AllChosen ctx g query top layers := by
  intro top
  induction top with
  | zero =>
    intro visited points covers known several
    obtain ⟨found, next, value, candidates, _⟩ := value_searchPoints mirror wide covers known several
    refine ⟨[ctx.layerOf found], ?_, rfl, ?_⟩
    · rw [searchLevels, value_bind]
      change (GraphProg.value g (ctx.searchLayer nothingHidden visited query points _ 0)).bind _ = _
      rw [value]
      rfl
    · intro l layer at_
      rw [List.getElem?_singleton] at at_
      split at at_
      next zero =>
        cases at_
        rw [zero]
        exact ⟨candidates, rfl⟩
      next => cases at_
  | succ below ih =>
    intro visited points covers known several
    obtain ⟨found, next, value, candidates, covers'⟩ := value_searchPoints mirror wide covers known several
    obtain ⟨layers, lower, chosen⟩ := ih covers' (candidates.listed.lower (Nat.le_succ below)) candidates.nonempty
    have here : Chosen ctx g query (below + 1) (ctx.layerOf found) := ⟨candidates, rfl⟩
    refine ⟨layers ++ [ctx.layerOf found], ?_, chosen.snoc here⟩
    rw [searchLevels, value_bind]
    change (GraphProg.value g (ctx.searchLayer nothingHidden visited query points _ (below + 1))).bind _ = _
    rw [value, Option.bind_some]
    dsimp only
    rw [value_bind, lower]
    rfl

/-- What an insertion of `query` finds in a quiet graph. -/
theorem value_findNeighbors (mirror : Mirror g.nodeCount g g) (wide : 1 ≤ ctx.params.efConstruction.toNat)
    (entry : g.entry.valid = true)
    {top : Nat} (low : top ≤ g.entry.level) {visited : VisitedSet} (covers : Covers g.nodeCount visited) : ∃ layers,
    GraphProg.value g (ctx.findNeighbors visited query top g.entry) = some (some layers) ∧
    AllChosen ctx g query top layers := by
  obtain ⟨_, node, high⟩ := mirror.entry entry
  have start : Stands ctx g query g.entry.level (ctx.scored query g.entry.id) := ⟨decide_eq_true ⟨node, high⟩, rfl⟩
  have closed (l x y : Nat) := (terrain_of_mirror mirror l (le_refl g.nodeCount)).closed x y
  obtain ⟨current, descends, stands⟩ := value_descend closed start low
  have known : Points ctx g query top [current] := by
    intro c member
    rw [List.mem_singleton.mp member]
    exact stands
  obtain ⟨layers, value, chosen⟩ := value_searchLevels mirror wide top covers known (List.cons_ne_nil _ _)
  refine ⟨layers, ?_, chosen⟩
  rw [findNeighbors, value_bind]
  change (GraphProg.value g (ctx.descend query top g.entry.level (ctx.scored query g.entry.id))).bind _ = _
  rw [descends]
  exact value

/-- The chosen neighbours of a level with the default options, when the distances are numbers. -/
theorem Chosen.spec {layer : Layer} (chosen : Chosen ctx g query level layer) (default : ctx.options = {})
    (several : 1 ≤ ctx.params.M.toNat) (real : ∀ x, x < g.nodeCount → (ctx.distance query x).isNan = false) :
    layer.selected ≠ [] ∧ layer.selected ⊆ layer.candidates ∧ (layer.selected.map (·.id)).Nodup ∧
      layer.selected.length = min ctx.params.M.toNat layer.candidates.length := by
  have candidates := chosen.candidates
  obtain ⟨⟨distinct, members⟩, _, _, _, _, length⟩ :=
    NeighborSelect.selection_meets_specification layer.candidates ctx.params.M.toNat
    ctx.options.selection ctx.options.keepPruned ctx.distance (candidates.ascending real) candidates.distinct
  have size := length (.inl (by rw [default]))
  have some : layer.candidates.length ≠ 0 := fun none => candidates.nonempty (List.length_eq_zero_iff.mp none)
  have selected : layer.selected = NeighborSelect.selectNeighbors layer.candidates ctx.params.M.toNat
      ctx.options.selection
      ctx.options.keepPruned ctx.distance := congrArg Layer.selected chosen.selected
  rw [selected]
  refine ⟨fun none => ?_, members, distinct, size⟩
  rw [none, List.length_nil] at size
  omega

end Levels
end HnswContext
end VectorForge
