import VectorForge.Hnsw.QueryBeam

/-! Where the greedy search of a quiet graph ends. -/

namespace VectorForge

namespace HnswContext
variable {g : HnswGraph} {ctx : HnswContext} {query level owner : Nat}

section Scan
variable {start : ScoredId}

/-- A scan moves to nodes that it meets. When it has not moved, none of them is better. -/
structure Scanned (ctx : HnswContext) (query : Nat) (links : List Nat) (moved moved' : Moved start) : Prop where
  met : moved'.current = moved.current ∨ ∃ x ∈ links, moved'.current = ctx.scored query x
  sticky : moved.changed = true → moved'.changed = true
  stays : moved'.changed = false → moved'.current = moved.current
  least : moved'.changed = false → ∀ x ∈ links, candidateLess (ctx.scored query x) moved.current = false

theorem Scanned.none (moved : Moved start) : Scanned ctx query [] moved moved :=
  ⟨.inl rfl, id, fun _ => rfl, fun _ _ member => (by cases member)⟩

theorem Scanned.worse {x : Nat} {links : List Nat} {moved moved' : Moved start}
    (far : ¬ candidateLess (ctx.scored query x) moved.current = true)
    (rest : Scanned ctx query links moved moved') : Scanned ctx query (x :: links) moved moved' where
  met := rest.met.imp_right fun ⟨y, member, same⟩ => ⟨y, List.mem_cons_of_mem x member, same⟩
  sticky := rest.sticky
  stays := rest.stays
  least := fun still y member => by
    rcases List.mem_cons.mp member with rfl | later
    · exact Bool.eq_false_iff.mpr far
    · exact rest.least still y later

theorem Scanned.better {x : Nat} {links : List Nat} {moved next moved' : Moved start}
    (here : next.current = ctx.scored query x)
    (changed : next.changed = true) (rest : Scanned ctx query links next moved') :
    Scanned ctx query (x :: links) moved moved' where
  met := by
    rcases rest.met with same | ⟨y, member, same⟩
    · exact .inr ⟨x, List.mem_cons_self, same.trans here⟩
    · exact .inr ⟨y, List.mem_cons_of_mem x member, same⟩
  sticky := fun _ => rest.sticky changed
  stays := fun still => absurd (rest.sticky changed) (Bool.eq_false_iff.mp still)
  least := fun still => absurd (rest.sticky changed) (Bool.eq_false_iff.mp still)

variable (g ctx query level owner) in
theorem greedyScan_scans : ∀ (left i : Nat) (moved : Moved start), ∃ moved' : Moved start,
    GraphProg.value g (ctx.greedyScan query level owner left i moved) = some moved' ∧
      Scanned ctx query (linksFrom g level owner left i) moved moved' := by
  intro left
  induction left with
  | zero => exact fun _ moved => ⟨moved, rfl, .none moved⟩
  | succ left ih =>
    intro i moved
    rw [greedyScan, value_load, linksFrom_succ]
    dsimp only
    split
    next near =>
      obtain ⟨moved', run, rest⟩ := ih (i + 1) _
      exact ⟨moved', run, .better rfl rfl rest⟩
    next far =>
      obtain ⟨moved', run, rest⟩ := ih (i + 1) moved
      exact ⟨moved', run, .worse far rest⟩

end Scan

/-- A step along a link of the level. -/
def Linked (g : HnswGraph) (level x y : Nat) : Prop := y ∈ g.links x level

/-- Where a search that starts at `current` ends: somewhere down the links, where no link leads further down. -/
structure Bottom (ctx : HnswContext) (g : HnswGraph) (query level : Nat) (current c : ScoredId) : Prop where
  reached : Relation.ReflTransGen (Linked g level) current.id c.id
  scored : c = ctx.scored query c.id
  below : c.key ≤ current.key
  least : ∀ x ∈ g.links c.id level, candidateLess (ctx.scored query x) c = false

variable (ctx query) in
/-- The rounds of `greedy_search`, each of which ends nearer to the query than the one before. -/
theorem greedySearch_bottom (g : HnswGraph) (level : Nat) (current : ScoredId)
    (scored : current = ctx.scored query current.id) :
    ∃ c, GraphProg.value g (ctx.greedySearch query level current) = some c ∧
    Bottom ctx g query level current c := by
  obtain ⟨moved, run, scanned⟩ := greedyScan_scans g ctx query level current.id (g.words current.id level 0) 0
    (Moved.none current)
  rw [linksFrom_all] at scanned
  rw [greedySearch, value_load, value_bind, run, Option.bind_some]
  split
  next changed =>
    have next : Relation.ReflTransGen (Linked g level) current.id moved.current.id ∧
        moved.current = ctx.scored query moved.current.id := by
      rcases scanned.met with same | ⟨x, member, same⟩
      · rw [same]
        exact ⟨.refl, scored⟩
      · rw [same]
        exact ⟨.single member, rfl⟩
    obtain ⟨c, value, bottom⟩ := greedySearch_bottom g level moved.current next.2
    exact ⟨c, value, next.1.trans bottom.reached, bottom.scored, bottom.below.trans moved.below, bottom.least⟩
  next still =>
    have same := scanned.stays (Bool.eq_false_iff.mpr still)
    refine ⟨moved.current, rfl, ?_⟩
    rw [same]
    exact ⟨.refl, scored, le_refl _, scanned.least (Bool.eq_false_iff.mpr still)⟩
termination_by height current
decreasing_by exact height_lt (moved.less ‹_›)

/-- `greedy_search` from a node of a valid graph ends at a node that can be reached on the level, with its distance;
the start and the neighbours of that node are not better than it. -/
theorem greedy_search_ends_at_local_minimum (g : HnswGraph) (ctx : HnswContext) (query level start : Nat)
    (valid : HnswValidator.checkInvariants g = .ok ()) (listed : g.hasList start level = true)
    (real : ∀ x, g.hasList x level = true → (ctx.distance query x).isNan = false) :
    ∃ c, GraphProg.value g (ctx.greedySearch query level (ctx.scored query start)) = some c ∧
      Relation.ReflTransGen (Linked g level) start c.id ∧ g.hasList c.id level = true ∧
      c.distance = ctx.distance query c.id ∧
      c.key ≤ (ctx.scored query start).key ∧ ∀ x ∈ g.links c.id level, c.key ≤ (ctx.scored query x).key := by
  have invariants := HnswValidator.checkInvariants_ok_iff.mp valid
  have closed {x y : Nat} (here : g.hasList x level = true) (linked : Linked g level x y) :
      g.hasList y level = true := by
    obtain ⟨node, high⟩ := of_decide_eq_true here
    have list := invariants.lists x level node high
    exact decide_eq_true ⟨list.exists_ y linked, list.high y linked⟩
  obtain ⟨c, value, bottom⟩ := greedySearch_bottom ctx query g level (ctx.scored query start) rfl
  have there : g.hasList c.id level = true := by
    have reached := bottom.reached
    generalize c.id = last at reached
    induction reached with
    | refl => exact listed
    | tail _ linked ih => exact closed ih linked
  refine ⟨c, value, bottom.reached, there, congrArg ScoredId.distance bottom.scored,
    bottom.below, fun x linked => ?_⟩
  have real' : c.distance.isNan = false := by
    rw [bottom.scored]
    exact real c.id there
  have notBetter := bottom.least x linked
  rw [← not_lt, ← candidateLess_iff (real x (closed there linked)) real', notBetter]
  exact Bool.false_ne_true

/-- Two linked nodes at the same distance from the query. -/
theorem greedy_search_ends_at_local_minimum_pair : ∃ g ctx c, g.nodeCount = 2 ∧
    GraphProg.value g (HnswContext.greedySearch ctx 2 0 (ctx.scored 2 1)) = some c ∧
    c.key ≤ (ctx.scored 2 1).key ∧ ∀ x ∈ g.links c.id 0, c.key ≤ (ctx.scored 2 x).key := by
  obtain ⟨g, -, valid, two, -⟩ := exists_pair
  obtain ⟨c, value, -, -, -, below, least⟩ :=
    greedy_search_ends_at_local_minimum g ⟨{}, {}, true, fun _ _ => ⟨0⟩⟩ 2 0 1 valid
    (decide_eq_true ⟨by rw [two]; decide, Nat.zero_le _⟩) fun _ _ => rfl
  exact ⟨g, _, c, two, value, below, least⟩

end HnswContext
end VectorForge
