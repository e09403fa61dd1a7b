import VectorForge.Hnsw.BeamSearch
import VectorForge.Hnsw.Query

/-! What a query of a graph returns. -/

namespace VectorForge
namespace HnswContext
variable {g : HnswGraph} {ctx : HnswContext} {hidden : Nat → Bool} {query i : Nat} {w : World} {knobs : SearchKnobs}
  {visited : VisitedSet}

theorem terrain_of_mirror (mirror : Mirror g.nodeCount g g) (level : Nat) {marks : Nat}
    (covers : g.nodeCount ≤ marks) : Terrain g level marks where
  closed := by
    intro x y listed link
    obtain ⟨node, high⟩ := of_decide_eq_true listed
    exact decide_eq_true (mirror.closed x level y node high link)
  inside := fun x listed => (of_decide_eq_true listed).1.trans_le covers

theorem mirror_of_invariants (valid : HnswValidator.Invariants g) : Mirror g.nodeCount g g where
  m := rfl
  left := le_refl _
  right := le_refl _
  levels := fun _ _ => rfl
  links := fun _ _ _ _ => rfl
  counts := fun c l node high => (valid.lists c l node high).count
  closed := fun c l v node high link =>
    ⟨(valid.lists c l node high).exists_ v link, (valid.lists c l node high).high v link⟩
  valid := rfl
  entry := by
    intro entry
    have nodes : g.nodeCount ≠ 0 := by
      intro none
      rw [valid.empty none] at entry
      cases entry
    obtain ⟨_, node, level⟩ := valid.entry nodes
    exact ⟨rfl, node, level.ge⟩

/-- In a world with enough memory a search that changes nothing runs to its value. -/
theorem run_of_value {α : Type} {p : GraphProg α} {a : α} (value : GraphProg.value g p = some a) (ample : w.Ample) :
    p.run (answerIn i) ({ graph := g }, w) = some (a, { graph := g }, w) := by
  have agree (o : GraphOp) (r : o.Ret) (τ : SharedGraph × World) (answered : g.answers o = some r)
      (still : τ = ({ graph := g }, w)) : ∃ τ', answerIn i o τ = some (r, τ') ∧ τ' = ({ graph := g }, w) := by
    subst still
    refine ⟨_, ?_, rfl⟩
    cases o with
    | levelOf id => cases answered; rfl
    | load id level word => cases answered; rfl
    | loadEntry => cases answered; rfl
    | allocate =>
      cases answered
      have none : w.memory = [] := ample
      obtain ⟨memory, clock, schedules, scratch, settled⟩ := w
      cases none
      rfl
    | _ => cases answered
  obtain ⟨τ, run, rfl⟩ := Prog.run_of_eval agree value rfl
  exact run

/-- The width of the beam of a query. -/
def beamWidth (ctx : HnswContext) (knobs : SearchKnobs) : Nat :=
  max (if knobs.ef ≠ 0 then knobs.ef else ctx.params.efSearch.toNat) knobs.k

theorem value_searchWith_empty (none : g.entry.valid = false) :
    GraphProg.value g (ctx.searchWith hidden visited query g.nodeCount knobs) = some (some []) := by
  rw [searchWith, value_entry, none]
  rfl

variable (ctx hidden query knobs) in
theorem value_searchWith (mirror : Mirror g.nodeCount g g) (entry : g.entry.valid = true)
    (settled : visited.Settled) (some : 1 ≤ knobs.k) : ∃ current last,
    GraphProg.value g (ctx.descend query 0 g.entry.level (ctx.scored query g.entry.id)) = .some current ∧
    Stands ctx g query 0 current ∧
    Explores ctx g hidden query 0 (startLayer hidden (visited.ensureCapacity g.nodeCount)
      (ctx.beamWidth knobs) current) last ∧
    GraphProg.value g (ctx.searchWith hidden visited query g.nodeCount knobs) =
      .some (.some (last.results.sortAscending.take knobs.k)) := by
  obtain ⟨_, node, high⟩ := mirror.entry entry
  have start : Stands ctx g query g.entry.level (ctx.scored query g.entry.id) := ⟨decide_eq_true ⟨node, high⟩, rfl⟩
  have closed (l x y : Nat) := (terrain_of_mirror mirror l (le_refl g.nodeCount)).closed x y
  obtain ⟨current, descends, stands⟩ := value_descend closed start (Nat.zero_le _)
  have wide : 1 ≤ ctx.beamWidth knobs := some.trans (le_max_right _ _)
  obtain ⟨last, explores, value⟩ := value_searchLayer ctx hidden query wide
    (terrain_of_mirror mirror 0 (VisitedSet.length_ensureCapacity visited g.nodeCount))
    (settled.ensureCapacity _) stands.listed
  refine ⟨current, last, descends, stands, explores, ?_⟩
  rw [searchWith, value_entry, entry, if_pos rfl, value_allocate, if_pos rfl, value_bind]
  change (GraphProg.value g (ctx.descend query 0 g.entry.level (ctx.scored query g.entry.id))).bind _ = _
  rw [descends, Option.bind_some, value_bind]
  change (GraphProg.value g (ctx.searchLayer hidden _ query [current] (ctx.beamWidth knobs) 0)).bind _ = _
  rw [value]
  rfl

variable (ctx hidden query knobs) in
/-- Asking for more results than there are nodes returns what asking for as many as there are nodes does. -/
theorem value_searchWith_clamped (mirror : Mirror g.nodeCount g g) (settled : visited.Settled)
    (some : 1 ≤ knobs.k) : GraphProg.value g (ctx.searchWith hidden visited query g.nodeCount
      { knobs with k := min knobs.k (max g.nodeCount 1) }) =
      GraphProg.value g (ctx.searchWith hidden visited query g.nodeCount knobs) := by
  cases entry : g.entry.valid with
  | false => rw [value_searchWith_empty entry, value_searchWith_empty entry]
  | true =>
    obtain ⟨_, node, _⟩ := mirror.entry entry
    have nodes : 1 ≤ g.nodeCount := Nat.lt_of_le_of_lt (Nat.zero_le _) node
    rcases Nat.le_total knobs.k (max g.nodeCount 1) with few | more
    · rw [min_eq_left few]
    · rw [min_eq_right more, max_eq_left nodes]
      rw [max_eq_left nodes] at more
      obtain ⟨current, last, descends, stands, explores, value⟩ :=
        value_searchWith ctx hidden query { knobs with k := g.nodeCount } mirror entry
        settled nodes
      obtain ⟨current', last', descends', _, explores', value'⟩ :=
        value_searchWith ctx hidden query knobs mirror entry settled some
      cases descends.symm.trans descends'
      have walks (ef : Nat) : Walks g 0 (startLayer hidden (visited.ensureCapacity g.nodeCount) ef current) :=
        walks_start (terrain_of_mirror mirror 0 (VisitedSet.length_ensureCapacity visited g.nodeCount))
          (settled.ensureCapacity _) stands.listed
      have wide : g.nodeCount ≤ ctx.beamWidth { knobs with k := g.nodeCount } := le_max_right _ _
      have wide' : g.nodeCount ≤ ctx.beamWidth knobs := more.trans (le_max_right _ _)
      have same := (twins_start nodes wide wide').explores (walks _) explores explores'
      have length := ((walks _).explores explores).length_results
      have sorted : last.results.sortAscending = last'.results.sortAscending :=
        congrArg (BinaryHeap.sortAscending candidateLess) same
      have all : last'.results.sortAscending.length ≤ g.nodeCount := by
        rw [← sorted]
        exact (BoundedMaxHeap.sortAscending_perm _).length_eq.trans_le length
      rw [value, value', sorted, List.take_of_length_le all, List.take_of_length_le (all.trans more)]

/-- What a query that has enough memory returns. -/
structure Answers (ctx : HnswContext) (g : HnswGraph) (hidden : Nat → Bool) (query : Nat) (knobs : SearchKnobs)
    (results : List ScoredId) : Prop where
  few : results.length ≤ knobs.k
  sorted : results.Pairwise fun a b => a.key < b.key
  distinct : (results.map (·.id)).Nodup
  members : ∀ c ∈ results, c.id < g.nodeCount ∧ hidden c.id = false ∧ c.distance = ctx.distance query c.id
  empty : g.entry.valid = false → results = []
  beam : g.entry.valid = true → ∃ current beam,
    GraphProg.value g (ctx.descend query 0 g.entry.level (ctx.scored query g.entry.id)) = some current ∧
    FinalBeam ctx g hidden query 0 current.id (ctx.beamWidth knobs) beam ∧ results = beam.take knobs.k ∧
    ((shown g hidden).card ≤ ctx.beamWidth knobs → ∀ c, c ∈ beam ↔ c = ctx.scored query c.id ∧ hidden c.id = false ∧
      Reaches g 0 current.id c.id)

theorem FinalBeam.take {start ef k : Nat} {beam : List ScoredId}
    (final : FinalBeam ctx g hidden query 0 start ef beam) :
    (beam.take k).length ≤ k ∧ (beam.take k).Pairwise (fun a b => a.key < b.key) ∧
    ((beam.take k).map (·.id)).Nodup ∧
      ∀ c ∈ beam.take k, c.id < g.nodeCount ∧ hidden c.id = false ∧ c.distance = ctx.distance query c.id := by
  have sorted : (beam.take k).Pairwise fun a b => a.key < b.key := final.sorted.sublist (List.take_sublist k beam)
  have members (c : ScoredId) (member : c ∈ beam.take k) := final.members c (List.mem_of_mem_take member)
  refine ⟨List.length_take_le _ _, sorted, ?_, fun c member => ?_⟩
  · refine List.pairwise_map.mpr (sorted.imp_of_mem ?_)
    intro a b inA inB below same
    have equal : a = b := by rw [(members a inA).1, (members b inB).1, same]
    rw [equal] at below
    exact lt_irrefl _ below
  · obtain ⟨same, node, live, _⟩ := members c member
    exact ⟨node, live, congrArg ScoredId.distance same⟩

variable (hidden) in
theorem value_answers (mirror : Mirror g.nodeCount g g) (settled : visited.Settled) (some : 1 ≤ knobs.k)
    (real : ∀ x, x < g.nodeCount → (ctx.distance query x).isNan = false) : ∃ results,
    GraphProg.value g (ctx.searchWith hidden visited query g.nodeCount knobs) = .some (.some results) ∧
      Answers ctx g hidden query knobs results := by
  cases entry : g.entry.valid with
  | false =>
    refine ⟨[], value_searchWith_empty entry, Nat.zero_le _, .nil, List.nodup_nil, nofun,
      fun _ => rfl, fun wrong => ?_⟩
    rw [entry] at wrong
    cases wrong
  | true =>
    obtain ⟨current, last, descends, stands, explores, value⟩ :=
      value_searchWith ctx hidden query knobs mirror entry settled some
    have numbers : Real ctx g query 0 := fun x listed => real x (of_decide_eq_true listed).1
    have wide : 1 ≤ ctx.beamWidth knobs := some.trans (le_max_right _ _)
    rw [stands.scored] at explores
    obtain ⟨searching, done⟩ := (searching_start hidden wide numbers
      (terrain_of_mirror mirror 0 (VisitedSet.length_ensureCapacity visited g.nodeCount)) (settled.ensureCapacity _)
      stands.listed).ends numbers explores
    have final := searching.finalBeam (explores.capacity.trans capacity_start) done numbers
    obtain ⟨few, sorted, distinct, members⟩ := final.take (k := knobs.k)
    refine ⟨_, value, few, sorted, distinct, members, fun wrong => ?_,
      fun _ => ⟨current, _, descends, final, rfl, fun room c => ?_⟩⟩
    · rw [entry] at wrong
      cases wrong
    · constructor
      · intro member
        obtain ⟨same, _, live, reached⟩ := final.members c member
        exact ⟨same, live, reached⟩
      · rintro ⟨same, live, reached⟩
        rw [same]
        exact final.whole room c.id reached live

/-- A query returns the best of a beam that nothing around it improves, or runs out of memory. -/
theorem search_with_returns_best_of_beam (valid : HnswValidator.checkInvariants g = .ok ()) {deleted : TombstoneSet}
    (tracks : deleted.Tracks g.nodeCount) {leased : VisitedSet} (used : leased.Used) (some : 1 ≤ knobs.k)
    (real : ∀ x, x < g.nodeCount → (ctx.distance query x).isNan = false) (i : Nat) (w : World) : ∃ outcome τ,
    (ctx.searchWith (fun id => deleted.any && deleted.test id) leased query g.nodeCount knobs).run (answerIn i)
      ({ graph := g }, w) =
      .some (outcome, τ) ∧ τ.1 = { graph := g } ∧
    (outcome = none ∧ ¬w.Ample ∨ ∃ results, outcome = .some results ∧
      Answers ctx g deleted.test query knobs results) := by
  have mirror := mirror_of_invariants (HnswValidator.checkInvariants_ok_iff.mp valid)
  have hidden : (fun id => deleted.any && deleted.test id) = deleted.test := funext tracks.any_and_test
  obtain ⟨results, value, answers⟩ := value_answers deleted.test mirror used.settled some real
  have reference := run_of_value (i := i) value (show ({} : World).Ample from rfl)
  obtain ⟨outcome, τ, run, ending⟩ :=
    searchWith_rereads (s := { graph := g }) (t := { graph := g }) (i := i) (j := i) (w := w) (v := {})
    deleted.test
    mirror ⟨rfl, rfl, fun _ _ => rfl⟩ rfl used.settled used.settled some
  rw [hidden]
  refine ⟨outcome, τ, run, ?_⟩
  rcases ending with ⟨failed, same, lacked⟩ | ⟨other, υ, again, ⟨found, rfl, rfl, _⟩, same, _, _⟩
  · exact ⟨same, .inl ⟨failed, lacked.2⟩⟩
  · cases reference.symm.trans again
    exact ⟨same, .inr ⟨_, rfl, answers⟩⟩

section Pair

/-- Two nodes that are linked to each other. -/
def pairGraph : Result HnswGraph := do
  let g ← (HnswGraph.blank 2 4).addNode 0
  let g ← g.addNode 0
  return ((g.storeList 0 0 [1]).storeList 1 0 [0]).setEntry { id := 0, level := 0 }

theorem exists_pair : ∃ g, pairGraph = .ok g ∧ HnswValidator.checkInvariants g = .ok () ∧ g.nodeCount = 2 ∧
    g.entry.valid = true := by
  have evaluated : (pairGraph.toOption.any fun g =>
      decide (g.nodeCount = 2 ∧ g.m = 2 ∧ g.entry = { id := 0, level := 0 } ∧
      g.links 0 0 = [1] ∧ g.links 1 0 = [0] ∧ g.level 0 = 0 ∧ g.level 1 = 0)) = true := by decide +kernel
  cases made : pairGraph with
  | error e =>
    rw [made] at evaluated
    cases evaluated
  | ok g =>
    rw [made] at evaluated
    obtain ⟨nodes, m, entry, first, second, low, low'⟩ := of_decide_eq_true evaluated
    have valid : g.entry.valid = true := by
      rw [entry]
      decide
    have levels (id : Nat) (node : id < g.nodeCount) : g.level id = 0 := by
      rw [nodes] at node
      rcases (by omega : id = 0 ∨ id = 1) with rfl | rfl
      · exact low
      · exact low'
    have capacity : g.capacity 0 = 4 := by rw [HnswGraph.capacity, if_pos rfl, m]
    refine ⟨g, rfl, HnswValidator.checkInvariants_ok_iff.mpr ⟨?_, ?_, ?_, ?_⟩, nodes, valid⟩
    · intro none
      rw [nodes] at none
      cases none
    · refine fun _ => ⟨valid, ?_, ?_⟩
      · rw [entry, nodes]
        decide
      · rw [entry]
        exact low
    · intro id node
      rw [levels id node]
      exact ⟨Nat.zero_le _, Nat.zero_le _⟩
    · intro id l node high
      rw [levels id node, Nat.le_zero] at high
      subst high
      have links : g.links id 0 = [1 - id] ∧ 1 - id < 2 ∧ 1 - id ≠ id := by
        rw [nodes] at node
        rcases (by omega : id = 0 ∨ id = 1) with rfl | rfl
        · exact ⟨first, by decide, by decide⟩
        · exact ⟨second, by decide, by decide⟩
      obtain ⟨same, inside, other⟩ := links
      refine ⟨?_, ?_, ?_, fun _ _ => Nat.zero_le _, ?_⟩
      · rw [same, capacity]
        exact (by decide : 1 ≤ 4)
      · rw [same, nodes]
        exact fun x member => List.mem_singleton.mp member ▸ inside
      · rw [same]
        exact fun x member => List.mem_singleton.mp member ▸ other
      · rw [same]
        exact List.nodup_singleton _

def pairContext : HnswContext := { params := {}, distance := fun _ _ => F32.zero }

/-- The second of two rows is marked. -/
def secondMarked : TombstoneSet := (({} : TombstoneSet).ensureSize 2).set 1

theorem secondMarked_tracks : secondMarked.Tracks 2 :=
  ((((TombstoneSet.Tracks.nil.ensureSize 2).grow (by decide)).grow (by decide)).set (by decide) (by decide)).1

/-- The visited set is one that is used again. -/
theorem search_with_returns_best_of_beam_pair : ∃ g results τ, pairGraph = .ok g ∧
    (pairContext.searchWith (fun id => secondMarked.any && secondMarked.test id)
      (VisitedSet.reset {}) 0 g.nodeCount { k := 1 }).run
      (answerIn 0) ({ graph := g }, {}) = some (some results, τ) ∧ results.length ≤ 1 ∧
      ∀ c ∈ results, c.id = 0 := by
  obtain ⟨g, made, valid, nodes, entry⟩ := exists_pair
  have tracks : secondMarked.Tracks g.nodeCount := nodes ▸ secondMarked_tracks
  have some : 1 ≤ ({ k := 1 } : SearchKnobs).k := le_refl 1
  have real (x : Nat) (_ : x < g.nodeCount) : (pairContext.distance 0 x).isNan = false := rfl
  obtain ⟨outcome, τ, run, _, ⟨_, short⟩ | ⟨results, rfl, answers⟩⟩ :=
    search_with_returns_best_of_beam valid tracks (.reset .new) some real 0 {}
  · exact absurd rfl short
  · refine ⟨g, results, τ, made, run, answers.few, fun c member => ?_⟩
    obtain ⟨node, live, _⟩ := answers.members c member
    rw [nodes] at node
    rcases (by omega : c.id = 0 ∨ c.id = 1) with first | second
    · exact first
    · rw [second] at live
      exact absurd live (by decide)

end Pair
end HnswContext
end VectorForge
