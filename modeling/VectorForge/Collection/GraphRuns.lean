import VectorForge.Collection.Operations
import VectorForge.Hnsw.SerialInsert
import VectorForge.Hnsw.IoRoundTrip

/-! What the insertions of a session leave of the graph, whatever the environment does: the runs of
a session are runs of the link discipline. -/

namespace VectorForge
open HnswIo (SameGraph)

/-- Only the front of the memory has been used up. -/
def World.Later (w w' : World) : Prop := ∃ used, w'.memory = w.memory.drop used

namespace World
variable {w w₁ w₂ : World}

theorem Later.refl (w : World) : w.Later w := ⟨0, rfl⟩

theorem Later.trans (first : w.Later w₁) (second : w₁.Later w₂) : w.Later w₂ := by
  obtain ⟨used, front⟩ := first
  obtain ⟨more, rest⟩ := second
  exact ⟨used + more, by rw [rest, front, List.drop_drop]⟩

theorem Later.ample (later : w.Later w₁) (ample : w.Ample) : w₁.Ample := by
  obtain ⟨used, rest⟩ := later
  have none : w.memory = [] := ample
  rw [none, List.drop_nil] at rest
  exact rest

theorem Spent.later (spent : w.Spent w₁) : w.Later w₁ := by
  obtain ⟨used, rfl⟩ := spent
  exact ⟨used, rfl⟩

theorem later_tail (w : World) : w.Later { w with memory := w.memory.tail } := ⟨1, by rw [List.drop_one]⟩

theorem later_of_memory (memory : w₁.memory = w.memory) : w.Later w₁ := ⟨0, memory⟩

end World

/-- A step in a session is a step of the discipline. Nothing runs out of memory if there is enough. -/
theorem answerIn_does {params : HnswParams} {solo : Option Nat} {w : World} (i : Nat) (o : GraphOp)
    (t : SharedGraph × World)
    (r : o.Ret) (t' : SharedGraph × World) (later : w.Later t.2) (run : answerIn i o t = some (r, t')) :
    (linkDiscipline params (fun _ => ¬w.Ample) solo).does i o t.1 r t'.1 ∧ w.Later t'.2 := by
  obtain ⟨s, v⟩ := t
  by_cases memory : o = .allocate
  · subst memory
    cases run
    refine ⟨⟨rfl, ?_⟩, later.trans v.later_tail⟩
    intro lacks ample
    have none : v.memory = [] := later.ample ample
    rw [none] at lacks
    cases lacks
  · have answered : (SharedGraph.answer true i o s).map (fun x => (x.1, x.2, v)) = some (r, t') := by
      cases o with
      | allocate => exact absurd rfl memory
      | _ => exact run
    obtain ⟨⟨r', s'⟩, known, same⟩ := Option.map_eq_some_iff.mp answered
    cases same
    exact ⟨linkDiscipline_answer (fun lacks => Bool.noConfusion lacks) o s r' s' known, later⟩

namespace Resting
variable {params : HnswParams} {lost : Nat → Prop} {s : SharedGraph}

/-- The history of a graph is of no interest once it is at rest. -/
theorem forget (rest : Resting params lost s) : Resting params lost { graph := s.graph } :=
  { rest with
    free := fun _ => rfl
    top := rfl
    written := fun _ _ _ l below => absurd below (Nat.not_lt_zero l)
    fresh := fun _ _ => rfl }

/-- A graph at rest mirrors every graph that holds the same. -/
theorem mirror (rest : Resting params lost s) {h : HnswGraph} (same : SameGraph s.graph h) :
    Mirror s.graph.nodeCount s.graph h where
  m := same.shape.m
  left := Nat.le_refl _
  right := same.shape.nodeCount_eq.le
  levels := fun c _ => same.shape.level_eq c
  links := by
    intro c l node high
    exact same.links c l (node.trans_eq same.shape.nodeCount_eq) (high.trans (same.shape.level_eq c).le)
  counts := fun c l node high => rest.counts c l (decide_eq_true ⟨node, high⟩)
  closed := by
    intro c l v node high member
    obtain ⟨inside, _, _, below⟩ := rest.members c l v (decide_eq_true ⟨node, high⟩) member
    exact ⟨inside, below⟩
  valid := same.valid
  entry := by
    intro valid
    obtain ⟨inside, _, level⟩ := rest.entry valid
    exact ⟨same.entry (same.valid ▸ valid), inside, level.ge⟩

end Resting

theorem HnswIo.SameGraph.refl (g : HnswGraph) : SameGraph g g := ⟨.refl g, rfl, fun _ => rfl, fun _ _ _ _ => rfl⟩

theorem HnswIo.SameGraph.symm {g h : HnswGraph} (same : SameGraph g h) : SameGraph h g where
  shape := same.shape.symm
  valid := same.valid.symm
  entry := fun valid => (same.entry (same.valid ▸ valid)).symm
  links := fun c l node high =>
    (same.links c l (node.trans_eq same.shape.nodeCount_eq) (high.trans (same.shape.level_eq c).le)).symm

theorem HnswIo.SameGraph.trans {g h k : HnswGraph} (first : SameGraph g h)
    (second : SameGraph h k) : SameGraph g k where
  shape := first.shape.trans second.shape
  valid := first.valid.trans second.valid
  entry := fun valid => (first.entry (second.valid ▸ valid)).trans (second.entry valid)
  links := fun c l node high =>
    (first.links c l (node.trans_eq second.shape.nodeCount_eq.symm) (high.trans (second.shape.level_eq c).ge)).trans
      (second.links c l node high)

/-- Graphs of one shape that mirror each other on all nodes hold the same. -/
theorem Mirror.same {n : Nat} {g h : HnswGraph} (mirror : Mirror n g h) (shape : HnswGraph.SameShape g h)
    (count : g.nodeCount ≤ n) : SameGraph g h where
  shape := shape
  valid := mirror.valid
  entry := fun valid => (mirror.entry (mirror.valid ▸ valid)).1
  links := by
    intro c l node high
    have inside : c < g.nodeCount := node.trans_eq shape.nodeCount_eq.symm
    exact mirror.links c l (by omega) (high.trans (shape.level_eq c).ge)

section Runs
variable {params : HnswParams} {lost : Nat → Prop} {ctx : HnswContext} {g : HnswGraph}
  {w w' : World} {s' : SharedGraph}

/-- After `add` in a session the graph is at rest, with the same nodes lost as before. -/
theorem add_run_rests {visited : VisitedSet} {r : Option (Result Unit)} (rest : Resting params lost { graph := g })
    (sized : params = ctx.params) (wide : 1 ≤ ctx.params.efConstruction.toNat)
    (covers : g.nodeCount ≤ visited.marks.length) (old : ∀ x, lost x → x < g.nodeCount)
    (run : (ctx.add visited g.nodeCount).run (answerIn g.nodeCount) ({ graph := g }, w) = some (r, s', w')) :
    Resting params lost { graph := s'.graph } := by
  have mine : addPool ctx visited g.nodeCount g.nodeCount = ctx.add visited g.nodeCount := if_pos rfl
  have runs : (linkDiscipline params (fun _ => ¬w.Ample) (some g.nodeCount)).Runs _ _ :=
    (Discipline.runs_of_run Prod.fst (fun t => w.Later t.2) (answerIn_does g.nodeCount)
      (World.Later.refl w) run mine).1
  obtain ⟨γ, inv, ended⟩ := Discipline.Ok.runs (rest.inv _) (addPool_ok rest sized wide covers) runs
  have each (i : Nat) : AddPost ctx (fun _ => ¬w.Ample) lost { graph := g } i
      (if i = g.nodeCount then r else none) s' γ := by
    have mine := ended i
    by_cases here : i = g.nodeCount
    · subst here
      rw [Function.update_self] at mine
      rw [if_pos rfl]
      exact mine.finished inv
    · rw [Function.update_of_ne here, addPool, if_neg here] at mine
      rw [if_neg here]
      exact mine.finished inv
  refine ((add_rests inv rest each).congr ?_).forget
  exact fun x _ => ⟨fun gone => ⟨old x gone, gone⟩, And.right⟩

/-- How a section of links leaves the graph; `linked` has the results of its nodes in their order. -/
structure SectionEnd (params : HnswParams) (lost : Nat → Prop) (first : Nat) (g : HnswGraph) (w : World)
    (linked : List Bool) (s' : SharedGraph) (w' : World) : Prop where
  size : linked.length = g.nodeCount - first
  levels : s'.graph.levels = g.levels
  later : w.Later w'
  rests : Resting params (lostAfter lost first fun x => linked.getD (x - first) true) { graph := s'.graph }
  linked : w.Ample → ∀ b ∈ linked, b = true

theorem section_end {visited : Nat → VisitedSet} {first : Nat} {linked : List Bool} {pool : Nat → GraphProg Bool}
    (reserved : Reserved params first lost { graph := g }) (sized : params = ctx.params)
    (wide : 1 ≤ ctx.params.efConstruction.toNat) (covers : ∀ i, g.nodeCount ≤ (visited i).marks.length)
    (size : linked.length = g.nodeCount - first) (later : w.Later w')
    (runs : (linkDiscipline params (fun _ => ¬w.Ample) none).Runs
      ({ graph := g }, linkPool ctx visited first g.nodeCount) (s', pool))
    (inside : ∀ i, first ≤ i → i < g.nodeCount → pool i = .done (linked.getD (i - first) true))
    (outside : ∀ i, ¬(first ≤ i ∧ i < g.nodeCount) → pool i = .done true) :
    SectionEnd params lost first g w linked s' w' := by
  obtain ⟨γ, inv, ended⟩ := Discipline.Ok.runs (reserved.rest.inv none)
    (linkPool_ok reserved sized wide covers) runs
  have each (i : Nat) : LinkPost (fun _ => ¬w.Ample) lost first { graph := g } i
      (if first ≤ i then linked.getD (i - first) true else true) s' γ := by
    have mine := ended i
    have bound := reserved.bound
    by_cases here : first ≤ i ∧ i < g.nodeCount
    · rw [inside i here.1 here.2] at mine
      rw [if_pos here.1]
      exact mine.finished inv
    · rw [outside i here] at mine
      have none : (if first ≤ i then linked.getD (i - first) true else true) = true := by
        split
        next high => rw [List.getD_eq_default _ _ (by omega)]
        next => rfl
      rw [none]
      exact mine.finished inv
  refine ⟨size, (each 0).levels, later, ((section_rests inv each).congr ?_).forget, ?_⟩
  · intro x _
    simp only [lostAfter]
    constructor
    · rintro (low | ⟨high, failed⟩)
      · exact .inl low
      · exact .inr ⟨high, by rwa [if_pos high]⟩
    · rintro (low | ⟨high, failed⟩)
      · exact .inl low
      · exact .inr ⟨high, by rwa [if_pos high] at failed⟩
  · intro ample b member
    obtain ⟨k, below, rfl⟩ := List.getElem_of_mem member
    have ok := (each (first + k)).new (Nat.le_add_right _ _) (show first + k < g.nodeCount by omega)
    cases result : linked[k] with
    | true => rfl
    | false =>
      refine absurd ample (ok.failed ?_).1
      rw [if_pos (Nat.le_add_right _ _), Nat.add_sub_cancel_left, List.getD_eq_getElem _ _ below, result]

/-- Nodes linked one after the other are an interleaving as well. -/
theorem linkRange_runs {visited : Nat → VisitedSet} :
    ∀ {left i : Nat} {τ τ' : SharedGraph × World} {linked : List Bool}
    {pool : Nat → GraphProg Bool}, Collection.linkRange ctx visited left i τ = some (linked, τ') → w.Later τ.2 →
      (∀ j, i ≤ j → j < i + left → pool j = ctx.link (visited j) j) →
      ∃ pool', (linkDiscipline params (fun _ => ¬w.Ample) none).Runs (τ.1, pool) (τ'.1, pool') ∧ w.Later τ'.2 ∧
        linked.length = left ∧ (∀ j, i ≤ j → j < i + left → pool' j = .done (linked.getD (j - i) true)) ∧
        ∀ j, ¬(i ≤ j ∧ j < i + left) → pool' j = pool j := by
  intro left
  induction left with
  | zero =>
    intro i τ τ' linked pool run later _
    cases run
    exact ⟨pool, Relation.ReflTransGen.refl, later, rfl, fun j low high => by omega, fun _ _ => rfl⟩
  | succ left ih =>
    intro i τ τ' linked pool run later mine
    rw [Collection.linkRange] at run
    obtain ⟨⟨b, τ₁⟩, first, rest⟩ := Option.bind_eq_some_iff.mp run
    obtain ⟨⟨more, τ₂⟩, others, same⟩ := Option.bind_eq_some_iff.mp rest
    cases same
    obtain ⟨step, later₁⟩ := Discipline.runs_of_run Prod.fst (fun t => w.Later t.2) (answerIn_does i) later first
      (mine i (Nat.le_refl i) (by omega))
    have next (j : Nat) (low : i + 1 ≤ j) (high : j < i + 1 + left) :
        Function.update pool i (.done b) j = ctx.link (visited j) j := by
      rw [Function.update_of_ne (by omega)]
      exact mine j (by omega) (by omega)
    obtain ⟨pool', steps, later', size, inside, outside⟩ := ih others later₁ next
    refine ⟨pool', step.trans steps, later', by rw [List.length_cons, size], ?_, ?_⟩
    · intro j low high
      by_cases here : j = i
      · subst here
        rw [outside j (by omega), Function.update_self, Nat.sub_self]
        rfl
      · rw [inside j (by omega) (by omega), show j - i = (j - (i + 1)) + 1 by omega]
        rfl
    · intro j away
      rw [outside j (by omega), Function.update_of_ne (by omega)]

theorem linkRange_end {visited : Nat → VisitedSet} {first : Nat} {linked : List Bool}
    (reserved : Reserved params first lost { graph := g }) (sized : params = ctx.params)
    (wide : 1 ≤ ctx.params.efConstruction.toNat) (covers : ∀ i, g.nodeCount ≤ (visited i).marks.length)
    (run : Collection.linkRange ctx visited (g.nodeCount - first) first ({ graph := g }, w) =
      some (linked, s', w')) :
    SectionEnd params lost first g w linked s' w' := by
  have bound : first ≤ g.nodeCount := reserved.bound
  have mine (j : Nat) (low : first ≤ j) (high : j < first + (g.nodeCount - first)) :
      linkPool ctx visited first g.nodeCount j = ctx.link (visited j) j := if_pos ⟨low, by omega⟩
  obtain ⟨pool', runs, later, size, inside, outside⟩ := linkRange_runs run (World.Later.refl w) mine
  refine section_end reserved sized wide covers size later runs ?_ ?_
  · exact fun i low high => inside i low (by omega)
  · intro i away
    rw [outside i (by omega)]
    exact if_neg away

theorem mapM_range' {α : Type} (default : α) {f : Nat → Option α} : ∀ {count first : Nat} {results : List α},
    (List.range' first count).mapM f = some results →
      results.length = count ∧ ∀ i, first ≤ i → i < first + count →
      f i = some (results.getD (i - first) default) := by
  intro count
  induction count with
  | zero =>
    intro first results run
    cases run
    exact ⟨rfl, fun i low high => by omega⟩
  | succ count ih =>
    intro first results run
    rw [List.range'_succ, List.mapM_cons] at run
    obtain ⟨a, here, rest⟩ := Option.bind_eq_some_iff.mp run
    obtain ⟨others, later, same⟩ := Option.bind_eq_some_iff.mp rest
    cases same
    obtain ⟨size, each⟩ := ih later
    refine ⟨by rw [List.length_cons, size], ?_⟩
    intro i low high
    by_cases start : i = first
    · rw [start, here, Nat.sub_self]
      rfl
    · rw [each i (by omega) (by omega), show i - first = (i - (first + 1)) + 1 by omega]
      rfl

theorem linkScheduled_end {visited : Nat → VisitedSet} {first : Nat} {linked : List Bool}
    (reserved : Reserved params first lost { graph := g }) (sized : params = ctx.params)
    (wide : 1 ≤ ctx.params.efConstruction.toNat) (covers : ∀ i, g.nodeCount ≤ (visited i).marks.length)
    (run : Collection.linkScheduled ctx visited first (g.nodeCount - first) ({ graph := g }, w) =
      some (linked, s', w')) :
    SectionEnd params lost first g w linked s' w' := by
  have bound : first ≤ g.nodeCount := reserved.bound
  have start : w.Later { w with schedules := w.schedules.tail } := World.later_of_memory rfl
  have runs : (linkDiscipline params (fun _ => ¬w.Ample) none).Runs _ _ ∧ _ :=
    Discipline.runs_of_schedule Prod.fst (fun t => w.Later t.2) answerIn_does (w.schedules.headD [])
      ({ graph := g }, { w with schedules := w.schedules.tail }) (linkPool ctx visited first g.nodeCount) start
  rw [Collection.linkScheduled, show first + (g.nodeCount - first) = g.nodeCount by omega] at run
  simp only at run
  obtain ⟨linked', results, same⟩ := Option.map_eq_some_iff.mp run
  obtain ⟨rfl, ends⟩ := Prod.mk.inj same
  rw [ends] at runs
  obtain ⟨size, each⟩ := mapM_range' true results
  refine section_end reserved sized wide covers size runs.2 runs.1 ?_ ?_
  · exact fun i low high => Prog.eq_done_of_result? (each i low (by omega))
  · exact fun i away => Prog.runSchedule_done (if_neg away)

end Runs
end VectorForge
