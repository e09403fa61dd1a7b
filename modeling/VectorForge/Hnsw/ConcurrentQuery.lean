import VectorForge.Hnsw.Linking
import VectorForge.Hnsw.SearchAnswers

/-! Queries while the nodes of a section are linked. -/

namespace VectorForge
open HnswContext (NoOther noOther_none nodeCount_fixed)

/-- What a query may come to: it reads lists that exist, and what it finds there and at the entry point are
nodes. -/
def SharedGraph.SoundRead : GraphOp → SharedGraph → Prop
  | .load id level word, s => id < s.graph.nodeCount ∧ level ≤ s.graph.level id ∧ word ≤ s.graph.capacity level ∧
      (word ≠ 0 → s.graph.words id level word < s.graph.nodeCount)
  | .loadEntry, s => s.graph.entry.valid = true → s.graph.entry.id < s.graph.nodeCount
  | .allocate, _ => True
  | _, _ => False

/-- Insertions below `n`, queries from there on. -/
def SharedGraph.Serves (n i : Nat) (o : GraphOp) (s : SharedGraph) : Prop :=
  if i < n then Allowed i o s else SoundRead o s

theorem SharedGraph.SoundRead.reads {mayFail : Nat → Prop} {i : Nat} {o : GraphOp} {s s' : SharedGraph} {r : o.Ret}
    (sound : SoundRead o s) (does : Does mayFail i o s r s') : s' = s ∧ GraphOp.Inside s.graph.nodeCount o r := by
  cases o with
  | load id level word =>
    obtain ⟨rfl, rfl⟩ := does
    exact ⟨rfl, sound.2.2.2⟩
  | loadEntry =>
    obtain ⟨rfl, rfl⟩ := does
    exact ⟨rfl, sound⟩
  | allocate => exact ⟨does.1, trivial⟩
  | _ => exact sound.elim

/-- A query never waits. -/
theorem SharedGraph.SoundRead.enabled {mayFail : Nat → Prop} {i : Nat} {o : GraphOp} {s : SharedGraph}
    (sound : SoundRead o s) : ∃ r, Does mayFail i o s r s := by
  cases o with
  | load id level word => exact ⟨s.graph.words id level word, rfl, rfl⟩
  | loadEntry => exact ⟨s.graph.entry, rfl, rfl⟩
  | allocate => exact ⟨true, rfl, fun no => Bool.noConfusion no⟩
  | _ => exact sound.elim

theorem serves_admits {n : Nat} {params : HnswParams} {solo : Option Nat} {i : Nat} (past : n ≤ i) :
    Admits (SharedGraph.Serves n) params solo i where
  entry := by
    intro s γ inv
    rw [SharedGraph.Serves, if_neg (Nat.not_lt.mpr past)]
    exact fun valid => inv.inside _ (inv.entry valid).1
  allocate := by
    intro s
    rw [SharedGraph.Serves, if_neg (Nat.not_lt.mpr past)]
    trivial
  count := by
    intro s γ c l inv known
    rw [SharedGraph.Serves, if_neg (Nat.not_lt.mpr past)]
    exact ⟨known.node, known.high, Nat.zero_le _, fun no => absurd rfl no⟩
  slot := by
    intro s γ c l k inv known inside
    rw [SharedGraph.Serves, if_neg (Nat.not_lt.mpr past)]
    have bound := inv.high c l
    exact ⟨known.node, known.high, by omega, fun _ => inv.inside _ (inv.may c l _ (inv.slots c l k inside)).1⟩

namespace HnswContext
variable {params : HnswParams} {mayFail : Nat → Prop} {solo : Option Nat} {i : Nat}
  {s : SharedGraph} {γ : LinkGhost}
  {allowed : Nat → GraphOp → SharedGraph → Prop} {ctx : HnswContext} {hidden : Nat → Bool} {query : Nat}

/-- A query reads only what it may and fails only when memory runs out. -/
theorem searchWith_ok [admits : Admits allowed params solo i] (only : NoOther solo i) {visited : VisitedSet}
    {knobs : SearchKnobs} (positive : 1 ≤ knobs.k) :
    WalkOk allowed params mayFail solo i (ctx.searchWith hidden visited query s.graph.nodeCount knobs)
      (fun r _ _ => r = none → mayFail i) s γ := by
  refine ok_entry fun s₁ γ₁ rely inv₁ => ?_
  have covers : s.graph.nodeCount ≤ (visited.ensureCapacity s.graph.nodeCount).marks.length :=
    VisitedSet.length_ensureCapacity _ _
  split
  next valid =>
    obtain ⟨pub, high⟩ := inv₁.entry valid
    have known : Known s₁.graph.entry.level s₁.graph.entry.id s₁ γ₁ := ⟨pub, inv₁.inside _ pub, high.ge⟩
    refine ok_allocate (fun s₂ γ₂ rely₂ inv₂ => ?_) fun s₂ γ₂ _ _ fails => ok_done fun _ _ _ _ _ => fails
    have since := rely.trans rely₂
    rw [if_pos rfl]
    refine Discipline.Ok.bind ?_ inv₂
    refine (ctx.descend_ok inv₂ since (known.later rely₂) (Nat.zero_le _)).mono ?_
    rintro current s₃ γ₃ inv₃ ⟨since₃, found⟩
    refine Discipline.Ok.bind ?_ inv₃
    refine (ctx.searchLayer_ok only inv₃ since₃ (positive.trans (le_max_right _ _))
      ((nodeCount_fixed only since₃).trans_le covers) fun c member => ?_).mono ?_
    · rw [List.mem_singleton.mp member]
      exact found
    · rintro r s₄ γ₄ _ ⟨_, fails, _⟩
      match r with
      | none => exact ok_done fun _ _ _ _ _ => fails rfl
      | some (results, _) => exact ok_done fun _ _ _ _ => nofun
  next => exact ok_done fun _ _ _ _ => nofun

end HnswContext

section Serving
variable {params : HnswParams} {mayFail lost : Nat → Prop} {first : Nat} {s : SharedGraph} {link : HnswContext}

/-- How a thread of a section ends. -/
inductive ThreadResult where
  | linked (ok : Bool)
  /-- A query; `none` when memory ran out. -/
  | found (results : Option (List ScoredId))

/-- A query that runs during a section. `leased` is what its context was last used for. -/
structure SectionQuery where
  ctx : HnswContext
  hidden : Nat → Bool
  query : Nat := 0
  knobs : SearchKnobs
  leased : VisitedSet := {}
  positive : 1 ≤ knobs.k

/-- The links of a section of a graph of `n` nodes, with thread `n + j` for query `j`. -/
def servingPool (link : HnswContext) (visited : Nat → VisitedSet) (first n : Nat)
    (queries : Nat → SectionQuery) (i : Nat) : GraphProg ThreadResult :=
  if i < n then do
    let ok ← linkPool link visited first n i
    .done (.linked ok)
  else do
    let q := queries (i - n)
    let results ← q.ctx.searchWith q.hidden q.leased q.query n q.knobs
    .done (.found results)

/-- How the threads of a section end. -/
def ServedPost (mayFail : Nat → Prop) (n : Nat) (queries : Nat → SectionQuery) (i : Nat)
    (r : ThreadResult) : Prop :=
  n ≤ i → ∃ found, r = .found found ∧ (found = none → mayFail i) ∧ ∀ results ∈ found,
    HnswContext.SoundAnswers (queries (i - n)).ctx (queries (i - n)).hidden (queries (i - n)).query n
    (queries (i - n)).knobs.k results

/-- Every thread of a section is safe, and the queries are answered. -/
theorem servingPool_ok (reserved : Reserved params first lost s) (sized : params = link.params)
    (wide : 1 ≤ link.params.efConstruction.toNat) {visited : Nat → VisitedSet}
    (covers : ∀ i, s.graph.nodeCount ≤ (visited i).marks.length) (queries : Nat → SectionQuery) (i : Nat) :
    WalkOk (SharedGraph.Serves s.graph.nodeCount) params mayFail none i
      (servingPool link visited first s.graph.nodeCount queries i)
      (fun r _ _ => ServedPost mayFail s.graph.nodeCount queries i r) s
        (Resting.ghost (fun x => lost x ∨ first ≤ x) s) := by
  have inv : LinkInv params none s (Resting.ghost (fun x => lost x ∨ first ≤ x) s) := reserved.rest.inv none
  rw [servingPool]
  split
  next low =>
    have ok : LinkOk params mayFail none i (linkPool link visited first s.graph.nodeCount i) _ s _ :=
      linkPool_ok reserved sized wide covers i
    have walks : WalkOk (SharedGraph.Serves s.graph.nodeCount) params mayFail none i
        (linkPool link visited first s.graph.nodeCount i) _ s _ :=
      ok.allowing fun o t may => by
        rw [SharedGraph.Serves, if_pos low]
        exact may
    exact Discipline.Ok.bind (walks.mono fun _ _ _ _ _ => ok_done fun _ _ _ _ high =>
      absurd low (Nat.not_lt.mpr high)) inv
  next high =>
    have past : s.graph.nodeCount ≤ i := Nat.not_lt.mp high
    have admits : Admits (SharedGraph.Serves s.graph.nodeCount) params none i := serves_admits past
    let q := queries (i - s.graph.nodeCount)
    have ok : WalkOk (SharedGraph.Serves s.graph.nodeCount) params mayFail none i
        (q.ctx.searchWith q.hidden q.leased q.query s.graph.nodeCount q.knobs) (fun r _ _ => r = none → mayFail i) s
        (Resting.ghost (fun x => lost x ∨ first ≤ x) s) := HnswContext.searchWith_ok noOther_none q.positive
    have sure := Discipline.Ok.returns (fun t => t.graph.nodeCount = s.graph.nodeCount) ok
      (fun t γ t' γ' rely same => (nodeCount_fixed noOther_none rely).trans same)
      (fun o t r t' same may does => by
        have sound : SharedGraph.SoundRead o t :=
          (if_neg high : SharedGraph.Serves s.graph.nodeCount i o t = _) ▸ may
        obtain ⟨rfl, inside⟩ := sound.reads does
        exact ⟨same, same ▸ inside⟩) rfl HnswContext.searchWith_returns
    refine Discipline.Ok.bind (sure.mono fun results s₁ γ₁ _ ⟨fails, answers⟩ => ok_done fun _ _ _ _ _ => ?_) inv
    exact ⟨results, rfl, fails, answers⟩

end Serving
end VectorForge
