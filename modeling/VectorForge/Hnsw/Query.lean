import VectorForge.Hnsw.SerialInsert
import VectorForge.Index.FlatBackend

/-! The query path of the HNSW index, as a program over single reads like the insertions. -/

namespace VectorForge
namespace HnswContext

section Query
variable (ctx : HnswContext)

/-- `search_with` on a graph of `nodes` nodes: the results, or `none` when memory ran out. `hidden`
are the marked rows, and `visited` is what the context was last used for. -/
def searchWith (hidden : Nat → Bool) (visited : VisitedSet) (query nodes : Nat) (knobs : SearchKnobs) :
    GraphProg (Option (List ScoredId)) := do
  let entry ← entry
  if entry.valid then do
    let ef := max (if knobs.ef ≠ 0 then knobs.ef else ctx.params.efSearch.toNat) knobs.k
    let grown ← allocate
    if grown then do
      let current ← ctx.descend query 0 entry.level { distance := ctx.distance query entry.id, id := entry.id }
      let found ← ctx.searchLayer hidden (visited.ensureCapacity nodes) query [current] ef 0
      match found with
      | none => .done none
      | some (results, _) => .done (some (results.take knobs.k))
    else .done none
  else .done (some [])

end Query

variable {n : Nat} {s t : SharedGraph} {i j : Nat} {w v : World} {ctx ctx' : HnswContext} {query : Nat}
  {knobs : SearchKnobs}

/-- What two queries return. -/
def SameAnswer (n : Nat) (a b : Option (List ScoredId)) : Prop := ∃ found, a = some found ∧ b = some found ∧
    ∀ c ∈ found, c.id < n

/-- A query returns the same on graphs that agree on all nodes. -/
theorem searchWith_rereads (hidden : Nat → Bool) {visited visited' : VisitedSet} (mirror : Mirror n s.graph t.graph)
    (scores : ctx.Scores n query ctx')
    (ample : v.Ample) (settled : visited.Settled) (settled' : visited'.Settled) (some : 1 ≤ knobs.k) :
    Rereads s t i j w v (ctx.searchWith hidden visited query n knobs)
      (ctx'.searchWith hidden visited' query n knobs) (· = none)
      (SameAnswer n) := by
  rw [searchWith, searchWith]
  refine follows_entry ?_
  rw [mirror.valid]
  cases valid : t.graph.entry.valid with
  | false =>
    rw [if_neg Bool.false_ne_true, if_neg Bool.false_ne_true]
    exact Rereads.done ⟨[], rfl, rfl, nofun⟩
  | true =>
    obtain ⟨same, node, high⟩ := mirror.entry (mirror.valid.trans valid)
    rw [if_pos rfl, if_pos rfl, ← same, scores.params, ← scores.distance s.graph.entry.id node]
    refine Rereads.allocate ample ⟨none, rfl, rfl⟩ fun w₁ => ?_
    refine Rereads.bind (descend_rereads mirror scores s.graph.entry.level _ ⟨node, high⟩ (Nat.zero_le _)) nofun ?_
    rintro current _ w₂ ⟨rfl, inside, low⟩
    have left : Covers n (visited.ensureCapacity n) :=
      ⟨VisitedSet.length_ensureCapacity _ _, settled.ensureCapacity n⟩
    have right : Covers n (visited'.ensureCapacity n) :=
      ⟨VisitedSet.length_ensureCapacity _ _, settled'.ensureCapacity n⟩
    refine Rereads.bind (searchLayer_rereads mirror scores ample left right
      (some.trans (le_max_right _ _)) ?_) ?_ ?_
    · rintro c member
      rw [List.mem_singleton.mp member]
      exact ⟨inside, low⟩
    · rintro _ rfl
      exact ⟨none, rfl, rfl⟩
    · rintro _ _ w₃ ⟨found, _, _, rfl, rfl, _, _, known⟩
      exact Rereads.done ⟨found.take knobs.k, rfl, rfl, fun c member => (known c (List.mem_of_mem_take member)).1⟩

end HnswContext
end VectorForge
