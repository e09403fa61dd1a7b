import VectorForge.Search.Heaps
import VectorForge.Hnsw.Backend

namespace VectorForge.NeighborSelect

/-- The heuristic pass: accepted candidates and, if they are kept, the pruned ones. -/
def heuristicPass (m : Nat) (keepPruned : Bool) (distance : Nat → Nat → F32) :
    List ScoredId → List ScoredId → List ScoredId → List ScoredId × List ScoredId
  | [], out, discarded => (out, discarded)
  | candidate :: rest, out, discarded =>
    if out.length = m then (out, discarded)
    else if out.all fun selected => !(distance candidate.id selected.id).lt candidate.distance then
      heuristicPass m keepPruned distance rest (out ++ [candidate]) discarded
    else heuristicPass m keepPruned distance rest out (if keepPruned then discarded ++ [candidate] else discarded)

/-- Fills the remaining slots with pruned candidates. -/
def refill (m : Nat) : List ScoredId → List ScoredId → List ScoredId
  | [], out => out
  | candidate :: rest, out => if out.length = m then out else refill m rest (out ++ [candidate])

def selectNeighbors (sorted : List ScoredId) (m : Nat) (selection : NeighborSelection) (keepPruned : Bool)
    (distance : Nat → Nat → F32) : List ScoredId :=
  match selection with
  | .simple => sorted.take m
  | .heuristic =>
    let (out, discarded) := heuristicPass m keepPruned distance sorted [] []
    if keepPruned then refill m discarded out else out

section Subset
variable {m : Nat} {keepPruned : Bool} {distance : Nat → Nat → F32}

theorem heuristicPass_subperm : ∀ {sorted out discarded : List ScoredId},
    ((heuristicPass m keepPruned distance sorted out discarded).1 ++
      (heuristicPass m keepPruned distance sorted out discarded).2).Subperm (out ++ discarded ++ sorted)
  | [], out, discarded => by
    rw [heuristicPass, List.append_nil]
  | candidate :: rest, out, discarded => by
    have moved : (out ++ [candidate] ++ discarded ++ rest).Perm (out ++ discarded ++ candidate :: rest) := by
      simp only [List.append_assoc, List.singleton_append]
      exact List.Perm.append_left out (List.perm_middle.symm)
    rw [heuristicPass]
    split
    · exact (List.sublist_append_left _ _).subperm
    split
    · exact heuristicPass_subperm.trans moved.subperm
    · refine heuristicPass_subperm.trans ?_
      split
      · simp only [List.append_assoc, List.singleton_append]
        exact List.Subperm.refl _
      · exact ((List.sublist_cons_self candidate rest).append_left _).subperm

theorem refill_subperm : ∀ {discarded out : List ScoredId}, (refill m discarded out).Subperm (out ++ discarded)
  | [], out => by rw [refill, List.append_nil]
  | candidate :: rest, out => by
    rw [refill]
    split
    · exact (List.sublist_append_left _ _).subperm
    · refine refill_subperm.trans ?_
      rw [List.append_assoc, List.singleton_append]

/-- What is selected are candidates, each at most as often as it was offered. -/
theorem selectNeighbors_subperm (sorted : List ScoredId) (m : Nat)
    (selection : NeighborSelection) (keepPruned : Bool)
    (distance : Nat → Nat → F32) : (selectNeighbors sorted m selection keepPruned distance).Subperm sorted := by
  have pass : ((heuristicPass m keepPruned distance sorted [] []).1 ++
      (heuristicPass m keepPruned distance sorted [] []).2).Subperm ([] ++ [] ++ sorted) := heuristicPass_subperm
  unfold selectNeighbors
  cases selection with
  | simple => exact (List.take_sublist m sorted).subperm
  | heuristic =>
    simp only [List.nil_append] at pass ⊢
    split
    · exact refill_subperm.trans pass
    · exact (List.sublist_append_left _ _).subperm.trans pass

theorem length_heuristicPass : ∀ {sorted out discarded : List ScoredId}, out.length ≤ m →
    (heuristicPass m keepPruned distance sorted out discarded).1.length ≤ m
  | [], _, _, bound => bound
  | candidate :: rest, out, discarded, bound => by
    rw [heuristicPass]
    split
    · exact bound
    next room =>
    split
    · exact length_heuristicPass (by rw [List.length_append, List.length_singleton]; omega)
    · exact length_heuristicPass bound

theorem length_refill : ∀ {discarded out : List ScoredId}, out.length ≤ m → (refill m discarded out).length ≤ m
  | [], _, bound => bound
  | candidate :: rest, out, bound => by
    rw [refill]
    split
    · exact bound
    · exact length_refill (by rw [List.length_append, List.length_singleton]; omega)

theorem length_selectNeighbors (sorted : List ScoredId) (m : Nat)
    (selection : NeighborSelection) (keepPruned : Bool)
    (distance : Nat → Nat → F32) : (selectNeighbors sorted m selection keepPruned distance).length ≤ m := by
  unfold selectNeighbors
  cases selection with
  | simple => exact List.length_take_le m sorted
  | heuristic =>
    have pass : (heuristicPass m keepPruned distance sorted [] []).1.length ≤ m :=
      length_heuristicPass (Nat.zero_le m)
    simp only
    split
    · exact length_refill pass
    · exact pass

end Subset
section Congruence
variable {m : Nat} {keepPruned : Bool} {distance distance' : Nat → Nat → F32}

theorem heuristicPass_congr : ∀ {sorted out discarded : List ScoredId},
    (∀ a ∈ out ++ sorted, ∀ b ∈ out ++ sorted, distance a.id b.id = distance' a.id b.id) →
    heuristicPass m keepPruned distance sorted out discarded = heuristicPass m keepPruned distance'
      sorted out discarded
  | [], _, _, _ => rfl
  | candidate :: rest, out, discarded, same => by
    have here : candidate ∈ out ++ candidate :: rest := List.mem_append_right _ List.mem_cons_self
    have pruned : (out.all fun selected => !(distance candidate.id selected.id).lt candidate.distance) =
        out.all fun selected => !(distance' candidate.id selected.id).lt candidate.distance := by
      rw [Bool.eq_iff_iff, List.all_eq_true, List.all_eq_true]
      refine forall₂_congr ?_
      intro selected member
      rw [same candidate here selected (List.mem_append_left _ member)]
    rw [heuristicPass, heuristicPass, pruned]
    split
    · rfl
    split
    · refine heuristicPass_congr ?_
      rwa [List.append_assoc, List.singleton_append]
    · refine heuristicPass_congr ?_
      have fewer : out ++ rest ⊆ out ++ candidate :: rest :=
        List.append_subset.mpr ⟨List.subset_append_left _ _, fun x member =>
          List.mem_append_right _ (List.mem_cons_of_mem _ member)⟩
      exact fun a left b right => same a (fewer left) b (fewer right)

/-- Only distances between candidates matter. -/
theorem selectNeighbors_congr {sorted : List ScoredId} {selection : NeighborSelection}
    (same : ∀ a ∈ sorted, ∀ b ∈ sorted, distance a.id b.id = distance' a.id b.id) :
    selectNeighbors sorted m selection keepPruned distance = selectNeighbors sorted m selection
      keepPruned distance' := by
  cases selection with
  | simple => rfl
  | heuristic =>
    have pass : heuristicPass m keepPruned distance sorted [] [] =
        heuristicPass m keepPruned distance' sorted [] [] :=
      heuristicPass_congr same
    simp only [selectNeighbors, pass]

end Congruence

end VectorForge.NeighborSelect
