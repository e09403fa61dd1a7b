import Mathlib

/-! Lists in which one entry is replaced. -/

namespace Replaced
variable {α β : Type} {l : List α} {i : Nat} {old new : α}

/-- What is around the entry stays. -/
theorem split (at_ : l[i]? = some old) (new : α) : ∃ before after, l = before ++ old :: after ∧
    l.set i new = before ++ new :: after := by
  obtain ⟨inside, rfl⟩ := List.getElem?_eq_some_iff.mp at_
  refine ⟨l.take i, l.drop (i + 1), ?_, ?_⟩
  · rw [List.getElem_cons_drop, List.take_append_drop]
  · rw [List.set_eq_take_append_cons_drop, if_pos inside]

/-- The number of entries of a kind. -/
theorem countP_set (p : α → Bool) (at_ : l[i]? = some old) (new : α) :
    (l.set i new).countP p + (if p old then 1 else 0) = l.countP p + if p new then 1 else 0 := by
  obtain ⟨before, after, whole, replaced⟩ := split at_ new
  rw [replaced, whole]
  simp only [List.countP_append, List.countP_cons]
  omega

/-- The total weight of the entries. -/
theorem sum_set (weight : α → Nat) (at_ : l[i]? = some old) (new : α) :
    ((l.set i new).map weight).sum + weight old = (l.map weight).sum + weight new := by
  obtain ⟨before, after, whole, replaced⟩ := split at_ new
  rw [replaced, whole]
  simp only [List.map_append, List.map_cons, List.sum_append, List.sum_cons]
  omega

theorem mem_set {x : α} (member : x ∈ l.set i new) : x = new ∨ x ∈ l := (List.mem_or_eq_of_mem_set member).symm

end Replaced
