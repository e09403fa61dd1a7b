import Mathlib

/-! Binary heaps in an array, with the largest element under a comparison in front. -/

namespace BinaryHeap
variable {α : Type}

/-- `std::swap` of two positions; nothing happens outside the array. -/
def swap (data : List α) (i j : Nat) : List α :=
  match data[i]?, data[j]? with
  | some a, some b => (data.set i b).set j a
  | _, _ => data

section Sift
variable (less : α → α → Bool)

/-- The comparison of two positions. -/
def lessAt (data : List α) (i j : Nat) : Bool :=
  match data[i]?, data[j]? with
  | some a, some b => less a b
  | _, _ => false

def siftUp (data : List α) (index : Nat) : List α :=
  if index = 0 then data
  else if lessAt less data ((index - 1) / 2) index then
    siftUp (swap data ((index - 1) / 2) index) ((index - 1) / 2)
  else data
termination_by index

/-- The child of `index` that moves up, if one does; `left` is inside the heap. -/
def largerChild (data : List α) (index count : Nat) : Nat :=
  if 2 * index + 2 < count && lessAt less data (2 * index + 1) (2 * index + 2) then 2 * index + 2
  else 2 * index + 1

theorem lt_largerChild (data : List α) (index count : Nat) : index < largerChild less data index count := by
  unfold largerChild
  split <;> omega

theorem largerChild_lt (data : List α) {index count : Nat} (inside : 2 * index + 1 < count) :
    largerChild less data index count < count := by
  unfold largerChild
  split
  · next both =>
    simp only [Bool.and_eq_true, decide_eq_true_eq] at both
    exact both.1
  · exact inside

def siftDown (data : List α) (index count : Nat) : List α :=
  if 2 * index + 1 ≥ count then data
  else if lessAt less data index (largerChild less data index count) then
    siftDown (swap data index (largerChild less data index count)) (largerChild less data index count) count
  else data
termination_by count - index
decreasing_by
  have up := lt_largerChild less data index count
  omega

/-- The heap after `push_back` of a new element. -/
def push (data : List α) (a : α) : List α := siftUp less (data ++ [a]) data.length

/-- The heap whose front is replaced. -/
def replaceTop (data : List α) (a : α) : List α := siftDown less (data.set 0 a) 0 data.length

/-- The heap without its front: the last element takes its place and sinks. -/
def pop (data : List α) : List α :=
  match data.getLast? with
  | none => []
  | some last => siftDown less (data.dropLast.set 0 last) 0 (data.length - 1)

/-- Heapsort of the first `count` elements: the front goes behind the part that is still a heap. -/
def sortLoop : Nat → List α → List α
  | 0, data => data
  | 1, data => data
  | count + 2, data => sortLoop (count + 1) (siftDown less (swap data 0 (count + 1)) 0 (count + 1))

def sortAscending (data : List α) : List α := sortLoop less data.length data

/-- A heap of at most `capacity` elements that keeps the smallest: a new element enters while
there is room, or replaces the front if it is smaller. The flag tells whether it was kept. -/
def pushBounded (capacity : Nat) (data : List α) (a : α) : List α × Bool :=
  if data.length < capacity then (push less data a, true)
  else match data with
    | [] => ([], false)
    | top :: rest => if less a top then (replaceTop less (top :: rest) a, true) else (top :: rest, false)

end Sift

section Perm
variable {less : α → α → Bool} {data : List α} {i j k index count : Nat}

theorem swap_eq (inI : i < data.length) (inJ : j < data.length) :
    swap data i j = (data.set i data[j]).set j data[i] := by
  simp only [swap, List.getElem?_eq_getElem inI, List.getElem?_eq_getElem inJ]

@[simp] theorem length_swap : (swap data i j).length = data.length := by
  unfold swap
  split <;> simp

theorem getElem?_swap (inI : i < data.length) (inJ : j < data.length) :
    (swap data i j)[k]? = if k = j then data[i]? else if k = i then data[j]? else data[k]? := by
  rw [swap_eq inI inJ, List.getElem?_set, List.getElem?_set]
  by_cases atJ : k = j
  · subst atJ
    simp [inI, inJ]
  · rw [if_neg (Ne.symm atJ), if_neg atJ]
    by_cases atI : k = i
    · subst atI
      simp [inI, inJ]
    · rw [if_neg (Ne.symm atI), if_neg atI]

theorem swap_perm : (swap data i j).Perm data := by
  by_cases inI : i < data.length
  · by_cases inJ : j < data.length
    · rw [swap_eq inI inJ]
      exact List.set_set_perm inI inJ
    · have out : data[j]? = none := List.getElem?_eq_none (by omega)
      simp [swap, out]
  · have out : data[i]? = none := List.getElem?_eq_none (by omega)
    simp [swap, out]

theorem siftUp_perm : (siftUp less data index).Perm data := by
  fun_induction siftUp less data index with
  | case1 => exact .refl _
  | case2 data index _ _ ih => exact ih.trans swap_perm
  | case3 => exact .refl _

theorem siftDown_perm : (siftDown less data index count).Perm data := by
  fun_induction siftDown less data index count with
  | case1 => exact .refl _
  | case2 data index _ _ ih => exact ih.trans swap_perm
  | case3 => exact .refl _

@[simp] theorem length_siftUp : (siftUp less data index).length = data.length := siftUp_perm.length_eq

@[simp] theorem length_siftDown : (siftDown less data index count).length = data.length := siftDown_perm.length_eq

theorem push_perm {a : α} : (push less data a).Perm (a :: data) :=
  siftUp_perm.trans (List.perm_append_singleton a data)

theorem set_zero_perm {a b : α} {rest : List α} : ((b :: rest).set 0 a).Perm (a :: rest) := .refl _

theorem replaceTop_perm {a b : α} {rest : List α} : (replaceTop less (b :: rest) a).Perm (a :: rest) :=
  siftDown_perm.trans set_zero_perm

theorem pop_perm {a : α} {rest : List α} : (a :: pop less (a :: rest)).Perm (a :: rest) := by
  refine List.Perm.cons a ?_
  cases rest with
  | nil => exact siftDown_perm
  | cons b rest =>
    have last : (a :: b :: rest).getLast? = some ((b :: rest).getLast (by simp)) := by
      rw [List.getLast?_cons_cons, List.getLast?_eq_some_getLast]
    unfold pop
    rw [last]
    refine siftDown_perm.trans ?_
    rw [List.dropLast_cons_cons]
    show ((b :: rest).getLast _ :: (b :: rest).dropLast).Perm (b :: rest)
    refine (List.perm_append_singleton _ _).symm.trans ?_
    rw [List.dropLast_append_getLast]

theorem sortLoop_perm : (sortLoop less count data).Perm data := by
  fun_induction sortLoop less count data with
  | case1 => exact .refl _
  | case2 => exact .refl _
  | case3 count data ih => exact ih.trans (siftDown_perm.trans swap_perm)

theorem sortAscending_perm : (sortAscending less data).Perm data := sortLoop_perm

end Perm

section Keys
variable {κ : Type} {key : α → κ} {data : List α} {i j k : Nat}

/-- The key of a position, below every key outside the array. -/
def keyAt (key : α → κ) (data : List α) (i : Nat) : WithBot κ :=
  match data[i]? with
  | some a => key a
  | none => ⊥

theorem keyAt_swap (inI : i < data.length) (inJ : j < data.length) :
    keyAt key (swap data i j) k =
      if k = j then keyAt key data i else if k = i then keyAt key data j else keyAt key data k := by
  unfold keyAt
  rw [getElem?_swap inI inJ]
  split_ifs <;> rfl

theorem keyAt_append_left {tail : List α} (inside : i < data.length) :
    keyAt key (data ++ tail) i = keyAt key data i := by
  simp only [keyAt, List.getElem?_append_left inside]

theorem keyAt_set_of_ne {a : α} (other : i ≠ j) : keyAt key (data.set i a) j = keyAt key data j := by
  simp only [keyAt, List.getElem?_set_ne other]

theorem keyAt_dropLast (inside : i < data.length - 1) : keyAt key data.dropLast i = keyAt key data i := by
  simp only [keyAt, List.getElem?_dropLast, if_pos inside]

theorem keyAt_congr {other : List α} (same : data[i]? = other[j]?) : keyAt key data i = keyAt key other j := by
  simp only [keyAt, same]

end Keys

section Order
variable {κ : Type} [LinearOrder κ] {less : α → α → Bool} {key : α → κ} {data : List α} {i j k index count : Nat}

/-- The comparison is the order of a key on the elements of the array. -/
def Sorts (less : α → α → Bool) (key : α → κ) (data : List α) : Prop :=
  ∀ a ∈ data, ∀ b ∈ data, less a b = true ↔ key a < key b

theorem Sorts.of_perm {other : List α} (sorts : Sorts less key data) (perm : other.Perm data) :
    Sorts less key other :=
  fun a inA b inB => sorts a (perm.mem_iff.mp inA) b (perm.mem_iff.mp inB)

theorem Sorts.lessAt_iff (sorts : Sorts less key data) (inI : i < data.length) (inJ : j < data.length) :
    lessAt less data i j = true ↔ keyAt key data i < keyAt key data j := by
  simp only [lessAt, keyAt, List.getElem?_eq_getElem inI, List.getElem?_eq_getElem inJ, WithBot.coe_lt_coe]
  exact sorts _ (List.getElem_mem inI) _ (List.getElem_mem inJ)

theorem Sorts.lessAt_eq_false (sorts : Sorts less key data) (inI : i < data.length) (inJ : j < data.length) :
    lessAt less data i j = false ↔ keyAt key data j ≤ keyAt key data i := by
  rw [← Bool.not_eq_true, sorts.lessAt_iff inI inJ, not_lt]

/-- Every element of the heap is at most its parent. -/
def Ordered (key : α → κ) (data : List α) (count : Nat) : Prop :=
  ∀ i, 0 < i → i < count → keyAt key data i ≤ keyAt key data ((i - 1) / 2)

/-- The order with a hole that an element rises from. -/
structure Rising (key : α → κ) (data : List α) (index count : Nat) : Prop where
  off : ∀ i, 0 < i → i < count → i ≠ index → keyAt key data i ≤ keyAt key data ((i - 1) / 2)
  below : ∀ i, 0 < i → i < count → (i - 1) / 2 = index → 0 < index →
    keyAt key data i ≤ keyAt key data ((index - 1) / 2)

theorem siftUp_ordered (sorts : Sorts less key data) (whole : count ≤ data.length) (inside : index < count)
    (rising : Rising key data index count) : Ordered key (siftUp less data index) count := by
  fun_induction siftUp less data index with
  | case1 data =>
    intro i positive bound
    exact rising.off i positive bound (by omega)
  | case2 data index up moves ih =>
    have parent : (index - 1) / 2 < index := by omega
    have inIndex : index < data.length := by omega
    have inParent : (index - 1) / 2 < data.length := by omega
    have larger := (sorts.lessAt_iff inParent inIndex).mp moves
    refine ih (sorts.of_perm swap_perm) (by rwa [length_swap]) (by omega) ⟨?_, ?_⟩
    · intro i positive bound other
      rw [keyAt_swap inParent inIndex, keyAt_swap inParent inIndex]
      by_cases atIndex : i = index
      · subst atIndex
        rw [if_pos rfl, if_neg (by omega), if_pos rfl]
        exact larger.le
      · rw [if_neg atIndex, if_neg other]
        have before := rising.off i positive bound atIndex
        by_cases child : (i - 1) / 2 = index
        · rw [if_pos child]
          exact rising.below i positive bound child (by omega)
        · rw [if_neg child]
          by_cases sibling : (i - 1) / 2 = (index - 1) / 2
          · rw [if_pos sibling]
            rw [sibling] at before
            order
          · rwa [if_neg sibling]
    · intro i positive bound child grand
      have grandPair := rising.off ((index - 1) / 2) grand (by omega) (by omega)
      rw [keyAt_swap inParent inIndex, keyAt_swap inParent inIndex,
        if_neg (show ¬((index - 1) / 2 - 1) / 2 = index by omega),
        if_neg (show ¬((index - 1) / 2 - 1) / 2 = (index - 1) / 2 by omega)]
      by_cases atIndex : i = index
      · rw [if_pos atIndex]
        exact grandPair
      · rw [if_neg atIndex, if_neg (by omega)]
        have before := rising.off i positive bound atIndex
        rw [child] at before
        order
  | case3 data index up stays =>
    have inIndex : index < data.length := by omega
    have inParent : (index - 1) / 2 < data.length := by omega
    have smaller := (sorts.lessAt_eq_false inParent inIndex).mp (by simpa using stays)
    intro i positive bound
    by_cases atIndex : i = index
    · rw [atIndex]
      exact smaller
    · exact rising.off i positive bound atIndex

/-- The order with a hole that an element sinks into. -/
structure Sinking (key : α → κ) (data : List α) (index count : Nat) : Prop where
  off : ∀ i, 0 < i → i < count → (i - 1) / 2 ≠ index → keyAt key data i ≤ keyAt key data ((i - 1) / 2)
  above : ∀ i, 0 < i → i < count → (i - 1) / 2 = index → 0 < index →
    keyAt key data i ≤ keyAt key data ((index - 1) / 2)

/-- The larger child is no smaller than either child. -/
theorem le_largerChild (sorts : Sorts less key data) (whole : count ≤ data.length)
    (positive : 0 < i) (bound : i < count)
    (child : (i - 1) / 2 = index) : keyAt key data i ≤ keyAt key data (largerChild less data index count) := by
  have two : i = 2 * index + 1 ∨ i = 2 * index + 2 := by omega
  unfold largerChild
  split
  · next right =>
    simp only [Bool.and_eq_true, decide_eq_true_eq] at right
    have larger := (sorts.lessAt_iff (by omega) (by omega)).mp right.2
    rcases two with rfl | rfl
    · exact larger.le
    · exact le_rfl
  · next left =>
    rcases two with rfl | rfl
    · exact le_rfl
    · have stays : lessAt less data (2 * index + 1) (2 * index + 2) = false := by
        simpa [bound] using left
      exact (sorts.lessAt_eq_false (by omega) (by omega)).mp stays

theorem siftDown_ordered (sorts : Sorts less key data) (whole : count ≤ data.length)
    (sinking : Sinking key data index count) : Ordered key (siftDown less data index count) count := by
  fun_induction siftDown less data index count with
  | case1 data index leaf =>
    intro i positive bound
    exact sinking.off i positive bound (by omega)
  | case2 data index inner moves ih =>
    have up := lt_largerChild less data index count
    have bound := largerChild_lt less data (show 2 * index + 1 < count by omega)
    have isChild : (largerChild less data index count - 1) / 2 = index := by
      unfold largerChild
      split <;> omega
    have children : ∀ i, 0 < i → i < count → (i - 1) / 2 = index →
        keyAt key data i ≤ keyAt key data (largerChild less data index count) := fun i => le_largerChild sorts whole
    generalize largerChild less data index count = child at up bound isChild children moves ih
    have inIndex : index < data.length := by omega
    have inChild : child < data.length := by omega
    have larger := (sorts.lessAt_iff inIndex inChild).mp moves
    refine ih (sorts.of_perm swap_perm) (by rwa [length_swap]) ⟨?_, ?_⟩
    · intro i positive inside other
      rw [keyAt_swap inIndex inChild, keyAt_swap inIndex inChild, if_neg other]
      by_cases atChild : i = child
      · rw [if_pos atChild, if_pos (by omega)]
        exact larger.le
      · rw [if_neg atChild]
        by_cases atIndex : i = index
        · rw [if_pos atIndex, if_neg (by omega)]
          subst atIndex
          exact sinking.above child (by omega) bound isChild positive
        · rw [if_neg atIndex]
          by_cases below : (i - 1) / 2 = index
          · rw [if_pos below]
            exact children i positive inside below
          · rw [if_neg below]
            exact sinking.off i positive inside below
    · intro i positive inside under _
      rw [keyAt_swap inIndex inChild, keyAt_swap inIndex inChild, if_neg (by omega),
        if_neg (by omega), if_neg (by omega),
        if_pos isChild]
      have before := sinking.off i positive inside (by omega)
      rwa [under] at before
  | case3 data index inner stays =>
    have bound := largerChild_lt less data (show 2 * index + 1 < count by omega)
    have settled := (sorts.lessAt_eq_false (i := index) (j := largerChild less data index count) (by omega)
      (by omega)).mp (by simpa using stays)
    intro i positive inside
    by_cases below : (i - 1) / 2 = index
    · have child := le_largerChild sorts whole positive inside below
      rw [below]
      order
    · exact sinking.off i positive inside below

/-- The front of a heap is its largest element. -/
theorem Ordered.le_top (ordered : Ordered key data count) : ∀ i, i < count →
    keyAt key data i ≤ keyAt key data 0 := by
  intro i
  induction i using Nat.strongRecOn with
  | _ i ih =>
    intro bound
    by_cases zero : i = 0
    · rw [zero]
    · have parent := ih ((i - 1) / 2) (by omega) (by omega)
      have here := ordered i (by omega) bound
      order

theorem push_ordered {a : α} (sorts : Sorts less key (a :: data)) (ordered : Ordered key data data.length) :
    Ordered key (push less data a) (push less data a).length := by
  have total : (push less data a).length = data.length + 1 := by simp [push]
  rw [total]
  refine siftUp_ordered (sorts.of_perm (List.perm_append_singleton a data)) (by simp) (Nat.lt_succ_self _) ⟨?_, ?_⟩
  · intro i positive bound other
    rw [keyAt_append_left (by omega), keyAt_append_left (by omega)]
    exact ordered i positive (by omega)
  · intro i positive bound child
    omega

theorem replaceTop_ordered {a b : α} {rest : List α} (sorts : Sorts less key (a :: rest))
    (ordered : Ordered key (b :: rest) (b :: rest).length) :
    Ordered key (replaceTop less (b :: rest) a) (replaceTop less (b :: rest) a).length := by
  have total : (replaceTop less (b :: rest) a).length = (b :: rest).length := by simp [replaceTop]
  rw [total]
  refine siftDown_ordered (sorts.of_perm set_zero_perm) (by simp)
    ⟨?_, fun i _ _ _ none => absurd none (Nat.lt_irrefl 0)⟩
  intro i positive bound other
  rw [keyAt_set_of_ne (by omega), keyAt_set_of_ne (Ne.symm other)]
  exact ordered i positive bound

theorem pop_ordered (sorts : Sorts less key data) (ordered : Ordered key data data.length) :
    Ordered key (pop less data) (pop less data).length := by
  unfold pop
  cases found : data.getLast? with
  | none =>
    intro i _ bound
    exact absurd bound (Nat.not_lt_zero i)
  | some last =>
    have inData : last ∈ data := List.mem_of_getLast? found
    have within : Sorts less key (data.dropLast.set 0 last) := by
      intro a inA b inB
      have only (x : α) (member : x ∈ data.dropLast.set 0 last) : x ∈ data := by
        rcases List.mem_or_eq_of_mem_set member with old | rfl
        · exact List.dropLast_subset data old
        · exact inData
      exact sorts a (only a inA) b (only b inB)
    have total : (data.dropLast.set 0 last).length = data.length - 1 := by simp
    simp only [length_siftDown, total]
    refine siftDown_ordered within total.ge ⟨?_, fun i _ _ _ none => absurd none (Nat.lt_irrefl 0)⟩
    intro i positive bound other
    rw [keyAt_set_of_ne (by omega), keyAt_set_of_ne (Ne.symm other), keyAt_dropLast bound,
      keyAt_dropLast (by omega)]
    exact ordered i positive (by omega)

/-- Sinking touches only the heap. -/
theorem siftDown_outside (whole : count ≤ data.length) (beyond : count ≤ k) :
    (siftDown less data index count)[k]? = data[k]? := by
  fun_induction siftDown less data index count with
  | case1 => rfl
  | case2 data index inner moves ih =>
    have bound := largerChild_lt less data (show 2 * index + 1 < count by omega)
    rw [ih (by rwa [length_swap]), getElem?_swap (by omega) (by omega), if_neg (by omega), if_neg (by omega)]
  | case3 => rfl

theorem siftDown_inside (whole : count ≤ data.length) (inside : i < count) :
    ∃ j, j < count ∧ (siftDown less data index count)[i]? = data[j]? := by
  fun_induction siftDown less data index count with
  | case1 => exact ⟨i, inside, rfl⟩
  | case2 data index inner moves ih =>
    have bound := largerChild_lt less data (show 2 * index + 1 < count by omega)
    obtain ⟨j, small, same⟩ := ih (by rwa [length_swap])
    rw [getElem?_swap (by omega) (by omega)] at same
    split_ifs at same
    · exact ⟨index, by omega, same⟩
    · exact ⟨_, bound, same⟩
    · exact ⟨j, small, same⟩
  | case3 => exact ⟨i, inside, rfl⟩

/-- Behind the heap everything is in place. -/
def Placed (key : α → κ) (data : List α) (count : Nat) : Prop :=
  ∀ i j, i < j → count ≤ j → j < data.length → keyAt key data i ≤ keyAt key data j

theorem sortLoop_placed (sorts : Sorts less key data) (whole : count ≤ data.length)
    (ordered : Ordered key data count)
    (placed : Placed key data count) : Placed key (sortLoop less count data) 1 := by
  fun_induction sortLoop less count data with
  | case1 data =>
    intro i j before _ bound
    exact placed i j before (Nat.zero_le j) bound
  | case2 data => exact placed
  | case3 count data ih =>
    have first : 0 < data.length := by omega
    have last : count + 1 < data.length := by omega
    have inHeap : count + 1 ≤ (swap data 0 (count + 1)).length := by rw [length_swap]; omega
    refine ih ?_ ?_ ?_ ?_
    · exact sorts.of_perm (siftDown_perm.trans swap_perm)
    · rwa [length_siftDown]
    · refine siftDown_ordered (sorts.of_perm swap_perm) inHeap
        ⟨?_, fun i _ _ _ none => absurd none (Nat.lt_irrefl 0)⟩
      intro i positive bound other
      rw [keyAt_swap first last, keyAt_swap first last, if_neg (by omega), if_neg (by omega), if_neg (by omega),
        if_neg (by omega)]
      exact ordered i positive (by omega)
    · intro i j before far bound
      rw [length_siftDown, length_swap] at bound
      have atJ : keyAt key (siftDown less (swap data 0 (count + 1)) 0 (count + 1)) j =
          if j = count + 1 then keyAt key data 0 else keyAt key data j := by
        rw [keyAt_congr (siftDown_outside inHeap far), keyAt_swap first last]
        split_ifs
        · rfl
        · omega
        · rfl
      have atI : ∃ p, keyAt key (siftDown less (swap data 0 (count + 1)) 0 (count + 1)) i = keyAt key data p ∧
          (p < count + 2 ∨ p = i) := by
        by_cases inside : i < count + 1
        · have found : ∃ p, p < count + 1 ∧ (siftDown less (swap data 0 (count + 1)) 0 (count + 1))[i]? =
              (swap data 0 (count + 1))[p]? := siftDown_inside inHeap inside
          obtain ⟨p, small, same⟩ := found
          rw [keyAt_congr same, keyAt_swap first last]
          split_ifs
          · exact ⟨0, rfl, .inl (by omega)⟩
          · exact ⟨count + 1, rfl, .inl (by omega)⟩
          · exact ⟨p, rfl, .inl (by omega)⟩
        · rw [keyAt_congr (siftDown_outside inHeap (by omega)), keyAt_swap first last]
          split_ifs
          · exact ⟨0, rfl, .inl (by omega)⟩
          · omega
          · exact ⟨i, rfl, .inr rfl⟩
      obtain ⟨p, same, small⟩ := atI
      rw [same, atJ]
      split_ifs with top
      · exact ordered.le_top p (by omega)
      · exact placed p j (by omega) (by omega) bound

/-- Heapsort returns the elements of the heap in ascending order. -/
theorem sortAscending_sorted (sorts : Sorts less key data) (ordered : Ordered key data data.length) :
    (sortAscending less data).Pairwise fun a b => key a ≤ key b := by
  have placed : Placed key (sortAscending less data) 1 :=
    sortLoop_placed sorts le_rfl ordered (fun i j _ far bound => absurd bound (by omega))
  rw [List.pairwise_iff_getElem]
  intro i j inI inJ before
  have pair := placed i j before (by omega) inJ
  simpa only [keyAt, List.getElem?_eq_getElem inI, List.getElem?_eq_getElem inJ, WithBot.coe_le_coe] using pair

/-- `data` is a heap of the `capacity` smallest elements of `pushed`. -/
structure Keeps (key : α → κ) (capacity : Nat) (pushed data : List α) : Prop where
  ordered : Ordered key data data.length
  count : data.length = min capacity pushed.length
  split : ∃ rest, pushed.Perm (data ++ rest) ∧ ∀ a ∈ data, ∀ b ∈ rest, key a ≤ key b

theorem Keeps.nil (key : α → κ) (capacity : Nat) : Keeps key capacity [] [] :=
  ⟨fun i _ bound => absurd bound (Nat.not_lt_zero i), by simp, [], by simp, fun a member => by cases member⟩

theorem Ordered.le_head {top : α} {rest : List α} (ordered : Ordered key (top :: rest) (top :: rest).length) {a : α}
    (member : a ∈ top :: rest) : key a ≤ key top := by
  obtain ⟨i, inside, rfl⟩ := List.mem_iff_getElem.mp member
  have bound := ordered.le_top i inside
  simpa only [keyAt, List.getElem?_eq_getElem inside, List.getElem?_cons_zero, WithBot.coe_le_coe] using bound

/-- One more element goes through the bounded heap. -/
theorem Keeps.push {capacity : Nat} {pushed : List α} {a : α} (keeps : Keeps key capacity pushed data)
    (sorts : Sorts less key (a :: pushed)) :
    Keeps key capacity (a :: pushed) (pushBounded less capacity data a).1 := by
  obtain ⟨ordered, count, rest, perm, smaller⟩ := keeps
  have inPushed (x : α) (member : x ∈ a :: data) : x ∈ a :: pushed := by
    rcases List.mem_cons.mp member with rfl | old
    · exact List.mem_cons_self ..
    · exact List.mem_cons_of_mem a (perm.mem_iff.mpr (List.mem_append_left rest old))
  have within : Sorts less key (a :: data) := fun x inX y inY => sorts x (inPushed x inX) y (inPushed y inY)
  have total := perm.length_eq
  rw [List.length_append] at total
  unfold pushBounded
  split
  · next room =>
    have none : rest = [] := List.length_eq_zero_iff.mp (by omega)
    subst none
    refine ⟨push_ordered within ordered, ?_, [], ?_, fun _ _ b member => by cases member⟩
    · rw [push_perm.length_eq, List.length_cons, List.length_cons]
      omega
    · rw [List.append_nil] at perm ⊢
      exact (perm.cons a).trans push_perm.symm
  · next full =>
    match data with
    | [] =>
      refine ⟨ordered, ?_, a :: rest, ?_, fun x member => by cases member⟩
      · simp only [List.length_nil] at full ⊢
        omega
      · exact perm.cons a
    | top :: others =>
      simp only [List.length_cons] at full count total
      simp only
      have known : ∀ x ∈ top :: others, key x ≤ key top := fun x => ordered.le_head
      split
      · next better =>
        have less : key a < key top := (within a (List.mem_cons_self ..) top (by simp)).mp better
        refine ⟨replaceTop_ordered ?_ ordered, ?_, top :: rest, ?_, ?_⟩
        · refine fun x inX y inY => within x ?_ y ?_
          · rcases List.mem_cons.mp inX with rfl | old
            · exact List.mem_cons_self ..
            · simp [old]
          · rcases List.mem_cons.mp inY with rfl | old
            · exact List.mem_cons_self ..
            · simp [old]
        · rw [replaceTop_perm.length_eq, List.length_cons, List.length_cons]
          omega
        · refine (perm.cons a).trans ?_
          refine List.Perm.trans ?_ (replaceTop_perm.symm.append_right _)
          rw [List.cons_append, List.cons_append]
          exact (List.perm_middle.symm).cons a
        · intro x inX y inY
          have small : key x ≤ key top := by
            rcases List.mem_cons.mp (replaceTop_perm.mem_iff.mp inX) with rfl | old
            · exact less.le
            · exact known x (List.mem_cons_of_mem top old)
          rcases List.mem_cons.mp inY with rfl | old
          · exact small
          · exact small.trans (smaller top (List.mem_cons_self ..) y old)
      · next worse =>
        have large : key top ≤ key a := by
          rw [← not_lt, ← within a (List.mem_cons_self ..) top (by simp)]
          exact worse
        refine ⟨ordered, ?_, a :: rest, ?_, ?_⟩
        · simp only [List.length_cons]
          omega
        · exact (perm.cons a).trans List.perm_middle.symm
        · intro x inX y inY
          rcases List.mem_cons.mp inY with rfl | old
          · exact (known x inX).trans large
          · exact smaller x inX y old

/-- If the keys of the pushed elements are distinct, sorting the heap gives the first of them. -/
theorem Keeps.sorted {capacity : Nat} {pushed inOrder : List α} (keeps : Keeps key capacity pushed data)
    (sorts : Sorts less key pushed) (perm : inOrder.Perm pushed)
    (strict : inOrder.Pairwise fun a b => key a < key b) :
    sortAscending less data = inOrder.take capacity := by
  obtain ⟨ordered, count, rest, split, smaller⟩ := keeps
  have within : Sorts less key data := fun x inX y inY =>
    sorts x (split.mem_iff.mpr (List.mem_append_left rest inX)) y
      (split.mem_iff.mpr (List.mem_append_left rest inY))
  have sortedRest : ∃ tail : List α, tail.Perm rest ∧ tail.Pairwise fun a b => key a ≤ key b := by
    have transitive (a b c : α) :
        decide (key a ≤ key b) = true → decide (key b ≤ key c) = true → decide (key a ≤ key c) = true := by
      simp only [decide_eq_true_eq]
      exact le_trans
    have total (a b : α) : (decide (key a ≤ key b) || decide (key b ≤ key a)) = true := by
      simp only [Bool.or_eq_true, decide_eq_true_eq]
      exact le_total (key a) (key b)
    refine ⟨rest.mergeSort fun a b => decide (key a ≤ key b), List.mergeSort_perm _ _, ?_⟩
    exact (List.pairwise_mergeSort transitive total rest).imp fun h => by simpa using h
  obtain ⟨tail, tailPerm, tailSorted⟩ := sortedRest
  have whole : (sortAscending less data ++ tail).Pairwise fun a b => key a ≤ key b := by
    refine List.pairwise_append.mpr ⟨sortAscending_sorted within ordered, tailSorted, ?_⟩
    intro a inA b inB
    exact smaller a (sortAscending_perm.mem_iff.mp inA) b (tailPerm.mem_iff.mp inB)
  have same : sortAscending less data ++ tail = inOrder := by
    have perms : (sortAscending less data ++ tail).Perm inOrder :=
      (sortAscending_perm.append tailPerm).trans (split.symm.trans perm.symm)
    refine List.Perm.eq_of_pairwise ?_ whole (strict.imp le_of_lt) perms
    intro a b inA inB first second
    have inB : b ∈ inOrder := inB
    have inA : a ∈ inOrder := perms.mem_iff.mp inA
    obtain ⟨i, inI, rfl⟩ := List.mem_iff_getElem.mp inA
    obtain ⟨j, inJ, rfl⟩ := List.mem_iff_getElem.mp inB
    have pairs := List.pairwise_iff_getElem.mp strict
    rcases Nat.lt_trichotomy i j with before | same | after
    · exact absurd second (not_le.mpr (pairs i j inI inJ before))
    · subst same
      rfl
    · exact absurd first (not_le.mpr (pairs j i inJ inI after))
  have size : (sortAscending less data).length = min capacity inOrder.length := by
    rw [sortAscending_perm.length_eq, count, perm.length_eq]
  rw [← same] at size ⊢
  rw [List.length_append] at size
  by_cases full : (sortAscending less data).length = capacity
  · rw [← full, List.take_left]
  · have none : tail = [] := List.length_eq_zero_iff.mp (by omega)
    rw [none, List.append_nil, List.take_of_length_le (by omega)]

end Order
section Map

/-! Heaps of elements and of their images under an order embedding. -/

variable {β : Type} {less : α → α → Bool} {other : β → β → Bool} {f : α → β} {data : List α} {index count : Nat}

theorem map_swap (data : List α) (i j : Nat) : swap (data.map f) i j = (swap data i j).map f := by
  simp only [swap, List.getElem?_map]
  cases data[i]? with
  | none => rfl
  | some a =>
    cases data[j]? with
    | none => rfl
    | some b => simp only [Option.map_some, List.map_set]

/-- The comparison of images is the comparison of the elements. -/
def Embeds (less : α → α → Bool) (other : β → β → Bool) (f : α → β) : Prop := ∀ a b, other (f a) (f b) = less a b

variable (embeds : Embeds less other f)
include embeds

theorem map_lessAt (i j : Nat) : lessAt other (data.map f) i j = lessAt less data i j := by
  simp only [lessAt, List.getElem?_map]
  cases data[i]? with
  | none => rfl
  | some a =>
    cases data[j]? with
    | none => rfl
    | some b => exact embeds a b

theorem map_largerChild : largerChild other (data.map f) index count = largerChild less data index count := by
  rw [largerChild, largerChild, map_lessAt embeds]

theorem map_siftUp : siftUp other (data.map f) index = (siftUp less data index).map f := by
  fun_induction siftUp less data index with
  | case1 data => rw [siftUp, if_pos rfl]
  | case2 data index away smaller ih => rw [siftUp, if_neg away, map_lessAt embeds, if_pos smaller, map_swap, ih]
  | case3 data index away notSmaller => rw [siftUp, if_neg away, map_lessAt embeds, if_neg notSmaller]

theorem map_siftDown : siftDown other (data.map f) index count = (siftDown less data index count).map f := by
  fun_induction siftDown less data index count with
  | case1 data index leaf => rw [siftDown, if_pos leaf]
  | case2 data index inner smaller ih =>
    rw [siftDown, if_neg inner, map_largerChild embeds, map_lessAt embeds, if_pos smaller, map_swap, ih]
  | case3 data index inner notSmaller =>
    rw [siftDown, if_neg inner, map_largerChild embeds, map_lessAt embeds, if_neg notSmaller]

theorem map_pushBounded (capacity : Nat) (a : α) :
    (pushBounded other capacity (data.map f) (f a)).1 = (pushBounded less capacity data a).1.map f := by
  simp only [pushBounded, List.length_map]
  split
  · rw [push, push, ← map_siftUp embeds, List.map_append, List.length_map]
    rfl
  · cases data with
    | nil => rfl
    | cons top rest =>
      simp only [List.map_cons]
      rw [embeds]
      split
      · rw [replaceTop, replaceTop, ← map_siftDown embeds, List.map_set, List.map_cons,
          List.length_cons, List.length_cons,
          List.length_map]
      · rfl

theorem map_sortLoop : ∀ (count : Nat) (data : List α), sortLoop other count (data.map f) =
    (sortLoop less count data).map f
  | 0, _ => by rw [sortLoop, sortLoop]
  | 1, _ => by rw [sortLoop, sortLoop]
  | count + 2, data => by rw [sortLoop, sortLoop, map_swap, map_siftDown embeds, map_sortLoop]

theorem map_sortAscending : sortAscending other (data.map f) = (sortAscending less data).map f := by
  rw [sortAscending, sortAscending, List.length_map, map_sortLoop embeds]

end Map
end BinaryHeap
