import VectorForge.Search.Heaps

/-! What the heaps hold after any use. -/

namespace VectorForge

/-- Candidates with a distance. -/
def Scored (l : List ScoredId) : Prop := ∀ c ∈ l, c.distance.isNan = false

theorem candidateLess_eq_false {a b : ScoredId} (left : a.distance.isNan = false)
    (right : b.distance.isNan = false) : candidateLess a b = false ↔ b.key ≤ a.key := by
  rw [← Bool.not_eq_true, candidateLess_iff left right, not_lt]

namespace BoundedMaxHeap

/-- Whether `push` retains the candidate. -/
def retains (h : BoundedMaxHeap) (candidate : ScoredId) : Bool :=
  (BinaryHeap.pushBounded candidateLess h.capacity h.data candidate).2

/-- The heap after some pushes into an empty storage. -/
def pushes (capacity : Nat) (pushed : List ScoredId) : BoundedMaxHeap := pushed.foldl push { capacity }

@[simp] theorem capacity_push (h : BoundedMaxHeap) (c : ScoredId) : (h.push c).capacity = h.capacity := rfl

theorem capacity_pushes (capacity : Nat) (pushed : List ScoredId) :
    (pushes capacity pushed).capacity = capacity := by
  induction pushed using List.reverseRecOn with
  | nil => rfl
  | append_singleton pushed c ih =>
    rw [pushes, List.foldl_append]
    exact ih

theorem keeps_pushes (capacity : Nat) {pushed : List ScoredId} (real : Scored pushed) :
    BinaryHeap.Keeps ScoredId.key capacity pushed.reverse (pushes capacity pushed).data := by
  induction pushed using List.reverseRecOn with
  | nil => exact .nil _ capacity
  | append_singleton pushed c ih =>
    have before := ih fun x member => real x (List.mem_append_left _ member)
    rw [List.reverse_append, List.reverse_singleton, List.singleton_append, pushes, List.foldl_append]
    show BinaryHeap.Keeps ScoredId.key capacity (c :: pushed.reverse) ((pushes capacity pushed).push c).data
    rw [push, capacity_pushes]
    refine before.push (candidateLess_sorts fun x member => real x ?_)
    rw [List.mem_append, List.mem_singleton]
    rw [List.mem_cons, List.mem_reverse] at member
    exact member.symm

/-- What `push` reports: the candidate is kept where there is room or where it beats a retained one, and
otherwise nothing changes. -/
theorem retains_iff {h : BoundedMaxHeap} {c : ScoredId}
    (ordered : BinaryHeap.Ordered ScoredId.key h.data h.data.length)
    (real : Scored h.data) (number : c.distance.isNan = false) :
    (h.retains c = true ↔ h.data.length < h.capacity ∨ ∃ x ∈ h.data, candidateLess c x = true) ∧
      (h.retains c = true → c ∈ (h.push c).data) ∧ (h.retains c = false → (h.push c).data = h.data) := by
  simp only [retains, push, BinaryHeap.pushBounded]
  split
  next room =>
    refine ⟨⟨fun _ => .inl room, fun _ => rfl⟩, fun _ => BinaryHeap.push_perm.mem_iff.mpr List.mem_cons_self,
      fun no => ?_⟩
    cases no
  next full =>
    cases known : h.data with
    | nil =>
      simp only
      refine ⟨⟨fun no => (by cases no), ?_⟩, fun no => (by cases no), fun _ => trivial⟩
      rintro (room | ⟨x, none, -⟩)
      · rw [known] at full
        exact absurd room full
      · cases none
    | cons top rest =>
      rw [known] at ordered real full
      simp only
      split
      next better =>
        refine ⟨⟨fun _ => .inr ⟨top, List.mem_cons_self, better⟩, fun _ => rfl⟩,
          fun _ => BinaryHeap.replaceTop_perm.mem_iff.mpr List.mem_cons_self, fun no => by cases no⟩
      next worse =>
        refine ⟨⟨fun no => (by cases no), ?_⟩, fun no => (by cases no), fun _ => rfl⟩
        rintro (room | ⟨x, member, beats⟩)
        · exact absurd room full
        · have below := (candidateLess_iff number (real x member)).mp beats
          have top' := (candidateLess_eq_false number (real top List.mem_cons_self)).mp (by simpa using worse)
          exact absurd (ordered.le_head member) (not_le.mpr (lt_of_le_of_lt top' below))

end BoundedMaxHeap

namespace MinHeap

/-- What a search does with its queue. -/
inductive Op where
  | push (candidate : ScoredId)
  | pop
  | clear

/-- A history of operations, latest first, with the heap it leaves and the candidates that were pushed and
have neither been removed nor cleared away. `pop` is only called on a heap that is not empty. -/
inductive Holds : List Op → MinHeap → Multiset ScoredId → Prop
  | empty : Holds [] {} 0
  | push {ops : List Op} {h : MinHeap} {left : Multiset ScoredId} (before : Holds ops h left) (c : ScoredId)
      (number : c.distance.isNan = false) : Holds (.push c :: ops) (h.push c) (c ::ₘ left)
  | pop {ops : List Op} {h : MinHeap} {left : Multiset ScoredId} {top : ScoredId} (before : Holds ops h left)
      (front : h.top? = some top) : Holds (.pop :: ops) h.pop (left.erase top)
  | clear {ops : List Op} {h : MinHeap} {left : Multiset ScoredId} (before : Holds ops h left) :
      Holds (.clear :: ops) {} 0

variable {ops : List Op} {h : MinHeap} {left : Multiset ScoredId} {top : ScoredId}

theorem erase_top (front : h.top? = some top) :
    (h.pop.data : Multiset ScoredId) = (h.data : Multiset ScoredId).erase top := by
  obtain ⟨rest, same⟩ := List.head?_eq_some_iff.mp front
  have perm : (top :: BinaryHeap.pop greater (top :: rest)).Perm (top :: rest) := BinaryHeap.pop_perm
  rw [pop, same, Multiset.coe_erase, Multiset.coe_eq_coe, List.erase_cons_head]
  exact perm.cons_inv

theorem Holds.contents (holds : Holds ops h left) : (h.data : Multiset ScoredId) = left := by
  induction holds with
  | empty => rfl
  | push before c number ih =>
    rw [← ih, Multiset.cons_coe, Multiset.coe_eq_coe]
    exact push_perm _ c
  | pop before front ih => rw [erase_top front, ih]
  | clear before ih => rfl

theorem Holds.scored (holds : Holds ops h left) : Scored h.data := by
  induction holds with
  | empty => exact fun c member => by cases member
  | push before c number ih =>
    intro x member
    rcases List.mem_cons.mp ((push_perm _ c).mem_iff.mp member) with rfl | old
    · exact number
    · exact ih x old
  | pop before front ih => exact fun c member => ih c (mem_pop front member)
  | clear before ih => exact fun c member => by cases member

theorem Holds.ordered (holds : Holds ops h left) :
    BinaryHeap.Ordered (fun c : ScoredId => OrderDual.toDual c.key) h.data h.data.length := by
  induction holds with
  | empty => exact fun i _ bound => absurd bound (Nat.not_lt_zero i)
  | push before c number ih =>
    refine BinaryHeap.push_ordered (greater_sorts fun x member => ?_) ih
    rcases List.mem_cons.mp member with rfl | old
    · exact number
    · exact before.scored x old
  | pop before front ih => exact BinaryHeap.pop_ordered (greater_sorts before.scored) ih
  | clear before ih => exact fun i _ bound => absurd bound (Nat.not_lt_zero i)

end MinHeap

/-- The bounded heap keeps the smallest candidates with the largest of them on top, and sorts them; the
other heap has the smallest candidate on top, and removes it. -/
theorem BoundedMaxHeap.heaps_are_correct (capacity : Nat) (pushed : List ScoredId) (real : Scored pushed) :
    let h := pushes capacity pushed
    (h.data.length = min capacity pushed.length ∧
      ∃ rest, pushed.Perm (h.data ++ rest) ∧ ∀ a ∈ h.data, ∀ b ∈ rest, candidateLess b a = false) ∧
    (h.data = [] ∨ ∃ top ∈ h.data, h.top? = some top ∧ ∀ a ∈ h.data, candidateLess top a = false) ∧
    (∀ c : ScoredId, c.distance.isNan = false →
      (h.retains c = true ↔ h.data.length < capacity ∨ ∃ x ∈ h.data, candidateLess c x = true) ∧
      (h.retains c = true → c ∈ (h.push c).data) ∧ (h.retains c = false → (h.push c).data = h.data)) ∧
    (h.sortAscending.Perm h.data ∧ h.sortAscending.Pairwise fun a b => candidateLess b a = false) ∧
    ∀ (ops : List MinHeap.Op) (q : MinHeap) (left : Multiset ScoredId), MinHeap.Holds ops q left →
      (q.data : Multiset ScoredId) = left ∧ (q.top? = none ↔ left = 0) ∧
      ∀ top, q.top? = some top → top ∈ left ∧ (∀ c ∈ left, candidateLess c top = false) ∧
        (q.pop.data : Multiset ScoredId) = left.erase top := by
  intro h
  have keeps := keeps_pushes capacity real
  have total : h.capacity = capacity := capacity_pushes capacity pushed
  obtain ⟨ordered, count, rest, split, smaller⟩ := keeps
  have whole : pushed.Perm (h.data ++ rest) := (List.reverse_perm pushed).symm.trans split
  have scored : Scored h.data := fun c member => real c (whole.mem_iff.mpr (List.mem_append_left _ member))
  refine ⟨⟨?_, rest, whole, fun a inA b inB => ?_⟩, ?_, fun c number => ?_, ⟨h.sortAscending_perm, ?_⟩,
    fun ops q left holds => ?_⟩
  · have same : pushed.reverse.length = pushed.length := List.length_reverse
    rw [← same]
    exact count
  · have other := real b (whole.mem_iff.mpr (List.mem_append_right _ inB))
    exact (candidateLess_eq_false other (scored a inA)).mpr (smaller a inA b inB)
  · cases known : h.data with
    | nil => exact .inl rfl
    | cons top others =>
      refine .inr ⟨top, List.mem_cons_self, by rw [top?, known]; rfl, fun a member => ?_⟩
      have order : BinaryHeap.Ordered ScoredId.key (top :: others) (top :: others).length := known ▸ ordered
      rw [known] at scored
      exact (candidateLess_eq_false (scored top List.mem_cons_self) (scored a member)).mpr (order.le_head member)
  · rw [← total]
    exact retains_iff ordered scored number
  · have sorted := BinaryHeap.sortAscending_sorted (candidateLess_sorts scored) ordered
    have inHeap (x : ScoredId) (member : x ∈ h.sortAscending) : x.distance.isNan = false :=
      scored x (h.sortAscending_perm.mem_iff.mp member)
    exact sorted.imp_of_mem fun inA inB below => (candidateLess_eq_false (inHeap _ inB) (inHeap _ inA)).mpr below
  · have contents := holds.contents
    subst contents
    refine ⟨rfl, ?_, fun top front => ?_⟩
    · rw [MinHeap.top?, List.head?_eq_none_iff, Multiset.coe_eq_zero]
    · obtain ⟨others, same⟩ := List.head?_eq_some_iff.mp front
      have order := holds.ordered
      have numbers := holds.scored
      rw [same] at order numbers
      refine ⟨by rw [same]; exact List.mem_cons_self, fun c member => ?_, MinHeap.erase_top front⟩
      rw [same] at member
      have below : OrderDual.toDual c.key ≤ OrderDual.toDual top.key := order.le_head member
      exact (candidateLess_eq_false (numbers c member) (numbers top List.mem_cons_self)).mpr below

theorem BoundedMaxHeap.heaps_are_correct_tied :
    (pushes 2 [⟨⟨0⟩, 7⟩, ⟨⟨0⟩, 3⟩, ⟨⟨0x3F800000⟩, 1⟩, ⟨⟨0x80000000⟩, 5⟩]).data.length = 2 :=
  (heaps_are_correct 2 [⟨⟨0⟩, 7⟩, ⟨⟨0⟩, 3⟩, ⟨⟨0x3F800000⟩, 1⟩, ⟨⟨0x80000000⟩, 5⟩] (by unfold Scored; decide)).1.1

end VectorForge
