import VectorForge.Core.Types
import VectorForge.Lib.BinaryHeap

namespace VectorForge

/-- `ScoredId`, and `Neighbor` while its id is still internal. -/
structure ScoredId where
  distance : F32 := ⟨0⟩
  id : Nat := kInvalidInternalId
  deriving DecidableEq, Repr

def candidateLess (a b : ScoredId) : Bool :=
  a.distance.lt b.distance || (a.distance.feq b.distance && decide (a.id < b.id))

/-- The lexicographic order that `candidate_less` is meant to be. -/
def ScoredId.key (c : ScoredId) : Int ×ₗ Nat := toLex (c.distance.rank, c.id)

theorem ScoredId.key_inj {a b : ScoredId} (same : a.key = b.key) : a.id = b.id :=
  (Prod.mk.inj (toLex_inj.mp same)).2

theorem key_lt_of_candidateLess {a b : ScoredId} (less : candidateLess a b = true) : a.key < b.key := by
  simp only [candidateLess, F32.lt, F32.feq, Bool.or_eq_true, Bool.and_eq_true, decide_eq_true_eq] at less
  rw [ScoredId.key, ScoredId.key, Prod.Lex.toLex_lt_toLex]
  rcases less with ⟨_, below⟩ | ⟨⟨_, same⟩, ids⟩
  · exact .inl below
  · exact .inr ⟨same, ids⟩

theorem candidateLess_iff {a b : ScoredId} (left : a.distance.isNan = false) (right : b.distance.isNan = false) :
    candidateLess a b = true ↔ a.key < b.key := by
  rw [ScoredId.key, ScoredId.key, Prod.Lex.toLex_lt_toLex]
  simp [candidateLess, F32.lt, F32.feq, left, right]

/-- Without NaNs the comparison is the order of the keys. -/
theorem candidateLess_sorts {data : List ScoredId} (real : ∀ c ∈ data, c.distance.isNan = false) :
    BinaryHeap.Sorts candidateLess ScoredId.key data :=
  fun a inA b inB => candidateLess_iff (real a inA) (real b inB)

/-- `BoundedMaxHeap`: `data` is the used part of a storage of `capacity` elements. -/
structure BoundedMaxHeap where
  capacity : Nat
  data : List ScoredId := []
  deriving DecidableEq, Repr

namespace BoundedMaxHeap

def full (h : BoundedMaxHeap) : Bool := decide (h.data.length = h.capacity)

def top? (h : BoundedMaxHeap) : Option ScoredId := h.data.head?

def push (h : BoundedMaxHeap) (candidate : ScoredId) : BoundedMaxHeap :=
  { h with data := (BinaryHeap.pushBounded candidateLess h.capacity h.data candidate).1 }

/-- The storage after `sort_ascending`, up to the count that it returns. -/
def sortAscending (h : BoundedMaxHeap) : List ScoredId := BinaryHeap.sortAscending candidateLess h.data

theorem push_cases (h : BoundedMaxHeap) (c : ScoredId) :
    (h.push c).data.Perm (c :: h.data) ∨
    (∃ top rest, h.data = top :: rest ∧ (h.push c).data.Perm (c :: rest)) ∨ (h.push c).data = h.data := by
  simp only [push, BinaryHeap.pushBounded]
  split
  · exact .inl BinaryHeap.push_perm
  · cases known : h.data with
    | nil => exact .inr (.inr rfl)
    | cons top rest =>
      simp only
      split
      · exact .inr (.inl ⟨top, rest, rfl, BinaryHeap.replaceTop_perm⟩)
      · exact .inr (.inr rfl)

theorem mem_push {h : BoundedMaxHeap} {c x : ScoredId} (member : x ∈ (h.push c).data) : x = c ∨ x ∈ h.data := by
  rcases h.push_cases c with perm | ⟨top, rest, same, perm⟩ | same
  · exact List.mem_cons.mp (perm.mem_iff.mp member)
  · rw [same]
    exact (List.mem_cons.mp (perm.mem_iff.mp member)).imp_right (List.mem_cons_of_mem top)
  · rw [same] at member
    exact .inr member

theorem length_push_le {h : BoundedMaxHeap} (c : ScoredId) (fits : h.data.length ≤ h.capacity) :
    (h.push c).data.length ≤ h.capacity := by
  simp only [push, BinaryHeap.pushBounded]
  split
  next room => exact BinaryHeap.push_perm.length_eq.trans_le room
  · cases known : h.data with
    | nil => exact Nat.zero_le _
    | cons top rest =>
      rw [known] at fits
      simp only
      split
      · exact BinaryHeap.replaceTop_perm.length_eq.trans_le fits
      · exact fits

/-- A new id keeps the ids of a heap distinct. -/
theorem nodup_push {h : BoundedMaxHeap} {c : ScoredId} (distinct : (h.data.map (·.id)).Nodup)
    (fresh : c.id ∉ h.data.map (·.id)) : ((h.push c).data.map (·.id)).Nodup := by
  rcases h.push_cases c with perm | ⟨top, rest, same, perm⟩ | same
  · rw [(perm.map _).nodup_iff, List.map_cons, List.nodup_cons]
    exact ⟨fresh, distinct⟩
  · rw [same, List.map_cons] at distinct fresh
    rw [(perm.map _).nodup_iff, List.map_cons, List.nodup_cons]
    exact ⟨fun member => fresh (List.mem_cons_of_mem _ member), (List.nodup_cons.mp distinct).2⟩
  · rw [same]
    exact distinct

/-- Elements under other ids, in the same order. -/
def renumber (f : Nat → Nat) (c : ScoredId) : ScoredId := { c with id := f c.id }

theorem renumber_embeds {f : Nat → Nat} (mono : StrictMono f) :
    BinaryHeap.Embeds candidateLess candidateLess (renumber f) := by
  intro a b
  simp only [candidateLess, renumber, mono.lt_iff_lt]

theorem sortAscending_perm (h : BoundedMaxHeap) : h.sortAscending.Perm h.data := BinaryHeap.sortAscending_perm

end BoundedMaxHeap

/-- `MinHeap`: the best candidate is in front. -/
structure MinHeap where
  data : List ScoredId := []
  deriving DecidableEq, Repr

namespace MinHeap

/-- The comparison with its sides exchanged puts the smallest element in front. -/
def greater (a b : ScoredId) : Bool := candidateLess b a

def top? (h : MinHeap) : Option ScoredId := h.data.head?

def push (h : MinHeap) (candidate : ScoredId) : MinHeap := { data := BinaryHeap.push greater h.data candidate }

def pop (h : MinHeap) : MinHeap := { data := BinaryHeap.pop greater h.data }

theorem greater_sorts {data : List ScoredId} (real : ∀ c ∈ data, c.distance.isNan = false) :
    BinaryHeap.Sorts greater (fun c : ScoredId => OrderDual.toDual c.key) data := by
  intro a inA b inB
  rw [greater, OrderDual.toDual_lt_toDual]
  exact candidateLess_iff (real b inB) (real a inA)

theorem push_perm (h : MinHeap) (c : ScoredId) : (h.push c).data.Perm (c :: h.data) := BinaryHeap.push_perm

theorem mem_pop {h : MinHeap} {top x : ScoredId} (front : h.top? = some top) (member : x ∈ h.pop.data) :
    x ∈ h.data := by
  obtain ⟨rest, same⟩ := List.head?_eq_some_iff.mp front
  rw [pop, same] at member
  have perm : (top :: BinaryHeap.pop greater (top :: rest)).Perm (top :: rest) := BinaryHeap.pop_perm
  rw [same, ← perm.mem_iff]
  exact List.mem_cons_of_mem top member

theorem length_pop {h : MinHeap} {top : ScoredId} (front : h.top? = some top) :
    h.pop.data.length + 1 = h.data.length := by
  obtain ⟨rest, same⟩ := List.head?_eq_some_iff.mp front
  have perm : (top :: BinaryHeap.pop greater (top :: rest)).Perm (top :: rest) := BinaryHeap.pop_perm
  rw [pop, same]
  exact perm.length_eq

end MinHeap
end VectorForge
