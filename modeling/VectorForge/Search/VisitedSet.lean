import VectorForge.Core.Types

namespace VectorForge

/-- `VisitedSet`: `marks[i] = epoch` says that `i` was visited in the current search. -/
structure VisitedSet where
  marks : List UInt16 := []
  epoch : UInt16 := 1
  deriving DecidableEq, Repr

namespace VisitedSet

def ensureCapacity (v : VisitedSet) (capacity : Nat) : VisitedSet :=
  if capacity > v.marks.length then { v with marks := v.marks ++ List.replicate (capacity - v.marks.length) 0 }
  else v

/-- Starts a new search. When the epoch wraps, the marks are cleared once. -/
def reset (v : VisitedSet) : VisitedSet :=
  if v.epoch = 0xFFFF then { marks := v.marks.map fun _ => 0, epoch := 1 } else { v with epoch := v.epoch + 1 }

/-- Whether `id` was not visited before in this search. -/
def isFresh (v : VisitedSet) (id : Nat) : Bool := decide (v.marks[id]? ≠ some v.epoch)

/-- The set after `visit(id)`. -/
def visit (v : VisitedSet) (id : Nat) : VisitedSet := { v with marks := v.marks.set id v.epoch }

def visited (v : VisitedSet) (id : Nat) : Bool := decide (v.marks[id]? = some v.epoch)

/-- How many ids can still be visited. -/
def unvisited (v : VisitedSet) : Nat := v.marks.countP fun mark => decide (mark ≠ v.epoch)

@[simp] theorem length_visit (v : VisitedSet) (id : Nat) : (v.visit id).marks.length = v.marks.length := by
  simp [visit]

theorem unvisited_visit {v : VisitedSet} {id : Nat} (inside : id < v.marks.length) (fresh : v.isFresh id = true) :
    (v.visit id).unvisited < v.unvisited := by
  have other : v.marks[id] ≠ v.epoch := by
    simpa [isFresh, List.getElem?_eq_getElem inside] using fresh
  have positive : 0 < v.unvisited :=
    List.countP_pos_iff.mpr ⟨v.marks[id], List.getElem_mem inside, by simpa using other⟩
  have after : (v.visit id).unvisited = v.unvisited - 1 := by
    rw [unvisited, visit, List.countP_set inside, if_pos (by simpa using other), if_neg (by simp), Nat.add_zero]
    rfl
  omega

/-- Marks are left by this search and earlier ones, so none is from the future. -/
def Settled (v : VisitedSet) : Prop := ∀ mark ∈ v.marks, mark ≤ v.epoch

theorem settled_empty : Settled {} := fun _ member => absurd member (List.not_mem_nil)

theorem Settled.ensureCapacity {v : VisitedSet} (settled : v.Settled) (capacity : Nat) :
    (v.ensureCapacity capacity).Settled := by
  unfold VisitedSet.ensureCapacity
  split
  · intro mark member
    rcases List.mem_append.mp member with old | new
    · exact settled mark old
    · rw [(List.mem_replicate.mp new).2]
      exact UInt16.zero_le
  · exact settled

theorem length_ensureCapacity (v : VisitedSet) (capacity : Nat) :
    capacity ≤ (v.ensureCapacity capacity).marks.length := by
  unfold ensureCapacity
  split
  · simp only [List.length_append, List.length_replicate]
    omega
  · omega

theorem length_reset (v : VisitedSet) : v.reset.marks.length = v.marks.length := by
  unfold reset
  split
  · exact List.length_map _
  · rfl

theorem Settled.reset {v : VisitedSet} (settled : v.Settled) : v.reset.Settled := by
  unfold VisitedSet.reset
  split
  · intro mark member
    obtain ⟨_, _, rfl⟩ := List.mem_map.mp member
    exact UInt16.zero_le
  · next small =>
    intro mark member
    have below : mark.toNat ≤ v.epoch.toNat := UInt16.le_iff_toNat_le.mp (settled mark member)
    have room : v.epoch.toNat ≠ 0xFFFF := fun full => small (UInt16.toNat_inj.mp full)
    have size := v.epoch.toNat_lt
    rw [UInt16.le_iff_toNat_le, UInt16.toNat_add]
    simp only [UInt16.reduceToNat]
    omega

/-- After `reset` nothing counts as visited. -/
theorem Settled.isFresh_reset {v : VisitedSet} (settled : v.Settled) (id : Nat) : v.reset.isFresh id = true := by
  unfold VisitedSet.reset isFresh
  refine decide_eq_true ?_
  split
  · rw [List.getElem?_map]
    cases v.marks[id]? with
    | none => exact nofun
    | some mark =>
      intro same
      have zero : (0 : UInt16) = 1 := Option.some.inj same
      exact absurd zero (by decide)
  · next small =>
    intro found
    have below := UInt16.le_iff_toNat_le.mp (settled _ (List.mem_of_getElem? found))
    have room : v.epoch.toNat ≠ 0xFFFF := fun full => small (UInt16.toNat_inj.mp full)
    have size := v.epoch.toNat_lt
    rw [UInt16.toNat_add] at below
    simp only [UInt16.reduceToNat] at below
    omega

theorem Settled.visit {v : VisitedSet} (settled : v.Settled) (id : Nat) : (v.visit id).Settled := by
  intro mark member
  rcases List.mem_or_eq_of_mem_set member with old | rfl
  · exact settled mark old
  · exact UInt16.le_refl _

/-- A visited id stays visited and is the only one that changes. -/
theorem isFresh_visit {v : VisitedSet} {id other : Nat} (inside : id < v.marks.length) :
    (v.visit id).isFresh other = (decide (other ≠ id) && v.isFresh other) := by
  unfold isFresh visit
  simp only [List.getElem?_set]
  by_cases same : other = id
  · subst same
    simp [inside]
  · simp [same, Ne.symm same]

/-- What searches leave behind of a new set. -/
inductive Used : VisitedSet → Prop
  | new : Used {}
  | ensureCapacity {v : VisitedSet} (used : Used v) (capacity : Nat) : Used (v.ensureCapacity capacity)
  | reset {v : VisitedSet} (used : Used v) : Used v.reset
  | visit {v : VisitedSet} (used : Used v) (id : Nat) : Used (v.visit id)

theorem Used.settled {v : VisitedSet} (used : v.Used) : v.Settled := by
  induction used with
  | new => exact settled_empty
  | ensureCapacity _ capacity ih => exact ih.ensureCapacity capacity
  | reset _ ih => exact ih.reset
  | visit _ id ih => exact ih.visit id

/-- What a search context does with its set. -/
inductive Op where
  | ensureCapacity (capacity : Nat)
  | reset
  | visit (id : Nat)
  deriving DecidableEq, Repr

def perform (v : VisitedSet) : Op → VisitedSet
  | .ensureCapacity capacity => v.ensureCapacity capacity
  | .reset => v.reset
  | .visit id => v.visit id

/-- The set after a history of operations, the latest one first. -/
def after : List Op → VisitedSet
  | [] => {}
  | op :: earlier => (after earlier).perform op

/-- Whether an id has been visited since the last reset, or since the set is there. -/
def seen (id : Nat) : List Op → Bool
  | [] => false
  | .ensureCapacity _ :: earlier => seen id earlier
  | .reset :: _ => false
  | .visit other :: earlier => decide (id = other) || seen id earlier

/-- Every id was below the capacity when it was visited. -/
def InRange : List Op → Prop
  | [] => True
  | .visit id :: earlier => id < (after earlier).marks.length ∧ InRange earlier
  | _ :: earlier => InRange earlier

theorem visited_eq_not_isFresh (v : VisitedSet) (id : Nat) : v.visited id = !v.isFresh id := by
  rw [visited, isFresh, decide_not, Bool.not_not]

/-- Zero is never a live epoch. -/
theorem epoch_perform {v : VisitedSet} (live : v.epoch ≠ 0) (op : Op) : (v.perform op).epoch ≠ 0 := by
  cases op with
  | ensureCapacity capacity =>
    rw [perform, ensureCapacity]
    split <;> exact live
  | reset =>
    rw [perform, reset]
    split
    · show (1 : UInt16) ≠ 0
      decide
    next small =>
      have room : v.epoch.toNat ≠ 0xFFFF := fun full => small (UInt16.toNat_inj.mp full)
      have size := v.epoch.toNat_lt
      intro zero
      have value := congrArg UInt16.toNat zero
      rw [UInt16.toNat_add] at value
      simp only [UInt16.reduceToNat] at value
      omega
  | visit id => exact live

theorem epoch_after (history : List Op) : (after history).epoch ≠ 0 := by
  induction history with
  | nil =>
    show (1 : UInt16) ≠ 0
    decide
  | cons op earlier ih => exact epoch_perform ih op

theorem used_after (history : List Op) : Used (after history) := by
  induction history with
  | nil => exact .new
  | cons op earlier ih =>
    cases op with
    | ensureCapacity capacity => exact ih.ensureCapacity capacity
    | reset => exact ih.reset
    | visit id => exact ih.visit id

/-- New entries are not visited. -/
theorem visited_ensureCapacity {v : VisitedSet} (live : v.epoch ≠ 0) (capacity id : Nat) :
    (v.ensureCapacity capacity).visited id = v.visited id := by
  rw [ensureCapacity]
  split
  · simp only [visited]
    by_cases old : id < v.marks.length
    · rw [List.getElem?_append_left old]
    · rw [List.getElem?_append_right (by omega), List.getElem?_eq_none (by omega : v.marks.length ≤ id)]
      simp only [reduceCtorEq, decide_false, decide_eq_false_iff_not]
      intro found
      have zero := List.eq_of_mem_replicate (List.mem_of_getElem? found)
      exact live zero
  · rfl

theorem visited_after (history : List Op) (inRange : InRange history) (id : Nat) :
    (after history).visited id = seen id history := by
  induction history with
  | nil => rfl
  | cons op earlier ih =>
    cases op with
    | ensureCapacity capacity => exact (visited_ensureCapacity (epoch_after earlier) capacity id).trans (ih inRange)
    | reset =>
      rw [visited_eq_not_isFresh]
      exact congrArg not ((used_after earlier).settled.isFresh_reset id)
    | visit other =>
      obtain ⟨inside, before⟩ := inRange
      have step : ((after earlier).visit other).visited id =
          (decide (id = other) || (after earlier).visited id) := by
        rw [visited_eq_not_isFresh, isFresh_visit inside, visited_eq_not_isFresh, Bool.not_and,
          decide_not, Bool.not_not]
      exact step.trans (congrArg _ (ih before))

/-- After any operations, `visit` and `visited` answer for the visits since the last reset, however often
the epoch has wrapped in between. -/
theorem visited_set_is_exact (history : List Op) (inRange : InRange history) (id : Nat) :
    (after history).visited id = seen id history ∧ (after history).isFresh id = !seen id history := by
  have exact_ := visited_after history inRange id
  refine ⟨exact_, ?_⟩
  rw [← exact_, visited_eq_not_isFresh, Bool.not_not]

theorem visited_set_is_exact_grown :
    (after [.ensureCapacity 9, .visit 2, .reset, .visit 3, .ensureCapacity 4]).isFresh 2 =
      !seen 2 [.ensureCapacity 9, .visit 2, .reset, .visit 3, .ensureCapacity 4] :=
  (visited_set_is_exact [.ensureCapacity 9, .visit 2, .reset, .visit 3, .ensureCapacity 4]
    ⟨by decide, by decide, trivial⟩ 2).2

end VisitedSet
end VectorForge
