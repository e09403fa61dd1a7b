import VectorForge.Lib.Machine
import VectorForge.Lib.Replaced

/-! The pool of search contexts, as any number of searches use it. What is done while the mutex is held is one
step. -/

namespace VectorForge

/-- The contexts are known by their addresses. The back of `free_` comes first. -/
structure ContextPool where
  free : List Nat := []
  /-- `free_.capacity()`. -/
  capacity : Nat := 0
  created : Nat := 0
  deriving DecidableEq, Repr

namespace ContextPool

/-- The first section of `acquire`, which takes an idle context if there is one. -/
def take? (p : ContextPool) : Option (Nat × ContextPool) := match p.free with
  | [] => none
  | context :: free => some (context, { p with free })

/-- The second section, after which `free_` has room for `capacity` contexts. -/
def register (p : ContextPool) (capacity : Nat) : ContextPool := { p with capacity, created := p.created + 1 }

/-- `free_.push_back`, which allocates if there is no room. -/
def release (p : ContextPool) (context : Nat) : ContextPool :=
  { p with free := context :: p.free, capacity := max p.capacity (p.free.length + 1) }

/-- Where a search is. -/
inductive Place where
  | outside
  /-- It has found no idle context. -/
  | missed
  /-- It has made a context that is not counted yet. -/
  | made (context : Nat)
  | leased (context : Nat)
  deriving DecidableEq, Repr

namespace Place

def context? : Place → Option Nat
  | outside | missed => none
  | made context | leased context => some context

def isLeased : Place → Bool
  | leased _ => true
  | _ => false

/-- In `acquire`, after its first section. -/
def isCreating : Place → Bool
  | missed | made _ => true
  | _ => false

def isBusy (p : Place) : Bool := p.isLeased || p.isCreating

end Place

/-- Contexts of the searches. -/
def held (searches : List Place) : List Nat := searches.filterMap Place.context?

/-- With a record of how many searches have been at work at the same time. -/
structure State where
  pool : ContextPool := {}
  searches : List Place
  peak : Nat := 0
  deriving DecidableEq, Repr

def State.busy (s : State) : Nat := s.searches.countP Place.isBusy

/-- One search goes somewhere else. -/
def State.move (s : State) (i : Nat) (place : Place) (pool : ContextPool) : State where
  pool := pool
  searches := s.searches.set i place
  peak := max s.peak ((s.searches.set i place).countP Place.isBusy)

inductive Step : State → State → Prop where
  | take {s : State} {i context : Nat} {pool : ContextPool} (at_ : s.searches[i]? = some .outside)
      (idle : s.pool.take? = some (context, pool)) : Step s (s.move i (.leased context) pool)
  | miss {s : State} {i : Nat} (at_ : s.searches[i]? = some .outside) (none : s.pool.take? = none) :
      Step s (s.move i .missed s.pool)
  /-- `std::make_unique`. -/
  | make {s : State} {i context : Nat} (at_ : s.searches[i]? = some .missed)
      (fresh : context ∉ s.pool.free ++ held s.searches) : Step s (s.move i (.made context) s.pool)
  | makeFails {s : State} {i : Nat} (at_ : s.searches[i]? = some .missed) : Step s (s.move i .outside s.pool)
  | register {s : State} {i context capacity : Nat} (at_ : s.searches[i]? = some (.made context))
      (reserved : s.pool.created + 1 ≤ capacity ∧ s.pool.capacity ≤ capacity) :
      Step s (s.move i (.leased context) (s.pool.register capacity))
  /-- `reserve` throws, and the context is destroyed. -/
  | registerFails {s : State} {i context : Nat} (at_ : s.searches[i]? = some (.made context)) :
      Step s (s.move i .outside s.pool)
  | release {s : State} {i context : Nat} (at_ : s.searches[i]? = some (.leased context)) :
      Step s (s.move i .outside (s.pool.release context))

/-- A new pool and any number of searches. -/
def machine : Machine State where
  start s := ∃ count, s = { searches := List.replicate count .outside }
  Step := Step

section Counting
variable {l : List Place} {i : Nat} {old new : Place}

theorem held_set (at_ : l[i]? = some old) (new : Place) : ∃ rest, (held l).Perm (old.context?.toList ++ rest) ∧
    (held (l.set i new)).Perm (new.context?.toList ++ rest) := by
  obtain ⟨before, after, whole, replaced⟩ := Replaced.split at_ new
  have cut (p : Place) : held (before ++ p :: after) = held before ++ (p.context?.toList ++ held after) := by
    rw [held, List.filterMap_append, List.filterMap_cons]
    cases p.context? <;> rfl
  refine ⟨held before ++ held after, ?_, ?_⟩
  · rw [whole, cut]
    exact List.perm_append_comm_assoc _ _ _
  · rw [replaced, cut]
    exact List.perm_append_comm_assoc _ _ _

end Counting

/-- What holds between the steps. -/
structure Sound (s : State) : Prop where
  distinct : (s.pool.free ++ held s.searches).Nodup
  counted : s.pool.created = s.pool.free.length + s.searches.countP Place.isLeased
  room : s.pool.created ≤ s.pool.capacity
  /-- A context is only made when all of them are leased. -/
  needed : s.pool.created + s.searches.countP Place.isCreating ≤ s.peak
  busy : s.busy ≤ s.peak

section Steps
variable {s t : State} {i : Nat} {old new : Place} {pool : ContextPool}

theorem busy_eq (l : List Place) : l.countP Place.isBusy = l.countP Place.isLeased + l.countP Place.isCreating := by
  induction l with
  | nil => rfl
  | cons p l ih =>
    rw [List.countP_cons, List.countP_cons, List.countP_cons, ih]
    cases p <;> simp [Place.isBusy, Place.isLeased, Place.isCreating] <;> omega

/-- Contexts change hands between the pool and one search. -/
theorem Sound.move (sound : Sound s) (at_ : s.searches[i]? = some old) (new : Place) (pool : ContextPool)
    (swapped : ∀ rest, (held s.searches).Perm (old.context?.toList ++ rest) →
      (s.pool.free ++ (old.context?.toList ++ rest)).Nodup → (pool.free ++ (new.context?.toList ++ rest)).Nodup)
    (counted : pool.created + s.pool.free.length + old.isLeased.toNat = s.pool.created +
      pool.free.length + new.isLeased.toNat)
    (room : pool.created ≤ pool.capacity)
    (needed : pool.created + new.isCreating.toNat ≤ s.pool.created + old.isCreating.toNat ∨ s.pool.free = [] ∧
      pool = s.pool ∧ old.isLeased = false) :
    Sound (s.move i new pool) := by
  have leased := Replaced.countP_set Place.isLeased at_ new
  have creating := Replaced.countP_set Place.isCreating at_ new
  have busy := busy_eq (s.searches.set i new)
  have one (b : Bool) : (if b = true then 1 else 0) = b.toNat := by cases b <;> rfl
  rw [one, one] at leased creating
  refine ⟨?_, ?_, room, ?_, Nat.le_max_right _ _⟩
  · obtain ⟨rest, before, after⟩ := held_set at_ new
    exact ((after.append_left _).nodup_iff).mpr
      (swapped rest before ((before.append_left _).nodup_iff.mp sound.distinct))
  · change pool.created = pool.free.length + (s.searches.set i new).countP Place.isLeased
    have counts := sound.counted
    omega
  · change pool.created + (s.searches.set i new).countP Place.isCreating ≤ max s.peak
      ((s.searches.set i new).countP Place.isBusy)
    rcases needed with fewer | ⟨empty, rfl, unleased⟩
    · have needed := sound.needed
      omega
    · have counts := sound.counted
      rw [empty, List.length_nil] at counts
      rw [unleased] at leased
      simp only [Bool.toNat_false] at leased
      omega

theorem Sound.step (step : Step s t) (sound : Sound s) : Sound t := by
  cases step with
  | @take i context pool at_ idle =>
    unfold take? at idle
    split at idle
    next => cases idle
    next first free known =>
      cases idle
      refine sound.move at_ _ _ (fun rest _ distinct => ?_) ?_ sound.room (.inl (Nat.le_refl _))
      · rw [known] at distinct
        exact (List.perm_middle.nodup_iff).mpr distinct
      · simp [known, Place.isLeased]
        omega
  | @miss i at_ none =>
    have empty : s.pool.free = [] := by
      unfold take? at none
      split at none
      next known => exact known
      next => cases none
    exact sound.move at_ _ _ (fun _ _ distinct => distinct) rfl sound.room (.inr ⟨empty, rfl, rfl⟩)
  | @make i context at_ fresh =>
    refine sound.move at_ _ _ (fun rest others distinct => ?_) rfl sound.room (.inl (Nat.le_refl _))
    have apart : context ∉ s.pool.free ++ rest := fun member => fresh ((others.append_left _).mem_iff.mpr member)
    exact (List.perm_middle.nodup_iff).mpr (List.nodup_cons.mpr ⟨apart, distinct⟩)
  | @makeFails i at_ =>
    exact sound.move at_ _ _ (fun _ _ distinct => distinct) rfl sound.room (.inl (Nat.le_add_right _ 1))
  | @register i context capacity at_ reserved =>
    exact sound.move at_ _ _ (fun _ _ distinct => distinct) (by simp [ContextPool.register, Place.isLeased]; omega)
      reserved.1 (.inl (Nat.le_refl _))
  | @registerFails i context at_ =>
    refine sound.move at_ _ _ (fun rest _ distinct => ?_) rfl sound.room (.inl (Nat.le_add_right _ 1))
    exact distinct.sublist ((List.sublist_cons_self _ _).append_left _)
  | @release i context at_ =>
    refine sound.move at_ _ _ (fun rest _ distinct => ?_) ?_ (Nat.le_trans sound.room (Nat.le_max_left _ _))
      (.inl (Nat.le_refl _))
    · exact (List.perm_middle.nodup_iff).mp distinct
    · simp [ContextPool.release, Place.isLeased]
      omega

theorem sound_of_reachable (reachable : machine.Reachable s) : Sound s := by
  refine reachable.invariant ?_ Sound.step
  rintro _ ⟨count, rfl⟩
  have none : held (List.replicate count .outside) = [] := List.filterMap_replicate_of_none rfl
  have nobody (p : Place → Bool) (outside : p .outside = false) :
      (List.replicate count Place.outside).countP p = 0 :=
    List.countP_eq_zero.mpr fun q member => by rw [List.eq_of_mem_replicate member, outside]; nofun
  refine ⟨?_, ?_, Nat.le_refl _, ?_, ?_⟩
  · rw [List.nil_append, none]
    exact List.nodup_nil
  · change 0 = 0 + (List.replicate count Place.outside).countP Place.isLeased
    rw [nobody _ rfl]
  · exact Nat.le_of_eq (by rw [nobody Place.isCreating rfl])
  · exact Nat.le_of_eq (nobody Place.isBusy rfl)

end Steps

/-- A context is leased to one search, a search that ends does not allocate, and there are never more contexts
than searches that have been at work at the same time. -/
theorem contexts_are_exclusive_and_bounded {s : State} (reachable : machine.Reachable s) :
    (∀ (i j context : Nat), s.searches[i]? = some (.leased context) →
      s.searches[j]? = some (.leased context) → i = j) ∧
    (∀ (i context : Nat), s.searches[i]? = some (.leased context) → context ∉ s.pool.free ∧
      (s.pool.release context).capacity = s.pool.capacity) ∧
    s.pool.free.Nodup ∧ s.pool.created = s.pool.free.length + s.searches.countP Place.isLeased ∧
    s.pool.created ≤ s.peak := by
  have sound := sound_of_reachable reachable
  obtain ⟨idle, inUse, apart⟩ := List.nodup_append.mp sound.distinct
  have needed := sound.needed
  refine ⟨fun i j context left right => ?_, fun i context at_ => ⟨fun member => ?_, Nat.max_eq_left ?_⟩, idle,
    sound.counted, by omega⟩
  · have pairs := List.pairwise_iff_getElem.mp (List.pairwise_filterMap.mp inUse)
    obtain ⟨insideLeft, left⟩ := List.getElem?_eq_some_iff.mp left
    obtain ⟨insideRight, right⟩ := List.getElem?_eq_some_iff.mp right
    rcases Nat.lt_trichotomy i j with before | same | behind
    · exact absurd rfl (pairs i j insideLeft insideRight before context (by rw [left]; rfl) context
        (by rw [right]; rfl))
    · exact same
    · exact absurd rfl (pairs j i insideRight insideLeft behind context (by rw [right]; rfl) context
        (by rw [left]; rfl))
  · have used : context ∈ held s.searches := List.mem_filterMap.mpr ⟨_, List.mem_of_getElem? at_, rfl⟩
    exact apart context member context used rfl
  · -- the leased context is one of those that there is room for
    have some : 0 < s.searches.countP Place.isLeased := List.countP_pos_iff.mpr ⟨_, List.mem_of_getElem? at_, rfl⟩
    have counted := sound.counted
    have room := sound.room
    omega

/-- Two searches that overlap make two contexts, and the next one takes the one that was released. -/
theorem contexts_are_exclusive_and_bounded_overlap : ∃ s, machine.Reachable s ∧
    s.searches = [.outside, .leased 11, .leased 10] ∧
    s.pool.created ≤ s.peak ∧ s.peak = 2 := by
  have s₀ : machine.Reachable { searches := [.outside, .outside, .outside] } := ⟨_, ⟨3, rfl⟩, .refl⟩
  have s₁ : machine.Reachable ⟨{}, [.missed, .outside, .outside], 1⟩ := s₀.step (.miss (i := 0) rfl rfl)
  have s₂ : machine.Reachable ⟨{}, [.missed, .missed, .outside], 2⟩ := s₁.step (.miss (i := 1) rfl rfl)
  have s₃ : machine.Reachable ⟨{}, [.made 10, .missed, .outside], 2⟩ := s₂.step (.make (i := 0) rfl (by decide))
  have s₄ : machine.Reachable ⟨{}, [.made 10, .made 11, .outside], 2⟩ := s₃.step (.make (i := 1) rfl (by decide))
  have s₅ : machine.Reachable ⟨⟨[], 1, 1⟩, [.leased 10, .made 11, .outside], 2⟩ :=
    s₄.step (.register (i := 0) rfl (by decide))
  have s₆ : machine.Reachable ⟨⟨[], 2, 2⟩, [.leased 10, .leased 11, .outside], 2⟩ :=
    s₅.step (.register (i := 1) rfl (by decide))
  have s₇ : machine.Reachable ⟨⟨[10], 2, 2⟩, [.outside, .leased 11, .outside], 2⟩ := s₆.step (.release (i := 0) rfl)
  have s₈ : machine.Reachable ⟨⟨[], 2, 2⟩, [.outside, .leased 11, .leased 10], 2⟩ :=
    s₇.step (.take (i := 2) rfl rfl)
  exact ⟨_, s₈, rfl, (contexts_are_exclusive_and_bounded s₈).2.2.2.2, rfl⟩

end ContextPool
end VectorForge
