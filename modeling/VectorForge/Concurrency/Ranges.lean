import VectorForge.Concurrency.ThreadPool

/-! The ranges of `parallel_for`, in the 64-bit words that `run_ranges` computes them with. -/

namespace VectorForge
namespace ThreadPool

/-- The arguments of `run_ranges`. -/
structure RangeArgs where
  start : UInt64
  stop : UInt64
  grain : UInt64
  deriving DecidableEq, Repr

namespace RangeArgs
variable (a : RangeArgs)

def count : UInt64 := a.stop - a.start

def step : UInt64 := max a.grain 1

def chunks : UInt64 := a.count / a.step + if a.count % a.step ≠ 0 then 1 else 0

def lo (chunk : UInt64) : UInt64 := a.start + chunk * a.step

def hi (chunk : UInt64) : UInt64 := min a.stop (a.lo chunk + a.step)

/-- What is passed to the body from a thread that is not one of a pool's. -/
def ranges : List (UInt64 × UInt64) :=
  if a.stop ≤ a.start then []
  else if a.chunks = 1 then [(a.start, a.stop)]
  else (List.range a.chunks.toNat).map fun chunk => (a.lo (UInt64.ofNat chunk), a.hi (UInt64.ofNat chunk))

/-- The ranges cut `[start, stop)` into pieces of at most the grain. -/
structure Partitions : Prop where
  nonempty : ∀ r ∈ a.ranges, r.1 < r.2
  disjoint : a.ranges.Pairwise fun r s => ∀ x, ¬ ((r.1 ≤ x ∧ x < r.2) ∧ s.1 ≤ x ∧ x < s.2)
  short : ∀ r ∈ a.ranges, r.2 - r.1 ≤ max a.grain 1
  covers : ∀ x, (∃ r ∈ a.ranges, r.1 ≤ x ∧ x < r.2) ↔ a.start ≤ x ∧ x < a.stop

/-- The number of indices, rounded up to whole grains. -/
def rounded : Nat :=
  (a.stop.toNat - a.start.toNat + max a.grain.toNat 1 - 1) / max a.grain.toNat 1 * max a.grain.toNat 1

/-- One chunk is enough, or the end of the last one is a 64-bit word. -/
def Fits : Prop := a.stop.toNat ≤ a.start.toNat + max a.grain.toNat 1 ∨ a.start.toNat + a.rounded < 2 ^ 64

section Words
variable {a} {chunk : UInt64}

theorem step_toNat : a.step.toNat = max a.grain.toNat 1 := by
  have above : a.grain ≤ 1 ↔ a.grain.toNat ≤ 1 := UInt64.le_iff_toNat_le
  rw [step, show max a.grain 1 = if a.grain ≤ 1 then 1 else a.grain from rfl]
  split
  next low => rw [Nat.max_eq_right (above.mp low)]; rfl
  next high => rw [Nat.max_eq_left (by rw [above] at high; omega)]

theorem step_pos : 0 < a.step.toNat := by
  rw [step_toNat]
  omega

theorem count_toNat (some : a.start < a.stop) : a.count.toNat = a.stop.toNat - a.start.toNat := by
  rw [count, UInt64.toNat_sub_of_le _ _
    (UInt64.le_iff_toNat_le.mpr (Nat.le_of_lt (UInt64.lt_iff_toNat_lt.mp some)))]

/-- Rounding up loses nothing and adds less than one grain. -/
theorem quotient_bounds (n : Nat) {g : Nat} (pos : 0 < g) : n ≤ (n + g - 1) / g * g ∧
    (n + g - 1) / g * g < n + g := by
  have whole := Nat.div_add_mod (n + g - 1) g
  have rest := Nat.mod_lt (n + g - 1) pos
  rw [Nat.mul_comm] at whole
  omega

theorem quotient_eq (n : Nat) {g : Nat} (pos : 0 < g) : n / g + (if n % g ≠ 0 then 1 else 0) = (n + g - 1) / g := by
  have whole := Nat.div_add_mod n g
  have rest := Nat.mod_lt n pos
  rw [eq_comm]
  split
  next some =>
    refine Nat.div_eq_of_lt_le ?_ ?_
    · rw [Nat.succ_mul, Nat.mul_comm]
      omega
    · rw [Nat.succ_mul, Nat.succ_mul, Nat.mul_comm]
      omega
  next none =>
    rw [ne_eq, not_not] at none
    refine Nat.div_eq_of_lt_le ?_ ?_
    · rw [Nat.add_zero, Nat.mul_comm]
      omega
    · rw [Nat.add_zero, Nat.succ_mul, Nat.mul_comm]
      omega

theorem chunks_toNat (some : a.start < a.stop) :
    a.chunks.toNat = (a.stop.toNat - a.start.toNat + a.step.toNat - 1) / a.step.toNat := by
  have pos := a.step_pos
  have zero : a.count % a.step = 0 ↔ a.count.toNat % a.step.toNat = 0 := by
    rw [← UInt64.toNat_inj, UInt64.toNat_mod]
    rfl
  have small := quotient_eq a.count.toNat pos
  have below : (a.count.toNat + a.step.toNat - 1) / a.step.toNat ≤ a.count.toNat := by
    have nonzero : 0 < a.count.toNat := by
      rw [count_toNat some]
      have := UInt64.lt_iff_toNat_lt.mp some
      omega
    refine Nat.le_of_lt_succ ((Nat.div_lt_iff_lt_mul pos).mpr ?_)
    rw [Nat.succ_mul]
    have grows := Nat.le_mul_of_pos_right a.count.toNat pos
    omega
  have word := a.count.toNat_lt
  rw [← count_toNat some, ← small]
  rw [← small] at below
  rw [chunks, UInt64.toNat_add, UInt64.toNat_div]
  split at below
  next some =>
    rw [if_pos (fun same => some (zero.mp same)), if_pos some]
    exact Nat.mod_eq_of_lt (by have : (1 : UInt64).toNat = 1 := rfl; omega)
  next none =>
    rw [if_neg (fun other => none fun same => other (zero.mpr same)), if_neg none]
    exact Nat.mod_eq_of_lt (by have : (0 : UInt64).toNat = 0 := rfl; omega)

theorem rounded_eq (some : a.start < a.stop) : a.rounded = a.chunks.toNat * a.step.toNat := by
  rw [rounded, chunks_toNat some, step_toNat]

/-- The lower bounds stay inside, whatever the arguments are. -/
theorem lo_toNat (some : a.start < a.stop) {c : Nat} (inside : c < a.chunks.toNat) :
    (a.lo (UInt64.ofNat c)).toNat = a.start.toNat + c * a.step.toNat ∧
    (a.lo (UInt64.ofNat c)).toNat < a.stop.toNat := by
  have order := UInt64.lt_iff_toNat_lt.mp some
  have bounds := (quotient_bounds (a.stop.toNat - a.start.toNat) a.step_pos).2
  rw [← chunks_toNat some] at bounds
  have next := Nat.mul_le_mul_right a.step.toNat (Nat.succ_le_of_lt inside)
  rw [Nat.succ_mul] at next
  have word := a.stop.toNat_lt
  have small : (UInt64.ofNat c).toNat = c := UInt64.toNat_ofNat_of_lt' (Nat.lt_trans inside a.chunks.toNat_lt)
  have lo : (a.lo (UInt64.ofNat c)).toNat = a.start.toNat + c * a.step.toNat := by
    rw [RangeArgs.lo, UInt64.toNat_add, UInt64.toNat_mul, small, Nat.add_mod_mod]
    exact Nat.mod_eq_of_lt (by omega)
  omega

theorem hi_toNat (chunk : UInt64) :
    (a.hi chunk).toNat = min a.stop.toNat (((a.lo chunk).toNat + a.step.toNat) % 2 ^ 64) := by
  have below : a.stop ≤ a.lo chunk + a.step ↔ a.stop.toNat ≤ ((a.lo chunk).toNat + a.step.toNat) % 2 ^ 64 := by
    rw [UInt64.le_iff_toNat_le, UInt64.toNat_add]
  rw [hi, show min a.stop (a.lo chunk + a.step) = if a.stop ≤ a.lo chunk + a.step then a.stop else
    a.lo chunk + a.step from rfl]
  split
  next low => rw [Nat.min_eq_left (below.mp low)]
  next high => rw [Nat.min_eq_right (by rw [below] at high; omega), UInt64.toNat_add]

/-- The words are the numbers that the chunks of a call are taken to have. -/
theorem bounds_of_call {σ E : Type} {call : Call σ E} (start : call.start = a.start.toNat)
    (stop : call.stop = a.stop.toNat)
    (grain : call.grain = a.grain.toNat) (some : a.start < a.stop) : call.chunks = a.chunks.toNat ∧
    ∀ c < call.chunks, call.lo c = (a.lo (UInt64.ofNat c)).toNat ∧ call.hi c = (a.hi (UInt64.ofNat c)).toNat := by
  have step : call.step = a.step.toNat := by rw [Call.step, grain, step_toNat]
  have chunks : call.chunks = a.chunks.toNat := by
    rw [chunks_toNat some, Call.chunks, Call.count, step, start, stop, quotient_eq _ a.step_pos]
  refine ⟨chunks, fun c inside => ?_⟩
  have lo : call.lo c = (a.lo (UInt64.ofNat c)).toNat := by
    rw [Call.lo, start, step, (lo_toNat some (chunks ▸ inside)).1]
  exact ⟨lo, by rw [Call.hi, lo, stop, step, hi_toNat]⟩

theorem chunks_eq_one (some : a.start < a.stop) : a.chunks = 1 ↔ a.stop.toNat ≤ a.start.toNat + a.step.toNat := by
  have order := UInt64.lt_iff_toNat_lt.mp some
  have pos := a.step_pos
  rw [← UInt64.toNat_inj, chunks_toNat some, show (1 : UInt64).toNat = 1 from rfl, Nat.div_eq_iff pos]
  omega

/-- Without a wrap, every chunk ends where the next one begins or at the end. -/
theorem hi_of_fits (some : a.start < a.stop) (fits : a.start.toNat + a.rounded < 2 ^ 64) {c : Nat}
    (inside : c < a.chunks.toNat) :
    (a.hi (UInt64.ofNat c)).toNat = min a.stop.toNat (a.start.toNat + (c + 1) * a.step.toNat) := by
  rw [rounded_eq some] at fits
  have next := Nat.mul_le_mul_right a.step.toNat (Nat.succ_le_of_lt inside)
  rw [hi_toNat, (lo_toNat some inside).1, Nat.add_assoc, ← Nat.succ_mul]
  rw [Nat.mod_eq_of_lt (by omega)]

end Words

section Partition
variable {a}

theorem partitions_of_one (some : a.start < a.stop) (one : a.chunks = 1) : a.Partitions := by
  have ranges : a.ranges = [(a.start, a.stop)] := by
    have order := UInt64.lt_iff_toNat_lt.mp some
    rw [RangeArgs.ranges, if_neg (by rw [UInt64.le_iff_toNat_le]; omega), if_pos one]
  refine ⟨?_, ?_, ?_, fun x => ?_⟩ <;> rw [ranges]
  · exact fun r member => (List.mem_singleton.mp member) ▸ some
  · exact List.pairwise_singleton _ _
  · intro r member
    cases List.mem_singleton.mp member
    have fits := (chunks_eq_one some).mp one
    change a.count ≤ a.step
    rw [UInt64.le_iff_toNat_le, count_toNat some]
    omega
  · constructor
    · rintro ⟨r, member, within⟩
      cases List.mem_singleton.mp member
      exact within
    · exact fun within => ⟨_, List.mem_singleton_self _, within⟩

theorem ranges_of_many (some : a.start < a.stop) (many : a.chunks ≠ 1) : a.ranges =
    (List.range a.chunks.toNat).map fun chunk => (a.lo (UInt64.ofNat chunk), a.hi (UInt64.ofNat chunk)) := by
  have order := UInt64.lt_iff_toNat_lt.mp some
  rw [RangeArgs.ranges, if_neg (by rw [UInt64.le_iff_toNat_le]; omega), if_neg many]

theorem partitions_of_fits (some : a.start < a.stop) (many : a.chunks ≠ 1)
    (fits : a.start.toNat + a.rounded < 2 ^ 64) : a.Partitions := by
  have order := UInt64.lt_iff_toNat_lt.mp some
  have pos := a.step_pos
  have member_iff {r : UInt64 × UInt64} : r ∈ a.ranges ↔
      ∃ c < a.chunks.toNat, (a.lo (UInt64.ofNat c), a.hi (UInt64.ofNat c)) = r := by
    rw [ranges_of_many some many, List.mem_map]
    exact ⟨fun ⟨c, inside, same⟩ => ⟨c, List.mem_range.mp inside, same⟩,
      fun ⟨c, inside, same⟩ => ⟨c, List.mem_range.mpr inside, same⟩⟩
  refine ⟨fun r member => ?_, ?_, fun r member => ?_, fun x => ?_⟩
  · obtain ⟨c, inside, rfl⟩ := member_iff.mp member
    obtain ⟨lo, below⟩ := lo_toNat some inside
    rw [UInt64.lt_iff_toNat_lt, hi_of_fits some fits inside, Nat.succ_mul]
    dsimp only
    omega
  · rw [ranges_of_many some many, List.pairwise_map]
    refine List.pairwise_lt_range.imp_of_mem fun {c d} left right before x => ?_
    rw [List.mem_range] at left right
    rintro ⟨⟨-, above⟩, below, -⟩
    rw [UInt64.lt_iff_toNat_lt, hi_of_fits some fits left] at above
    rw [UInt64.le_iff_toNat_le, (lo_toNat some right).1] at below
    have apart := Nat.mul_le_mul_right a.step.toNat (Nat.succ_le_of_lt before)
    rw [Nat.succ_eq_add_one] at apart
    omega
  · obtain ⟨c, inside, rfl⟩ := member_iff.mp member
    obtain ⟨lo, below⟩ := lo_toNat some inside
    have hi := hi_of_fits some fits inside
    rw [Nat.succ_mul] at hi
    change a.hi (UInt64.ofNat c) - a.lo (UInt64.ofNat c) ≤ a.step
    rw [UInt64.le_iff_toNat_le, UInt64.toNat_sub_of_le _ _ (by rw [UInt64.le_iff_toNat_le]; omega)]
    omega
  · constructor
    · rintro ⟨r, member, from_, to_⟩
      obtain ⟨c, inside, rfl⟩ := member_iff.mp member
      rw [UInt64.le_iff_toNat_le, (lo_toNat some inside).1] at from_
      rw [UInt64.lt_iff_toNat_lt, hi_of_fits some fits inside] at to_
      rw [UInt64.le_iff_toNat_le, UInt64.lt_iff_toNat_lt]
      omega
    · rintro ⟨from_, to_⟩
      rw [UInt64.le_iff_toNat_le] at from_
      rw [UInt64.lt_iff_toNat_lt] at to_
      -- The chunk of an index is its distance from the start in grains.
      have whole := Nat.div_add_mod (x.toNat - a.start.toNat) a.step.toNat
      have rest := Nat.mod_lt (x.toNat - a.start.toNat) pos
      rw [Nat.mul_comm] at whole
      have all := (quotient_bounds (a.stop.toNat - a.start.toNat) pos).1
      rw [← chunks_toNat some] at all
      have inside : (x.toNat - a.start.toNat) / a.step.toNat < a.chunks.toNat := by
        refine Nat.lt_of_mul_lt_mul_right (?_ : _ * a.step.toNat < _ * a.step.toNat)
        omega
      refine ⟨_, member_iff.mpr ⟨_, inside, rfl⟩, ?_, ?_⟩
      · rw [UInt64.le_iff_toNat_le, (lo_toNat some inside).1]
        omega
      · rw [UInt64.lt_iff_toNat_lt, hi_of_fits some fits inside, Nat.succ_mul]
        omega

/-- When the end of the last chunk wraps around, that chunk is empty. -/
theorem last_wraps (some : a.start < a.stop) (many : a.chunks ≠ 1) (wraps : 2 ^ 64 ≤ a.start.toNat + a.rounded) :
    ∃ r ∈ a.ranges, ¬ r.1 < r.2 := by
  have order := UInt64.lt_iff_toNat_lt.mp some
  have word := a.step.toNat_lt
  have stop := a.stop.toNat_lt
  rw [rounded_eq some] at wraps
  have nonzero : a.chunks.toNat ≠ 0 := by
    intro zero
    rw [zero] at wraps
    omega
  have inside : a.chunks.toNat - 1 < a.chunks.toNat := by omega
  have last : (a.chunks.toNat - 1) * a.step.toNat + a.step.toNat = a.chunks.toNat * a.step.toNat := by
    rw [← Nat.succ_mul]
    congr 1
    omega
  obtain ⟨lo, below⟩ := lo_toNat some inside
  refine ⟨(a.lo (UInt64.ofNat (a.chunks.toNat - 1)), a.hi (UInt64.ofNat (a.chunks.toNat - 1))), ?_, ?_⟩
  · rw [ranges_of_many some many]
    exact List.mem_map.mpr ⟨_, List.mem_range.mpr inside, rfl⟩
  · rw [UInt64.lt_iff_toNat_lt, hi_toNat]
    have wrapped : ((a.lo (UInt64.ofNat (a.chunks.toNat - 1))).toNat + a.step.toNat) % 2 ^ 64 =
        (a.lo (UInt64.ofNat (a.chunks.toNat - 1))).toNat + a.step.toNat - 2 ^ 64 := by
      rw [Nat.mod_eq_sub_mod (by omega)]
      exact Nat.mod_eq_of_lt (by omega)
    rw [wrapped]
    dsimp only
    omega

end Partition

/-- The ranges are a partition exactly if one chunk is enough or the last chunk does not end beyond the 64-bit
words. -/
theorem ranges_partition_iff (a : RangeArgs) : a.Partitions ↔ a.Fits := by
  rw [Fits, ← step_toNat]
  by_cases none : a.stop ≤ a.start
  · have empty : a.ranges = [] := by rw [ranges, if_pos none]
    have order := UInt64.le_iff_toNat_le.mp none
    refine iff_of_true ⟨?_, ?_, ?_, fun x => ?_⟩ (.inl (by omega))
    · exact fun r member => (by rw [empty] at member; cases member)
    · exact empty ▸ .nil
    · exact fun r member => (by rw [empty] at member; cases member)
    · rw [empty, UInt64.le_iff_toNat_le, UInt64.lt_iff_toNat_lt]
      exact iff_of_false (fun ⟨_, member, _⟩ => (by cases member)) (by omega)
  · have some : a.start < a.stop := by
      rw [UInt64.le_iff_toNat_le] at none
      exact UInt64.lt_iff_toNat_lt.mpr (by omega)
    rw [← chunks_eq_one some]
    by_cases one : a.chunks = 1
    · exact iff_of_true (partitions_of_one some one) (.inl one)
    · constructor
      · intro partitions
        by_contra wraps
        rw [not_or, Nat.not_lt] at wraps
        obtain ⟨r, member, empty⟩ := last_wraps some one wraps.2
        exact empty (partitions.nonempty r member)
      · rintro (same | fits)
        · exact absurd same one
        · exact partitions_of_fits some one fits

/-- Two halves of all words: the end of the second one wraps around. -/
theorem halves_lose_the_second : ¬ ∀ a : RangeArgs, a.Partitions := by
  intro all
  have ranges : RangeArgs.ranges ⟨0, 0xFFFFFFFFFFFFFFFF, 0x8000000000000000⟩ =
      [(0, 0x8000000000000000), (0x8000000000000000, 0)] := by decide
  have second := (all ⟨0, 0xFFFFFFFFFFFFFFFF, 0x8000000000000000⟩).nonempty (0x8000000000000000, 0)
    (by rw [ranges]; simp)
  exact absurd second (by decide)

end RangeArgs
end ThreadPool
end VectorForge
