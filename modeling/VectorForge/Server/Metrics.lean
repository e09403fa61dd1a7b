import Mathlib

/-! Counters and latency histograms of the server, per route. -/

namespace VectorForge.Server

def kLatencyBucketsSeconds : List Rat :=
  [5 / 100000, 1 / 10000, 25 / 100000, 5 / 10000, 1 / 1000, 25 / 10000, 5 / 1000, 1 / 100, 25 / 1000, 5 / 100,
    1 / 10, 25 / 100, 5 / 10, 1,
    25 / 10, 5, 10]

/-- The last bucket has no bound. -/
structure LatencyHistogram where
  buckets : Nat → Nat := fun _ => 0
  count : Nat := 0

namespace LatencyHistogram

/-- `std::lower_bound`: the first bound that is not smaller. -/
def bucketOf (seconds : Rat) : Nat := (kLatencyBucketsSeconds.takeWhile (· < seconds)).length

/-- The first of the additions of `observe`. -/
def addToBucket (h : LatencyHistogram) (seconds : Rat) : LatencyHistogram :=
  { h with buckets := fun b => if b = bucketOf seconds then h.buckets b + 1 else h.buckets b }

def addToCount (h : LatencyHistogram) : LatencyHistogram := { h with count := h.count + 1 }

def cumulative (h : LatencyHistogram) : Nat → Nat
  | 0 => h.buckets 0
  | b + 1 => h.cumulative b + h.buckets (b + 1)

end LatencyHistogram

structure PerRoute where
  /-- 1xx to 5xx. -/
  byClass : Nat → Nat := fun _ => 0
  latency : LatencyHistogram := {}

/-- The index of a status in `by_class`. -/
def statusClass (status : Nat) : Nat := min (max (status / 100) 1) 5 - 1

def PerRoute.addToClass (r : PerRoute) (status : Nat) : PerRoute :=
  { r with byClass := fun k => if k = statusClass status then r.byClass k + 1 else r.byClass k }

/-- `Metrics::observe` adds one to three counters of a route, one after the other. -/
structure Metrics where
  perRoute : Nat → PerRoute := fun _ => {}

def Metrics.update (m : Metrics) (route : Nat) (f : PerRoute → PerRoute) : Metrics where
  perRoute r := if r = route then f (m.perRoute r) else m.perRoute r

section Buckets
variable {α : Type} [LinearOrder α] {bounds : List α} {x : α} {b : Nat}

theorem lowerBound_le_iff : ∀ {bounds : List α} {b : Nat} {bound : α}, bounds.Pairwise (· < ·) →
    bounds[b]? = some bound →
    ((bounds.takeWhile (· < x)).length ≤ b ↔ x ≤ bound)
  | [], b, bound, _, at_ => by cases at_
  | first :: bounds, 0, bound, _, at_ => by
    cases at_
    rw [List.takeWhile_cons]
    by_cases less : first < x
    · rw [if_pos (decide_eq_true less)]
      exact ⟨fun short => (by cases short), fun more => absurd less (not_lt.mpr more)⟩
    · rw [if_neg (by rw [decide_eq_true_eq]; exact less)]
      exact ⟨fun _ => not_lt.mp less, fun _ => Nat.le_refl 0⟩
  | first :: bounds, b + 1, bound, sorted, at_ => by
    obtain ⟨before, sorted⟩ := List.pairwise_cons.mp sorted
    rw [List.getElem?_cons_succ] at at_
    rw [List.takeWhile_cons]
    by_cases less : first < x
    · rw [if_pos (decide_eq_true less), List.length_cons, Nat.succ_le_succ_iff]
      exact lowerBound_le_iff sorted at_
    · rw [if_neg (by rw [decide_eq_true_eq]; exact less)]
      exact ⟨fun _ => (not_lt.mp less).trans (before bound (List.mem_of_getElem? at_)).le, fun _ => Nat.zero_le _⟩

/-- The bounds grow. -/
theorem sorted_kLatencyBucketsSeconds : kLatencyBucketsSeconds.Pairwise (· < ·) := by decide +kernel

theorem bucketOf_le_iff {seconds bound : Rat} (at_ : kLatencyBucketsSeconds[b]? = some bound) :
    LatencyHistogram.bucketOf seconds ≤ b ↔ seconds ≤ bound :=
  lowerBound_le_iff sorted_kLatencyBucketsSeconds at_

theorem bucketOf_le (seconds : Rat) : LatencyHistogram.bucketOf seconds ≤ kLatencyBucketsSeconds.length :=
  (List.takeWhile_sublist _).length_le

end Buckets

section Cumulative
variable {α : Type} {h : LatencyHistogram} {l : List α} {bucket : α → Option Nat}

theorem countP_le_succ (bucket : α → Option Nat) (b : Nat) (l : List α) :
    l.countP (fun x => (bucket x).any (· ≤ b + 1)) =
    l.countP (fun x => (bucket x).any (· ≤ b)) + l.countP (fun x => bucket x == some (b + 1)) := by
  induction l with
  | nil => rfl
  | cons x l ih =>
    rw [List.countP_cons, List.countP_cons, List.countP_cons, ih]
    cases bucket x with
    | none => rfl
    | some k =>
      simp only [Option.any_some, decide_eq_true_eq, Option.some_beq_some, beq_iff_eq]
      split <;> split <;> split <;> omega

/-- If the buckets count what falls into them, the cumulative ones count what falls into them or into one before. -/
theorem cumulative_eq (counted : ∀ b, h.buckets b = l.countP fun x => bucket x == some b) : ∀ b,
    h.cumulative b = l.countP fun x => (bucket x).any (· ≤ b)
  | 0 => by
    rw [LatencyHistogram.cumulative, counted]
    refine List.countP_congr fun x _ => ?_
    cases bucket x with
    | none => rfl
    | some k => simp
  | b + 1 => by rw [LatencyHistogram.cumulative, cumulative_eq counted b, counted, countP_le_succ]

end Cumulative
end VectorForge.Server
