import VectorForge.Simd.Kernels

/-! What the kernels compute where nothing is rounded. -/

namespace VectorForge.Simd
open Finset

section Exact
variable {R : Type} [CommRing R] {op : Op} {x y : Nat → R} {dim : Nat}

/-- Arithmetic without rounding. -/
def unrounded (R : Type) [CommRing R] : Arithmetic R where
  zero := 0
  add := (· + ·)
  sub := (· - ·)
  mul := (· * ·)
  fmadd := fun x y z => x * y + z

/-- What two components contribute. -/
def Op.term (op : Op) (x y : R) : R :=
  match op with
  | .dot => x * y
  | .l2 => (x - y) ^ 2

theorem fused_exact (op : Op) (acc x y : R) : op.fused (unrounded R) acc x y = acc + op.term x y := by
  cases op <;> (simp only [Op.fused, Op.term, unrounded]; ring)

theorem plain_exact (op : Op) (sum x y : R) : op.plain (unrounded R) sum x y = sum + op.term x y := by
  cases op with
  | dot => rfl
  | l2 =>
    simp only [Op.plain, Op.term, unrounded]
    ring

theorem term_zero (op : Op) : op.term (0 : R) 0 = 0 := by
  cases op <;> (simp only [Op.term]; ring)

theorem horizontalSum_exact (v : M256 R) : horizontalSum (unrounded R) v = ∑ l, v l := by
  have lanes : horizontalSum (unrounded R) v = v 0 + v 4 + (v 2 + v 6) + (v 1 + v 5 + (v 3 + v 7)) := rfl
  rw [lanes, Fin.sum_univ_eight]
  ring

/-- Eight lanes take in eight components each time. -/
theorem sum_sweep (stride : Nat) : ∀ (left i : Nat) (acc : M256 R), ∑ l,
    sweep op (unrounded R) x y stride left i acc l =
    ∑ l, acc l + ∑ n ∈ range left, ∑ l ∈ range 8, op.term (x (i + n * stride + l)) (y (i + n * stride + l))
  | 0, i, acc => by rw [sweep, range_zero, sum_empty, add_zero]
  | left + 1, i, acc => by
    have shift (n : Nat) : i + stride + n * stride = i + (n + 1) * stride := by ring
    rw [sweep, sum_sweep stride left (i + stride), sum_range_succ' _ left]
    simp only [fused_exact, sum_add_distrib, shift, Nat.zero_mul, Nat.add_zero]
    rw [Fin.sum_univ_eq_sum_range (fun l => op.term (x (i + l)) (y (i + l))) 8]
    ring

theorem plainSweep_exact : ∀ (left i : Nat) (sum : R), plainSweep op (unrounded R) x y left i sum =
    sum + ∑ l ∈ range left, op.term (x (i + l)) (y (i + l))
  | 0, i, sum => by rw [plainSweep, range_zero, sum_empty, add_zero]
  | left + 1, i, sum => by
    have shift (l : Nat) : i + 1 + l = i + (l + 1) := by ring
    rw [plainSweep, plainSweep_exact left (i + 1), plain_exact, sum_range_succ' _ left]
    simp only [shift, Nat.add_zero]
    ring

/-- Blocks one after the other. -/
theorem sum_blocks (T : Nat → R) (size left i : Nat) : ∑ n ∈ range left, ∑ l ∈ range size,
    T (i + n * size + l) = ∑ j ∈ range (left * size), T (i + j) := by
  induction left with
  | zero => rw [Nat.zero_mul, range_zero, sum_empty, sum_empty]
  | succ left ih =>
    rw [sum_range_succ, ih, Nat.succ_mul, sum_range_add]
    simp only [Nat.add_assoc]

theorem sum_quarters (T : Nat → R) (i : Nat) : ∑ l ∈ range 32, T (i + l) =
    ∑ l ∈ range 8, T (0 + i + l) + ∑ l ∈ range 8,
      T (8 + i + l) + (∑ l ∈ range 8, T (16 + i + l) + ∑ l ∈ range 8, T (24 + i + l)) := by
  have shift (k l : Nat) : i + (k + l) = k + i + l := by ring
  rw [show 32 = 8 + 8 + 8 + 8 from rfl, sum_range_add, sum_range_add, sum_range_add]
  simp only [shift, Nat.zero_add, Nat.reduceAdd]
  ring

/-- What has been added before the tail, and what the tail adds to one of the accumulators. -/
theorem acc4Sum_exact (last : M256 R → M256 R) (more : R) (adds : ∀ acc, ∑ l, last acc l = ∑ l, acc l + more) :
    acc4Sum op (unrounded R) x y dim last = ∑ j ∈ range (tailStart dim), op.term (x j) (y j) + more := by
  generalize terms : (fun j => op.term (x j) (y j)) = T
  have term (j : Nat) : op.term (x j) (y j) = T j := congrFun terms j
  have zeros : ∑ l, setzero (unrounded R) l = 0 := sum_const_zero
  have total (u v w z : M256 R) : horizontalSum (unrounded R)
      (addPs (unrounded R) (addPs (unrounded R) u v) (addPs (unrounded R) w z)) =
      ∑ l, u l + ∑ l, v l + (∑ l, w l + ∑ l, z l) := by
    rw [horizontalSum_exact, ← sum_add_distrib, ← sum_add_distrib, ← sum_add_distrib]
    rfl
  have wholes : ∑ n ∈ range (dim / 32), ∑ l ∈ range 32, T (0 + n * 32 + l) = ∑ j ∈ range (dim / 32 * 32),
      T (0 + j) := sum_blocks T 32 _ 0
  have eights := sum_blocks T 8 ((dim - dim / 32 * 32) / 8) (dim / 32 * 32)
  simp only [Nat.zero_add, sum_quarters, sum_add_distrib] at wholes
  rw [tailStart, sum_range_add]
  simp only [acc4Sum, total, adds, sum_sweep, zeros, term, eights, zero_add, ← wholes]
  ring

theorem sum_padded (i count : Nat) (short : count ≤ 8) :
    ∑ l : Fin 8, op.term (padded 0 x i count l) (padded 0 y i count l) = ∑ l ∈ range count,
      op.term (x (i + l)) (y (i + l)) := by
  have lanes : ∑ l : Fin 8, op.term (padded 0 x i count l) (padded 0 y i count l) =
      ∑ l ∈ range 8, if l < count then op.term (x (i + l)) (y (i + l)) else 0 := by
    rw [← Fin.sum_univ_eq_sum_range (fun l => if l < count then op.term (x (i + l)) (y (i + l)) else 0) 8]
    refine sum_congr rfl fun l _ => ?_
    simp only [padded]
    split
    next => rfl
    next => exact term_zero op
  rw [lanes, ← sum_filter]
  refine sum_congr (ext fun l => ?_) fun _ _ => rfl
  rw [mem_filter, mem_range, mem_range]
  omega

theorem value_exact (v : Variant) : value (unrounded R) v op x y dim = ∑ j ∈ range dim, op.term (x j) (y j) := by
  have start := tailStart_le dim
  have whole : range dim = range (tailStart dim + (dim - tailStart dim)) := by rw [Nat.add_sub_cancel' start]
  have rest : plainSweep op (unrounded R) x y (dim - tailStart dim) (tailStart dim)
      (acc4Sum op (unrounded R) x y dim id) =
      ∑ j ∈ range dim, op.term (x j) (y j) := by
    rw [plainSweep_exact, acc4Sum_exact id 0 fun acc => (add_zero _).symm, add_zero, whole, sum_range_add]
  cases v with
  | scalar =>
    rw [value, plainSweep_exact]
    simp only [Nat.zero_add]
    exact zero_add _
  | avx2Acc4 => exact rest
  | avx2Acc1 =>
    have zeros : ∑ l, setzero (unrounded R) l = 0 := sum_const_zero
    have blocks := sum_blocks (fun j => op.term (x j) (y j)) 8 (dim / 8) 0
    have split : range dim = range (dim / 8 * 8 + (dim - dim / 8 * 8)) := by
      rw [Nat.add_sub_cancel' (Nat.div_mul_le_self dim 8)]
    rw [value, plainSweep_exact, horizontalSum_exact, sum_sweep, zeros, zero_add, blocks, split, sum_range_add]
    simp only [Nat.zero_add]
  | avx2Acc4Masked =>
    rw [value]
    split
    next more =>
      have short : dim - tailStart dim ≤ 8 := by
        rw [tailStart]
        omega
      rw [acc4Sum_exact _ _ fun acc => ?_, whole, sum_range_add]
      rw [← sum_padded _ _ short, ← sum_add_distrib]
      exact sum_congr rfl fun l _ => fused_exact op _ _ _
    next => exact rest

end Exact

/-- All variants of a kernel add up the same terms, each component once, and never read behind the components, not
even where a buffer ends with them. -/
theorem kernels_sum_each_component_once (R : Type) [CommRing R] (v : Variant) (op : Op) (a b : List R) (dim : Nat)
    (inA : dim ≤ a.length) (inB : dim ≤ b.length) :
    pairKernel (unrounded R) v op a b dim = some (∑ j ∈ range dim, op.term (a.getD j 0) (b.getD j 0)) := by
  rw [pairKernel_eq v inA inB, value_exact]
  rfl

/-- Forty-three components: a block of 32, one of eight, and three that are left. -/
theorem kernels_sum_each_component_once_masked :
    pairKernel (unrounded Int) .avx2Acc4Masked .l2 ((List.range 43).map Int.ofNat)
      (List.replicate 43 1) 43 = some 23822 :=
  (kernels_sum_each_component_once Int .avx2Acc4Masked .l2 ((List.range 43).map Int.ofNat) (List.replicate 43 1) 43
    (by decide) (by decide)).trans
    (by decide +kernel)

end VectorForge.Simd
