import VectorForge.Index.FlatBackend
import VectorForge.Simd.Kernels

/-! What the kernels have in common whatever rounding does. -/

namespace VectorForge.Simd

section Agreement
variable {R : Type} {ar : Arithmetic R} {op : Op} {x y x' y' : Nat → R} {dim : Nat}

/-- The arithmetic does not see which of the two pairs it is given. -/
structure Alike (op : Op) (ar : Arithmetic R) (dim : Nat) (x y x' y' : Nat → R) : Prop where
  fused : ∀ j, j < dim → ∀ acc, op.fused ar acc (x j) (y j) = op.fused ar acc (x' j) (y' j)
  plain : ∀ j, j < dim → ∀ sum, op.plain ar sum (x j) (y j) = op.plain ar sum (x' j) (y' j)

theorem sweep_congr (same : Alike op ar dim x y x' y') (stride : Nat) : ∀ (left i : Nat) (acc : M256 R),
    (∀ n, n < left → i + n * stride + 8 ≤ dim) →
    sweep op ar x y stride left i acc = sweep op ar x' y' stride left i acc
  | 0, _, _, _ => rfl
  | left + 1, i, acc, inside => by
    have first := inside 0 (Nat.succ_pos left)
    have lanes : (fun l : Fin 8 => op.fused ar (acc l) (x (i + l)) (y (i + l))) = fun l =>
        op.fused ar (acc l) (x' (i + l)) (y' (i + l)) :=
      funext fun l => same.fused (i + l) (by omega) (acc l)
    rw [sweep, sweep, lanes]
    refine sweep_congr same stride left (i + stride) _ fun n less => ?_
    have later := inside (n + 1) (Nat.succ_lt_succ less)
    rw [Nat.succ_mul] at later
    omega

theorem plainSweep_congr (same : Alike op ar dim x y x' y') : ∀ (left i : Nat) (sum : R), i + left ≤ dim →
    plainSweep op ar x y left i sum = plainSweep op ar x' y' left i sum
  | 0, _, _, _ => rfl
  | left + 1, i, sum, inside => by
    rw [plainSweep, plainSweep, same.plain i (by omega)]
    exact plainSweep_congr same left (i + 1) _ (by omega)

theorem acc4Sum_congr (same : Alike op ar dim x y x' y') (last : M256 R → M256 R) :
    acc4Sum op ar x y dim last = acc4Sum op ar x' y' dim last := by
  have whole (start : Nat) (inside : start + 8 ≤ 32) : sweep op ar x y 32 (dim / 32) start (setzero ar) =
      sweep op ar x' y' 32 (dim / 32) start (setzero ar) := sweep_congr same 32 _ _ _ fun n less => by omega
  have eights (acc : M256 R) : sweep op ar x y 8 ((dim - dim / 32 * 32) / 8) (dim / 32 * 32) acc =
      sweep op ar x' y' 8 ((dim - dim / 32 * 32) / 8) (dim / 32 * 32) acc :=
      sweep_congr same 8 _ _ _ fun n less => by omega
  simp only [acc4Sum, whole 0 (by decide), whole 8 (by decide), whole 16 (by decide), whole 24 (by decide), eights]

theorem value_congr (same : Alike op ar dim x y x' y') (v : Variant) :
    value ar v op x y dim = value ar v op x' y' dim := by
  have start := tailStart_le dim
  have rest (sum : R) : plainSweep op ar x y (dim - tailStart dim) (tailStart dim) sum =
      plainSweep op ar x' y' (dim - tailStart dim) (tailStart dim) sum := plainSweep_congr same _ _ _ (by omega)
  cases v with
  | scalar => exact plainSweep_congr same dim 0 _ (by omega)
  | avx2Acc4 => rw [value, value, acc4Sum_congr same, rest]
  | avx2Acc1 =>
    have eights := sweep_congr same 8 (dim / 8) 0 (setzero ar) fun n less => by omega
    rw [value, value, eights, plainSweep_congr same _ _ _ (by omega)]
  | avx2Acc4Masked =>
    have lanes (acc : M256 R) (l : Fin 8) :
        op.fused ar (acc l) (padded ar.zero x (tailStart dim) (dim - tailStart dim) l)
        (padded ar.zero y (tailStart dim) (dim - tailStart dim) l) =
        op.fused ar (acc l) (padded ar.zero x' (tailStart dim) (dim - tailStart dim) l)
        (padded ar.zero y' (tailStart dim) (dim - tailStart dim) l) := by
      simp only [padded]
      split
      next used => exact same.fused _ (by omega) _
      next => rfl
    simp only [value, rest, lanes, acc4Sum_congr same]

end Agreement

section Distances
variable {ar : Arithmetic F32} {v : Variant} {op : Op} {query row floats : List F32} {n dim : Nat}

/-- The table of a variant. The square root in double precision is not one of its kernels. -/
def kernelTable (ar : Arithmetic F32) (v : Variant) (inverseSqrt : F32 → F32) : KernelTable :=
  let pair (op : Op) (a b : List F32) : F32 := (pairKernel ar v op a b a.length).getD ar.zero
  { dot := pair .dot
    l2sq := pair .l2
    norm2 := fun a => pair .dot a a
    dot1ToN := fun query rows => rows.map (pair .dot query)
    l2sq1ToN := fun query rows => rows.map (pair .l2 query)
    mul := ar.mul
    sub := ar.sub
    inverseSqrt }

/-- What is assumed of rounding: factors can be exchanged, and a difference has the same square as its opposite. -/
structure Arithmetic.Commutes {R : Type} (ar : Arithmetic R) : Prop where
  factors : ∀ x y, ar.mul x y = ar.mul y x
  squares : ∀ x y, ar.mul (ar.sub x y) (ar.sub x y) = ar.mul (ar.sub y x) (ar.sub y x)
  fusedFactors : ∀ x y z, ar.fmadd x y z = ar.fmadd y x z
  fusedSquares : ∀ x y z, ar.fmadd (ar.sub x y) (ar.sub x y) z = ar.fmadd (ar.sub y x) (ar.sub y x) z

theorem Arithmetic.Commutes.alike {R : Type} {ar : Arithmetic R} (commutes : ar.Commutes) (op : Op)
    (dim : Nat) (x y : Nat → R) : Alike op ar dim x y y x := by
  cases op with
  | dot => exact ⟨fun j _ acc => commutes.fusedFactors _ _ acc,
    fun j _ sum => congrArg (ar.add sum) (commutes.factors _ _)⟩
  | l2 => exact ⟨fun j _ acc => commutes.fusedSquares _ _ acc,
    fun j _ sum => congrArg (ar.add sum) (commutes.squares _ _)⟩

theorem mapM_eq_some {α β : Type} {f : α → Option β} {g : α → β} : ∀ {l : List α}, (∀ x ∈ l, f x = some (g x)) →
    l.mapM f = some (l.map g)
  | [], _ => rfl
  | x :: l, all => by
    rw [List.mapM_cons, all x List.mem_cons_self, mapM_eq_some fun y member =>
      all y (List.mem_cons_of_mem x member)]
    rfl

/-- A row of the buffer gives what it gives when nothing comes after it. -/
theorem pairKernel_take (inQuery : dim ≤ query.length) (inRow : dim ≤ row.length) :
    pairKernel ar v op query row dim = pairKernel ar v op query (row.take dim) dim := by
  have short : dim ≤ (row.take dim).length := by rw [List.length_take_of_le inRow]
  have same : ∀ j, j < dim → floatAt ar row j = floatAt ar (row.take dim) j := fun j less => by
    rw [floatAt, floatAt, List.getD_eq_getElem?_getD, List.getD_eq_getElem?_getD, List.getElem?_take_of_lt less]
  rw [pairKernel_eq v inQuery inRow, pairKernel_eq v inQuery short]
  exact congrArg some (value_congr ⟨fun j less acc => by rw [same j less], fun j less sum => by rw [same j less]⟩ v)

theorem pairKernel_comm (commutes : ar.Commutes) (inQuery : dim ≤ query.length) (inRow : dim ≤ row.length) :
    pairKernel ar v op query row dim = pairKernel ar v op row query dim := by
  rw [pairKernel_eq v inQuery inRow, pairKernel_eq v inRow inQuery]
  exact congrArg some (value_congr (commutes.alike op dim _ _) v)

/-- The kernels for several rows walk the buffer. -/
theorem oneToN_eq (op : Op) (inQuery : dim ≤ query.length) (enough : n * dim ≤ floats.length) :
    oneToN ar v op query floats n dim =
    some ((VectorStore.rowsOf dim floats n).map fun row => (pairKernel ar v op query row dim).getD ar.zero) := by
  rw [VectorStore.rowsOf, List.map_map]
  refine mapM_eq_some fun r member => ?_
  have inside : (r + 1) * dim ≤ n * dim := Nat.mul_le_mul_right dim (List.mem_range.mp member)
  rw [Nat.succ_mul] at inside
  have left : dim ≤ (floats.drop (r * dim)).length := by
    rw [List.length_drop]
    omega
  rw [Function.comp_apply, ← pairKernel_take inQuery left, pairKernel_eq v inQuery left, Option.getD_some]

end Distances

/-- The kernels of a table for several rows read nothing behind the rows and give, bit for bit, what the kernels
for one row give, and no distance depends on which of two rows is the query. -/
theorem kernel_tables_are_symmetric_and_batch_exactly {ar : Arithmetic F32} (commutes : ar.Commutes) (v : Variant)
    (inverseSqrt : F32 → F32) (query floats : List F32) (n : Nat) (enough : n * query.length ≤ floats.length) :
    (kernelTable ar v inverseSqrt).Batched ∧
    oneToN ar v .dot query floats n query.length =
      some ((kernelTable ar v inverseSqrt).dot1ToN query (VectorStore.rowsOf query.length floats n)) ∧
    oneToN ar v .l2 query floats n query.length =
      some ((kernelTable ar v inverseSqrt).l2sq1ToN query (VectorStore.rowsOf query.length floats n)) ∧
    ∀ mode, ∀ row ∈ VectorStore.rowsOf query.length floats n,
      queryDistance (kernelTable ar v inverseSqrt) mode { data := query } row = queryDistance
        (kernelTable ar v inverseSqrt) mode { data := row } query := by
  refine ⟨⟨fun _ _ => rfl, fun _ _ => rfl⟩, oneToN_eq .dot (Nat.le_refl _) enough,
    oneToN_eq .l2 (Nat.le_refl _) enough, fun mode row member => ?_⟩
  obtain ⟨r, less, rfl⟩ := List.mem_map.mp member
  have inside : (r + 1) * query.length ≤ n * query.length := Nat.mul_le_mul_right _ (List.mem_range.mp less)
  rw [Nat.succ_mul] at inside
  generalize same : (floats.drop (r * query.length)).take query.length = row
  have length : row.length = query.length := by
    rw [← same, List.length_take_of_le (by rw [List.length_drop]; omega)]
  have symmetric (op : Op) : (pairKernel ar v op query row query.length).getD ar.zero =
      (pairKernel ar v op row query row.length).getD ar.zero := by
    rw [length, pairKernel_comm commutes (Nat.le_refl _) (by rw [length])]
  have dots : (kernelTable ar v inverseSqrt).dot query row = (kernelTable ar v inverseSqrt).dot row query :=
    symmetric .dot
  have squares : (kernelTable ar v inverseSqrt).l2sq query row = (kernelTable ar v inverseSqrt).l2sq row query :=
    symmetric .l2
  cases mode <;> simp only [queryDistance, dots, squares]

/-- Arithmetic that is right on zeros and ones. -/
def onesAndZeros : Arithmetic F32 :=
  let mul (x y : F32) : F32 := if x = F32.zero ∨ y = F32.zero then F32.zero else F32.one
  let add (x y : F32) : F32 := if x = F32.zero then y else if y = F32.zero then x else F32.two
  { zero := F32.zero
    add
    sub := fun x y =>
      if x = y then F32.zero else if y = F32.zero then x else if y = F32.one then F32.one.neg else F32.one
    mul
    fmadd := fun x y z => add (mul x y) z }

theorem onesAndZeros_commutes : onesAndZeros.Commutes := by
  have square (x y : F32) : onesAndZeros.mul (onesAndZeros.sub x y) (onesAndZeros.sub x y) = if x = y then
      F32.zero else F32.one := by
    by_cases same : x = y
    · simp only [onesAndZeros, if_pos same, true_or, if_true]
    · have some : onesAndZeros.sub x y ≠ F32.zero := by
        simp only [onesAndZeros, if_neg same]
        split
        next zero => exact fun none => same (none.trans zero.symm)
        next => split <;> decide
      rw [if_neg same]
      exact if_neg (not_or.mpr ⟨some, some⟩)
  have squares (x y : F32) : onesAndZeros.mul (onesAndZeros.sub x y) (onesAndZeros.sub x y) =
      onesAndZeros.mul (onesAndZeros.sub y x) (onesAndZeros.sub y x) := by
    rw [square, square]
    simp only [eq_comm]
  have factors (x y : F32) : onesAndZeros.mul x y = onesAndZeros.mul y x := by
    simp only [onesAndZeros, or_comm]
  have fused (x y z : F32) : onesAndZeros.fmadd x y z = onesAndZeros.add (onesAndZeros.mul x y) z := rfl
  exact ⟨factors, squares, fun x y z => by rw [fused, fused, factors], fun x y z => by rw [fused, fused, squares]⟩

/-- Two rows of two components, read from a buffer that ends with them. -/
theorem kernel_tables_are_symmetric_and_batch_exactly_two_rows :
    oneToN onesAndZeros .avx2Acc4Masked .l2 [F32.one, F32.zero] [F32.one, F32.one, F32.zero, F32.one] 2 2 =
      some [F32.one, F32.two] :=
  (kernel_tables_are_symmetric_and_batch_exactly onesAndZeros_commutes .avx2Acc4Masked id [F32.one, F32.zero]
    [F32.one, F32.one, F32.zero, F32.one] 2 (by decide)).2.2.1.trans (by decide +kernel)

end VectorForge.Simd
