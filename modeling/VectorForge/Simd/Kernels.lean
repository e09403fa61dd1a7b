import VectorForge.Core.VectorOps

/-! The distance kernels. A pointer is what is left of its buffer from there on; reading past the end is a fault. -/

namespace VectorForge.Simd

/-- What the hardware does to single floats, all of which rounds. -/
structure Arithmetic (R : Type) where
  zero : R
  add : R → R → R
  sub : R → R → R
  mul : R → R → R
  /-- The product of the first two and the third, rounded once. -/
  fmadd : R → R → R → R

/-- `__m256` -/
abbrev M256 (R : Type) := Fin 8 → R

inductive Op where
  | dot | l2
  deriving DecidableEq, Repr

inductive Tail where
  | scalar | masked
  deriving DecidableEq, Repr

section Intrinsics
variable {R : Type} (ar : Arithmetic R)

def setzero : M256 R := fun _ => ar.zero

def addPs (x y : M256 R) : M256 R := fun l => ar.add (x l) (y l)

def subPs (x y : M256 R) : M256 R := fun l => ar.sub (x l) (y l)

def fmaddPs (x y z : M256 R) : M256 R := fun l => ar.fmadd (x l) (y l) (z l)

def loadu (a : List R) (i : Nat) : Option (M256 R) :=
  if i + 8 ≤ a.length then some fun l => a.getD (i + l) ar.zero else none

/-- Lanes that are masked out are not read. -/
def maskload (a : List R) (i : Nat) (mask : Fin 8 → Bool) : Option (M256 R) :=
  if ∀ l, mask l = true → i + l < a.length then some fun l =>
    if mask l then a.getD (i + l) ar.zero else ar.zero else none

def movehl (x y : Fin 4 → R) : Fin 4 → R := ![y 2, y 3, x 2, x 3]

end Intrinsics

section Kernels
variable {R : Type} (ar : Arithmetic R) (op : Op) (a b : List R)

def horizontalSum (v : M256 R) : R :=
  let lo : Fin 4 → R := ![v 0, v 1, v 2, v 3]
  let hi : Fin 4 → R := ![v 4, v 5, v 6, v 7]
  let pair : Fin 4 → R := fun l => ar.add (lo l) (hi l)
  let quad : Fin 4 → R := fun l => ar.add (pair l) (movehl pair pair l)
  ar.add (quad 0) (quad 1)

def tailMask (count : Nat) : Fin 8 → Bool := fun l => decide ((l : Nat) < count)

def step (acc x y : M256 R) : M256 R :=
  match op with
  | .dot => fmaddPs ar x y acc
  | .l2 =>
    let diff := subPs ar x y
    fmaddPs ar diff diff acc

def block (acc : M256 R) (i : Nat) : Option (M256 R) := do
  let x ← loadu ar a i
  let y ← loadu ar b i
  return step ar op acc x y

/-- `left` is how often the loop runs. -/
def scalarTail : (left i : Nat) → R → Option R
  | 0, _, sum => some sum
  | left + 1, i, sum => do
    let x ← a[i]?
    let y ← b[i]?
    let term := match op with
      | .dot => ar.mul x y
      | .l2 => ar.mul (ar.sub x y) (ar.sub x y)
    scalarTail left (i + 1) (ar.add sum term)

def blocks32 : (left i : Nat) → (acc0 acc1 acc2 acc3 : M256 R) → Option (M256 R × M256 R × M256 R × M256 R)
  | 0, _, acc0, acc1, acc2, acc3 => some (acc0, acc1, acc2, acc3)
  | left + 1, i, acc0, acc1, acc2, acc3 => do
    let acc0 ← block ar op a b acc0 i
    let acc1 ← block ar op a b acc1 (i + 8)
    let acc2 ← block ar op a b acc2 (i + 16)
    let acc3 ← block ar op a b acc3 (i + 24)
    blocks32 left (i + 32) acc0 acc1 acc2 acc3

def blocks8 : (left i : Nat) → M256 R → Option (M256 R)
  | 0, _, acc => some acc
  | left + 1, i, acc => do
    let acc ← block ar op a b acc i
    blocks8 left (i + 8) acc

/-- What the masked tail adds to an accumulator. -/
def maskedTail (acc : M256 R) (i count : Nat) : Option (M256 R) := do
  let x ← maskload ar a i (tailMask count)
  let y ← maskload ar b i (tailMask count)
  return step ar op acc x y

def acc4 (dim : Nat) (tail : Tail) : Option R := do
  let (acc0, acc1, acc2, acc3) ← blocks32 ar op a b (dim / 32) 0 (setzero ar) (setzero ar) (setzero ar) (setzero ar)
  let i := dim / 32 * 32
  let acc0 ← blocks8 ar op a b ((dim - i) / 8) i acc0
  let i := i + (dim - i) / 8 * 8
  if tail = .masked ∧ i < dim then do
    let acc1 ← maskedTail ar op a b acc1 i (dim - i)
    return horizontalSum ar (addPs ar (addPs ar acc0 acc1) (addPs ar acc2 acc3))
  else
    scalarTail ar op a b (dim - i) i (horizontalSum ar (addPs ar (addPs ar acc0 acc1) (addPs ar acc2 acc3)))

def acc1 (dim : Nat) : Option R := do
  let acc ← blocks8 ar op a b (dim / 8) 0 (setzero ar)
  let i := dim / 8 * 8
  scalarTail ar op a b (dim - i) i (horizontalSum ar acc)

/-- The kernels of `kernels_scalar.cpp`. -/
def scalarKernel (dim : Nat) : Option R := scalarTail ar op a b dim 0 ar.zero

end Kernels

/-- The kernel tables of the library. -/
inductive Variant where
  | scalar | avx2Acc4 | avx2Acc1 | avx2Acc4Masked
  deriving DecidableEq, Repr

section Tables
variable {R : Type} (ar : Arithmetic R) (v : Variant)

/-- `PairKernel` -/
def pairKernel (op : Op) (a b : List R) (dim : Nat) : Option R :=
  match v with
  | .scalar => scalarKernel ar op a b dim
  | .avx2Acc4 => acc4 ar op a b dim .scalar
  | .avx2Acc1 => acc1 ar op a b dim
  | .avx2Acc4Masked => acc4 ar op a b dim .masked

/-- `NormKernel` -/
def norm2 (a : List R) (dim : Nat) : Option R := pairKernel ar v .dot a a dim

/-- `BatchKernel`: what it writes. -/
def oneToN (op : Op) (query rows : List R) (n dim : Nat) : Option (List R) :=
  (List.range n).mapM fun r => pairKernel ar v op query (rows.drop (r * dim)) dim

end Tables

section Runs
variable {R : Type} {ar : Arithmetic R} {op : Op} {a b : List R} {dim i left : Nat}

/-- What a step does to one lane. -/
def Op.fused (op : Op) (ar : Arithmetic R) (acc x y : R) : R :=
  match op with
  | .dot => ar.fmadd x y acc
  | .l2 => ar.fmadd (ar.sub x y) (ar.sub x y) acc

/-- What the scalar loop does to the sum. -/
def Op.plain (op : Op) (ar : Arithmetic R) (sum x y : R) : R :=
  match op with
  | .dot => ar.add sum (ar.mul x y)
  | .l2 => ar.add sum (ar.mul (ar.sub x y) (ar.sub x y))

/-- Eight floats at a time, `stride` apart. -/
def sweep (op : Op) (ar : Arithmetic R) (x y : Nat → R) (stride : Nat) : (left i : Nat) → M256 R → M256 R
  | 0, _, acc => acc
  | left + 1, i, acc =>
    sweep op ar x y stride left (i + stride) fun l => op.fused ar (acc l) (x (i + l)) (y (i + l))

def plainSweep (op : Op) (ar : Arithmetic R) (x y : Nat → R) : (left i : Nat) → R → R
  | 0, _, sum => sum
  | left + 1, i, sum => plainSweep op ar x y left (i + 1) (op.plain ar sum (x i) (y i))

/-- The floats behind a pointer. -/
def floatAt (ar : Arithmetic R) (a : List R) (i : Nat) : R := a.getD i ar.zero

theorem step_eq (acc x y : M256 R) : step ar op acc x y = fun l => op.fused ar (acc l) (x l) (y l) := by
  cases op <;> rfl

theorem block_eq (acc : M256 R) (inA : i + 8 ≤ a.length) (inB : i + 8 ≤ b.length) :
    block ar op a b acc i = some fun l => op.fused ar (acc l) (floatAt ar a (i + l)) (floatAt ar b (i + l)) := by
  have loadA : loadu ar a i = some fun l : Fin 8 => a.getD (i + l) ar.zero := if_pos inA
  have loadB : loadu ar b i = some fun l : Fin 8 => b.getD (i + l) ar.zero := if_pos inB
  rw [block, loadA, loadB]
  exact congrArg some (step_eq _ _ _)

theorem blocks8_eq : ∀ (left i : Nat) (acc : M256 R), i + left * 8 ≤ a.length → i + left * 8 ≤ b.length →
    blocks8 ar op a b left i acc = some (sweep op ar (floatAt ar a) (floatAt ar b) 8 left i acc)
  | 0, _, _, _, _ => rfl
  | left + 1, i, acc, inA, inB => by
    rw [blocks8, block_eq acc (by omega) (by omega)]
    exact blocks8_eq left (i + 8) _ (by omega) (by omega)

theorem blocks32_eq : ∀ (left i : Nat) (acc0 acc1 acc2 acc3 : M256 R), i + left * 32 ≤ a.length →
    i + left * 32 ≤ b.length →
    blocks32 ar op a b left i acc0 acc1 acc2 acc3 =
      some (sweep op ar (floatAt ar a) (floatAt ar b) 32 left i acc0,
        sweep op ar (floatAt ar a) (floatAt ar b) 32 left (i + 8) acc1,
        sweep op ar (floatAt ar a) (floatAt ar b) 32 left (i + 16) acc2,
          sweep op ar (floatAt ar a) (floatAt ar b) 32 left (i + 24) acc3)
  | 0, _, _, _, _, _, _, _ => rfl
  | left + 1, i, acc0, acc1, acc2, acc3, inA, inB => by
    rw [blocks32, block_eq acc0 (by omega) (by omega), block_eq acc1 (by omega) (by omega),
      block_eq acc2 (by omega) (by omega),
      block_eq acc3 (by omega) (by omega)]
    have rest := blocks32_eq left (i + 32)
      (fun l => op.fused ar (acc0 l) (floatAt ar a (i + l)) (floatAt ar b (i + l)))
      (fun l => op.fused ar (acc1 l) (floatAt ar a (i + 8 + l)) (floatAt ar b (i + 8 + l)))
      (fun l => op.fused ar (acc2 l) (floatAt ar a (i + 16 + l)) (floatAt ar b (i + 16 + l)))
      (fun l => op.fused ar (acc3 l) (floatAt ar a (i + 24 + l)) (floatAt ar b (i + 24 + l))) (by omega) (by omega)
    rw [Nat.add_right_comm i 32 8, Nat.add_right_comm i 32 16, Nat.add_right_comm i 32 24] at rest
    exact rest

theorem scalarTail_eq : ∀ (left i : Nat) (sum : R), i + left ≤ a.length → i + left ≤ b.length →
    scalarTail ar op a b left i sum = some (plainSweep op ar (floatAt ar a) (floatAt ar b) left i sum)
  | 0, _, _, _, _ => rfl
  | left + 1, i, sum, inA, inB => by
    have readA : a[i]? = some (floatAt ar a i) := by
      rw [floatAt, List.getD_eq_getElem?_getD, List.getElem?_eq_getElem (by omega)]
      rfl
    have readB : b[i]? = some (floatAt ar b i) := by
      rw [floatAt, List.getD_eq_getElem?_getD, List.getElem?_eq_getElem (by omega)]
      rfl
    rw [scalarTail, readA, readB, plainSweep, ← scalarTail_eq left (i + 1) _ (by omega) (by omega)]
    cases op <;> rfl

/-- The lanes of the tail that are in use, and zeros. -/
def padded (zero : R) (x : Nat → R) (i count : Nat) : M256 R :=
  fun l => if (l : Nat) < count then x (i + l) else zero

theorem maskload_eq {count : Nat} (inside : i + count ≤ a.length) :
    maskload ar a i (tailMask count) = some (padded ar.zero (floatAt ar a) i count) := by
  have held : ∀ l, tailMask count l = true → i + (l : Nat) < a.length := fun l used => by
    have used : (l : Nat) < count := of_decide_eq_true used
    omega
  rw [maskload, if_pos held]
  refine congrArg some (funext fun l => ?_)
  by_cases used : (l : Nat) < count
  · rw [padded, if_pos used, tailMask, decide_eq_true used]
    rfl
  · rw [padded, if_neg used, tailMask, decide_eq_false used]
    rfl

theorem maskedTail_eq {count : Nat} (acc : M256 R) (inA : i + count ≤ a.length) (inB : i + count ≤ b.length) :
    maskedTail ar op a b acc i count =
      some fun l => op.fused ar (acc l) (padded ar.zero (floatAt ar a) i count l)
        (padded ar.zero (floatAt ar b) i count l) := by
  rw [maskedTail, maskload_eq inA, maskload_eq inB]
  exact congrArg some (step_eq _ _ _)

/-- What the accumulators of `acc4` hold when the tail begins. -/
def acc4Sum (op : Op) (ar : Arithmetic R) (x y : Nat → R) (dim : Nat) (last : M256 R → M256 R) : R :=
  let whole (start : Nat) := sweep op ar x y 32 (dim / 32) start (setzero ar)
  let acc0 := sweep op ar x y 8 ((dim - dim / 32 * 32) / 8) (dim / 32 * 32) (whole 0)
  horizontalSum ar (addPs ar (addPs ar acc0 (last (whole 8))) (addPs ar (whole 16) (whole 24)))

/-- Where the tail begins. -/
def tailStart (dim : Nat) : Nat := dim / 32 * 32 + (dim - dim / 32 * 32) / 8 * 8

/-- What a kernel computes from the floats it reads. -/
def value (ar : Arithmetic R) (v : Variant) (op : Op) (x y : Nat → R) (dim : Nat) : R :=
  match v with
  | .scalar => plainSweep op ar x y dim 0 ar.zero
  | .avx2Acc4 => plainSweep op ar x y (dim - tailStart dim) (tailStart dim) (acc4Sum op ar x y dim id)
  | .avx2Acc1 => plainSweep op ar x y (dim - dim / 8 * 8) (dim / 8 * 8) (horizontalSum ar
    (sweep op ar x y 8 (dim / 8) 0 (setzero ar)))
  | .avx2Acc4Masked =>
    if tailStart dim < dim then
      acc4Sum op ar x y dim fun acc l =>
        op.fused ar (acc l) (padded ar.zero x (tailStart dim) (dim - tailStart dim) l)
          (padded ar.zero y (tailStart dim) (dim - tailStart dim) l)
    else plainSweep op ar x y (dim - tailStart dim) (tailStart dim) (acc4Sum op ar x y dim id)

theorem tailStart_le (dim : Nat) : tailStart dim ≤ dim := by
  rw [tailStart]
  omega

theorem acc4_eq (tail : Tail) (inA : dim ≤ a.length) (inB : dim ≤ b.length) : acc4 ar op a b dim tail =
    some (value ar (match tail with | .scalar => .avx2Acc4 | .masked => .avx2Acc4Masked) op (floatAt ar a)
      (floatAt ar b) dim) := by
  have start := tailStart_le dim
  have rest : scalarTail ar op a b (dim - tailStart dim) (tailStart dim)
      (acc4Sum op ar (floatAt ar a) (floatAt ar b) dim id) =
      some (value ar .avx2Acc4 op (floatAt ar a) (floatAt ar b) dim) := scalarTail_eq _ _ _ (by omega) (by omega)
  have begins : dim / 32 * 32 + (dim - dim / 32 * 32) / 8 * 8 = tailStart dim := rfl
  rw [acc4, blocks32_eq (dim / 32) 0 _ _ _ _ (by omega) (by omega)]
  simp only [Option.bind_eq_bind, Option.bind_some]
  rw [blocks8_eq ((dim - dim / 32 * 32) / 8) (dim / 32 * 32) _ (by omega) (by omega)]
  simp only [Option.bind_some, begins]
  cases tail with
  | scalar => exact rest
  | masked =>
    by_cases more : tailStart dim < dim
    · rw [if_pos ⟨rfl, more⟩, maskedTail_eq _ (by omega) (by omega), value, if_pos more]
      rfl
    · rw [if_neg fun both => more both.2, value, if_neg more]
      exact rest

/-- A kernel reads what belongs to the two rows and nothing behind them. -/
theorem pairKernel_eq (v : Variant) (inA : dim ≤ a.length) (inB : dim ≤ b.length) :
    pairKernel ar v op a b dim = some (value ar v op (floatAt ar a) (floatAt ar b) dim) := by
  cases v with
  | scalar => exact scalarTail_eq dim 0 _ (by omega) (by omega)
  | avx2Acc4 => exact acc4_eq .scalar inA inB
  | avx2Acc1 =>
    rw [pairKernel, acc1, blocks8_eq (dim / 8) 0 _ (by omega) (by omega)]
    exact scalarTail_eq (dim - dim / 8 * 8) (dim / 8 * 8) _ (by omega) (by omega)
  | avx2Acc4Masked => exact acc4_eq .masked inA inB

end Runs

end VectorForge.Simd
