import Mathlib

/-- The `width` low bytes of `value`, least significant first. -/
def leBytes (width value : Nat) : List UInt8 :=
  (List.range width).map fun i => UInt8.ofNat (value >>> (8 * i))

/-- The number a byte string denotes, least significant byte first. -/
def leValue (bytes : List UInt8) : Nat :=
  bytes.foldr (fun b rest => b.toNat + 256 * rest) 0

namespace LittleEndian

@[simp] theorem length_leBytes (width value : Nat) : (leBytes width value).length = width := by
  simp [leBytes]

@[simp] theorem leBytes_zero (value : Nat) : leBytes 0 value = [] := rfl

theorem leBytes_succ (width value : Nat) :
    leBytes (width + 1) value = UInt8.ofNat value :: leBytes width (value / 256) := by
  simp only [leBytes, List.range_succ_eq_map, List.map_cons, List.map_map]
  congr 1
  apply List.map_congr_left
  intro i _
  have shift : 8 * Nat.succ i = 8 + 8 * i := by omega
  simp only [Function.comp_apply, shift, Nat.shiftRight_add]
  rw [Nat.shiftRight_eq_div_pow value 8]

@[simp] theorem leValue_nil : leValue [] = 0 := rfl

@[simp] theorem leValue_cons (b : UInt8) (bytes : List UInt8) :
    leValue (b :: bytes) = b.toNat + 256 * leValue bytes := rfl

theorem leValue_lt (bytes : List UInt8) : leValue bytes < 256 ^ bytes.length := by
  induction bytes with
  | nil => simp
  | cons b bytes ih =>
    have byte := b.toNat_lt
    simp only [leValue_cons, List.length_cons, Nat.pow_succ]
    omega

theorem leValue_leBytes (width value : Nat) : leValue (leBytes width value) = value % 256 ^ width := by
  induction width generalizing value with
  | zero => simp [Nat.mod_one]
  | succ width ih =>
    rw [leBytes_succ, leValue_cons, ih, Nat.pow_succ', Nat.mod_mul]
    simp

theorem leValue_leBytes_of_lt {width value : Nat} (fits : value < 256 ^ width) :
    leValue (leBytes width value) = value := by
  rw [leValue_leBytes, Nat.mod_eq_of_lt fits]

theorem leBytes_leValue (bytes : List UInt8) : leBytes bytes.length (leValue bytes) = bytes := by
  induction bytes with
  | nil => rfl
  | cons b bytes ih =>
    have byte := b.toNat_lt
    have low : UInt8.ofNat (b.toNat + 256 * leValue bytes) = b := by
      apply UInt8.toNat_inj.mp
      rw [UInt8.toNat_ofNat']
      omega
    have high : (b.toNat + 256 * leValue bytes) / 256 = leValue bytes := by omega
    rw [List.length_cons, leValue_cons, leBytes_succ, low, high, ih]

theorem leValue_replicate_zero (count : Nat) : leValue (List.replicate count 0) = 0 := by
  induction count with
  | zero => rfl
  | succ count ih => simp [List.replicate_succ, ih]

theorem leValue_append (low high : List UInt8) :
    leValue (low ++ high) = leValue low + 256 ^ low.length * leValue high := by
  induction low with
  | nil => simp
  | cons b low ih =>
    rw [List.cons_append, leValue_cons, leValue_cons, ih, List.length_cons, Nat.pow_succ',
      Nat.mul_add, Nat.mul_assoc]
    omega

/-- A byte shifted to its place and combined with the bytes below it. -/
theorem leValue_or (low : List UInt8) (b : UInt8) :
    leValue low ||| (b.toNat <<< (8 * low.length)) = leValue (low ++ [b]) := by
  have below : leValue low < 2 ^ (8 * low.length) := by
    rw [Nat.pow_mul]
    exact leValue_lt low
  rw [Nat.or_comm, ← Nat.shiftLeft_add_eq_or_of_lt below, leValue_append, Nat.shiftLeft_eq, Nat.pow_mul,
    leValue_cons, leValue_nil]
  rw [Nat.mul_comm, Nat.add_comm]
  rfl

/-- A byte string read as a number and written again. -/
theorem leBytes_leValue_of_length {bytes : List UInt8} {width : Nat} (length : bytes.length = width) :
    leBytes width (leValue bytes) = bytes := length ▸ leBytes_leValue bytes

end LittleEndian
