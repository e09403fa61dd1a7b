import Mathlib

namespace Crc
variable (poly : BitVec 32)

/-- One bit of the shift register of a reflected 32-bit check. The map is linear
over exclusive or, and so is everything below that is built from it. -/
def bitStep (c : BitVec 32) : BitVec 32 :=
  if c.getLsbD 0 then (c >>> 1) ^^^ poly else c >>> 1

def bits : Nat → BitVec 32 → BitVec 32
  | 0, c => c
  | n + 1, c => bits n (bitStep poly c)

/-- Feeding one zero byte. -/
def zeroByte (c : BitVec 32) : BitVec 32 := bits poly 8 c

/-- Feeding `k` zero bytes. -/
def zeroBytes : Nat → BitVec 32 → BitVec 32
  | 0, c => c
  | k + 1, c => zeroBytes k (zeroByte poly c)

/-- One input byte, bit by bit. -/
def byteStep (c : BitVec 32) (b : BitVec 8) : BitVec 32 := zeroByte poly (c ^^^ b.setWidth 32)

def update (c : BitVec 32) (data : List (BitVec 8)) : BitVec 32 := data.foldl (byteStep poly) c

theorem bitStep_xor (x y : BitVec 32) : bitStep poly (x ^^^ y) = bitStep poly x ^^^ bitStep poly y := by
  unfold bitStep
  rw [BitVec.ushiftRight_xor_distrib, BitVec.getLsbD_xor]
  cases x.getLsbD 0 <;> cases y.getLsbD 0 <;>
    simp only [Bool.xor_false, Bool.xor_true, Bool.not_true, Bool.not_false,
      if_true, if_false, Bool.false_eq_true]
  · rw [BitVec.xor_assoc]
  · rw [BitVec.xor_assoc, BitVec.xor_assoc, BitVec.xor_comm poly]
  · rw [BitVec.xor_assoc, ← BitVec.xor_assoc poly, BitVec.xor_comm poly (y >>> 1), BitVec.xor_assoc,
      BitVec.xor_self, BitVec.xor_zero]

theorem bits_xor (n : Nat) (x y : BitVec 32) : bits poly n (x ^^^ y) = bits poly n x ^^^ bits poly n y := by
  induction n generalizing x y with
  | zero => rfl
  | succ n ih => simp only [bits, bitStep_xor, ih]

theorem zeroByte_xor (x y : BitVec 32) :
    zeroByte poly (x ^^^ y) = zeroByte poly x ^^^ zeroByte poly y := bits_xor poly 8 x y

theorem zeroBytes_xor (k : Nat) (x y : BitVec 32) :
    zeroBytes poly k (x ^^^ y) = zeroBytes poly k x ^^^ zeroBytes poly k y := by
  induction k generalizing x y with
  | zero => rfl
  | succ k ih => simp only [zeroBytes, zeroByte_xor, ih]

theorem zeroByte_zeroBytes (k : Nat) (c : BitVec 32) :
    zeroByte poly (zeroBytes poly k c) = zeroBytes poly (k + 1) c := by
  induction k generalizing c with
  | zero => rfl
  | succ k ih => simp only [zeroBytes, ih]

/-- A register whose low `n` bits are clear only shifts. -/
theorem bits_of_low_clear (n : Nat) {c : BitVec 32} (clear : ∀ i, i < n → c.getLsbD i = false) :
    bits poly n c = c >>> n := by
  induction n generalizing c with
  | zero => simp [bits]
  | succ n ih =>
    have first : bitStep poly c = c >>> 1 := by
      simp only [bitStep, clear 0 (by omega), Bool.false_eq_true, if_false]
    rw [bits, first, ih, ← BitVec.shiftRight_add, Nat.add_comm]
    intro i bound
    rw [BitVec.getLsbD_ushiftRight]
    exact clear (1 + i) (by omega)

theorem zeroByte_shiftLeft (y : BitVec 32) : zeroByte poly (y <<< 8) = (y <<< 8) >>> 8 := by
  apply bits_of_low_clear
  intro i bound
  simp [BitVec.getLsbD_shiftLeft, bound]

theorem low_byte_bit (c : BitVec 32) {i : Nat} (bound : i < 32) :
    ((c.setWidth 8).setWidth 32).getLsbD i = (decide (i < 8) && c.getLsbD i) := by
  simp [BitVec.getLsbD_setWidth, bound]

/-- A register is its low byte and the rest. -/
theorem split_low (c : BitVec 32) : c = ((c >>> 8) <<< 8) ^^^ (c.setWidth 8).setWidth 32 := by
  apply BitVec.eq_of_getLsbD_eq
  intro i bound
  rw [BitVec.getLsbD_xor, low_byte_bit c bound, BitVec.getLsbD_shiftLeft, BitVec.getLsbD_ushiftRight]
  by_cases low : i < 8
  · simp [low]
  · simp [low, bound, show 8 + (i - 8) = i by omega]

theorem shift_back (c : BitVec 32) : ((c >>> 8) <<< 8) >>> 8 = c >>> 8 := by
  apply BitVec.eq_of_getLsbD_eq
  intro i bound
  simp only [BitVec.getLsbD_ushiftRight, BitVec.getLsbD_shiftLeft]
  by_cases inside : 8 + i < 32
  · simp [inside]
  · simp [BitVec.getLsbD_of_ge c (8 + i) (by omega)]

/-- Splitting off the low byte leaves a table lookup and a shift. -/
theorem zeroByte_split (c : BitVec 32) :
    zeroByte poly c = (c >>> 8) ^^^ zeroByte poly ((c.setWidth 8).setWidth 32) := by
  have whole := congrArg (zeroByte poly) (split_low c)
  rw [zeroByte_xor, zeroByte_shiftLeft, shift_back] at whole
  exact whole

theorem update_append (c : BitVec 32) (a b : List (BitVec 8)) :
    update poly c (a ++ b) = update poly (update poly c a) b := List.foldl_append

/-- Eight bytes unrolled into independent contributions. -/
theorem update_eight (c : BitVec 32) (b0 b1 b2 b3 b4 b5 b6 b7 : BitVec 8) :
    update poly c [b0, b1, b2, b3, b4, b5, b6, b7] =
      zeroBytes poly 8 c ^^^ zeroBytes poly 8 (b0.setWidth 32) ^^^ zeroBytes poly 7 (b1.setWidth 32) ^^^
        zeroBytes poly 6 (b2.setWidth 32) ^^^ zeroBytes poly 5 (b3.setWidth 32) ^^^
        zeroBytes poly 4 (b4.setWidth 32) ^^^ zeroBytes poly 3 (b5.setWidth 32) ^^^
        zeroBytes poly 2 (b6.setWidth 32) ^^^ zeroBytes poly 1 (b7.setWidth 32) := by
  simp only [update, List.foldl_cons, List.foldl_nil, byteStep, zeroByte_xor, zeroBytes]

/-- A register is its four bytes. -/
theorem four_bytes (c : BitVec 32) :
    c = (c.setWidth 8).setWidth 32 ^^^ (((c >>> 8).setWidth 8).setWidth 32 <<< 8) ^^^
      (((c >>> 16).setWidth 8).setWidth 32 <<< 16) ^^^ (((c >>> 24).setWidth 8).setWidth 32 <<< 24) := by
  apply BitVec.eq_of_getLsbD_eq
  intro i bound
  simp only [BitVec.getLsbD_xor, BitVec.getLsbD_shiftLeft, BitVec.getLsbD_setWidth, BitVec.getLsbD_ushiftRight]
  by_cases first : i < 8
  · simp [first, bound, show i < 16 by omega, show i < 24 by omega]
  by_cases second : i < 16
  · simp [first, second, bound, show i < 24 by omega, show i - 8 < 8 by omega, show 8 + (i - 8) = i by omega,
      show i - 8 < 32 by omega]
  by_cases third : i < 24
  · simp [first, second, third, bound, show ¬ i - 8 < 8 by omega, show i - 16 < 8 by omega,
      show 16 + (i - 16) = i by omega, show i - 16 < 32 by omega]
  · simp [first, second, third, bound, show ¬ i - 8 < 8 by omega, show ¬ i - 16 < 8 by omega,
      show i - 24 < 8 by omega, show 24 + (i - 24) = i by omega, show i - 24 < 32 by omega]

/-- Bytes at different positions do not meet, so joining them is exclusive or. -/
theorem join_bytes (b0 b1 b2 b3 : BitVec 8) :
    b0.setWidth 32 ||| (b1.setWidth 32 <<< 8) ||| (b2.setWidth 32 <<< 16) ||| (b3.setWidth 32 <<< 24) =
      b0.setWidth 32 ^^^ (b1.setWidth 32 <<< 8) ^^^ (b2.setWidth 32 <<< 16) ^^^ (b3.setWidth 32 <<< 24) := by
  apply BitVec.eq_of_getLsbD_eq
  intro i bound
  simp only [BitVec.getLsbD_or, BitVec.getLsbD_xor, BitVec.getLsbD_shiftLeft, BitVec.getLsbD_setWidth]
  by_cases first : i < 8
  · simp [first, bound, show i < 16 by omega, show i < 24 by omega]
  by_cases second : i < 16
  · simp [first, second, bound, show i < 24 by omega, BitVec.getLsbD_of_ge b0 i (by omega)]
  by_cases third : i < 24
  · simp [first, second, third, bound, BitVec.getLsbD_of_ge b0 i (by omega),
      BitVec.getLsbD_of_ge b1 (i - 8) (by omega)]
  · simp [first, second, third, bound, BitVec.getLsbD_of_ge b0 i (by omega),
      BitVec.getLsbD_of_ge b1 (i - 8) (by omega), BitVec.getLsbD_of_ge b2 (i - 16) (by omega)]

/-- A byte held `8 * k` bits up needs `k` zero bytes less. -/
theorem zeroBytes_shifted (k n : Nat) (b : BitVec 8) (low : k ≤ 3) :
    zeroBytes poly (k + n) (b.setWidth 32 <<< (8 * k)) = zeroBytes poly n (b.setWidth 32) := by
  induction k with
  | zero => simp
  | succ k ih =>
    have step : zeroByte poly (b.setWidth 32 <<< (8 * (k + 1))) = b.setWidth 32 <<< (8 * k) := by
      have shift : b.setWidth 32 <<< (8 * (k + 1)) = (b.setWidth 32 <<< (8 * k)) <<< 8 := by
        rw [← BitVec.shiftLeft_add, Nat.mul_succ]
      rw [shift, zeroByte_shiftLeft]
      apply BitVec.eq_of_getLsbD_eq
      intro i bound
      simp only [BitVec.getLsbD_ushiftRight, BitVec.getLsbD_shiftLeft, BitVec.getLsbD_setWidth]
      by_cases inside : 8 + i < 32
      · simp [inside, bound]
      · have outside : b.getLsbD (i - 8 * k) = false := BitVec.getLsbD_of_ge _ _ (by omega)
        simp [inside, outside]
    rw [show k + 1 + n = (k + n) + 1 by omega, zeroBytes, step, ih (by omega)]

section Serial

/-- One bit of input: it is compared with the bit that leaves the register. -/
def feedBit (c : BitVec 32) (bit : Bool) : BitVec 32 :=
  if c.getLsbD 0 != bit then (c >>> 1) ^^^ poly else c >>> 1

/-- The bits of a byte, lowest first. -/
def bitsOf (b : BitVec 8) : List Bool := (List.range 8).map b.getLsbD

/-- The check of a string, one bit of input at a time. -/
def serial (c : BitVec 32) (data : List (BitVec 8)) : BitVec 32 := (data.flatMap bitsOf).foldl (feedBit poly) c

/-- Bits that were joined to the register beforehand leave it in their turn. -/
theorem bitStep_joined (c w : BitVec 32) : bitStep poly (c ^^^ w) = feedBit poly c (w.getLsbD 0) ^^^ (w >>> 1) := by
  unfold bitStep feedBit
  rw [BitVec.getLsbD_xor, BitVec.ushiftRight_xor_distrib]
  cases c.getLsbD 0 <;> cases w.getLsbD 0 <;>
    simp only [bne_self_eq_false, Bool.bne_false, Bool.xor_true, Bool.not_false, if_true,
      if_false, Bool.false_eq_true]
  · rw [BitVec.xor_assoc, BitVec.xor_assoc, BitVec.xor_comm poly]
  · rw [BitVec.xor_assoc, BitVec.xor_assoc, BitVec.xor_comm poly]

theorem bits_joined (n : Nat) (c w : BitVec 32) :
    bits poly n (c ^^^ w) = ((List.range n).map w.getLsbD).foldl (feedBit poly) c ^^^ (w >>> n) := by
  induction n generalizing c w with
  | zero => simp [bits]
  | succ n ih =>
    have shifted : (List.range n).map (w >>> 1).getLsbD = ((List.range n).map Nat.succ).map w.getLsbD := by
      rw [List.map_map]
      refine List.map_congr_left fun i _ => ?_
      rw [BitVec.getLsbD_ushiftRight, Function.comp_apply, Nat.succ_eq_add_one, Nat.add_comm]
    rw [bits, bitStep_joined, ih, shifted, ← BitVec.shiftRight_add, Nat.add_comm 1 n,
      List.range_succ_eq_map, List.map_cons,
      List.foldl_cons]

theorem byteStep_eq_serial (c : BitVec 32) (b : BitVec 8) :
    byteStep poly c b = (bitsOf b).foldl (feedBit poly) c := by
  have low : (List.range 8).map (b.setWidth 32).getLsbD = bitsOf b := by
    refine List.map_congr_left fun i member => ?_
    have bound := List.mem_range.mp member
    rw [BitVec.getLsbD_setWidth, decide_eq_true (show i < 32 by omega), Bool.true_and]
  have gone : b.setWidth 32 >>> 8 = 0#32 := by
    apply BitVec.eq_of_getLsbD_eq
    intro i bound
    rw [BitVec.getLsbD_ushiftRight, BitVec.getLsbD_setWidth, BitVec.getLsbD_of_ge b _ (by omega), Bool.and_false,
      BitVec.getLsbD_zero]
  rw [byteStep, zeroByte, bits_joined, low, gone, BitVec.xor_zero]

theorem update_eq_serial (c : BitVec 32) (data : List (BitVec 8)) : update poly c data = serial poly c data := by
  induction data generalizing c with
  | nil => rfl
  | cons b data ih =>
    rw [update, List.foldl_cons, byteStep_eq_serial, serial, List.flatMap_cons, List.foldl_append]
    exact ih _

end Serial
end Crc
