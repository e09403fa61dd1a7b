import VectorForge.Core.Types
import VectorForge.Lib.Crc

namespace VectorForge

/-- The reflected Castagnoli polynomial. -/
def kPolynomial : BitVec 32 := 0x82F63B78#32

/-- `kTables[k][b]`: the check of byte `b` followed by `k` zero bytes. Row 0 runs
eight single-bit steps; each later row feeds one more zero byte through row 0. -/
def kTables : Nat → BitVec 8 → BitVec 32
  | 0, b => Crc.bits kPolynomial 8 (b.setWidth 32)
  | k + 1, b =>
    let prev := kTables k b
    (prev >>> 8) ^^^ Crc.bits kPolynomial 8 ((prev.setWidth 8).setWidth 32)

/-- The byte-wise step of the tail loop. -/
def tailStep (c : BitVec 32) (b : Byte) : BitVec 32 :=
  (c >>> 8) ^^^ kTables 0 ((c ^^^ b.toBitVec.setWidth 32).setWidth 8)

/-- The four bytes that are folded into the register, as the source assembles them. -/
def packLow (b0 b1 b2 b3 : Byte) : BitVec 32 :=
  b0.toBitVec.setWidth 32 ||| (b1.toBitVec.setWidth 32 <<< 8) |||
    (b2.toBitVec.setWidth 32 <<< 16) ||| (b3.toBitVec.setWidth 32 <<< 24)

/-- Both loops of `crc32c_extend`: eight bytes per step while eight are left, then one. -/
def crcLoop (c : BitVec 32) : List Byte → BitVec 32
  | b0 :: b1 :: b2 :: b3 :: b4 :: b5 :: b6 :: b7 :: rest =>
    let lo := c ^^^ packLow b0 b1 b2 b3
    crcLoop
      (kTables 7 (lo.setWidth 8) ^^^ kTables 6 ((lo >>> 8).setWidth 8) ^^^
        kTables 5 ((lo >>> 16).setWidth 8) ^^^ kTables 4 ((lo >>> 24).setWidth 8) ^^^
        kTables 3 b4.toBitVec ^^^ kTables 2 b5.toBitVec ^^^ kTables 1 b6.toBitVec ^^^
        kTables 0 b7.toBitVec) rest
  | tail => tail.foldl tailStep c

def crc32cExtend (crc : UInt32) (data : List Byte) : UInt32 :=
  ⟨~~~ crcLoop (~~~ crc.toBitVec) data⟩

def crc32c (data : List Byte) : UInt32 := crc32cExtend 0 data

theorem kTables_eq_zeroBytes (k : Nat) (b : BitVec 8) :
    kTables k b = Crc.zeroBytes kPolynomial (k + 1) (b.setWidth 32) := by
  induction k with
  | zero => rfl
  | succ k ih =>
    rw [← Crc.zeroByte_zeroBytes kPolynomial (k + 1), Crc.zeroByte_split, ← ih]
    rfl

theorem tailStep_eq_byteStep (c : BitVec 32) (b : Byte) :
    tailStep c b = Crc.byteStep kPolynomial c b.toBitVec := by
  have high : (c ^^^ b.toBitVec.setWidth 32) >>> 8 = c >>> 8 := by
    apply BitVec.eq_of_getLsbD_eq
    intro i bound
    simp [BitVec.getLsbD_ushiftRight, BitVec.getLsbD_xor, BitVec.getLsbD_setWidth]
  rw [Crc.byteStep, Crc.zeroByte_split, high]
  rfl

/-- Slice-by-8 folds eight bytes exactly as eight single-byte steps do. -/
theorem slice_eq_update (c : BitVec 32) (b0 b1 b2 b3 b4 b5 b6 b7 : Byte) :
    kTables 7 ((c ^^^ packLow b0 b1 b2 b3).setWidth 8) ^^^
        kTables 6 (((c ^^^ packLow b0 b1 b2 b3) >>> 8).setWidth 8) ^^^
        kTables 5 (((c ^^^ packLow b0 b1 b2 b3) >>> 16).setWidth 8) ^^^
        kTables 4 (((c ^^^ packLow b0 b1 b2 b3) >>> 24).setWidth 8) ^^^
        kTables 3 b4.toBitVec ^^^ kTables 2 b5.toBitVec ^^^ kTables 1 b6.toBitVec ^^^
        kTables 0 b7.toBitVec =
      Crc.update kPolynomial c ([b0, b1, b2, b3, b4, b5, b6, b7].map UInt8.toBitVec) := by
  have spread (lo : BitVec 32) : Crc.zeroBytes kPolynomial 8 lo =
      kTables 7 (lo.setWidth 8) ^^^ kTables 6 ((lo >>> 8).setWidth 8) ^^^
        kTables 5 ((lo >>> 16).setWidth 8) ^^^ kTables 4 ((lo >>> 24).setWidth 8) := by
    have whole := congrArg (Crc.zeroBytes kPolynomial 8) (Crc.four_bytes lo)
    simp only [Crc.zeroBytes_xor] at whole
    rw [Crc.zeroBytes_shifted kPolynomial 1 7 _ (by omega), Crc.zeroBytes_shifted kPolynomial 2 6 _ (by omega),
      Crc.zeroBytes_shifted kPolynomial 3 5 _ (by omega)] at whole
    simp only [kTables_eq_zeroBytes]
    exact whole
  have joined : Crc.zeroBytes kPolynomial 8 (packLow b0 b1 b2 b3) =
      Crc.zeroBytes kPolynomial 8 (b0.toBitVec.setWidth 32) ^^^
        Crc.zeroBytes kPolynomial 7 (b1.toBitVec.setWidth 32) ^^^
        Crc.zeroBytes kPolynomial 6 (b2.toBitVec.setWidth 32) ^^^
        Crc.zeroBytes kPolynomial 5 (b3.toBitVec.setWidth 32) := by
    rw [packLow, Crc.join_bytes]
    simp only [Crc.zeroBytes_xor]
    rw [Crc.zeroBytes_shifted kPolynomial 1 7 _ (by omega), Crc.zeroBytes_shifted kPolynomial 2 6 _ (by omega),
      Crc.zeroBytes_shifted kPolynomial 3 5 _ (by omega)]
  rw [← spread, Crc.zeroBytes_xor, joined]
  simp only [List.map_cons, List.map_nil, Crc.update_eight, kTables_eq_zeroBytes, BitVec.xor_assoc]

theorem tail_eq_update (c : BitVec 32) (data : List Byte) :
    data.foldl tailStep c = Crc.update kPolynomial c (data.map UInt8.toBitVec) := by
  induction data generalizing c with
  | nil => rfl
  | cons b data ih =>
    rw [List.foldl_cons, ih, tailStep_eq_byteStep]
    rfl

/-- The table-driven loops compute the bit-by-bit check, whatever the length. -/
theorem crcLoop_eq_update (c : BitVec 32) (data : List Byte) :
    crcLoop c data = Crc.update kPolynomial c (data.map UInt8.toBitVec) := by
  fun_induction crcLoop c data with
  | case1 c b0 b1 b2 b3 b4 b5 b6 b7 rest lo ih =>
    rw [ih, slice_eq_update, ← Crc.update_append, ← List.map_append]
    rfl
  | case2 c tail _ => exact tail_eq_update c tail

theorem crc32cExtend_append (crc : UInt32) (a b : List Byte) :
    crc32cExtend crc (a ++ b) = crc32cExtend (crc32cExtend crc a) b := by
  simp only [crc32cExtend, crcLoop_eq_update, List.map_append, Crc.update_append, BitVec.not_not]

@[simp] theorem crc32cExtend_nil (crc : UInt32) : crc32cExtend crc [] = crc := by
  simp [crc32cExtend, crcLoop]

end VectorForge
