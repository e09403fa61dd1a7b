import VectorForge.Storage.Crc32c
import VectorForge.Lib.LittleEndian

namespace VectorForge
open LittleEndian

/-- `ByteReader`, held as the bytes that have not been read yet. -/
structure ByteReader where
  rest : List Byte
  deriving DecidableEq, Repr

namespace ByteReader

def remaining (r : ByteReader) : Nat := r.rest.length

/-- The next `count` bytes, or nothing if fewer remain. -/
def readView (r : ByteReader) (count : Nat) : Option (List Byte × ByteReader) :=
  if r.remaining < count then none else some (r.rest.take count, ⟨r.rest.drop count⟩)

def readU8 (r : ByteReader) : Option (UInt8 × ByteReader) :=
  (r.readView 1).map fun (bytes, r) => (UInt8.ofNat (leValue bytes), r)

def readU16 (r : ByteReader) : Option (UInt16 × ByteReader) :=
  (r.readView 2).map fun (bytes, r) => (UInt16.ofNat (leValue bytes), r)

def readU32 (r : ByteReader) : Option (UInt32 × ByteReader) :=
  (r.readView 4).map fun (bytes, r) => (UInt32.ofNat (leValue bytes), r)

def readU64 (r : ByteReader) : Option (UInt64 × ByteReader) :=
  (r.readView 8).map fun (bytes, r) => (UInt64.ofNat (leValue bytes), r)

theorem readView_append {bytes : List Byte} (tail : List Byte) {count : Nat} (length : bytes.length = count) :
    readView ⟨bytes ++ tail⟩ count = some (bytes, ⟨tail⟩) := by
  subst length
  simp [readView, remaining]

@[simp] theorem readU8_append (v : UInt8) (tail : List Byte) :
    readU8 ⟨leBytes 1 v.toNat ++ tail⟩ = some (v, ⟨tail⟩) := by
  have fits : v.toNat < 256 ^ 1 := v.toNat_lt
  simp [readU8, readView_append _ (length_leBytes 1 _), leValue_leBytes_of_lt fits]

@[simp] theorem readU16_append (v : UInt16) (tail : List Byte) :
    readU16 ⟨leBytes 2 v.toNat ++ tail⟩ = some (v, ⟨tail⟩) := by
  have fits : v.toNat < 256 ^ 2 := v.toNat_lt
  simp [readU16, readView_append _ (length_leBytes 2 _), leValue_leBytes_of_lt fits]

@[simp] theorem readU32_append (v : UInt32) (tail : List Byte) :
    readU32 ⟨leBytes 4 v.toNat ++ tail⟩ = some (v, ⟨tail⟩) := by
  have fits : v.toNat < 256 ^ 4 := v.toNat_lt
  simp [readU32, readView_append _ (length_leBytes 4 _), leValue_leBytes_of_lt fits]

@[simp] theorem readU64_append (v : UInt64) (tail : List Byte) :
    readU64 ⟨leBytes 8 v.toNat ++ tail⟩ = some (v, ⟨tail⟩) := by
  have fits : v.toNat < 256 ^ 8 := v.toNat_lt
  simp [readU64, readView_append _ (length_leBytes 8 _), leValue_leBytes_of_lt fits]

section Sequence
variable {α : Type}

/-- A field that was written first is read first, and the next reader starts behind it. -/
theorem bind_readU8 (v : UInt8) (tail : List Byte) (k : UInt8 × ByteReader → Option α) :
    (readU8 ⟨leBytes 1 v.toNat ++ tail⟩ >>= k) = k (v, ⟨tail⟩) := by
  rw [readU8_append]
  rfl

theorem bind_readU16 (v : UInt16) (tail : List Byte) (k : UInt16 × ByteReader → Option α) :
    (readU16 ⟨leBytes 2 v.toNat ++ tail⟩ >>= k) = k (v, ⟨tail⟩) := by
  rw [readU16_append]
  rfl

theorem bind_readU32 (v : UInt32) (tail : List Byte) (k : UInt32 × ByteReader → Option α) :
    (readU32 ⟨leBytes 4 v.toNat ++ tail⟩ >>= k) = k (v, ⟨tail⟩) := by
  rw [readU32_append]
  rfl

theorem bind_readU64 (v : UInt64) (tail : List Byte) (k : UInt64 × ByteReader → Option α) :
    (readU64 ⟨leBytes 8 v.toNat ++ tail⟩ >>= k) = k (v, ⟨tail⟩) := by
  rw [readU64_append]
  rfl

theorem bind_readU8_zero (tail : List Byte) (k : UInt8 × ByteReader → Option α) :
    (readU8 ⟨leBytes 1 0 ++ tail⟩ >>= k) = k (0, ⟨tail⟩) := bind_readU8 0 tail k

theorem bind_readU16_zero (tail : List Byte) (k : UInt16 × ByteReader → Option α) :
    (readU16 ⟨leBytes 2 0 ++ tail⟩ >>= k) = k (0, ⟨tail⟩) := bind_readU16 0 tail k

theorem bind_readU32_zero (tail : List Byte) (k : UInt32 × ByteReader → Option α) :
    (readU32 ⟨leBytes 4 0 ++ tail⟩ >>= k) = k (0, ⟨tail⟩) := bind_readU32 0 tail k

theorem bind_readU64_zero (tail : List Byte) (k : UInt64 × ByteReader → Option α) :
    (readU64 ⟨leBytes 8 0 ++ tail⟩ >>= k) = k (0, ⟨tail⟩) := bind_readU64 0 tail k

end Sequence

end ByteReader

/-- Destination of encoded bytes: `write` appends, `writeAt` overwrites written bytes. -/
class ByteSink (σ : Type) where
  write : σ → List Byte → Result σ
  writeAt : σ → Nat → List Byte → Result σ

/-- `MemorySink`. -/
structure MemorySink where
  bytes : List Byte := []
  deriving DecidableEq, Repr

/-- `checked_add` on `width`-bit words. -/
def checkedAdd (width a b : Nat) : Option Nat := if a > 2 ^ width - 1 - b then none else some (a + b)

/-- `checked_mul` on `width`-bit words. -/
def checkedMul (width a b : Nat) : Option Nat :=
  if a ≠ 0 ∧ b > (2 ^ width - 1) / a then none else some (a * b)

def checkedMul3 (width a b c : Nat) : Option Nat :=
  (checkedMul width a b).bind fun ab => checkedMul width ab c

namespace MemorySink

def write (s : MemorySink) (data : List Byte) : Result MemorySink := .ok ⟨s.bytes ++ data⟩

def writeAt (s : MemorySink) (offset : Nat) (data : List Byte) : Result MemorySink :=
  match checkedAdd 64 offset data.length with
  | some stop =>
    if stop > s.bytes.length then .error (.ioError "MemorySink::write_at beyond written data")
    else .ok ⟨s.bytes.take offset ++ data ++ s.bytes.drop (offset + data.length)⟩
  | none => .error (.ioError "MemorySink::write_at beyond written data")

instance : ByteSink MemorySink := ⟨write, writeAt⟩

end MemorySink

/-- `BinaryWriter`: the first sink error sticks and turns later writes into no-ops. -/
structure BinaryWriter (σ : Type) where
  sink : σ
  status : Option Status := none
  position : Nat := 0
  crc : UInt32 := 0

namespace BinaryWriter
variable {σ : Type} [ByteSink σ]

def bytes (w : BinaryWriter σ) (data : List Byte) : BinaryWriter σ :=
  if w.status.isSome ∨ data = [] then w
  else match ByteSink.write w.sink data with
    | .error st => { w with status := some st }
    | .ok sink => { w with sink := sink, crc := crc32cExtend w.crc data, position := w.position + data.length }

def u8 (w : BinaryWriter σ) (v : UInt8) : BinaryWriter σ := w.bytes (leBytes 1 v.toNat)
def u16 (w : BinaryWriter σ) (v : UInt16) : BinaryWriter σ := w.bytes (leBytes 2 v.toNat)
def u32 (w : BinaryWriter σ) (v : UInt32) : BinaryWriter σ := w.bytes (leBytes 4 v.toNat)
def u64 (w : BinaryWriter σ) (v : UInt64) : BinaryWriter σ := w.bytes (leBytes 8 v.toNat)

/-- Raw little-endian bytes of an array whose elements are `width` bytes wide. -/
def array (w : BinaryWriter σ) (width : Nat) (values : List Nat) : BinaryWriter σ :=
  w.bytes (values.flatMap (leBytes width))

def kBlock : Nat := 4096

/-- Zero bytes in blocks of at most `kBlock`. -/
def zeros (w : BinaryWriter σ) (count : Nat) : BinaryWriter σ :=
  if count = 0 ∨ w.status.isSome then w
  else zeros (w.bytes (List.replicate (min count kBlock) 0)) (count - min count kBlock)
termination_by count
decreasing_by simp only [kBlock]; omega

def beginCrc (w : BinaryWriter σ) : BinaryWriter σ := { w with crc := 0 }

/-- The writer after `data` has gone into a sink that accepts everything. -/
def appended (w : BinaryWriter MemorySink) (data : List Byte) : BinaryWriter MemorySink :=
  { w with sink := ⟨w.sink.bytes ++ data⟩, crc := crc32cExtend w.crc data, position := w.position + data.length }

section Memory
variable {w : BinaryWriter MemorySink}

@[simp] theorem appended_status (data : List Byte) : (w.appended data).status = w.status := rfl

@[simp] theorem appended_position (data : List Byte) :
    (w.appended data).position = w.position + data.length := rfl

@[simp] theorem appended_sink (data : List Byte) : (w.appended data).sink.bytes = w.sink.bytes ++ data := rfl

@[simp] theorem appended_crc (data : List Byte) : (w.appended data).crc = crc32cExtend w.crc data := rfl

@[simp] theorem appended_nil : w.appended [] = w := by
  simp [appended]

@[simp] theorem appended_appended (a b : List Byte) : (w.appended a).appended b = w.appended (a ++ b) := by
  simp [appended, crc32cExtend_append, Nat.add_assoc]

theorem bytes_eq_appended (clean : w.status = none) (data : List Byte) : w.bytes data = w.appended data := by
  by_cases empty : data = []
  · simp [bytes, empty]
  · simp [bytes, empty, clean, ByteSink.write, MemorySink.write, appended]

theorem zeros_eq_appended (clean : w.status = none) (count : Nat) :
    w.zeros count = w.appended (List.replicate count 0) := by
  induction count using Nat.strong_induction_on generalizing w with
  | _ count ih =>
    unfold zeros
    by_cases empty : count = 0
    · simp [empty]
    · rw [if_neg (by simp [empty, clean]), bytes_eq_appended clean,
        ih _ (by simp only [kBlock]; omega) (by simpa using clean), appended_appended,
        List.replicate_append_replicate]
      congr 2
      omega

end Memory
end BinaryWriter

theorem checkedAdd_eq_some {width a b sum : Nat} (fits : b < 2 ^ width) :
    checkedAdd width a b = some sum ↔ a + b < 2 ^ width ∧ sum = a + b := by
  unfold checkedAdd
  split
  · simp; omega
  · simp; omega

theorem checkedMul_eq_some {width a b product : Nat} :
    checkedMul width a b = some product ↔ a * b < 2 ^ width ∧ product = a * b := by
  have positive : 0 < 2 ^ width := Nat.two_pow_pos width
  unfold checkedMul
  by_cases zero : a = 0
  · subst zero
    simp [eq_comm]
  · have bound : b > (2 ^ width - 1) / a ↔ ¬ a * b < 2 ^ width := by
      rw [gt_iff_lt, Nat.div_lt_iff_lt_mul (Nat.pos_of_ne_zero zero), Nat.mul_comm b a]
      omega
    by_cases fits : a * b < 2 ^ width
    · rw [if_neg (by simp only [bound]; tauto)]
      simp [fits, eq_comm]
    · rw [if_pos ⟨zero, bound.mpr fits⟩]
      simp [fits]

end VectorForge
