import VectorForge.Storage.BinaryIo

/-! The checksum of whatever a writer has been given. -/

namespace VectorForge

/-- CRC-32C by its definition, one bit at a time. -/
def crc32cSerial (crc : UInt32) (data : List Byte) : UInt32 :=
  ⟨~~~Crc.serial kPolynomial (~~~crc.toBitVec) (data.map UInt8.toBitVec)⟩

theorem crc32cExtend_eq_serial (crc : UInt32) (data : List Byte) :
    crc32cExtend crc data = crc32cSerial crc data := by
  rw [crc32cExtend, crcLoop_eq_update, Crc.update_eq_serial]
  rfl

namespace BinaryWriter
variable {σ : Type} [ByteSink σ] {w : BinaryWriter σ}

/-- What a caller asks of the writer; numbers and arrays are bytes, padding is zeros. -/
inductive Request where
  | bytes (data : List Byte)
  | zeros (count : Nat)

namespace Request

def perform (w : BinaryWriter σ) : Request → BinaryWriter σ
  | bytes data => w.bytes data
  | zeros count => w.zeros count

def content : Request → List Byte
  | bytes data => data
  | zeros count => List.replicate count 0

end Request

/-- The writer has added `data` to its checksum, if it is still good. -/
def Covers (w w' : BinaryWriter σ) (data : List Byte) : Prop :=
  w'.status = none → w.status = none ∧ w'.crc = crc32cExtend w.crc data

omit [ByteSink σ] in
theorem covers_refl (w : BinaryWriter σ) : Covers w w [] := fun good => ⟨good, (crc32cExtend_nil _).symm⟩

omit [ByteSink σ] in
theorem Covers.trans {w' w'' : BinaryWriter σ} {a b : List Byte} (first : Covers w w' a)
    (second : Covers w' w'' b) : Covers w w'' (a ++ b) := by
  intro good
  obtain ⟨between, last⟩ := second good
  obtain ⟨start, crc⟩ := first between
  exact ⟨start, by rw [last, crc, crc32cExtend_append]⟩

theorem covers_bytes (w : BinaryWriter σ) (data : List Byte) : Covers w (w.bytes data) data := by
  intro good
  rw [bytes] at good ⊢
  split at good
  next idle =>
    rw [if_pos idle]
    rcases idle with failed | empty
    · rw [good] at failed
      cases failed
    · rw [empty]
      exact covers_refl w good
  next busy =>
    rw [if_neg busy]
    have start : w.status = none := by simpa using (not_or.mp busy).1
    cases written : ByteSink.write w.sink data with
    | error st =>
      rw [written] at good
      cases good
    | ok sink => exact ⟨start, rfl⟩

theorem covers_zeros (w : BinaryWriter σ) (count : Nat) : Covers w (w.zeros count) (List.replicate count 0) := by
  induction count using Nat.strong_induction_on generalizing w with
  | _ count ih =>
    unfold zeros
    split
    next idle =>
      intro good
      rcases idle with empty | failed
      · rw [empty]
        exact covers_refl w good
      · rw [good] at failed
        cases failed
    next busy =>
      have some := not_or.mp busy
      have split : List.replicate count (0 : Byte) =
          List.replicate (min count kBlock) 0 ++ List.replicate (count - min count kBlock) 0 := by
        rw [List.replicate_append_replicate]
        congr 1
        omega
      rw [split]
      refine (covers_bytes w _).trans (ih _ ?_ _)
      simp only [kBlock]
      omega

theorem covers_requests (w : BinaryWriter σ) (requests : List Request) :
    Covers w (requests.foldl Request.perform w) (requests.flatMap Request.content) := by
  induction requests generalizing w with
  | nil => exact covers_refl w
  | cons r requests ih =>
    rw [List.foldl_cons, List.flatMap_cons]
    refine Covers.trans ?_ (ih _)
    cases r with
    | bytes data => exact covers_bytes w data
    | zeros count => exact covers_zeros w count

/-- The tables compute CRC-32C, piece by piece or at once, and so does a writer, whatever the sink and
however the bytes are handed to it. -/
theorem checksum_is_crc32c :
    (∀ (crc : UInt32) (data : List Byte), crc32cExtend crc data = crc32cSerial crc data) ∧
      (∀ (crc : UInt32) (a b : List Byte), crc32cExtend (crc32cExtend crc a) b = crc32cExtend crc (a ++ b)) ∧
      ∀ (τ : Type) [ByteSink τ] (w : BinaryWriter τ) (requests : List Request),
        (requests.foldl Request.perform w.beginCrc).status = none →
          (requests.foldl Request.perform w.beginCrc).crc = crc32c (requests.flatMap Request.content) :=
  ⟨crc32cExtend_eq_serial, fun crc a b => (crc32cExtend_append crc a b).symm,
    fun _ _ w requests good => (covers_requests w.beginCrc requests good).2⟩

example : crc32c [0x31, 0x32, 0x33, 0x34, 0x35, 0x36, 0x37, 0x38, 0x39] = 0xE3069283 := by decide +kernel

end BinaryWriter
end VectorForge
