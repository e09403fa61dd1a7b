import VectorForge.Util.NpyHeader

/-! Reading and writing .npy files. -/

namespace VectorForge
open LittleEndian NpyHeader

/-- An element of an array, as its bits. -/
abbrev NpyDtype.Element (dtype : NpyDtype) : Type := BitVec (8 * dtype.itemSize)

namespace NpyDtype

def bytesOf (dtype : NpyDtype) (values : List dtype.Element) : List Byte :=
  values.flatMap fun v => leBytes dtype.itemSize v.toNat

def elementsOf (dtype : NpyDtype) : (count : Nat) → List Byte → List dtype.Element
  | 0, _ => []
  | count + 1, bytes =>
    BitVec.ofNat _ (leValue (bytes.take dtype.itemSize)) :: dtype.elementsOf count (bytes.drop dtype.itemSize)

variable {dtype : NpyDtype}

theorem length_bytesOf (values : List dtype.Element) :
    (dtype.bytesOf values).length = values.length * dtype.itemSize := by
  induction values with
  | nil => simp [bytesOf]
  | cons v values ih =>
    have step : dtype.bytesOf (v :: values) = leBytes dtype.itemSize v.toNat ++ dtype.bytesOf values := rfl
    rw [step, List.length_append, length_leBytes, ih, List.length_cons, Nat.succ_mul, Nat.add_comm]

theorem elementsOf_bytesOf (values : List dtype.Element) :
    dtype.elementsOf values.length (dtype.bytesOf values) = values := by
  induction values with
  | nil => rfl
  | cons v values ih =>
    have step : dtype.bytesOf (v :: values) = leBytes dtype.itemSize v.toNat ++ dtype.bytesOf values := rfl
    have fits : v.toNat < 256 ^ dtype.itemSize := by
      have bound := v.isLt
      rwa [Nat.pow_mul] at bound
    rw [List.length_cons, elementsOf, step, List.take_left' (length_leBytes _ _),
      List.drop_left' (length_leBytes _ _),
      leValue_leBytes_of_lt fits, BitVec.ofNat_toNat, BitVec.setWidth_eq, ih]

end NpyDtype

structure Matrix (dtype : NpyDtype) where
  data : List dtype.Element := []
  rows : UInt64 := 0
  cols : UInt64 := 0

/-- `NpyReader`: `stream` is what has not been read yet. -/
structure NpyReader where
  path : String
  stream : List Byte
  header : NpyHeader

namespace NpyReader

def rows (r : NpyReader) : UInt64 := r.header.shape.getD 0 0

def cols (r : NpyReader) : UInt64 := if r.header.shape.length = 2 then r.header.shape.getD 1 0 else 1

/-- The length of preamble and header, from the first `count` bytes of the file. -/
def totalLength (path : String) (first : List Byte) (count : Nat) : Result Nat :=
  let major := first.getD 6 0
  if major = 1 then .ok (10 + ((first.getD 8 0).toNat ||| ((first.getD 9 0).toNat <<< 8)))
  else if (major = 2 ∨ major = 3) ∧ count = 12 then .ok (12 + leValue ((first.drop 8).take 4))
  else .error (.unsupportedVersion (path ++ ": unsupported .npy format version " ++ toString major.toNat))

/-- `NpyReader::open`. -/
def openFile (path : String) (file : List Byte) : Result NpyReader :=
  let size := file.length
  let count := min size 12
  let first := file.take count ++ List.replicate (12 - count) 0
  if count < 10 ∨ first.take 6 ≠ kNpyMagic then corrupt (path ++ ": not a .npy file (bad magic)")
  else do
    let total ← totalLength path first count
    if total > kMaxNpyHeaderLen + 12 ∨ total > size then corrupt (path ++ ": truncated or oversized .npy header")
    else
      match parseNpyHeader (file.take total) with
      | .error st => .error ⟨st.code, path ++ ": " ++ st.message⟩
      | .ok h =>
        let r : NpyReader := { path, stream := file.drop total, header := h }
        let bytes := checkedMul3 64 r.rows.toNat r.cols.toNat h.dtype.itemSize
        if bytes.bind (fun bytes => checkedAdd 64 bytes h.dataOffset) ≠ some size then
          corrupt (path ++ ": file size " ++ toString size ++ " does not match the header shape")
        else .ok r

def readBytes (r : NpyReader) (count : Nat) : Result (List Byte) :=
  if r.stream.length < count then corrupt (r.path ++ ": unexpected end of data") else .ok (r.stream.take count)

/-- The next `count` elements. -/
def read (r : NpyReader) (dtype : NpyDtype) (count : Nat) : Result (List dtype.Element) :=
  if dtype ≠ r.header.dtype then .error (.invalidArgument (r.path ++ ": dtype is " ++ shown r.header.dtype.descr))
  else do
    let bytes ← r.readBytes (count * dtype.itemSize)
    .ok (dtype.elementsOf count bytes)

end NpyReader

/-- `NpyWriter`: `stream` is what has been written. -/
structure NpyWriter where
  path : String
  stream : List Byte
  dtype : NpyDtype
  expected : Nat := 0
  written : Nat := 0

namespace NpyWriter

def create (path : String) (dtype : NpyDtype) (rows cols : UInt64) : Result NpyWriter :=
  match checkedMul 64 rows.toNat cols.toNat with
  | none => .error (.invalidArgument "NpyWriter: rows * cols overflows")
  | some expected => .ok { path, stream := makeNpyHeader dtype rows cols false, dtype, expected }

def writeBytes (w : NpyWriter) (bytes : List Byte) (count : Nat) : Result NpyWriter :=
  if (w.written + count) % 2 ^ 64 > w.expected then
    .error ⟨.failedPrecondition, w.path ++ ": more elements than the declared shape"⟩
  else .ok { w with stream := w.stream ++ bytes, written := (w.written + count) % 2 ^ 64 }

def write (w : NpyWriter) (dtype : NpyDtype) (values : List dtype.Element) : Result NpyWriter :=
  if dtype ≠ w.dtype then .error (.invalidArgument "NpyWriter: element type does not match dtype")
  else w.writeBytes (dtype.bytesOf values) values.length

/-- The closed file. -/
def finish (w : NpyWriter) : Result (List Byte) :=
  if w.written ≠ w.expected then
    .error ⟨.failedPrecondition, w.path ++ ": wrote " ++ toString w.written ++ " of " ++
      toString w.expected ++ " elements"⟩
  else .ok w.stream

end NpyWriter

def readNpy (dtype : NpyDtype) (path : String) (file : List Byte) : Result (Matrix dtype) := do
  let r ← NpyReader.openFile path file
  if r.header.dtype ≠ dtype then
    .error (.invalidArgument (path ++ ": dtype is " ++ shown r.header.dtype.descr ++
      ", expected " ++ shown dtype.descr))
  else
    match checkedMul 64 r.rows.toNat r.cols.toNat with
    | none => corrupt (path ++ ": array too large")
    | some total =>
      if total > (2 ^ 64 - 1) / dtype.itemSize then corrupt (path ++ ": array too large")
      else do
        let data ← r.read dtype total
        .ok { data, rows := r.rows, cols := r.cols }

/-- `write_npy`: the file it leaves. -/
def writeNpy (dtype : NpyDtype) (path : String) (values : List dtype.Element) (rows cols : UInt64) :
    Result (List Byte) :=
  if checkedMul 64 rows.toNat cols.toNat ≠ some values.length then
    .error (.invalidArgument "write_npy: values do not match rows x cols")
  else do
    let w ← NpyWriter.create path dtype rows cols
    let w ← w.write dtype values
    w.finish

namespace NpyReader
variable {dtype : NpyDtype} {path : String} {values : List dtype.Element} {rows cols : UInt64} {file : List Byte}

/-- A matrix whose values match its shape is written. -/
theorem writeNpy_of_shape (path : String) (product : rows.toNat * cols.toNat = values.length)
    (fits : values.length < 2 ^ 64) :
    writeNpy dtype path values rows cols = .ok (makeNpyHeader dtype rows cols false ++ dtype.bytesOf values) := by
  have shape : checkedMul 64 rows.toNat cols.toNat = some values.length :=
    checkedMul_eq_some.mpr ⟨by omega, product.symm⟩
  rw [writeNpy, if_neg (not_not.mpr shape), NpyWriter.create, shape]
  simp only [bind, Except.bind, NpyWriter.write, ne_eq, not_true_eq_false, if_false,
    NpyWriter.writeBytes, Nat.zero_add]
  rw [Nat.mod_eq_of_lt fits, if_neg (Nat.lt_irrefl _)]
  exact if_neg (not_not.mpr rfl)

/-- The file behind a successful `write_npy`. -/
theorem file_of_writeNpy (run : writeNpy dtype path values rows cols = .ok file) :
    rows.toNat * cols.toNat = values.length ∧ values.length < 2 ^ 64 ∧
    file = makeNpyHeader dtype rows cols false ++ dtype.bytesOf values := by
  have shape : checkedMul 64 rows.toNat cols.toNat = some values.length := by
    rw [writeNpy] at run
    split at run
    · cases run
    next shape => exact not_not.mp shape
  obtain ⟨fits, product⟩ := checkedMul_eq_some.mp shape
  rw [writeNpy_of_shape path product.symm (by omega)] at run
  exact ⟨product.symm, by omega, (Except.ok.inj run).symm⟩

theorem openFile_of_written (product : rows.toNat * cols.toNat = values.length)
    (held : values.length * dtype.itemSize < 2 ^ 63) :
    openFile path (makeNpyHeader dtype rows cols false ++ dtype.bytesOf values) =
      .ok { path, stream := dtype.bytesOf values, header := {
        dtype, shape := [rows, cols], dataOffset := (makeNpyHeader dtype rows cols false).length } } := by
  obtain ⟨lo, hi, header, field⟩ := makeNpyHeader_eq dtype rows cols false
  have bound := length_dictText dtype rows cols false
  have padded := length_padded dtype rows cols false
  obtain ⟨parsed, -, -⟩ := header_round_trips dtype rows cols false
  have size : dtype.itemSize = 4 ∨ dtype.itemSize = 8 := by cases dtype <;> decide
  generalize dictText dtype rows cols false ++ padding dtype rows cols false = dict at header field padded
  have magic : kNpyMagic = [0x93, 0x4E, 0x55, 0x4D, 0x50, 0x59] := by decide
  rw [magic] at header
  have length : (makeNpyHeader dtype rows cols false).length = dict.length + 10 := by
    rw [header]
    rfl
  have whole : (makeNpyHeader dtype rows cols false ++ dtype.bytesOf values).length = dict.length + 10 +
      values.length * dtype.itemSize := by
    rw [List.length_append, length, NpyDtype.length_bytesOf]
  have first : (makeNpyHeader dtype rows cols false ++ dtype.bytesOf values).take 12 ++ List.replicate (12 - 12) 0 =
      0x93 :: 0x4E :: 0x55 :: 0x4D :: 0x50 :: 0x59 :: 0x01 :: 0x00 :: lo :: hi ::
      (dict ++ dtype.bytesOf values).take 2 := by
    rw [header]
    exact List.append_nil _
  have start : totalLength path ((makeNpyHeader dtype rows cols false ++ dtype.bytesOf values).take 12 ++
      List.replicate (12 - 12) 0) 12 =
      .ok (makeNpyHeader dtype rows cols false).length := by
    rw [first, length, ← field, Nat.add_comm]
    rfl
  have count : min (makeNpyHeader dtype rows cols false ++ dtype.bytesOf values).length 12 = 12 := by omega
  have short : values.length < 2 ^ 63 := (Nat.le_mul_of_pos_right _ (by omega)).trans_lt held
  have shape : checkedMul3 64 rows.toNat cols.toNat dtype.itemSize = some (values.length * dtype.itemSize) := by
    rw [checkedMul3, checkedMul_eq_some.mpr ⟨by omega, rfl⟩, product, Option.bind_some,
      checkedMul_eq_some.mpr ⟨by omega, rfl⟩]
  have total : checkedAdd 64 (values.length * dtype.itemSize) (makeNpyHeader dtype rows cols false).length =
      some (makeNpyHeader dtype rows cols false ++ dtype.bytesOf values).length := by
    rw [whole, length]
    exact (checkedAdd_eq_some (by omega)).mpr ⟨by omega, by omega⟩
  rw [openFile]
  simp only [count]
  rw [if_neg (by rw [first, magic]; exact fun bad => bad.elim (by decide) fun no => no rfl), start]
  simp only [bind, Except.bind]
  rw [if_neg (by rw [whole, length, kMaxNpyHeaderLen]; omega), List.take_left, List.drop_left, parsed]
  simp only [NpyReader.rows, NpyReader.cols, Bool.false_eq_true, if_false]
  refine if_neg (not_not.mpr ?_)
  rw [← total, ← Option.bind_some (f := fun bytes => checkedAdd 64 bytes _), ← shape]
  rfl

end NpyReader

section RoundTrip
variable (dtype : NpyDtype) (path : String) (rows cols : UInt64) (oneDimensional : Bool)

/-- Headers and files are read back as they were written. An array in memory has fewer than 2^63 bytes. -/
theorem npy_round_trips :
    HeaderRoundTrips dtype rows cols oneDimensional ∧
      ∀ (values : List dtype.Element) (file : List Byte), values.length * dtype.itemSize < 2 ^ 63 →
      writeNpy dtype path values rows cols = .ok file →
        readNpy dtype path file = .ok ({ data := values, rows, cols } : Matrix dtype) := by
  refine ⟨header_round_trips dtype rows cols oneDimensional, ?_⟩
  intro values file held run
  obtain ⟨product, fits, rfl⟩ := NpyReader.file_of_writeNpy run
  have size : dtype.itemSize = 4 ∨ dtype.itemSize = 8 := by cases dtype <;> decide
  have all : (dtype.bytesOf values).length = values.length * dtype.itemSize := NpyDtype.length_bytesOf values
  have enough : values.length ≤ (2 ^ 64 - 1) / dtype.itemSize := (Nat.le_div_iff_mul_le (by omega)).mpr (by omega)
  have shape : checkedMul 64 rows.toNat cols.toNat = some values.length :=
    checkedMul_eq_some.mpr ⟨by omega, product.symm⟩
  rw [readNpy, NpyReader.openFile_of_written product held]
  simp only [bind, Except.bind, NpyReader.rows, NpyReader.cols, ne_eq, not_true_eq_false, if_false]
  have short : values.length < 2 ^ 63 := (Nat.le_mul_of_pos_right _ (by omega)).trans_lt held
  have height : [rows, cols].getD 0 0 = rows := rfl
  have width : (if [rows, cols].length = 2 then [rows, cols].getD 1 0 else 1) = cols := rfl
  simp only [height, width, shape]
  rw [if_neg (by omega), NpyReader.read, if_neg (not_not.mpr rfl), NpyReader.readBytes,
    if_neg (by simp only [all, Nat.lt_irrefl, not_false_eq_true])]
  simp only [bind, Except.bind, ← all, List.take_length, NpyDtype.elementsOf_bytesOf]

end RoundTrip

/-- A matrix without columns, and one with two entries. -/
theorem npy_round_trips_small : readNpy .int32 "m" (makeNpyHeader .int32 3 0 false) =
    .ok { data := [], rows := 3, cols := 0 } ∧
    readNpy .uint64 "m" (makeNpyHeader .uint64 2 1 false ++ [5, 0, 0, 0, 0, 0, 0, 0, 0, 1, 0, 0, 0, 0, 0, 0]) =
      .ok { data := [5, 256], rows := 2, cols := 1 } := by
  have empty : writeNpy .int32 "m" [] 3 0 = .ok (makeNpyHeader .int32 3 0 false) :=
    (NpyReader.writeNpy_of_shape "m" rfl (by decide)).trans
      (by rw [NpyDtype.bytesOf, List.flatMap_nil, List.append_nil])
  exact ⟨(npy_round_trips .int32 "m" 3 0 false).2 [] _ (by decide) empty,
    (npy_round_trips .uint64 "m" 2 1 false).2 [5, 256] _ (by decide)
    (NpyReader.writeNpy_of_shape "m" rfl (by decide))⟩

end VectorForge
