import VectorForge.Util.NpyFile

/-! Files of records that each begin with their dimension. -/

namespace VectorForge
open LittleEndian NpyHeader

namespace TexmexFile

def kMaxTexmexDim : Nat := 2 ^ 24

/-- `static_cast<std::int32_t>`. -/
def signed (value : Nat) : Int := if value < 2 ^ 31 then value else (value : Int) - 2 ^ 32

/-- The rows that are left, from row `r` on. -/
def readRecords (dtype : NpyDtype) (path : String) (dim : Nat) : (r left : Nat) → List Byte →
    Result (List dtype.Element)
  | _, 0, _ => .ok []
  | r, left + 1, stream =>
    if stream.length < 4 then corrupt (path ++ ": truncated at row " ++ toString r)
    else if leValue (stream.take 4) ≠ dim then
      corrupt (path ++ ": row " ++ toString r ++ " has a different dimension")
    else
      let stream := stream.drop 4
      if stream.length < dim * dtype.itemSize then corrupt (path ++ ": truncated at row " ++ toString r)
      else do
        let rest ← readRecords dtype path dim (r + 1) left (stream.drop (dim * dtype.itemSize))
        .ok (dtype.elementsOf dim stream ++ rest)

/-- `read_texmex`. All rows are read if `maxRows` is zero. -/
def readTexmex (dtype : NpyDtype) (path : String) (file : List Byte) (maxRows : UInt64) : Result (Matrix dtype) :=
  let size := file.length
  if size = 0 then .ok {}
  else if size < 4 then corrupt (path ++ ": truncated record header")
  else
    let dimSigned := signed (leValue (file.take 4))
    if dimSigned ≤ 0 ∨ dimSigned > kMaxTexmexDim then corrupt (path ++ ": invalid dimension " ++ toString dimSigned)
    else
      let dim := dimSigned.toNat
      let record := 4 + dim * dtype.itemSize
      if size % record ≠ 0 then
        corrupt (path ++ ": file size " ++ toString size ++
          " is not a multiple of the record size " ++ toString record)
      else
        let rows := if maxRows ≠ 0 then min (size / record) maxRows.toNat else size / record
        match checkedMul 64 rows dim with
        | none => corrupt (path ++ ": matrix too large")
        | some total =>
          if total > (2 ^ 64 - 1) / dtype.itemSize then corrupt (path ++ ": matrix too large")
          else do
            let data ← readRecords dtype path dim 0 rows file
            .ok { data, rows := UInt64.ofNat rows, cols := UInt64.ofNat dim }

def writeRecords (dtype : NpyDtype) (cols : Nat) : (rows : Nat) → List dtype.Element → List Byte
  | 0, _ => []
  | rows + 1, values =>
    leBytes 4 cols ++ (dtype.bytesOf (values.take cols) ++ writeRecords dtype cols rows (values.drop cols))

/-- `write_texmex`: the file it leaves. -/
def writeTexmex (dtype : NpyDtype) (values : List dtype.Element) (rows cols : UInt64) : Result (List Byte) :=
  if checkedMul 64 rows.toNat cols.toNat ≠ some values.length ∨ cols = 0 ∨ cols.toNat > kMaxTexmexDim then
    .error (.invalidArgument "write_texmex: values do not match rows x cols")
  else .ok (writeRecords dtype cols.toNat rows.toNat values)

def readFvecs : String → List Byte → UInt64 → Result (Matrix .float32) := readTexmex .float32

def readIvecs : String → List Byte → UInt64 → Result (Matrix .int32) := readTexmex .int32

def writeFvecs : List NpyDtype.float32.Element → (rows cols : UInt64) → Result (List Byte) := writeTexmex .float32

def writeIvecs : List NpyDtype.int32.Element → (rows cols : UInt64) → Result (List Byte) := writeTexmex .int32

section Records
variable {dtype : NpyDtype} {path : String} {dim rows left r : Nat} {values data : List dtype.Element}
  {file stream : List Byte}

/-- Only the first bytes matter. -/
theorem elementsOf_append (values : List dtype.Element) (rest : List Byte) :
    dtype.elementsOf values.length (dtype.bytesOf values ++ rest) = values := by
  induction values with
  | nil => rfl
  | cons v values ih =>
    have step : dtype.bytesOf (v :: values) ++ rest = leBytes dtype.itemSize v.toNat ++
        (dtype.bytesOf values ++ rest) := List.append_assoc _ _ _
    have fits : v.toNat < 256 ^ dtype.itemSize := by
      have bound := v.isLt
      rwa [Nat.pow_mul] at bound
    rw [List.length_cons, NpyDtype.elementsOf, step, List.take_left' (length_leBytes _ _),
      List.drop_left' (length_leBytes _ _),
      leValue_leBytes_of_lt fits, BitVec.ofNat_toNat, BitVec.setWidth_eq, ih]

theorem length_elementsOf (dtype : NpyDtype) : ∀ (count : Nat) (bytes : List Byte),
    (dtype.elementsOf count bytes).length = count
  | 0, _ => rfl
  | count + 1, _ => congrArg Nat.succ (length_elementsOf dtype count _)

/-- The bytes of the elements are the bytes that were read. -/
theorem bytesOf_elementsOf : ∀ {count : Nat} {bytes : List Byte}, count * dtype.itemSize ≤ bytes.length →
    dtype.bytesOf (dtype.elementsOf count bytes) = bytes.take (count * dtype.itemSize)
  | 0, _, _ => by rw [Nat.zero_mul, List.take_zero]; rfl
  | count + 1, bytes, enough => by
    rw [Nat.succ_mul] at enough
    have first : (bytes.take dtype.itemSize).length = dtype.itemSize := List.length_take_of_le (by omega)
    have value : (BitVec.ofNat (8 * dtype.itemSize) (leValue (bytes.take dtype.itemSize))).toNat =
        leValue (bytes.take dtype.itemSize) := by
      have bound := leValue_lt (bytes.take dtype.itemSize)
      rw [first] at bound
      rw [BitVec.toNat_ofNat, Nat.pow_mul]
      exact Nat.mod_eq_of_lt bound
    have step : dtype.bytesOf (dtype.elementsOf (count + 1) bytes) =
        leBytes dtype.itemSize (BitVec.ofNat (8 * dtype.itemSize) (leValue (bytes.take dtype.itemSize))).toNat ++
          dtype.bytesOf (dtype.elementsOf count (bytes.drop dtype.itemSize)) := rfl
    have rest : count * dtype.itemSize ≤ (bytes.drop dtype.itemSize).length := by
      rw [List.length_drop]
      omega
    rw [step, value, leBytes_leValue_of_length first, bytesOf_elementsOf rest, Nat.succ_mul,
      Nat.add_comm, List.take_add]

theorem length_writeRecords : ∀ {rows : Nat} {values : List dtype.Element}, values.length = rows * dim →
    (writeRecords dtype dim rows values).length = rows * (4 + dim * dtype.itemSize)
  | 0, _, _ => by rw [Nat.zero_mul]; rfl
  | rows + 1, values, shape => by
    rw [Nat.succ_mul] at shape
    have rest : (values.drop dim).length = rows * dim := by rw [List.length_drop]; omega
    rw [writeRecords, List.length_append, List.length_append, length_leBytes, NpyDtype.length_bytesOf,
      List.length_take_of_le (by omega),
      length_writeRecords rest, Nat.succ_mul]
    omega

/-- The records that have been written are read, whatever comes after them. -/
theorem readRecords_writeRecords (path : String) (fits : dim < 256 ^ 4) (rest : List Byte) :
    ∀ (left r : Nat) (data : List dtype.Element),
    data.length = left * dim → readRecords dtype path dim r left
      (writeRecords dtype dim left data ++ rest) = .ok data
  | 0, r, data, shape => by
    rw [Nat.zero_mul, List.length_eq_zero_iff] at shape
    rw [readRecords, shape]
  | left + 1, r, data, shape => by
    rw [Nat.succ_mul] at shape
    have first : (data.take dim).length = dim := List.length_take_of_le (by omega)
    have width : (dtype.bytesOf (data.take dim)).length = dim * dtype.itemSize := by
      rw [NpyDtype.length_bytesOf, first]
    have header : (leBytes 4 dim).length = 4 := length_leBytes 4 dim
    have tail := readRecords_writeRecords path fits rest left (r + 1) (data.drop dim)
      (by rw [List.length_drop]; omega)
    have elements : dtype.elementsOf dim (dtype.bytesOf (data.take dim) ++
        (writeRecords dtype dim left (data.drop dim) ++ rest)) = data.take dim := by
      have read := elementsOf_append (data.take dim) (writeRecords dtype dim left (data.drop dim) ++ rest)
      rwa [first] at read
    rw [writeRecords, List.append_assoc, List.append_assoc, readRecords,
      if_neg (by rw [List.length_append, header]; omega), List.take_left' header,
      leValue_leBytes_of_lt fits, if_neg (not_not.mpr rfl), List.drop_left' header]
    simp only
    rw [if_neg (by rw [List.length_append, width]; omega), List.drop_left' width, tail, elements]
    exact congrArg Except.ok (List.take_append_drop dim data)

/-- Nothing else is read. -/
theorem of_readRecords : ∀ {left r : Nat} {stream : List Byte} {data : List dtype.Element},
    readRecords dtype path dim r left stream = .ok data →
    data.length = left * dim ∧ ∃ rest, stream = writeRecords dtype dim left data ++ rest
  | 0, r, stream, data, run => by
    rw [readRecords] at run
    cases run
    exact ⟨(Nat.zero_mul dim).symm, stream, rfl⟩
  | left + 1, r, stream, data, run => by
    rw [readRecords] at run
    split at run
    · cases run
    next enough =>
      split at run
      · cases run
      next same =>
        simp only at run
        split at run
        · cases run
        next whole =>
          rw [not_not] at same
          rw [not_lt] at enough whole
          cases tail : readRecords dtype path dim (r + 1) left ((stream.drop 4).drop (dim * dtype.itemSize)) with
          | error st =>
            rw [tail] at run
            cases run
          | ok more =>
            rw [tail] at run
            cases run
            obtain ⟨length, rest, split⟩ := of_readRecords tail
            have count := length_elementsOf dtype dim (stream.drop 4)
            have head : leBytes 4 dim = stream.take 4 := by
              rw [← same, leBytes_leValue_of_length (List.length_take_of_le enough)]
            refine ⟨by rw [List.length_append, count, length, Nat.succ_mul, Nat.add_comm], rest, ?_⟩
            rw [writeRecords, List.take_left' count, List.drop_left' count, bytesOf_elementsOf whole, head,
              List.append_assoc, List.append_assoc,
              ← split, List.take_append_drop, List.take_append_drop]

/-- A file can be cut between two records. -/
theorem writeRecords_add : ∀ (first second : Nat) (values : List dtype.Element),
    (first + second) * dim ≤ values.length →
    writeRecords dtype dim (first + second) values =
      writeRecords dtype dim first (values.take (first * dim)) ++ writeRecords dtype dim second
        (values.drop (first * dim))
  | 0, second, values, _ => by rw [Nat.zero_add, Nat.zero_mul, List.drop_zero]; rfl
  | first + 1, second, values, enough => by
    rw [Nat.succ_add, Nat.succ_mul] at enough
    have rest : (first + second) * dim ≤ (values.drop dim).length := by rw [List.length_drop]; omega
    rw [Nat.succ_add, writeRecords, writeRecords_add first second (values.drop dim) rest, writeRecords,
      List.append_assoc, List.append_assoc,
      Nat.succ_mul, List.take_take, Nat.min_eq_left (Nat.le_add_left _ _), List.drop_drop,
      Nat.add_comm dim, List.drop_take,
      Nat.add_sub_cancel]

/-- What reading makes of the records of a matrix. -/
theorem readTexmex_writeRecords (path : String) (maxRows : UInt64)
    (dims : 0 < dim ∧ dim ≤ kMaxTexmexDim) (some : 0 < rows)
    (shape : data.length = rows * dim) (held : rows * (4 + dim * dtype.itemSize) < 2 ^ 63) :
    readTexmex dtype path (writeRecords dtype dim rows data) maxRows =
      let n := if maxRows ≠ 0 then min rows maxRows.toNat else rows
      .ok { data := data.take (n * dim), rows := UInt64.ofNat n, cols := UInt64.ofNat dim } := by
  have small : dim ≤ 2 ^ 24 := dims.2
  have size : (writeRecords dtype dim rows data).length = rows * (4 + dim * dtype.itemSize) :=
    length_writeRecords shape
  have positive : 0 < 4 + dim * dtype.itemSize := by omega
  have length : 4 + dim * dtype.itemSize ≤ rows * (4 + dim * dtype.itemSize) := Nat.le_mul_of_pos_left _ some
  have head : leValue ((writeRecords dtype dim rows data).take 4) = dim := by
    obtain ⟨more, rfl⟩ := Nat.exists_eq_succ_of_ne_zero (Nat.ne_of_gt some)
    rw [writeRecords, List.take_left' (length_leBytes 4 dim), leValue_leBytes_of_lt (by omega)]
  have sign : signed dim = dim := if_pos (by omega)
  rw [readTexmex]
  simp only [size, head, sign, Int.toNat_natCast]
  rw [if_neg (by omega), if_neg (by omega), if_neg (by omega),
    if_neg (by rw [Nat.mul_mod_left]; exact not_not.mpr rfl), Nat.mul_div_cancel _ positive]
  have less : (if maxRows ≠ 0 then min rows maxRows.toNat else rows) ≤ rows := by
    split
    · exact Nat.min_le_left _ _
    · exact Nat.le_refl _
  generalize (if maxRows ≠ 0 then min rows maxRows.toNat else rows) = n at less ⊢
  have item : 4 ≤ dtype.itemSize := by cases dtype <;> decide
  have bytes : n * dim * dtype.itemSize ≤ rows * (4 + dim * dtype.itemSize) := by
    rw [Nat.mul_assoc]
    exact Nat.mul_le_mul less (Nat.le_add_left _ 4)
  have total : n * dim ≤ n * dim * dtype.itemSize := Nat.le_mul_of_pos_right _ (by omega)
  have enough : n * dim ≤ (2 ^ 64 - 1) / dtype.itemSize := (Nat.le_div_iff_mul_le (by omega)).mpr (by omega)
  have room : n * dim < 2 ^ 64 := by omega
  have taken : (data.take (n * dim)).length = n * dim :=
    List.length_take_of_le (by rw [shape]; exact Nat.mul_le_mul_right dim less)
  -- the records that are not asked for stay behind
  have cut : writeRecords dtype dim rows data =
      writeRecords dtype dim n (data.take (n * dim)) ++ writeRecords dtype dim (rows - n)
      (data.drop (n * dim)) := by
    have whole : n + (rows - n) = rows := by omega
    have split := writeRecords_add n (rows - n) data (by rw [whole, shape])
    rwa [whole] at split
  rw [checkedMul_eq_some.mpr ⟨room, rfl⟩]
  simp only
  rw [if_neg (Nat.not_lt.mpr enough), cut, readRecords_writeRecords path (by omega) _ n 0 _ taken]
  rfl

/-- What has been read are the records of a matrix. -/
theorem of_readTexmex {m : Matrix dtype} (held : file.length < 2 ^ 63)
    (run : readTexmex dtype path file 0 = .ok m) :
    file = [] ∧ m = {} ∨ 0 < m.rows.toNat ∧ (0 < m.cols.toNat ∧ m.cols.toNat ≤ kMaxTexmexDim) ∧
    m.data.length = m.rows.toNat * m.cols.toNat ∧
      file = writeRecords dtype m.cols.toNat m.rows.toNat m.data := by
  rw [readTexmex] at run
  simp only at run
  split at run
  next empty =>
    cases run
    exact .inl ⟨List.length_eq_zero_iff.mp empty, rfl⟩
  next some =>
    split at run
    · cases run
    next header =>
      split at run
      · cases run
      next dims =>
        split at run
        · cases run
        next multiple =>
          rw [not_not] at multiple
          simp only [ne_eq, not_true_eq_false, if_false] at run
          generalize sign : (signed (leValue (file.take 4))).toNat = dim at run multiple
          have bound : 0 < dim ∧ dim ≤ kMaxTexmexDim := by omega
          have small : dim ≤ 2 ^ 24 := bound.2
          split at run
          · cases run
          next total product =>
            obtain ⟨-, rfl⟩ := checkedMul_eq_some.mp product
            split at run
            · cases run
            next enough =>
              cases records : readRecords dtype path dim 0 (file.length / (4 + dim * dtype.itemSize)) file with
              | error st =>
                rw [records] at run
                cases run
              | ok data =>
                rw [records] at run
                cases run
                obtain ⟨shape, rest, whole⟩ := of_readRecords records
                have exact : file.length / (4 + dim * dtype.itemSize) * (4 + dim * dtype.itemSize) = file.length :=
                  Nat.div_mul_cancel (Nat.dvd_of_mod_eq_zero multiple)
                have less : file.length / (4 + dim * dtype.itemSize) ≤ file.length := Nat.div_le_self _ _
                have rows : (UInt64.ofNat (file.length / (4 + dim * dtype.itemSize))).toNat = file.length /
                    (4 + dim * dtype.itemSize) :=
                  UInt64.toNat_ofNat_of_lt' (Nat.lt_of_le_of_lt less (Nat.lt_trans held (by decide)))
                have cols : (UInt64.ofNat dim).toNat = dim :=
                  UInt64.toNat_ofNat_of_lt' (Nat.lt_of_le_of_lt small (by decide))
                have nothing : rest = [] := by
                  have size := congrArg List.length whole
                  rw [List.length_append, length_writeRecords shape, exact] at size
                  exact List.length_eq_zero_iff.mp (by omega)
                rw [nothing, List.append_nil] at whole
                refine .inr ?_
                simp only [rows, cols]
                refine ⟨Nat.pos_of_ne_zero fun none => ?_, bound, shape, whole⟩
                rw [none, Nat.zero_mul] at exact
                exact some exact.symm

/-- What can be written. -/
theorem writeTexmex_eq_ok {rows cols : UInt64} : writeTexmex dtype values rows cols = .ok file ↔
    (values.length = rows.toNat * cols.toNat ∧ values.length < 2 ^ 64) ∧
    (0 < cols.toNat ∧ cols.toNat ≤ kMaxTexmexDim) ∧
      file = writeRecords dtype cols.toNat rows.toNat values := by
  have zero : cols = 0 ↔ cols.toNat = 0 := by rw [← UInt64.toNat_inj]; exact Iff.rfl
  rw [writeTexmex]
  constructor
  · intro run
    split at run
    · cases run
    next checks =>
      cases run
      rw [not_or, not_or, not_not, checkedMul_eq_some, zero] at checks
      obtain ⟨⟨fits, product⟩, positive, most⟩ := checks
      exact ⟨⟨product, by omega⟩, ⟨Nat.pos_of_ne_zero positive, Nat.not_lt.mp most⟩, rfl⟩
  · rintro ⟨⟨shape, fits⟩, ⟨positive, most⟩, rfl⟩
    refine if_neg ?_
    rw [not_or, not_or, not_not, checkedMul_eq_some, zero]
    exact ⟨⟨by omega, shape⟩, Nat.ne_of_gt positive, Nat.not_lt.mpr most⟩

end Records
end TexmexFile
open TexmexFile

/-- The first rows of a matrix, or all of them if there are not so many. -/
def Matrix.firstRows {dtype : NpyDtype} (m : Matrix dtype) (n : UInt64) : Matrix dtype :=
  { data := m.data.take ((min m.rows n).toNat * m.cols.toNat), rows := min m.rows n, cols := m.cols }

theorem toNat_min (a b : UInt64) : (min a b).toNat = min a.toNat b.toNat := by
  change (if a ≤ b then a else b).toNat = _
  split
  next less => exact (Nat.min_eq_left (UInt64.le_iff_toNat_le.mp less)).symm
  next more =>
    rw [UInt64.le_iff_toNat_le] at more
    exact (Nat.min_eq_right (by omega)).symm

/-- A file is read as a matrix exactly if it is empty or what `writeTexmex` makes of that matrix, and asking for
some rows gives the first ones. -/
theorem texmex_files_are_exact (dtype : NpyDtype) (path : String) (file : List Byte) (held : file.length < 2 ^ 63) :
    (∀ m : Matrix dtype, readTexmex dtype path file 0 = .ok m ↔
      file = [] ∧ m = {} ∨ 0 < m.rows.toNat ∧ writeTexmex dtype m.data m.rows m.cols = .ok file) ∧
      ∀ (m : Matrix dtype) (maxRows : UInt64), readTexmex dtype path file 0 = .ok m → maxRows ≠ 0 →
        readTexmex dtype path file maxRows = .ok (m.firstRows maxRows) := by
  refine ⟨fun m => ⟨fun run => ?_, ?_⟩, fun m maxRows run more => ?_⟩
  · obtain empty | ⟨some, dims, shape, whole⟩ := of_readTexmex held run
    · exact .inl empty
    · refine .inr ⟨some, writeTexmex_eq_ok.mpr ⟨⟨shape, ?_⟩, dims, whole⟩⟩
      have item : 4 ≤ dtype.itemSize := by cases dtype <;> decide
      have each : m.cols.toNat * 1 ≤ m.cols.toNat * dtype.itemSize := Nat.mul_le_mul_left _ (by omega)
      have bytes : m.rows.toNat * m.cols.toNat ≤ m.rows.toNat * (4 + m.cols.toNat * dtype.itemSize) :=
        Nat.mul_le_mul_left _ (by omega)
      rw [whole, length_writeRecords shape] at held
      omega
  · rintro (⟨rfl, rfl⟩ | ⟨some, run⟩)
    · rfl
    · obtain ⟨⟨shape, -⟩, dims, rfl⟩ := writeTexmex_eq_ok.mp run
      rw [length_writeRecords shape] at held
      rw [readTexmex_writeRecords path 0 dims some shape held]
      simp only [ne_eq, not_true_eq_false, if_false, ← shape, List.take_length, UInt64.ofNat_toNat]
  · obtain ⟨rfl, rfl⟩ | ⟨some, dims, shape, rfl⟩ := of_readTexmex held run
    · have none : min (0 : UInt64) maxRows = 0 := UInt64.toNat_inj.mp (by rw [toNat_min]; exact Nat.zero_min _)
      simp only [Matrix.firstRows, none, List.take_nil]
      rfl
    · rw [length_writeRecords shape] at held
      rw [readTexmex_writeRecords path maxRows dims some shape held]
      simp only [Matrix.firstRows, if_pos more, ← toNat_min, UInt64.ofNat_toNat]

/-- Two rows of two integers, of which one is asked for. -/
theorem texmex_files_are_exact_two_rows :
    readTexmex .int32 "m" [2, 0, 0, 0, 1, 0, 0, 0, 2, 0, 0, 0, 2, 0, 0, 0, 3, 0, 0, 0, 4, 0, 0, 0] 1 =
    .ok { data := [1, 2], rows := 1, cols := 2 } :=
  have exact := texmex_files_are_exact .int32 "m" [2, 0, 0, 0, 1, 0, 0, 0, 2, 0, 0, 0, 2, 0, 0, 0, 3, 0, 0, 0, 4,
    0, 0, 0] (by decide)
  exact.2 { data := [1, 2, 3, 4], rows := 2, cols := 2 } 1 ((exact.1 _).mpr (.inr ⟨by decide, by rfl⟩)) (by decide)

end VectorForge
