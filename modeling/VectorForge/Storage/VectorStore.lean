import VectorForge.Storage.BinaryIo

namespace VectorForge

/-- An entry of the chunk directory: a position in the mapped base, or a heap chunk. -/
inductive ChunkPtr where
  | mapped (offset : Nat)
  | owned (index : Nat)
  deriving DecidableEq, Repr

/-- `VectorStore`. Rows live in chunks of `rowsPerChunk` rows; `mapped` is the memory that
`owner` keeps alive, and every heap chunk is one entry of `ownedChunks`. -/
structure VectorStore where
  dim : Nat
  rowsPerChunk : Nat
  maxRows : Nat
  size : Nat := 0
  mappedRows : Nat := 0
  chunkPtrs : List ChunkPtr := []
  ownedChunks : List (List F32) := []
  mapped : List F32 := []
  deriving DecidableEq, Repr

/-- `std::has_single_bit`. -/
def hasSingleBit (n : Nat) : Bool := decide (n = 2 ^ n.log2)

/-- `std::bit_floor`. -/
def bitFloor (n : Nat) : Nat := if n = 0 then 0 else 2 ^ n.log2

namespace VectorStore

def kTargetChunkBytes : Nat := 16 * 2 ^ 20
def kMaxDefaultRowsPerChunk : Nat := 2 ^ 16

structure Options where
  dim : Nat := 0
  rowsPerChunk : Nat := 0
  maxRows : Nat := kMaxVectorsPerCollection

def defaultRowsPerChunk (dim : Nat) : Nat :=
  if dim = 0 then 1
  else min (bitFloor (max 1 (kTargetChunkBytes / (dim * 4)))) kMaxDefaultRowsPerChunk

def create (options : Options) : Result VectorStore :=
  if options.dim < 1 ∨ options.dim > kMaxDim then
    .error (.invalidArgument ("VectorStore: dim " ++ toString options.dim ++ " is outside [1, " ++
      toString kMaxDim ++ "]"))
  else
    let rowsPerChunk := if options.rowsPerChunk = 0 then defaultRowsPerChunk options.dim else options.rowsPerChunk
    if !hasSingleBit rowsPerChunk then
      .error (.invalidArgument ("VectorStore: rows_per_chunk " ++ toString rowsPerChunk ++
        " is not a power of two"))
    else if options.maxRows < 1 ∨ options.maxRows > kMaxVectorsPerCollection then
      .error (.invalidArgument ("VectorStore: max_rows " ++ toString options.maxRows ++ " is outside [1, " ++
        toString kMaxVectorsPerCollection ++ "]"))
    else match checkedMul3 64 rowsPerChunk options.dim 4 with
      | none => .error (.invalidArgument "VectorStore: chunk size overflows size_t")
      | some _ => .ok { dim := options.dim, rowsPerChunk, maxRows := options.maxRows }

variable (s : VectorStore)

def capacity : Nat := s.chunkPtrs.length * s.rowsPerChunk
def chunkShift : Nat := s.rowsPerChunk.log2
def chunkMask : Nat := s.rowsPerChunk - 1
def chunkCount : Nat := s.chunkPtrs.length

/-- Floats of one chunk: `chunk_bytes_ / sizeof(float)`. -/
def chunkFloats : Nat := s.rowsPerChunk * s.dim

/-- The floats from an address to the end of the array it points into. -/
def deref : ChunkPtr → List F32
  | .mapped offset => s.mapped.drop offset
  | .owned index => s.ownedChunks.getD index []

def chunkData (chunk : Nat) : List F32 :=
  match s.chunkPtrs[chunk]? with
  | some ptr => s.deref ptr
  | none => []

def rowsInChunk (chunk : Nat) : Nat :=
  let start := chunk * s.rowsPerChunk
  if start ≥ s.size then 0
  else if s.size - start < s.rowsPerChunk then s.size - start else s.rowsPerChunk

def row (id : Nat) : List F32 :=
  ((s.chunkData (id >>> s.chunkShift)).drop ((id &&& s.chunkMask) * s.dim)).take s.dim

/-- A new heap chunk at the end of the directory. Its floats are not initialised by the
source; they are never read before they are written. -/
def addChunk : VectorStore :=
  { s with
    chunkPtrs := s.chunkPtrs ++ [.owned s.ownedChunks.length]
    ownedChunks := s.ownedChunks ++ [List.replicate s.chunkFloats ⟨0⟩] }

/-- Chunk and offset of a row that is not in the mapped base. -/
def heapRowPtr (id : Nat) : Checked (Nat × Nat) := do
  Outcome.check (decide (id ≥ s.mappedRows ∧ id < s.capacity)) "VectorStore: row is not in a heap chunk"
  return ((id >>> s.chunkShift) - (s.mappedRows >>> s.chunkShift), (id &&& s.chunkMask) * s.dim)

/-- `std::copy_n` over part of a chunk. -/
def splice (chunk : List F32) (offset : Nat) (row : List F32) : List F32 :=
  chunk.take offset ++ row ++ chunk.drop (offset + row.length)

def append (row : List F32) : Checked (VectorStore × Nat) :=
  if row.length ≠ s.dim then
    Outcome.fail (.dimensionMismatch ("VectorStore: expected dimension " ++ toString s.dim ++ ", got " ++
      toString row.length))
  else if s.size ≥ s.maxRows then
    Outcome.fail (.resourceExhausted ("VectorStore: capacity limit of " ++ toString s.maxRows ++ " rows reached"))
  else do
    let s := if s.size = s.capacity then s.addChunk else s
    let (chunk, offset) ← s.heapRowPtr s.size
    let old ← Outcome.index s.ownedChunks chunk
    let _ ← Outcome.slice old offset s.dim
    return ({ s with size := s.size + 1, ownedChunks := s.ownedChunks.set chunk (splice old offset row) }, s.size)

def popBack : VectorStore := { s with size := s.size - 1 }

/-- `while (capacity() < rows) add_chunk()`; each turn adds at least one row of capacity. -/
def reserveLoop (rows : Nat) : Nat → VectorStore → VectorStore
  | 0, s => s
  | fuel + 1, s => if s.capacity < rows then reserveLoop rows fuel s.addChunk else s

def reserve (rows : Nat) : Result VectorStore :=
  if rows > s.maxRows then
    .error (.resourceExhausted ("VectorStore: cannot reserve " ++ toString rows ++ " rows (max_rows " ++
      toString s.maxRows ++ ")"))
  else .ok (reserveLoop rows rows s)

/-- The rows behind the last full chunk, which go to the heap. -/
def appendTail (rows : List F32) (dim first : Nat) : Nat → VectorStore → Checked VectorStore
  | 0, s => return s
  | tail + 1, s => do
    let row ← Outcome.slice rows (first * dim) dim
    let (s, _) ← s.append row
    appendTail rows dim (first + 1) tail s

def createMapped (options : Options) (rows : List F32) (count : Nat) : Checked VectorStore := do
  let store ← Outcome.lift (create options)
  if count > store.maxRows then
    Outcome.fail (.resourceExhausted ("VectorStore: " ++ toString count ++ " mapped rows exceed max_rows " ++
      toString store.maxRows))
  else
    let fullChunks := count / store.rowsPerChunk
    let mappedRows := fullChunks * store.rowsPerChunk
    let store := { store with
      chunkPtrs := (List.range fullChunks).map fun c => .mapped (c * store.chunkFloats)
      mappedRows
      size := mappedRows
      mapped := rows }
    appendTail rows store.dim mappedRows (count - mappedRows) store

/-- What the store holds. -/
def rows : List (List F32) := (List.range s.size).map s.row

/-- The shape every store has: full mapped chunks first, then heap chunks of one size. -/
structure Wf : Prop where
  power : s.rowsPerChunk = 2 ^ s.rowsPerChunk.log2
  base : s.mappedRows = s.mappedRows / s.rowsPerChunk * s.rowsPerChunk
  backed : s.mappedRows * s.dim ≤ s.mapped.length
  directory : s.chunkPtrs =
    (List.range (s.mappedRows / s.rowsPerChunk)).map (fun c => ChunkPtr.mapped (c * s.chunkFloats)) ++
      (List.range s.ownedChunks.length).map ChunkPtr.owned
  whole : ∀ chunk ∈ s.ownedChunks, chunk.length = s.chunkFloats
  fromBase : s.mappedRows ≤ s.size
  fits : s.size ≤ s.capacity
  bounded : s.size ≤ s.maxRows

section Wf
variable {s} {id : Nat}

theorem Wf.positive (wf : s.Wf) : 0 < s.rowsPerChunk := by
  rw [wf.power]
  exact Nat.two_pow_pos _

theorem Wf.shift (wf : s.Wf) (id : Nat) : id >>> s.chunkShift = id / s.rowsPerChunk := by
  rw [Nat.shiftRight_eq_div_pow, chunkShift, ← wf.power]

theorem Wf.mask (wf : s.Wf) (id : Nat) : id &&& s.chunkMask = id % s.rowsPerChunk := by
  have power := wf.power
  rw [chunkMask]
  generalize s.rowsPerChunk.log2 = k at power
  rw [power, Nat.and_two_pow_sub_one_eq_mod]

theorem Wf.directory_length (wf : s.Wf) :
    s.chunkPtrs.length = s.mappedRows / s.rowsPerChunk + s.ownedChunks.length := by
  rw [wf.directory]
  simp

theorem Wf.chunkData_mapped (wf : s.Wf) {c : Nat} (inBase : c < s.mappedRows / s.rowsPerChunk) :
    s.chunkData c = s.mapped.drop (c * s.chunkFloats) := by
  rw [chunkData, wf.directory, List.getElem?_append_left (by simpa using inBase), List.getElem?_map,
    List.getElem?_range inBase]
  rfl

theorem Wf.chunkData_owned (wf : s.Wf) {c : Nat} (onHeap : s.mappedRows / s.rowsPerChunk ≤ c) :
    s.chunkData c = s.ownedChunks.getD (c - s.mappedRows / s.rowsPerChunk) [] := by
  rw [chunkData, wf.directory, List.getElem?_append_right (by simpa using onHeap), List.getElem?_map]
  simp only [List.length_map, List.length_range]
  by_cases inside : c - s.mappedRows / s.rowsPerChunk < s.ownedChunks.length
  · rw [List.getElem?_range inside]
    rfl
  · rw [List.getElem?_eq_none (by simpa using inside)]
    simp only [Option.map_none]
    rw [List.getD_eq_getElem?_getD, List.getElem?_eq_none (by omega)]
    rfl

/-- A row of the store, with the address arithmetic carried out. -/
theorem Wf.row_eq (wf : s.Wf) (id : Nat) :
    s.row id = ((s.chunkData (id / s.rowsPerChunk)).drop (id % s.rowsPerChunk * s.dim)).take s.dim := by
  rw [row, wf.shift, wf.mask]

theorem Wf.length_chunkData (wf : s.Wf) {c : Nat} (inside : c < s.chunkCount) :
    s.chunkFloats ≤ (s.chunkData c).length := by
  by_cases inBase : c < s.mappedRows / s.rowsPerChunk
  · have backed := wf.backed
    rw [wf.base, Nat.mul_assoc] at backed
    have step := Nat.mul_le_mul_right s.chunkFloats (Nat.succ_le_of_lt inBase)
    rw [wf.chunkData_mapped inBase, List.length_drop]
    simp only [chunkFloats, Nat.succ_mul] at step backed ⊢
    omega
  · have onHeap : s.mappedRows / s.rowsPerChunk ≤ c := Nat.le_of_not_lt inBase
    have length := wf.directory_length
    have index : c - s.mappedRows / s.rowsPerChunk < s.ownedChunks.length := by
      simp only [chunkCount] at inside
      omega
    rw [wf.chunkData_owned onHeap, List.getD_eq_getElem?_getD, List.getElem?_eq_getElem index,
      Option.getD_some, wf.whole _ (List.getElem_mem index)]

theorem chunk_of_row (inside : id < s.capacity) : id / s.rowsPerChunk < s.chunkCount :=
  Nat.div_lt_of_lt_mul (by simpa only [Nat.mul_comm, capacity, chunkCount] using inside)

theorem Wf.length_row (wf : s.Wf) (inside : id < s.capacity) : (s.row id).length = s.dim := by
  have whole := wf.length_chunkData (chunk_of_row inside)
  have offset := Nat.mul_le_mul_right s.dim (Nat.succ_le_of_lt (Nat.mod_lt id wf.positive))
  rw [wf.row_eq, List.length_take, List.length_drop]
  simp only [chunkFloats, Nat.succ_mul] at whole offset
  omega

@[simp] theorem length_rows : s.rows.length = s.size := by
  simp [rows]

theorem Wf.mem_rows (wf : s.Wf) {r : List F32} (member : r ∈ s.rows) : r.length = s.dim := by
  simp only [rows, List.mem_map, List.mem_range] at member
  obtain ⟨id, bound, rfl⟩ := member
  exact wf.length_row (Nat.lt_of_lt_of_le bound wf.fits)

theorem getElem?_rows (id : Nat) : s.rows[id]? = if id < s.size then some (s.row id) else none := by
  unfold rows
  split
  · next bound => rw [List.getElem?_map, List.getElem?_range bound]; rfl
  · next bound => rw [List.getElem?_eq_none (by simpa using bound)]

end Wf

section Growth
variable {s} {id : Nat}

theorem Wf.addChunk (wf : s.Wf) : s.addChunk.Wf where
  power := wf.power
  base := wf.base
  backed := wf.backed
  directory := by
    simp only [VectorStore.addChunk, List.length_append, List.length_singleton, List.range_succ, List.map_append,
      List.map_cons, List.map_nil, ← List.append_assoc]
    exact congrArg (· ++ _) wf.directory
  whole := by
    intro chunk member
    simp only [VectorStore.addChunk, List.mem_append, List.mem_singleton] at member
    rcases member with old | rfl
    · exact wf.whole chunk old
    · exact List.length_replicate
  fromBase := wf.fromBase
  fits := by
    have fits := wf.fits
    simp only [capacity, VectorStore.addChunk, List.length_append, List.length_singleton, Nat.succ_mul] at fits ⊢
    omega
  bounded := wf.bounded

theorem Wf.row_addChunk (wf : s.Wf) (inside : id < s.capacity) : s.addChunk.row id = s.row id := by
  have chunk := chunk_of_row inside
  have index : id / s.rowsPerChunk < s.chunkPtrs.length := chunk
  rw [wf.addChunk.row_eq, wf.row_eq]
  show ((s.addChunk.chunkData (id / s.rowsPerChunk)).drop _).take _ = _
  suffices same : s.addChunk.chunkData (id / s.rowsPerChunk) = s.chunkData (id / s.rowsPerChunk) by
    rw [same]
    rfl
  by_cases inBase : id / s.rowsPerChunk < s.mappedRows / s.rowsPerChunk
  · rw [wf.chunkData_mapped inBase, wf.addChunk.chunkData_mapped (by exact inBase)]
    rfl
  · have onHeap : s.mappedRows / s.rowsPerChunk ≤ id / s.rowsPerChunk := Nat.le_of_not_lt inBase
    have length := wf.directory_length
    rw [wf.chunkData_owned onHeap, wf.addChunk.chunkData_owned (by exact onHeap)]
    simp only [VectorStore.addChunk, List.getD_eq_getElem?_getD]
    rw [List.getElem?_append_left (by omega)]

theorem Wf.rows_addChunk (wf : s.Wf) : s.addChunk.rows = s.rows := by
  unfold rows
  apply List.map_congr_left
  intro id bound
  exact wf.row_addChunk (Nat.lt_of_lt_of_le (List.mem_range.mp bound) wf.fits)

theorem capacity_addChunk : s.addChunk.capacity = s.capacity + s.rowsPerChunk := by
  simp [capacity, VectorStore.addChunk, Nat.succ_mul]

/-- `reserve` adds empty chunks until the capacity is there, and nothing else. -/
theorem Wf.reserveLoop (rows : Nat) : ∀ (fuel : Nat) {s : VectorStore}, s.Wf → rows ≤ s.capacity + fuel →
    (reserveLoop rows fuel s).Wf ∧ (reserveLoop rows fuel s).rows = s.rows ∧
      rows ≤ (VectorStore.reserveLoop rows fuel s).capacity ∧
      (VectorStore.reserveLoop rows fuel s).dim = s.dim ∧
      (VectorStore.reserveLoop rows fuel s).maxRows = s.maxRows ∧
      (VectorStore.reserveLoop rows fuel s).mappedRows = s.mappedRows
  | 0, s, wf, enough => ⟨wf, rfl, enough, rfl, rfl, rfl⟩
  | fuel + 1, s, wf, enough => by
    unfold VectorStore.reserveLoop
    split
    · have positive := wf.positive
      obtain ⟨done, same, room, dim, limit, base⟩ :=
        Wf.reserveLoop rows fuel wf.addChunk (by rw [capacity_addChunk]; omega)
      exact ⟨done, same.trans wf.rows_addChunk, room, dim, limit, base⟩
    · next room => exact ⟨wf, rfl, Nat.le_of_not_lt room, rfl, rfl, rfl⟩

end Growth

section Splice
variable {chunk row : List F32} {offset : Nat}

theorem length_splice (fits : offset + row.length ≤ chunk.length) :
    (splice chunk offset row).length = chunk.length := by
  simp only [splice, List.length_append, List.length_take, List.length_drop]
  omega

theorem splice_at (fits : offset + row.length ≤ chunk.length) :
    ((splice chunk offset row).drop offset).take row.length = row := by
  have length : (chunk.take offset).length = offset := by
    rw [List.length_take]
    omega
  rw [splice, List.append_assoc, List.drop_append_of_le_length (by omega), List.drop_eq_nil_of_le (by omega),
    List.nil_append, List.take_left]

theorem splice_before {a d : Nat} (fits : offset + row.length ≤ chunk.length) (before : a + d ≤ offset) :
    ((splice chunk offset row).drop a).take d = (chunk.drop a).take d := by
  rw [List.take_drop, List.take_drop]
  congr 1
  rw [splice, List.append_assoc, List.take_append_of_le_length (by rw [List.length_take]; omega), List.take_take,
    min_eq_left (by omega)]

end Splice

section Append
variable {s} {row : List F32}

/-- What `append` leaves behind once a chunk has room for the row. -/
def placed (s : VectorStore) (row : List F32) : VectorStore :=
  let chunk := s.size / s.rowsPerChunk - s.mappedRows / s.rowsPerChunk
  { s with
    size := s.size + 1
    ownedChunks := s.ownedChunks.set chunk
      (splice (s.ownedChunks.getD chunk []) (s.size % s.rowsPerChunk * s.dim) row) }

theorem Wf.heap_index (wf : s.Wf) (room : s.size < s.capacity) :
    s.mappedRows / s.rowsPerChunk ≤ s.size / s.rowsPerChunk ∧
      s.size / s.rowsPerChunk - s.mappedRows / s.rowsPerChunk < s.ownedChunks.length := by
  have low := Nat.div_le_div_right (c := s.rowsPerChunk) wf.fromBase
  have high : s.size / s.rowsPerChunk < s.chunkPtrs.length := chunk_of_row room
  have length := wf.directory_length
  exact ⟨low, by omega⟩

theorem row_offset (positive : 0 < s.rowsPerChunk) (id : Nat) :
    id % s.rowsPerChunk * s.dim + s.dim ≤ s.chunkFloats := by
  have offset := Nat.mul_le_mul_right s.dim (Nat.succ_le_of_lt (Nat.mod_lt id positive))
  simpa only [Nat.succ_mul, chunkFloats] using offset

theorem Wf.slot_fits (wf : s.Wf) (room : s.size < s.capacity) (length : row.length = s.dim) :
    s.size % s.rowsPerChunk * s.dim + row.length ≤
      (s.ownedChunks.getD (s.size / s.rowsPerChunk - s.mappedRows / s.rowsPerChunk) []).length := by
  have index := (wf.heap_index room).2
  rw [List.getD_eq_getElem?_getD, List.getElem?_eq_getElem index, Option.getD_some,
    wf.whole _ (List.getElem_mem index), length]
  exact row_offset wf.positive s.size

theorem Wf.append_placed (wf : s.Wf) (room : s.size < s.capacity) (length : row.length = s.dim)
    (below : s.size < s.maxRows) : s.append row = .ok (s.placed row, s.size) := by
  obtain ⟨low, index⟩ := wf.heap_index room
  have slot := wf.slot_fits room length
  rw [append, if_neg (by simpa using length), if_neg (Nat.not_le.mpr below), if_neg (Nat.ne_of_lt room)]
  simp only [heapRowPtr, wf.shift, wf.mask, Outcome.check, wf.fromBase, room, and_self, decide_true, if_true,
    Outcome.ok_bind, Outcome.pure_eq_ok, Outcome.index_ok index]
  rw [List.getD_eq_getElem?_getD, List.getElem?_eq_getElem index, Option.getD_some, length] at slot
  rw [Outcome.slice_ok slot, Outcome.ok_bind, placed, List.getD_eq_getElem?_getD, List.getElem?_eq_getElem index,
    Option.getD_some]

theorem Wf.placed (wf : s.Wf) (room : s.size < s.capacity) (length : row.length = s.dim)
    (below : s.size < s.maxRows) : (s.placed row).Wf where
  power := wf.power
  base := wf.base
  backed := wf.backed
  directory := by
    simp only [VectorStore.placed, List.length_set]
    exact wf.directory
  whole := by
    intro chunk member
    rcases List.mem_or_eq_of_mem_set member with old | rfl
    · exact wf.whole chunk old
    · rw [length_splice (wf.slot_fits room length)]
      have index := (wf.heap_index room).2
      rw [List.getD_eq_getElem?_getD, List.getElem?_eq_getElem index, Option.getD_some]
      exact wf.whole _ (List.getElem_mem index)
  fromBase := Nat.le_succ_of_le wf.fromBase
  fits := room
  bounded := below

theorem Wf.chunkData_placed (wf : s.Wf) (room : s.size < s.capacity) (length : row.length = s.dim)
    (below : s.size < s.maxRows) (c : Nat) : (s.placed row).chunkData c =
      if c = s.size / s.rowsPerChunk then splice (s.chunkData c) (s.size % s.rowsPerChunk * s.dim) row
      else s.chunkData c := by
  have after := wf.placed room length below
  obtain ⟨low, index⟩ := wf.heap_index room
  by_cases inBase : c < s.mappedRows / s.rowsPerChunk
  · rw [wf.chunkData_mapped inBase, after.chunkData_mapped (by exact inBase), if_neg (by omega)]
    rfl
  · have onHeap : s.mappedRows / s.rowsPerChunk ≤ c := Nat.le_of_not_lt inBase
    rw [wf.chunkData_owned onHeap, after.chunkData_owned (by exact onHeap)]
    simp only [VectorStore.placed, List.getD_eq_getElem?_getD, List.getElem?_set]
    by_cases same : c = s.size / s.rowsPerChunk
    · subst same
      rw [if_pos rfl, if_pos index, if_pos rfl]
      rfl
    · rw [if_neg (by omega), if_neg same]

theorem Wf.row_placed (wf : s.Wf) (room : s.size < s.capacity) (length : row.length = s.dim)
    (below : s.size < s.maxRows) {id : Nat} (bound : id ≤ s.size) :
    (s.placed row).row id = if id = s.size then row else s.row id := by
  have after := wf.placed room length below
  have whole := wf.length_chunkData (chunk_of_row room)
  have offset := row_offset wf.positive (s := s) s.size
  have fits : s.size % s.rowsPerChunk * s.dim + row.length ≤ (s.chunkData (s.size / s.rowsPerChunk)).length := by
    omega
  rw [after.row_eq, wf.row_eq]
  show (((s.placed row).chunkData (id / s.rowsPerChunk)).drop (id % s.rowsPerChunk * s.dim)).take s.dim = _
  rw [wf.chunkData_placed room length below]
  by_cases last : id = s.size
  · subst last
    rw [if_pos rfl, if_pos rfl]
    have at_ := splice_at fits
    rwa [length] at at_
  · rw [if_neg last]
    by_cases same : id / s.rowsPerChunk = s.size / s.rowsPerChunk
    · rw [if_pos same, same]
      apply splice_before fits
      have lower : id % s.rowsPerChunk < s.size % s.rowsPerChunk := by
        have first := Nat.div_add_mod id s.rowsPerChunk
        have second := Nat.div_add_mod s.size s.rowsPerChunk
        rw [same] at first
        omega
      have step := Nat.mul_le_mul_right s.dim (Nat.succ_le_of_lt lower)
      simpa only [Nat.succ_mul] using step
    · rw [if_neg same]

theorem Wf.rows_placed (wf : s.Wf) (room : s.size < s.capacity) (length : row.length = s.dim)
    (below : s.size < s.maxRows) : (s.placed row).rows = s.rows ++ [row] := by
  unfold rows
  show (List.range (s.size + 1)).map _ = _
  rw [List.range_succ, List.map_append, List.map_singleton, wf.row_placed room length below le_rfl, if_pos rfl]
  congr 1
  apply List.map_congr_left
  intro id bound
  have earlier : id < s.size := List.mem_range.mp bound
  rw [wf.row_placed room length below earlier.le, if_neg (Nat.ne_of_lt earlier)]

/-- A store after appending one row of the right dimension below the row limit. -/
theorem Wf.append (wf : s.Wf) (length : row.length = s.dim) (below : s.size < s.maxRows) :
    ∃ t, s.append row = .ok (t, s.size) ∧ t.Wf ∧ t.rows = s.rows ++ [row] ∧ t.size = s.size + 1 ∧
      t.dim = s.dim ∧ t.maxRows = s.maxRows ∧ t.mappedRows = s.mappedRows := by
  by_cases full : s.size = s.capacity
  · have grown := wf.addChunk
    have positive := wf.positive
    have room : s.addChunk.size < s.addChunk.capacity := by
      rw [capacity_addChunk, ← full]
      exact Nat.lt_add_of_pos_right positive
    have same : s.append row = s.addChunk.append row := by
      rw [VectorStore.append, VectorStore.append, if_pos full, if_neg (Nat.ne_of_lt room)]
      rfl
    refine ⟨_, same.trans (grown.append_placed room length below), grown.placed room length below,
      ?_, rfl, rfl, rfl, rfl⟩
    rw [grown.rows_placed room length below, wf.rows_addChunk]
  · have room : s.size < s.capacity := Nat.lt_of_le_of_ne wf.fits full
    exact ⟨_, wf.append_placed room length below, wf.placed room length below, wf.rows_placed room length below,
      rfl, rfl, rfl, rfl⟩

/-- `pop_back` undoes an append. -/
theorem Wf.popBack (wf : s.Wf) (heap : s.mappedRows < s.size) :
    s.popBack.Wf ∧ s.popBack.rows = s.rows.dropLast := by
  have fits := wf.fits
  have bounded := wf.bounded
  refine ⟨⟨wf.power, wf.base, wf.backed, wf.directory, wf.whole, ?_, ?_, ?_⟩, ?_⟩
  · simp only [VectorStore.popBack]
    omega
  · simp only [VectorStore.popBack, capacity] at fits ⊢
    omega
  · simp only [VectorStore.popBack]
    omega
  · obtain ⟨n, size⟩ : ∃ n, s.size = n + 1 := ⟨s.size - 1, by omega⟩
    simp only [rows, VectorStore.popBack, size, Nat.add_sub_cancel, List.range_succ, List.map_append,
      List.map_singleton, List.dropLast_concat]
    rfl

end Append

section Create

theorem hasSingleBit_two_pow (k : Nat) : hasSingleBit (2 ^ k) = true := by
  simp [hasSingleBit, Nat.log2_two_pow]

theorem defaultRowsPerChunk_power (dim : Nat) : ∃ k, k ≤ 16 ∧ defaultRowsPerChunk dim = 2 ^ k := by
  unfold defaultRowsPerChunk
  split
  · exact ⟨0, by omega, rfl⟩
  · rw [bitFloor, if_neg (by omega), kMaxDefaultRowsPerChunk]
    rcases Nat.le_total (max 1 (kTargetChunkBytes / (dim * 4))).log2 16 with small | large
    · exact ⟨_, small, min_eq_left (Nat.pow_le_pow_right (by omega) small)⟩
    · exact ⟨16, le_rfl, min_eq_right (Nat.pow_le_pow_right (by omega) large)⟩

/-- A store that was just created is empty and has the requested shape. -/
theorem create_spec {options : Options} {s : VectorStore} (run : create options = .ok s) :
    s.Wf ∧ s = { dim := options.dim, rowsPerChunk := s.rowsPerChunk, maxRows := options.maxRows } := by
  unfold create at run
  split at run
  · cases run
  simp only at run
  generalize shape : (if options.rowsPerChunk = 0 then defaultRowsPerChunk options.dim else
    options.rowsPerChunk) = r
    at run
  split at run
  · cases run
  next bit =>
  split at run
  · cases run
  split at run
  · cases run
  · cases run
    have single : r = 2 ^ r.log2 := by
      simpa [hasSingleBit] using bit
    refine ⟨⟨single, by simp, by simp, by simp, by simp, le_rfl, by simp, by simp⟩, rfl⟩

theorem create_default {dim : Nat} (low : 1 ≤ dim) (high : dim ≤ kMaxDim) : ∃ s, create { dim } = .ok s := by
  obtain ⟨k, small, power⟩ := defaultRowsPerChunk_power dim
  have bound : 2 ^ k ≤ 2 ^ 16 := Nat.pow_le_pow_right (by omega) small
  have first : checkedMul 64 (2 ^ k) dim = some (2 ^ k * dim) := by
    rw [checkedMul_eq_some]
    refine ⟨lt_of_le_of_lt (Nat.mul_le_mul bound high) (by decide), rfl⟩
  have second : checkedMul 64 (2 ^ k * dim) 4 = some (2 ^ k * dim * 4) := by
    rw [checkedMul_eq_some]
    refine ⟨lt_of_le_of_lt (Nat.mul_le_mul_right 4 (Nat.mul_le_mul bound high)) (by decide), rfl⟩
  refine ⟨{ dim, rowsPerChunk := 2 ^ k, maxRows := kMaxVectorsPerCollection }, ?_⟩
  simp only [create, if_true, power, hasSingleBit_two_pow, checkedMul3, first, second, Option.bind_some]
  rw [if_neg (by omega), if_neg (by simp), if_neg (by simp [kMaxVectorsPerCollection, kInvalidInternalId])]

/-- The rows that `count * dim` floats hold. -/
def rowsOf (dim : Nat) (floats : List F32) (count : Nat) : List (List F32) :=
  (List.range count).map fun i => (floats.drop (i * dim)).take dim

theorem appendTail_spec {floats : List F32} {count : Nat} : ∀ (tail : Nat) {first : Nat} {s : VectorStore}, s.Wf →
    s.size = first → first + tail = count → count ≤ s.maxRows → count * s.dim ≤ floats.length →
    s.rows = rowsOf s.dim floats first →
    ∃ t, appendTail floats s.dim first tail s = .ok t ∧ t.Wf ∧ t.rows = rowsOf s.dim floats count ∧
      t.size = count ∧ t.dim = s.dim ∧ t.maxRows = s.maxRows ∧ t.mappedRows = s.mappedRows
  | 0, first, s, wf, size, total, _, _, held => by
    have same : first = count := by omega
    subst same
    exact ⟨s, rfl, wf, held, size, rfl, rfl, rfl⟩
  | tail + 1, first, s, wf, size, total, bound, long, held => by
    have whole : first * s.dim + s.dim ≤ floats.length := by
      have step := Nat.mul_le_mul_right s.dim (show first + 1 ≤ count by omega)
      rw [Nat.succ_mul] at step
      omega
    have length : ((floats.drop (first * s.dim)).take s.dim).length = s.dim := by
      rw [List.length_take, List.length_drop]
      omega
    obtain ⟨t, run, wfT, rowsT, sizeT, dimT, maxT, baseT⟩ := wf.append length (by omega)
    have next : t.rows = rowsOf t.dim floats (first + 1) := by
      rw [rowsT, held, dimT, rowsOf, rowsOf, List.range_succ, List.map_append, List.map_singleton]
    obtain ⟨u, runU, wfU, rowsU, sizeU, dimU, maxU, baseU⟩ :=
      appendTail_spec tail wfT (show t.size = first + 1 by omega) (show _ = count by omega) (by omega)
        (by rw [dimT]; exact long) next
    rw [dimT] at runU rowsU dimU
    refine ⟨u, ?_, wfU, rowsU, sizeU, dimU, maxU.trans maxT, baseU.trans baseT⟩
    rw [appendTail, Outcome.slice_ok whole, Outcome.ok_bind, run, Outcome.ok_bind]
    exact runU

/-- A store over mapped memory holds the rows of that memory. -/
theorem createMapped_spec {options : Options} {floats : List F32} {count : Nat} {s : VectorStore}
    (created : create options = .ok s) (bound : count ≤ options.maxRows)
    (long : count * options.dim ≤ floats.length) :
    ∃ t, createMapped options floats count = .ok t ∧ t.Wf ∧ t.rows = rowsOf options.dim floats count ∧
      t.size = count ∧ t.dim = options.dim ∧ t.maxRows = options.maxRows := by
  obtain ⟨wf, shape⟩ := create_spec created
  have dim : s.dim = options.dim := congrArg VectorStore.dim shape
  have limit : s.maxRows = options.maxRows := congrArg VectorStore.maxRows shape
  have empty : s.ownedChunks = [] := congrArg VectorStore.ownedChunks shape
  have positive := wf.positive
  have whole : count / s.rowsPerChunk * s.rowsPerChunk ≤ count := Nat.div_mul_le_self _ _
  have full : count / s.rowsPerChunk * s.rowsPerChunk / s.rowsPerChunk = count / s.rowsPerChunk :=
    Nat.mul_div_cancel _ positive
  generalize store : ({ s with
      chunkPtrs := (List.range (count / s.rowsPerChunk)).map fun c => ChunkPtr.mapped (c * s.chunkFloats)
      mappedRows := count / s.rowsPerChunk * s.rowsPerChunk
      size := count / s.rowsPerChunk * s.rowsPerChunk
      mapped := floats } : VectorStore) = base
  have wfBase : base.Wf := by
    subst store
    refine ⟨wf.power, ?_, ?_, ?_, ?_, le_rfl, ?_, ?_⟩
    · simp only [full]
    · exact (Nat.mul_le_mul_right _ whole).trans (by rw [dim]; exact long)
    · simp only [full, empty, List.length_nil, List.range_zero, List.map_nil, List.append_nil]
      rfl
    · simp only [empty]
      intro chunk member
      cases member
    · simp [capacity]
    · simp only [limit]
      omega
  have held : base.rows = rowsOf base.dim floats (count / s.rowsPerChunk * s.rowsPerChunk) := by
    have sizeBase : base.size = count / s.rowsPerChunk * s.rowsPerChunk := by subst store; rfl
    rw [rows, rowsOf, sizeBase]
    apply List.map_congr_left
    intro id member
    have inside : id < count / s.rowsPerChunk * s.rowsPerChunk := List.mem_range.mp member
    have chunk : id / s.rowsPerChunk < count / s.rowsPerChunk :=
      Nat.div_lt_of_lt_mul (by rwa [Nat.mul_comm])
    rw [wfBase.row_eq, wfBase.chunkData_mapped (by subst store; simpa only [full] using chunk), List.drop_drop]
    have address : id / s.rowsPerChunk * (s.rowsPerChunk * s.dim) + id % s.rowsPerChunk * s.dim = id * s.dim := by
      rw [← Nat.mul_assoc, ← Nat.add_mul, Nat.mul_comm (id / s.rowsPerChunk), Nat.div_add_mod]
    subst store
    exact congrArg (fun k => (floats.drop k).take s.dim) address
  obtain ⟨t, run, wfT, rowsT, sizeT, dimT, maxT, _⟩ :=
    appendTail_spec (count - count / s.rowsPerChunk * s.rowsPerChunk) wfBase (by subst store; rfl)
      (show _ = count by omega) (by subst store; rw [limit]; exact bound)
      (by subst store; rw [dim]; exact long) held
  subst store
  simp only [dim, limit] at rowsT dimT maxT
  refine ⟨t, ?_, wfT, rowsT, sizeT, dimT, maxT⟩
  rw [createMapped, created, Outcome.lift_ok, Outcome.ok_bind, if_neg (by rw [limit]; omega)]
  exact run

end Create

section Scan
variable {s}

theorem flatten_rowsOf {dim : Nat} {floats : List F32} : ∀ (count : Nat), count * dim ≤ floats.length →
    (rowsOf dim floats count).flatten = floats.take (count * dim)
  | 0, _ => by simp [rowsOf]
  | count + 1, long => by
    rw [Nat.succ_mul] at long ⊢
    have earlier := flatten_rowsOf count (show count * dim ≤ floats.length by omega)
    rw [rowsOf] at earlier ⊢
    rw [List.range_succ, List.map_append, List.flatten_append, earlier, List.take_add]
    simp

theorem rowsInChunk_eq (c : Nat) : s.rowsInChunk c = min s.rowsPerChunk (s.size - c * s.rowsPerChunk) := by
  unfold rowsInChunk
  simp only
  split
  · omega
  · split <;> omega

/-- Visiting the chunks in turn, and in each chunk its rows, visits every row once and in order. -/
theorem range_by_chunks (rowsPerChunk size : Nat) : ∀ chunks : Nat,
    ((List.range chunks).flatMap fun c =>
      (List.range (min rowsPerChunk (size - c * rowsPerChunk))).map (c * rowsPerChunk + ·)) =
        List.range (min size (chunks * rowsPerChunk))
  | 0 => by simp
  | chunks + 1 => by
    rw [List.range_succ, List.flatMap_append, range_by_chunks rowsPerChunk size chunks]
    simp only [List.flatMap_cons, List.flatMap_nil, List.append_nil]
    rw [Nat.succ_mul]
    rcases Nat.le_total size (chunks * rowsPerChunk) with done | more
    · have all : size ≤ chunks * rowsPerChunk + rowsPerChunk := by omega
      rw [Nat.sub_eq_zero_of_le done, min_eq_left done, min_eq_left all, Nat.min_zero, List.range_zero,
        List.map_nil, List.append_nil]
    · rw [min_eq_right more]
      have total : min size (chunks * rowsPerChunk + rowsPerChunk) =
          chunks * rowsPerChunk + min rowsPerChunk (size - chunks * rowsPerChunk) := by omega
      rw [total, List.range_add]

theorem Wf.rows_by_chunks (wf : s.Wf) : ((List.range s.chunkCount).flatMap fun c =>
    (List.range (s.rowsInChunk c)).map (c * s.rowsPerChunk + ·)) = List.range s.size := by
  simp only [rowsInChunk_eq]
  rw [range_by_chunks, min_eq_left]
  exact wf.fits

/-- Row `r` of chunk `c`, read through the chunk's own address. -/
theorem Wf.row_in_chunk (wf : s.Wf) {c r : Nat} (inside : r < s.rowsPerChunk) :
    s.row (c * s.rowsPerChunk + r) = ((s.chunkData c).drop (r * s.dim)).take s.dim := by
  have chunk : (c * s.rowsPerChunk + r) / s.rowsPerChunk = c := by
    rw [Nat.add_comm, Nat.add_mul_div_right _ _ wf.positive, Nat.div_eq_of_lt inside, Nat.zero_add]
  have offset : (c * s.rowsPerChunk + r) % s.rowsPerChunk = r := by
    rw [Nat.add_comm, Nat.add_mul_mod_self_right, Nat.mod_eq_of_lt inside]
  rw [wf.row_eq, chunk, offset]

/-- The used part of the chunks, one after the other, is the sequence of rows. -/
theorem Wf.flatten_chunks (wf : s.Wf) : ((List.range s.chunkCount).flatMap fun c =>
    (s.chunkData c).take (s.rowsInChunk c * s.dim)) = s.rows.flatten := by
  rw [rows, ← List.flatMap_def, ← wf.rows_by_chunks, List.flatMap_assoc]
  apply List.flatMap_congr
  intro c member
  have inside : c < s.chunkCount := List.mem_range.mp member
  have whole := wf.length_chunkData inside
  have count : s.rowsInChunk c ≤ s.rowsPerChunk := by
    rw [rowsInChunk_eq]
    exact min_le_left _ _
  have long : s.rowsInChunk c * s.dim ≤ (s.chunkData c).length :=
    (Nat.mul_le_mul_right s.dim count).trans whole
  rw [← flatten_rowsOf _ long, rowsOf, List.flatMap_def, List.map_map]
  congr 1
  apply List.map_congr_left
  intro r bound
  exact (wf.row_in_chunk (Nat.lt_of_lt_of_le (List.mem_range.mp bound) count)).symm

end Scan

end VectorStore
end VectorForge
