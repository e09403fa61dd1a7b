import VectorForge.Storage.VectorStore

/-! A vector store, whatever is called on it, is the list of its rows. -/

namespace VectorForge

/-- The calls that change a store. -/
inductive StoreCall where
  | append (row : List F32)
  | reserve (rows : Nat)
  | popBack
  deriving DecidableEq, Repr

inductive StoreReply where
  | id (n : Nat)
  | done
  | status (s : Status)
  | threw
  | fault (f : Fault)
  deriving DecidableEq, Repr

/-- The list of rows that a store stands for; the first `base` of them are mapped. -/
structure RowList where
  dim : Nat
  maxRows : Nat
  base : Nat
  rows : List (List F32)

namespace RowList

/-- What a call may do to the list. -/
inductive Does (l : RowList) : StoreCall → StoreReply → RowList → Prop
  | appended {row : List F32} (length : row.length = l.dim) (room : l.rows.length < l.maxRows) :
      Does l (.append row) (.id l.rows.length) { l with rows := l.rows ++ [row] }
  | mismatch {row : List F32} (length : row.length ≠ l.dim) : Does l (.append row) (.status (.dimensionMismatch
      ("VectorStore: expected dimension " ++ toString l.dim ++ ", got " ++ toString row.length))) l
  | full {row : List F32} (length : row.length = l.dim) (none : l.maxRows ≤ l.rows.length) : Does l (.append row)
      (.status (.resourceExhausted ("VectorStore: capacity limit of " ++ toString l.maxRows ++ " rows reached"))) l
  | notAppended {row : List F32} (length : row.length = l.dim) (room : l.rows.length < l.maxRows) :
      Does l (.append row) .threw l
  | reserved {n : Nat} (room : n ≤ l.maxRows) : Does l (.reserve n) .done l
  | refused {n : Nat} (none : l.maxRows < n) : Does l (.reserve n) (.status (.resourceExhausted
      ("VectorStore: cannot reserve " ++ toString n ++ " rows (max_rows " ++ toString l.maxRows ++ ")"))) l
  | notReserved {n : Nat} (room : n ≤ l.maxRows) : Does l (.reserve n) .threw l
  | popped (some : l.base < l.rows.length) : Does l .popBack .done { l with rows := l.rows.dropLast }

/-- A failed call changes nothing. -/
theorem Does.of_failed {l m : RowList} {call : StoreCall} {reply : StoreReply} (does : l.Does call reply m)
    (failed : reply = .threw ∨ ∃ e, reply = .status e) : m = l := by
  cases does with
  | appended | reserved | popped =>
    rcases failed with wrong | ⟨e, wrong⟩
    · cases wrong
    · cases wrong
  | mismatch | full | notAppended | refused | notReserved => rfl

inductive Runs : RowList → List StoreCall → List StoreReply → RowList → Prop
  | nil (l : RowList) : Runs l [] [] l
  | cons {l m n : RowList} {call : StoreCall} {reply : StoreReply} {calls : List StoreCall}
      {replies : List StoreReply}
      (first : l.Does call reply m) (rest : Runs m calls replies n) : Runs l (call :: calls) (reply :: replies) n

end RowList

namespace VectorStore
variable {s t : VectorStore}

/-- `while (capacity() < rows) add_chunk()`, where `memory` says which allocations succeed. -/
def reserveWith (rows : Nat) : (memory : List Bool) → (fuel : Nat) → VectorStore → StoreReply × VectorStore
  | _, 0, s => (.done, s)
  | memory, fuel + 1, s =>
    if s.capacity < rows then
      if memory.headD true then reserveWith rows memory.tail fuel s.addChunk else (.threw, s)
    else (.done, s)

/-- One call with the outcomes of its allocations. `append` allocates its chunk before it changes anything. -/
def call (s : VectorStore) : StoreCall → List Bool → StoreReply × VectorStore
  | .append row, memory =>
    match s.append row with
    | .ok (t, id) => if s.size = s.capacity ∧ memory.headD true = false then (.threw, s) else (.id id, t)
    | .error (.error e) => (.status e, s)
    | .error (.fault f) => (.fault f, s)
  | .reserve rows, memory =>
    if rows > s.maxRows then
      (.status (.resourceExhausted ("VectorStore: cannot reserve " ++ toString rows ++ " rows (max_rows " ++
        toString s.maxRows ++ ")")), s)
    else reserveWith rows memory rows s
  | .popBack, _ => (.done, s.popBack)

/-- What the callers of `pop_back` promise. -/
def Allows (s : VectorStore) : StoreCall → Prop
  | .popBack => s.mappedRows < s.size
  | _ => True

def execute : List (StoreCall × List Bool) → VectorStore → List StoreReply × VectorStore
  | [], s => ([], s)
  | (c, memory) :: rest, s =>
    let (reply, t) := s.call c memory
    let (replies, u) := execute rest t
    (reply :: replies, u)

def AllowsAll : List (StoreCall × List Bool) → VectorStore → Prop
  | [], _ => True
  | (c, memory) :: rest, s => s.Allows c ∧ AllowsAll rest (s.call c memory).2

/-- `row_ptr`: a chunk and an offset in it. -/
def rowPtr (s : VectorStore) (id : Nat) : Option (ChunkPtr × Nat) :=
  s.chunkPtrs[id >>> s.chunkShift]?.map fun chunk => (chunk, (id &&& s.chunkMask) * s.dim)

/-- The store stands for the list. -/
structure Represents (s : VectorStore) (l : RowList) : Prop where
  wf : s.Wf
  dim : s.dim = l.dim
  maxRows : s.maxRows = l.maxRows
  base : s.mappedRows = l.base
  rows : s.rows = l.rows

/-- What no call changes, and what a row is read from and written to. -/
structure Follows (s t : VectorStore) : Prop where
  dim : t.dim = s.dim
  mapped : t.mapped = s.mapped
  base : t.mappedRows = s.mappedRows
  addresses : ∀ id, id < s.size → t.rowPtr id = s.rowPtr id
  kept : ∀ id, id < s.size → id < t.size → t.row id = s.row id

theorem Represents.size {l : RowList} (same : s.Represents l) : s.size = l.rows.length := by
  rw [← length_rows, same.rows]

theorem Follows.refl (s : VectorStore) : s.Follows s := ⟨rfl, rfl, rfl, fun _ _ => rfl, fun _ _ _ => rfl⟩

theorem Wf.rowPtr_eq (wf : s.Wf) (id : Nat) : s.rowPtr id =
    s.chunkPtrs[id / s.rowsPerChunk]?.map fun chunk => (chunk, id % s.rowsPerChunk * s.dim) := by
  rw [rowPtr, wf.shift, wf.mask]

/-- A row on the heap is written where it is read. -/
theorem Wf.heapRowPtr_eq (wf : s.Wf) {id : Nat} (onHeap : s.mappedRows ≤ id) (inside : id < s.capacity) :
    ∃ chunk offset, s.heapRowPtr id = .ok (chunk, offset) ∧ s.rowPtr id = some (.owned chunk, offset) := by
  refine ⟨id / s.rowsPerChunk - s.mappedRows / s.rowsPerChunk, id % s.rowsPerChunk * s.dim, ?_, ?_⟩
  · simp only [heapRowPtr, Outcome.check, onHeap, inside, and_self, decide_true, if_true,
      Outcome.ok_bind, wf.shift, wf.mask]
    rfl
  · have chunk : id / s.rowsPerChunk < s.chunkPtrs.length := chunk_of_row inside
    have low : s.mappedRows / s.rowsPerChunk ≤ id / s.rowsPerChunk := Nat.div_le_div_right onHeap
    have length := wf.directory_length
    rw [wf.rowPtr_eq, wf.directory, List.getElem?_append_right (by simpa using low), List.getElem?_map]
    simp only [List.length_map, List.length_range]
    rw [List.getElem?_range (by omega)]
    rfl

/-- A mapped row is read from the mapped memory at its own place. -/
theorem Wf.rowPtr_mapped (wf : s.Wf) {id : Nat} (inBase : id < s.mappedRows) : ∃ first offset,
    s.rowPtr id = some (.mapped first, offset) ∧ first + offset = id * s.dim ∧
    s.row id = (s.mapped.drop (id * s.dim)).take s.dim := by
  have chunk : id / s.rowsPerChunk < s.mappedRows / s.rowsPerChunk := by
    refine Nat.div_lt_of_lt_mul ?_
    rw [Nat.mul_comm, ← wf.base]
    exact inBase
  have address : id / s.rowsPerChunk * s.chunkFloats + id % s.rowsPerChunk * s.dim = id * s.dim := by
    rw [chunkFloats, ← Nat.mul_assoc, ← Nat.add_mul, Nat.mul_comm (id / s.rowsPerChunk), Nat.div_add_mod]
  refine ⟨id / s.rowsPerChunk * s.chunkFloats, id % s.rowsPerChunk * s.dim, ?_, address, ?_⟩
  · rw [wf.rowPtr_eq, wf.directory, List.getElem?_append_left (by simpa using chunk), List.getElem?_map,
      List.getElem?_range chunk]
    rfl
  · rw [wf.row_eq, wf.chunkData_mapped chunk, List.drop_drop, address]

/-- A longer directory of the same shape keeps the addresses. -/
theorem rowPtr_of_longer {more : List ChunkPtr} (ptrs : t.chunkPtrs = s.chunkPtrs ++ more)
    (perChunk : t.rowsPerChunk = s.rowsPerChunk)
    (dim : t.dim = s.dim) (wf : s.Wf) (wf' : t.Wf) {id : Nat} (inside : id < s.capacity) :
    t.rowPtr id = s.rowPtr id := by
  have chunk : id / s.rowsPerChunk < s.chunkPtrs.length := chunk_of_row inside
  rw [wf'.rowPtr_eq, wf.rowPtr_eq, ptrs, perChunk, dim, List.getElem?_append_left chunk]

/-- Some chunks have been added, and nothing else. -/
structure Extended (s t : VectorStore) : Prop where
  wf : t.Wf
  dim : t.dim = s.dim
  perChunk : t.rowsPerChunk = s.rowsPerChunk
  maxRows : t.maxRows = s.maxRows
  base : t.mappedRows = s.mappedRows
  mapped : t.mapped = s.mapped
  size : t.size = s.size
  rows : t.rows = s.rows
  ptrs : ∃ more, t.chunkPtrs = s.chunkPtrs ++ more

theorem Wf.extended_addChunk (wf : s.Wf) : s.Extended s.addChunk :=
  ⟨wf.addChunk, rfl, rfl, rfl, rfl, rfl, rfl, wf.rows_addChunk, _, rfl⟩

theorem Extended.trans {u : VectorStore} (first : s.Extended t) (second : t.Extended u) : s.Extended u := by
  obtain ⟨more, ptrs⟩ := first.ptrs
  obtain ⟨rest, ptrs'⟩ := second.ptrs
  exact ⟨second.wf, second.dim.trans first.dim, second.perChunk.trans first.perChunk,
    second.maxRows.trans first.maxRows,
    second.base.trans first.base, second.mapped.trans first.mapped, second.size.trans first.size,
    second.rows.trans first.rows,
    more ++ rest, by rw [ptrs', ptrs, List.append_assoc]⟩

theorem row_of_rows (rows : t.rows = s.rows) {id : Nat} (inside : id < s.size) : t.row id = s.row id := by
  have size : t.size = s.size := by rw [← length_rows, rows, length_rows]
  have same : t.rows[id]? = s.rows[id]? := by rw [rows]
  rw [getElem?_rows, getElem?_rows, if_pos inside, if_pos (by omega)] at same
  exact Option.some.inj same

theorem Extended.follows (grown : s.Extended t) (wf : s.Wf) : s.Follows t := by
  obtain ⟨more, ptrs⟩ := grown.ptrs
  exact ⟨grown.dim, grown.mapped, grown.base,
    fun _ inside => rowPtr_of_longer ptrs grown.perChunk grown.dim wf grown.wf (inside.trans_le wf.fits),
    fun _ inside _ => row_of_rows grown.rows inside⟩

theorem Extended.represents {l : RowList} (grown : s.Extended t) (same : s.Represents l) : t.Represents l :=
  ⟨grown.wf, grown.dim.trans same.dim, grown.maxRows.trans same.maxRows, grown.base.trans same.base,
    grown.rows.trans same.rows⟩

theorem Wf.reserveWith (rows : Nat) : ∀ (fuel : Nat) (memory : List Bool) {s : VectorStore}, s.Wf →
    ((reserveWith rows memory fuel s).1 = .done ∨ (reserveWith rows memory fuel s).1 = .threw) ∧
      s.Extended (reserveWith rows memory fuel s).2
  | 0, _, _, wf => ⟨.inl rfl, wf, rfl, rfl, rfl, rfl, rfl, rfl, rfl, [], (List.append_nil _).symm⟩
  | fuel + 1, memory, s, wf => by
    have still : s.Extended s := ⟨wf, rfl, rfl, rfl, rfl, rfl, rfl, rfl, [], (List.append_nil _).symm⟩
    rw [VectorStore.reserveWith]
    split
    · split
      · obtain ⟨reply, grown⟩ := Wf.reserveWith rows fuel memory.tail wf.addChunk
        exact ⟨reply, wf.extended_addChunk.trans grown⟩
      · exact ⟨.inr rfl, still⟩
    · exact ⟨.inl rfl, still⟩

theorem Wf.append_eq (wf : s.Wf) {row : List F32} (length : row.length = s.dim) (below : s.size < s.maxRows) :
    s.append row = .ok ((if s.size = s.capacity then s.addChunk else s).placed row, s.size) := by
  split
  next full =>
    have room : s.addChunk.size < s.addChunk.capacity := by
      rw [capacity_addChunk, ← full]
      exact Nat.lt_add_of_pos_right wf.positive
    have same : s.append row = s.addChunk.append row := by
      rw [VectorStore.append, VectorStore.append, if_pos full, if_neg (Nat.ne_of_lt room)]
      rfl
    exact same.trans (wf.addChunk.append_placed room length below)
  next room => exact wf.append_placed (Nat.lt_of_le_of_ne wf.fits room) length below

theorem Wf.placed_follows (wf : s.Wf) {row : List F32} (room : s.size < s.capacity) (length : row.length = s.dim)
    (below : s.size < s.maxRows) : s.Follows (s.placed row) := by
  have after := wf.placed room length below
  refine ⟨rfl, rfl, rfl, fun id inside => ?_, fun id inside _ => ?_⟩
  · exact rowPtr_of_longer (s := s) (t := s.placed row) (List.append_nil _).symm rfl rfl wf after
      (inside.trans_le wf.fits)
  · rw [wf.row_placed room length below inside.le, if_neg (Nat.ne_of_lt inside)]

theorem Represents.append {l : RowList} (same : s.Represents l) (row : List F32) (memory : List Bool) :
    ∃ m, l.Does (.append row) (s.call (.append row) memory).1 m ∧ (s.call (.append row) memory).2.Represents m ∧
      s.Follows (s.call (.append row) memory).2 := by
  have wf := same.wf
  have size := same.size
  by_cases length : row.length = s.dim
  · by_cases below : s.size < s.maxRows
    · have run := wf.append_eq length below
      simp only [call, run]
      split
      · exact ⟨l, .notAppended (length.trans same.dim) (by rw [← size, ← same.maxRows]; exact below), same, .refl s⟩
      · refine ⟨{ l with rows := l.rows ++ [row] }, ?_, ?_⟩
        · rw [size]
          exact .appended (length.trans same.dim) (by rw [← size, ← same.maxRows]; exact below)
        · dsimp only
          split
          next full =>
            have grown := wf.extended_addChunk
            have room : s.addChunk.size < s.addChunk.capacity := by
              rw [capacity_addChunk, ← full]
              exact Nat.lt_add_of_pos_right wf.positive
            have steps := grown.wf.placed_follows room length below
            have first := grown.follows wf
            refine ⟨⟨grown.wf.placed room length below, same.dim, same.maxRows, same.base, ?_⟩,
              rfl, rfl, rfl, ?_, ?_⟩
            · rw [grown.wf.rows_placed room length below, grown.rows, same.rows]
            · exact fun id inside => (steps.addresses id inside).trans (first.addresses id inside)
            · exact fun id inside _ => (steps.kept id inside (Nat.lt_succ_of_lt inside)).trans
                (first.kept id inside inside)
          next notFull =>
            have room : s.size < s.capacity := Nat.lt_of_le_of_ne wf.fits notFull
            refine ⟨⟨wf.placed room length below, same.dim, same.maxRows, same.base, ?_⟩,
              wf.placed_follows room length below⟩
            rw [wf.rows_placed room length below, same.rows]
    · have refused : s.append row = .error (.error (.resourceExhausted ("VectorStore: capacity limit of " ++
          toString s.maxRows ++ " rows reached"))) := by
        rw [VectorStore.append, if_neg (by simpa using length), if_pos (Nat.le_of_not_lt below)]
        rfl
      simp only [call, refused]
      refine ⟨l, ?_, same, .refl s⟩
      rw [same.maxRows]
      exact .full (length.trans same.dim) (by rw [← size, ← same.maxRows]; exact Nat.le_of_not_lt below)
  · have refused : s.append row = .error
        (.error (.dimensionMismatch ("VectorStore: expected dimension " ++ toString s.dim ++
        ", got " ++ toString row.length))) := by
      rw [VectorStore.append, if_pos length]
      rfl
    simp only [call, refused]
    refine ⟨l, ?_, same, .refl s⟩
    rw [same.dim] at length ⊢
    exact .mismatch length

theorem Represents.popBack {l : RowList} (same : s.Represents l) (heap : s.mappedRows < s.size)
    (memory : List Bool) :
    ∃ m, l.Does .popBack (s.call .popBack memory).1 m ∧ (s.call .popBack memory).2.Represents m ∧
      s.Follows (s.call .popBack memory).2 := by
  obtain ⟨wf, rows⟩ := same.wf.popBack heap
  refine ⟨{ l with rows := l.rows.dropLast }, .popped (by rw [← same.base, ← same.size]; exact heap),
    ⟨wf, same.dim, same.maxRows, same.base, by rw [call, rows, same.rows]⟩, rfl, rfl, rfl, fun _ _ =>
    rfl, fun _ _ _ => rfl⟩

/-- Every call does to the store what it may do to the list. -/
theorem Represents.call {l : RowList} (same : s.Represents l) {c : StoreCall} (allowed : s.Allows c)
    (memory : List Bool) :
    ∃ m, l.Does c (s.call c memory).1 m ∧ (s.call c memory).2.Represents m ∧ s.Follows (s.call c memory).2 := by
  cases c with
  | append row => exact same.append row memory
  | popBack => exact same.popBack allowed memory
  | reserve rows =>
    simp only [VectorStore.call]
    split
    next none =>
      refine ⟨l, ?_, same, .refl s⟩
      rw [same.maxRows] at none ⊢
      exact .refused none
    next room =>
      obtain ⟨reply, grown⟩ := Wf.reserveWith rows rows memory same.wf
      have fits : rows ≤ l.maxRows := by
        rw [← same.maxRows]
        exact Nat.le_of_not_lt room
      refine ⟨l, ?_, grown.represents same, grown.follows same.wf⟩
      rcases reply with done | threw
      · rw [done]
        exact .reserved fits
      · rw [threw]
        exact .notReserved fits

theorem Represents.execute : ∀ {calls : List (StoreCall × List Bool)} {s : VectorStore} {l : RowList},
    s.Represents l → AllowsAll calls s →
    ∃ m, RowList.Runs l (calls.map Prod.fst) (execute calls s).1 m ∧ (execute calls s).2.Represents m
  | [], _, l, same, _ => ⟨l, .nil l, same⟩
  | (c, memory) :: rest, s, l, same, allowed => by
    obtain ⟨m, does, next, _⟩ := same.call allowed.1 memory
    obtain ⟨n, runs, last⟩ := Represents.execute next allowed.2
    exact ⟨n, .cons does runs, last⟩

theorem execute_append (first more : List (StoreCall × List Bool)) (s : VectorStore) :
    (execute (first ++ more) s).2 = (execute more (execute first s).2).2 := by
  induction first generalizing s with
  | nil => rfl
  | cons c rest ih => exact ih _

/-- While a row is in the store it neither changes nor moves. -/
theorem Represents.stays {id : Nat} : ∀ {calls : List (StoreCall × List Bool)} {s : VectorStore} {l : RowList},
    s.Represents l →
    AllowsAll calls s → (∀ n, n ≤ calls.length → id < (VectorStore.execute (calls.take n) s).2.size) →
    (VectorStore.execute calls s).2.rowPtr id = s.rowPtr id ∧ (VectorStore.execute calls s).2.row id = s.row id
  | [], _, _, _, _, _ => ⟨rfl, rfl⟩
  | (c, memory) :: rest, s, l, same, allowed, inside => by
    obtain ⟨m, _, next, follows⟩ := same.call allowed.1 memory
    have here : id < s.size := inside 0 (Nat.zero_le _)
    have after : id < (s.call c memory).2.size := inside 1 (by simp)
    obtain ⟨ptr, row⟩ := Represents.stays next allowed.2 fun n bound => inside (n + 1) (by simpa using bound)
    exact ⟨ptr.trans (follows.addresses id here), row.trans (follows.kept id here after)⟩

theorem Represents.mapped : ∀ {calls : List (StoreCall × List Bool)} {s : VectorStore} {l : RowList},
    s.Represents l →
    AllowsAll calls s → (VectorStore.execute calls s).2.mapped = s.mapped ∧
    (VectorStore.execute calls s).2.dim = s.dim ∧
      (VectorStore.execute calls s).2.mappedRows = s.mappedRows
  | [], _, _, _, _ => ⟨rfl, rfl, rfl⟩
  | (c, memory) :: rest, s, l, same, allowed => by
    obtain ⟨m, _, next, follows⟩ := same.call allowed.1 memory
    obtain ⟨mapped, dim, base⟩ := Represents.mapped next allowed.2
    exact ⟨mapped.trans follows.mapped, dim.trans follows.dim, base.trans follows.base⟩

theorem allowsAll_append (first more : List (StoreCall × List Bool)) (s : VectorStore) :
    AllowsAll (first ++ more) s ↔ AllowsAll first s ∧ AllowsAll more (execute first s).2 := by
  induction first generalizing s with
  | nil => exact ⟨fun all => ⟨trivial, all⟩, And.right⟩
  | cons c rest ih =>
    rw [List.cons_append, AllowsAll, ih, AllowsAll, and_assoc]
    rfl

/-- A store as it is created, over the mapped floats if there are any, with the rows it starts from. -/
inductive Opened : VectorStore → List F32 → List (List F32) → Prop
  | created {options : Options} {s : VectorStore} (run : create options = .ok s) : Opened s [] []
  | mapped {options : Options} {floats : List F32} {count : Nat} {s : VectorStore}
      (long : count * options.dim ≤ floats.length)
      (run : createMapped options floats count = .ok s) : Opened s floats (rowsOf options.dim floats count)

theorem append_mapped {row : List F32} {id : Nat} (run : s.append row = .ok (t, id)) : t.mapped = s.mapped := by
  unfold append at run
  split at run
  · cases run
  split at run
  · cases run
  generalize grown : (if s.size = s.capacity then s.addChunk else s) = u at run
  have base : u.mapped = s.mapped := by
    rw [← grown]
    split <;> rfl
  obtain ⟨place, _, run⟩ := Outcome.bind_eq_ok run
  obtain ⟨old, _, run⟩ := Outcome.bind_eq_ok run
  obtain ⟨_, _, run⟩ := Outcome.bind_eq_ok run
  cases run
  exact base

theorem appendTail_mapped {floats : List F32} {dim : Nat} : ∀ {tail first : Nat} {s t : VectorStore},
    appendTail floats dim first tail s = .ok t → t.mapped = s.mapped
  | 0, _, s, t, run => by
    cases run
    rfl
  | tail + 1, first, s, t, run => by
    rw [appendTail] at run
    obtain ⟨row, _, run⟩ := Outcome.bind_eq_ok run
    obtain ⟨⟨u, id⟩, appended, run⟩ := Outcome.bind_eq_ok run
    exact (appendTail_mapped run).trans (append_mapped appended)

theorem Opened.represents {floats : List F32} {given : List (List F32)} (opened : Opened s floats given) :
    s.Represents ⟨s.dim, s.maxRows, s.mappedRows, given⟩ ∧ s.mapped = floats := by
  cases opened with
  | created run =>
    obtain ⟨wf, shape⟩ := create_spec run
    have empty : s.size = 0 := congrArg VectorStore.size shape
    exact ⟨⟨wf, rfl, rfl, rfl, by rw [rows, empty]; rfl⟩, congrArg VectorStore.mapped shape⟩
  | @mapped options floats count _ long run =>
    have whole := run
    rw [createMapped] at whole
    obtain ⟨store, created, rest⟩ := Outcome.bind_eq_ok whole
    have created := Outcome.lift_eq_ok created
    have limit : store.maxRows = options.maxRows := congrArg VectorStore.maxRows (create_spec created).2
    split at rest
    · cases rest
    next bound =>
      obtain ⟨t, run', wf, rows, _, dim, _⟩ :=
        createMapped_spec created (by rw [← limit]; exact Nat.le_of_not_lt bound) long
      cases run.symm.trans run'
      exact ⟨⟨wf, rfl, rfl, rfl, rows⟩, appendTail_mapped rest⟩

/-- A store refines the list of its rows: it answers every call as the list does, reads every row from where it
was written, moves and changes no row, never writes to mapped memory, and a failed call has no effect. -/
theorem vector_store_refines_rows {start : VectorStore} {floats : List F32} {given : List (List F32)}
    (opened : Opened start floats given)
    {calls : List (StoreCall × List Bool)} (allowed : AllowsAll calls start) : ∃ s l, (execute calls start).2 = s ∧
    RowList.Runs ⟨start.dim, start.maxRows, start.mappedRows, given⟩ (calls.map Prod.fst)
      (execute calls start).1 l ∧
    s.size = l.rows.length ∧ (∀ id, id < s.size → l.rows[id]? = some (s.row id)) ∧
    ((List.range s.chunkCount).flatMap fun c => (s.chunkData c).take (s.rowsInChunk c * s.dim)) = l.rows.flatten ∧
    (∀ id, s.mappedRows ≤ id → id < s.capacity → ∃ chunk offset,
      s.heapRowPtr id = .ok (chunk, offset) ∧ s.rowPtr id = some (.owned chunk, offset)) ∧
    (∀ id, id < start.mappedRows → ∃ first offset, s.rowPtr id = some (.mapped first, offset) ∧
      first + offset = id * start.dim) ∧
    s.mapped = floats ∧
    (∀ earlier later, calls = earlier ++ later →
      ∀ id, (∀ n, n ≤ later.length → id < (execute (earlier ++ later.take n) start).2.size) →
      s.rowPtr id = (execute earlier start).2.rowPtr id ∧ s.row id = (execute earlier start).2.row id) ∧
    ∀ c memory reply t, s.Allows c → s.call c memory = (reply, t) → (reply = .threw ∨ ∃ e, reply = .status e) →
      t.size = s.size ∧ t.rows = s.rows := by
  obtain ⟨begins, mapped⟩ := opened.represents
  obtain ⟨l, runs, same⟩ := begins.execute allowed
  obtain ⟨kept, dim, base⟩ := begins.mapped allowed
  refine ⟨_, l, rfl, runs, same.size, ?_, ?_, ?_, ?_, kept.trans mapped, ?_, ?_⟩
  · intro id inside
    rw [← same.rows, getElem?_rows, if_pos inside]
  · rw [same.wf.flatten_chunks, same.rows]
  · exact fun id onHeap inside => same.wf.heapRowPtr_eq onHeap inside
  · intro id inBase
    obtain ⟨first, offset, ptr, place, _⟩ := same.wf.rowPtr_mapped (base.symm ▸ inBase)
    exact ⟨first, offset, ptr, by rw [place, dim]⟩
  · rintro earlier later rfl id inside
    obtain ⟨before, after⟩ := (allowsAll_append earlier later start).mp allowed
    obtain ⟨m, _, middle⟩ := begins.execute before
    rw [execute_append]
    exact middle.stays after fun n bound => by
      rw [← execute_append]
      exact inside n bound
  · intro c memory reply t allows run failed
    obtain ⟨m, does, next, _⟩ := same.call allows memory
    rw [run] at does next
    have unchanged := does.of_failed failed
    subst unchanged
    exact ⟨by rw [next.size, same.size], by rw [next.rows, same.rows]⟩

/-- Two rows are appended to a store, the second of which needs a chunk for which there is no memory. -/
theorem vector_store_refines_rows_append : ∃ s : VectorStore, (execute
      [(.append [⟨0⟩], []), (.append [⟨0⟩], [false]), (.reserve 3, []), (.popBack, [])]
      { dim := 1, rowsPerChunk := 1, maxRows := 4 }) = ([.id 0, .threw, .done, .done], s) ∧ s.rows = [] := by
  have run : create { dim := 1, rowsPerChunk := 1, maxRows := 4 } =
      .ok { dim := 1, rowsPerChunk := 1, maxRows := 4 } := by decide
  have allowed : AllowsAll [(.append [⟨0⟩], []), (.append [⟨0⟩], [false]), (.reserve 3, []), (.popBack, [])]
      ({ dim := 1, rowsPerChunk := 1, maxRows := 4 } : VectorStore) := by
    refine ⟨trivial, trivial, trivial, ?_, trivial⟩
    show (0 : Nat) < _
    decide
  obtain ⟨s, l, reached, runs, size, _⟩ := vector_store_refines_rows (.created run) allowed
  subst reached
  exact ⟨_, Prod.ext (by decide) rfl, by decide⟩

end VectorStore
end VectorForge