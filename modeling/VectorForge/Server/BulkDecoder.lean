import VectorForge.Core.Types
import VectorForge.Lib.LittleEndian

/-! Decoding the binary bulk body. -/

namespace VectorForge

structure ApiError where
  httpStatus : Nat := 500
  code : String
  message : String
  deriving DecidableEq, Repr

/-- The fields of `Limits` that bound a batch. -/
structure Limits where
  maxBatch : UInt64 := 10000
  deriving DecidableEq, Repr

structure InsertRequest where
  ids : List ExternalId := []
  rows : List F32 := []
  upsert : Bool := false
  deriving DecidableEq, Repr

namespace BulkDecoder
open LittleEndian

/-- Why there is no request: an error in the `Decoded` result, or an exception from a vector. -/
inductive Refusal where
  | api (error : ApiError)
  | badAlloc
  deriving DecidableEq, Repr

abbrev Decoded (α : Type) := Outcome Refusal α

def failWith {α : Type} (status : Nat) (code message : String) : Decoded α :=
  Outcome.fail (.api ⟨status, code, message⟩)

def badRequest {α : Type} (message : String) : Decoded α := failWith 400 "INVALID_ARGUMENT" message

def limitExceeded {α : Type} (message : String) : Decoded α := failWith 422 "LIMIT_EXCEEDED" message

def kHeader : Nat := 16

/-- `"VFB1"`. -/
def kBulkMagic : List Byte := [0x56, 0x46, 0x42, 0x31]

/-- `out |= byte << 8i` for `width` bytes from `offset` on; `read_u64` for eight of them. -/
def readWord (body : List Byte) (offset : Nat) : (width : Nat) → Decoded Nat
  | 0 => .ok 0
  | width + 1 => do
    let out ← readWord body offset width
    let byte ← Outcome.index body (offset + width)
    return out ||| (byte.toNat <<< (8 * width))

/-- `std::vector::resize` to `count` elements, where an allocation of more than `room` bytes throws. -/
def resize (room : UInt64) (count width : Nat) : Decoded Unit :=
  if count * width ≤ room.toNat then .ok () else Outcome.fail .badAlloc

/-- The loop over the ids, from the `i`-th on. -/
def readIds (body : List Byte) : (left i : Nat) → Decoded (List ExternalId)
  | 0, _ => .ok []
  | left + 1, i => do
    let word ← readWord body (kHeader + i * 8) 8
    if UInt64.ofNat word = kInvalidExternalId then badRequest ("id " ++ toString i ++ " is the reserved value")
    else do
      let rest ← readIds body left (i + 1)
      return UInt64.ofNat word :: rest

/-- The loop over the components, from the `i`-th on. -/
def readRows (body : List Byte) (offset : Nat) : (left i : Nat) → Decoded (List F32)
  | 0, _ => .ok []
  | left + 1, i => do
    let word ← readWord body (offset + i * 4) 4
    let rest ← readRows body offset left (i + 1)
    return ⟨UInt32.ofNat word⟩ :: rest

/-- `decode_bulk`, with the products of the source in 64 bits. -/
def decodeBulk (room : UInt64) (body : List Byte) (dim : UInt32) (limits : Limits) : Decoded InsertRequest :=
  if body.length < kHeader ∨ body.take 4 ≠ kBulkMagic then
    badRequest "bulk body must start with the 16-byte VFB1 header"
  else do
    let fileDim ← readWord body 4 4
    let count ← readWord body 8 8
    if fileDim ≠ dim.toNat then
      failWith 400 "DIMENSION_MISMATCH" ("bulk dim is " ++ toString fileDim ++ ", expected " ++ toString dim.toNat)
    else if count > limits.maxBatch.toNat then
      limitExceeded (toString count ++ " vectors exceed the batch limit of " ++ toString limits.maxBatch.toNat)
    else
      let expected := (kHeader + (count * 8) % 2 ^ 64 + ((count * dim.toNat) % 2 ^ 64 * 4) % 2 ^ 64) % 2 ^ 64
      if body.length ≠ expected then
        badRequest ("bulk body is " ++ toString body.length ++ " bytes, expected " ++ toString expected)
      else do
        resize room count 8
        let ids ← readIds body count 0
        resize room ((count * dim.toNat) % 2 ^ 64) 4
        let rows ← readRows body (kHeader + count * 8) ((count * dim.toNat) % 2 ^ 64) 0
        return { ids, rows }

section Reading
variable {body : List Byte}

/-- A word of bytes that are there is the number they denote. -/
theorem readWord_ok {offset : Nat} : ∀ {width : Nat}, offset + width ≤ body.length →
    readWord body offset width = .ok (leValue ((body.drop offset).take width))
  | 0, _ => rfl
  | width + 1, inside => by
    have last : offset + width < body.length := by omega
    rw [readWord, readWord_ok (by omega), Outcome.ok_bind, Outcome.index_ok last,
      Outcome.ok_bind, Outcome.pure_eq_ok]
    have length : ((body.drop offset).take width).length = width := by
      rw [List.length_take, List.length_drop]
      omega
    have step := leValue_or ((body.drop offset).take width) body[offset + width]
    rw [length] at step
    rw [step, List.take_succ_eq_append_getElem (by rw [List.length_drop]; omega), List.getElem_drop]

theorem readWord_fault {offset : Nat} : ∀ {width : Nat}, 0 < width → body.length < offset + width →
    readWord body offset width = .error (.fault .outOfBounds)
  | 0, positive, _ => absurd positive (by decide)
  | width + 1, _, outside => by
    rw [readWord]
    by_cases before : offset + width ≤ body.length
    · rw [readWord_ok before, Outcome.ok_bind, Outcome.index, List.getElem?_eq_none (by omega)]
      rfl
    · cases width with
      | zero =>
        rw [readWord, Outcome.ok_bind, Outcome.index, List.getElem?_eq_none (by omega)]
        rfl
      | succ width =>
        rw [readWord_fault (by omega) (by omega)]
        rfl

/-- The word in front of a field that was written there. -/
theorem readWord_of_field {offset width value : Nat} {tail : List Byte} (fits : value < 256 ^ width)
    (field : body.drop offset = leBytes width value ++ tail) (inside : offset ≤ body.length) :
    readWord body offset width = .ok value := by
  have length := congrArg List.length field
  rw [List.length_drop, List.length_append, length_leBytes] at length
  rw [readWord_ok (by omega), field, List.take_left' (length_leBytes width value), leValue_leBytes_of_lt fits]

/-- The bytes behind such a field. -/
theorem drop_of_field {offset width value : Nat} {tail : List Byte}
    (field : body.drop offset = leBytes width value ++ tail) : body.drop (offset + width) = tail := by
  rw [← List.drop_drop, field, List.drop_left' (length_leBytes width value)]

end Reading

/-- What `n` ids and their components look like in a body. -/
def idBytes (ids : List ExternalId) : List Byte := ids.flatMap fun id => leBytes 8 id.toNat

def rowBytes (rows : List F32) : List Byte := rows.flatMap fun x => leBytes 4 x.bits.toNat

theorem length_idBytes (ids : List ExternalId) : (idBytes ids).length = ids.length * 8 := by
  induction ids with
  | nil => rfl
  | cons id ids ih =>
    have step : idBytes (id :: ids) = leBytes 8 id.toNat ++ idBytes ids := rfl
    rw [step, List.length_append, length_leBytes, ih, List.length_cons]
    omega

theorem length_rowBytes (rows : List F32) : (rowBytes rows).length = rows.length * 4 := by
  induction rows with
  | nil => rfl
  | cons x rows ih =>
    have step : rowBytes (x :: rows) = leBytes 4 x.bits.toNat ++ rowBytes rows := rfl
    rw [step, List.length_append, length_leBytes, ih, List.length_cons]
    omega

section Loops
variable {body : List Byte}

/-- The ids of a body that holds them. -/
theorem readIds_of_bytes : ∀ {ids : List ExternalId} {i : Nat} {tail : List Byte}, body.drop (kHeader + i * 8) =
    idBytes ids ++ tail →
    (∀ id ∈ ids, id ≠ kInvalidExternalId) → readIds body ids.length i = .ok ids
  | [], _, _, _, _ => rfl
  | id :: ids, i, tail, bytes, valid => by
    have field : body.drop (kHeader + i * 8) = leBytes 8 id.toNat ++ (idBytes ids ++ tail) := by
      rw [bytes]
      exact List.append_assoc _ _ _
    have inside : kHeader + i * 8 ≤ body.length := by
      have length := congrArg List.length field
      rw [List.length_drop, List.length_append, length_leBytes] at length
      omega
    have later : body.drop (kHeader + (i + 1) * 8) = idBytes ids ++ tail := by
      rw [Nat.succ_mul, ← Nat.add_assoc]
      exact drop_of_field field
    rw [List.length_cons, readIds, readWord_of_field (by exact id.toNat_lt) field inside,
      Outcome.ok_bind, UInt64.ofNat_toNat,
      if_neg (valid id List.mem_cons_self), readIds_of_bytes later fun other mem =>
      valid other (List.mem_cons_of_mem _ mem)]
    rfl

theorem readRows_of_bytes {offset : Nat} : ∀ {rows : List F32} {i : Nat} {tail : List Byte},
    body.drop (offset + i * 4) = rowBytes rows ++ tail → readRows body offset rows.length i = .ok rows
  | [], _, _, _ => rfl
  | x :: rows, i, tail, bytes => by
    have field : body.drop (offset + i * 4) = leBytes 4 x.bits.toNat ++ (rowBytes rows ++ tail) := by
      rw [bytes]
      exact List.append_assoc _ _ _
    have inside : offset + i * 4 ≤ body.length := by
      have length := congrArg List.length field
      rw [List.length_drop, List.length_append, length_leBytes] at length
      omega
    have later : body.drop (offset + (i + 1) * 4) = rowBytes rows ++ tail := by
      rw [Nat.succ_mul, ← Nat.add_assoc]
      exact drop_of_field field
    rw [List.length_cons, readRows, readWord_of_field (by exact x.bits.toNat_lt) field inside, Outcome.ok_bind,
      readRows_of_bytes later,
      UInt32.ofNat_toNat]
    rfl

/-- The `i`-th id of a body. -/
def idAt (body : List Byte) (i : Nat) : Nat := leValue ((body.drop (kHeader + i * 8)).take 8)

/-- The ids are read, or one of those inside the body is the reserved one, or the body ends before them. -/
inductive IdsRead (body : List Byte) (left i : Nat) : Decoded (List ExternalId) → Prop
  | read {ids : List ExternalId} (length : ids.length = left) (valid : ∀ id ∈ ids, id ≠ kInvalidExternalId)
      (bytes : (body.drop (kHeader + i * 8)).take (left * 8) = idBytes ids) (inside : left = 0 ∨
        kHeader + (i + left) * 8 ≤ body.length)
      (unreserved : ∀ j, i ≤ j → j < i + left → idAt body j ≠ kInvalidExternalId.toNat) :
      IdsRead body left i (.ok ids)
  | reserved {e : Refusal} {j : Nat} (first : i ≤ j) (last : j < i + left)
      (inside : kHeader + (j + 1) * 8 ≤ body.length)
      (reserved : idAt body j = kInvalidExternalId.toNat) : IdsRead body left i (.error (.error e))
  | outside (beyond : body.length < kHeader + (i + left) * 8)
      (unreserved : ∀ j, i ≤ j → j < i + left → kHeader + (j + 1) * 8 ≤ body.length →
        idAt body j ≠ kInvalidExternalId.toNat) :
      IdsRead body left i (.error (.fault .outOfBounds))

theorem slice_succ (offset width left i : Nat) : (body.drop (offset + i * width)).take ((left + 1) * width) =
    (body.drop (offset + i * width)).take width ++ (body.drop (offset + (i + 1) * width)).take (left * width) := by
  rw [Nat.succ_mul, Nat.add_comm (left * width), List.take_add, List.drop_drop, Nat.succ_mul, Nat.add_assoc]

theorem IdsRead.cons {left i : Nat} {id : ExternalId} {run : Decoded (List ExternalId)}
    (here : kHeader + i * 8 + 8 ≤ body.length)
    (value : id.toNat = idAt body i) (free : id ≠ kInvalidExternalId) (rest : IdsRead body left (i + 1) run) :
    IdsRead body (left + 1) i (run >>= fun ids => pure (id :: ids)) := by
  have head : idAt body i ≠ kInvalidExternalId.toNat := fun equal => free (UInt64.toNat_inj.mp (value.trans equal))
  cases rest with
  | read length valid bytes inside unreserved =>
    refine .read (by rw [List.length_cons, length]) (List.forall_mem_cons.mpr ⟨free, valid⟩) ?_ (.inr (by omega))
      fun j first last => ?_
    · rw [slice_succ, bytes]
      have word : leBytes 8 id.toNat = (body.drop (kHeader + i * 8)).take 8 := by
        rw [value]
        exact leBytes_leValue_of_length (by rw [List.length_take, List.length_drop]; omega)
      rw [← word]
      rfl
    · by_cases same : j = i
      · exact same ▸ head
      · exact unreserved j (by omega) (by omega)
  | reserved first last inside reserved => exact .reserved (by omega) (by omega) inside reserved
  | outside beyond unreserved =>
    refine .outside (by omega) fun j first last inside => ?_
    by_cases same : j = i
    · exact same ▸ head
    · exact unreserved j (by omega) (by omega) inside

theorem readIds_spec (body : List Byte) : ∀ left i, IdsRead body left i (readIds body left i)
  | 0, i => .read rfl (by simp) (by simp [idBytes]) (.inl rfl) (by omega)
  | left + 1, i => by
    rw [readIds]
    by_cases here : kHeader + i * 8 + 8 ≤ body.length
    · rw [readWord_ok here, Outcome.ok_bind]
      have word : leValue ((body.drop (kHeader + i * 8)).take 8) < 2 ^ 64 := by
        refine (leValue_lt _).trans_le ?_
        rw [List.length_take, List.length_drop, Nat.min_eq_left (by omega)]
        decide
      have value : (UInt64.ofNat (leValue ((body.drop (kHeader + i * 8)).take 8))).toNat = idAt body i :=
        UInt64.toNat_ofNat_of_lt word
      split
      next reserved => exact .reserved (j := i) (by omega) (by omega) (by omega) (by rw [← value, reserved])
      next free => exact (readIds_spec body left (i + 1)).cons here value free
    · rw [readWord_fault (by decide) (by omega)]
      exact .outside (by omega) (by omega)

theorem readRows_spec (body : List Byte) (offset : Nat) : ∀ left i,
    (left = 0 ∨ offset + (i + left) * 4 ≤ body.length) ∧
    (∃ rows, readRows body offset left i = .ok rows ∧ rows.length = left ∧
      (body.drop (offset + i * 4)).take (left * 4) = rowBytes rows) ∨
    (0 < left ∧ body.length < offset + (i + left) * 4) ∧ readRows body offset left i = .error (.fault .outOfBounds)
  | 0, i => .inl ⟨.inl rfl, [], rfl, rfl, by simp [rowBytes]⟩
  | left + 1, i => by
    rw [readRows]
    by_cases here : offset + i * 4 + 4 ≤ body.length
    · rw [readWord_ok here, Outcome.ok_bind]
      have word : leValue ((body.drop (offset + i * 4)).take 4) < 2 ^ 32 := by
        refine (leValue_lt _).trans_le ?_
        rw [List.length_take, List.length_drop, Nat.min_eq_left (by omega)]
        decide
      have bytes : leBytes 4 (UInt32.ofNat (leValue ((body.drop (offset + i * 4)).take 4))).toNat =
          (body.drop (offset + i * 4)).take 4 := by
        have value : (UInt32.ofNat (leValue ((body.drop (offset + i * 4)).take 4))).toNat =
            leValue ((body.drop (offset + i * 4)).take 4) :=
          UInt32.toNat_ofNat_of_lt word
        rw [value]
        exact leBytes_leValue_of_length (by rw [List.length_take, List.length_drop]; omega)
      generalize UInt32.ofNat (leValue ((body.drop (offset + i * 4)).take 4)) = bits at *
      rcases readRows_spec body offset left (i + 1) with ⟨inside, rows, run, length, rest⟩ | ⟨⟨some, beyond⟩, run⟩
      · refine .inl ⟨.inr (by omega), ⟨bits⟩ :: rows, by rw [run]; rfl, by rw [List.length_cons, length], ?_⟩
        rw [slice_succ, rest, ← bytes]
        rfl
      · refine .inr ⟨⟨by omega, by omega⟩, by rw [run]; rfl⟩
    · rw [readWord_fault (by decide) (by omega)]
      exact .inr ⟨⟨by omega, by omega⟩, rfl⟩

end Loops

/-- The format of the body for a request: header, ids, components, and nothing behind them. -/
structure BulkFormat (body : List Byte) (dim : UInt32) (limits : Limits) (request : InsertRequest) : Prop where
  bytes : body = kBulkMagic ++ leBytes 4 dim.toNat ++ leBytes 8 request.ids.length ++ idBytes request.ids ++
    rowBytes request.rows
  batch : request.ids.length ≤ limits.maxBatch.toNat
  ids : ∀ id ∈ request.ids, id ≠ kInvalidExternalId
  rows : request.rows.length = request.ids.length * dim.toNat
  upsert : request.upsert = false

/-- The decoder accepts exactly that format, returns what the body holds, and reads nothing outside it. -/
def DecodesExactly (room : UInt64) (body : List Byte) (dim : UInt32) (limits : Limits) : Prop :=
  (∀ request, decodeBulk room body dim limits = .ok request ↔ BulkFormat body dim limits request) ∧
    ∀ f, decodeBulk room body dim limits ≠ .error (.fault f)

def countOf (body : List Byte) : Nat := leValue ((body.drop 8).take 8)

/-- The size of a body with `count` vectors. -/
def fullSize (count : Nat) (dim : UInt32) : Nat := kHeader + count * 8 + count * dim.toNat * 4

/-- A header whose full size wraps to the size of the body, with room for the vectors and no reserved id in the
way. -/
structure Overruns (room : UInt64) (body : List Byte) (dim : UInt32) (limits : Limits) : Prop where
  header : kHeader ≤ body.length ∧ body.take 4 = kBulkMagic ∧ leValue ((body.drop 4).take 4) = dim.toNat
  batch : countOf body ≤ limits.maxBatch.toNat
  wraps : 2 ^ 64 ≤ fullSize (countOf body) dim
  size : body.length = fullSize (countOf body) dim % 2 ^ 64
  idsFit : countOf body * 8 ≤ room.toNat
  unreserved : ∀ i < countOf body, kHeader + (i + 1) * 8 ≤ body.length → idAt body i ≠ kInvalidExternalId.toNat
  rowsFit : kHeader + countOf body * 8 ≤ body.length → countOf body * dim.toNat % 2 ^ 64 * 4 ≤ room.toNat

section Exact
variable {room : UInt64} {body : List Byte} {dim : UInt32} {limits : Limits}

/-- What is left of the decoder once the size of the body has passed. -/
def decodeVectors (room : UInt64) (body : List Byte) (dim : UInt32) (count : Nat) : Decoded InsertRequest := do
  resize room count 8
  let ids ← readIds body count 0
  resize room ((count * dim.toNat) % 2 ^ 64) 4
  let rows ← readRows body (kHeader + count * 8) ((count * dim.toNat) % 2 ^ 64) 0
  return { ids, rows }

theorem expected_eq (count : Nat) :
    (kHeader + (count * 8) % 2 ^ 64 + ((count * dim.toNat) % 2 ^ 64 * 4) % 2 ^ 64) % 2 ^ 64 =
    fullSize count dim % 2 ^ 64 := by
  rw [fullSize]
  omega

/-- The header is right and the size is the one computed in 64 bits. -/
structure Admitted (body : List Byte) (dim : UInt32) (limits : Limits) : Prop where
  header : kHeader ≤ body.length ∧ body.take 4 = kBulkMagic ∧ leValue ((body.drop 4).take 4) = dim.toNat
  batch : countOf body ≤ limits.maxBatch.toNat
  size : body.length = fullSize (countOf body) dim % 2 ^ 64

theorem decodeBulk_of_admitted (admitted : Admitted body dim limits) :
    decodeBulk room body dim limits = decodeVectors room body dim (countOf body) := by
  obtain ⟨⟨long, magic, dims⟩, batch, size⟩ := admitted
  have long' : 16 ≤ body.length := long
  rw [decodeBulk, if_neg (by simp only [not_or, Nat.not_lt, ne_eq, not_not]; exact ⟨long, magic⟩),
    readWord_ok (by omega),
    Outcome.ok_bind, readWord_ok (by omega), Outcome.ok_bind, if_neg (not_not.mpr dims)]
  rw [countOf] at batch size
  rw [if_neg (Nat.not_lt.mpr batch)]
  simp only [expected_eq, size.symm, ne_eq, not_true, if_false]
  rfl

/-- A body that is not admitted is refused with an error. -/
theorem decodeBulk_of_not_admitted (room : UInt64) (refused : ¬ Admitted body dim limits) :
    ∃ e, decodeBulk room body dim limits = .error (.error e) := by
  rw [decodeBulk]
  split
  next => exact ⟨_, rfl⟩
  next good =>
    rw [not_or, Nat.not_lt, ne_eq, not_not] at good
    have long : 16 ≤ body.length := good.1
    rw [readWord_ok (by omega), Outcome.ok_bind, readWord_ok (by omega), Outcome.ok_bind]
    split
    next => exact ⟨_, rfl⟩
    next dims =>
      split
      next => exact ⟨_, rfl⟩
      next batch =>
        simp only [expected_eq]
        split
        next => exact ⟨_, rfl⟩
        next size => exact absurd ⟨⟨good.1, good.2, not_not.mp dims⟩, Nat.not_lt.mp batch, not_not.mp size⟩ refused

theorem BulkFormat.length {request : InsertRequest} (format : BulkFormat body dim limits request) :
    body.length = fullSize request.ids.length dim := by
  rw [format.bytes]
  simp only [List.length_append, length_leBytes, length_idBytes, length_rowBytes, format.rows, fullSize, kHeader]
  rfl

/-- Where the parts of a body in the format start. -/
theorem BulkFormat.parts {request : InsertRequest} (format : BulkFormat body dim limits request) :
    body.drop 4 = leBytes 4 dim.toNat ++
      (leBytes 8 request.ids.length ++ (idBytes request.ids ++ rowBytes request.rows)) ∧
      body.drop 8 = leBytes 8 request.ids.length ++ (idBytes request.ids ++ rowBytes request.rows) ∧
      body.drop 16 = idBytes request.ids ++ rowBytes request.rows := by
  have dims : body.drop 4 = leBytes 4 dim.toNat ++
      (leBytes 8 request.ids.length ++ (idBytes request.ids ++ rowBytes request.rows)) := by
    rw [format.bytes]
    simp only [List.append_assoc]
    rfl
  have count := drop_of_field dims
  exact ⟨dims, count, drop_of_field count⟩

theorem BulkFormat.admitted {request : InsertRequest} (format : BulkFormat body dim limits request)
    (held : body.length ≤ room.toNat) : Admitted body dim limits ∧ countOf body = request.ids.length := by
  have length := format.length
  have room' := room.toNat_lt
  have small : request.ids.length < 256 ^ 8 := by
    have ids : request.ids.length * 8 ≤ fullSize request.ids.length dim := by
      rw [fullSize]
      omega
    omega
  have count : countOf body = request.ids.length := by
    rw [countOf, format.parts.2.1, List.take_left' (length_leBytes 8 _), leValue_leBytes_of_lt small]
  have dims : leValue ((body.drop 4).take 4) = dim.toNat := by
    rw [format.parts.1, List.take_left' (length_leBytes 4 _), leValue_leBytes_of_lt (by exact dim.toNat_lt)]
  refine ⟨⟨⟨by rw [length, fullSize]; omega, by rw [format.bytes]; rfl, dims⟩, ?_, ?_⟩, count⟩
  · rw [count]
    exact format.batch
  · rw [count, length, Nat.mod_eq_of_lt (by omega)]

/-- A body in the format is decoded to what it holds. -/
theorem decodeBulk_of_format {request : InsertRequest} (format : BulkFormat body dim limits request)
    (held : body.length ≤ room.toNat) : decodeBulk room body dim limits = .ok request := by
  obtain ⟨admitted, count⟩ := format.admitted held
  have length := format.length
  have room' := room.toNat_lt
  rw [fullSize] at length
  have product : request.ids.length * dim.toNat % 2 ^ 64 = request.rows.length := by
    rw [format.rows, Nat.mod_eq_of_lt (by omega)]
  have idsThere : body.drop (kHeader + 0 * 8) = idBytes request.ids ++ rowBytes request.rows := format.parts.2.2
  have rowsThere : body.drop (kHeader + request.ids.length * 8 + 0 * 4) = rowBytes request.rows ++ [] := by
    rw [List.append_nil, Nat.zero_mul, Nat.add_zero, ← List.drop_drop]
    change List.drop _ (body.drop 16) = _
    rw [format.parts.2.2, List.drop_left' (length_idBytes _)]
  rw [decodeBulk_of_admitted admitted, decodeVectors, count, product, resize, if_pos (by omega), Outcome.ok_bind,
    readIds_of_bytes idsThere format.ids, Outcome.ok_bind, resize,
    if_pos (by rw [format.rows]; omega), Outcome.ok_bind,
    readRows_of_bytes rowsThere, Outcome.ok_bind]
  obtain ⟨ids, rows, upsert⟩ := request
  rw [← format.upsert]
  rfl

/-- A body put together from its parts. -/
theorem bytes_of_parts {ids : List ExternalId} {rows : List F32} (long : kHeader ≤ body.length)
    (magic : body.take 4 = kBulkMagic)
    (dims : leValue ((body.drop 4).take 4) = dim.toNat) (count : countOf body = ids.length)
    (idsThere : (body.drop 16).take (ids.length * 8) = idBytes ids)
    (rowsThere : body.drop (16 + ids.length * 8) = rowBytes rows) :
    body = kBulkMagic ++ leBytes 4 dim.toNat ++ leBytes 8 ids.length ++ idBytes ids ++ rowBytes rows := by
  have long' : 16 ≤ body.length := long
  have dimField : leBytes 4 dim.toNat = (body.drop 4).take 4 := by
    rw [← dims]
    exact leBytes_leValue_of_length (by rw [List.length_take, List.length_drop]; omega)
  have countField : leBytes 8 ids.length = (body.drop 8).take 8 := by
    rw [← count, countOf]
    exact leBytes_leValue_of_length (by rw [List.length_take, List.length_drop]; omega)
  rw [← magic, dimField, countField, ← idsThere, ← rowsThere, List.append_assoc, ← List.drop_drop,
    List.take_append_drop,
    List.append_assoc, ← List.drop_drop (j := 8) (i := 8), List.take_append_drop,
    List.append_assoc, ← List.drop_drop (j := 4) (i := 4), List.take_append_drop, List.take_append_drop]

/-- Without a wrapped size nothing outside the body is read, and what is accepted has the format. -/
theorem decodeVectors_of_size (room : UInt64) (admitted : Admitted body dim limits)
    (exact : fullSize (countOf body) dim < 2 ^ 64) :
    (∀ request, decodeVectors room body dim (countOf body) = .ok request → BulkFormat body dim limits request) ∧
      ∀ f, decodeVectors room body dim (countOf body) ≠ .error (.fault f) := by
  obtain ⟨⟨long, magic, dims⟩, batch, size⟩ := admitted
  rw [Nat.mod_eq_of_lt exact, fullSize] at size
  rw [fullSize] at exact
  have product : countOf body * dim.toNat % 2 ^ 64 = countOf body * dim.toNat := Nat.mod_eq_of_lt (by omega)
  rw [decodeVectors, product, resize]
  split
  next =>
    rw [Outcome.ok_bind]
    generalize listed : readIds body (countOf body) 0 = ids
    have reading := listed ▸ readIds_spec body (countOf body) 0
    cases reading with
    | @read ids length valid bytes inside unreserved =>
      rw [Outcome.ok_bind, resize]
      split
      next =>
        rw [Outcome.ok_bind]
        rcases readRows_spec body (kHeader + countOf body * 8) (countOf body * dim.toNat) 0 with
          ⟨-, rows, read, count, rowsThere⟩ | ⟨⟨_, beyond⟩, -⟩
        · rw [read, Outcome.ok_bind]
          refine ⟨?_, fun f run => (by cases run)⟩
          rintro request run
          cases run
          refine ⟨?_, by rw [length]; exact batch, valid, by rw [count, length], rfl⟩
          refine bytes_of_parts long magic dims length.symm (by rw [length]; exact bytes) ?_
          rw [← rowsThere, List.take_of_length_le (by rw [List.length_drop]; omega), length]
          rfl
        · omega
      next => exact ⟨fun _ run => (by cases run), fun _ run => (by cases run)⟩
    | reserved first last inside reserved => exact ⟨fun _ run => (by cases run), fun _ run => (by cases run)⟩
    | outside beyond unreserved => omega
  next => exact ⟨fun _ run => (by cases run), fun _ run => (by cases run)⟩

/-- With a wrapped size the decoder stops with an error exactly where nothing lets it overrun the body. -/
theorem decodeVectors_of_wrap (admitted : Admitted body dim limits) (wraps : 2 ^ 64 ≤ fullSize (countOf body) dim) :
    (∃ e, decodeVectors room body dim (countOf body) = .error (.error e)) ↔ ¬ Overruns room body dim limits := by
  rw [decodeVectors, resize]
  split
  next idsFit =>
    rw [Outcome.ok_bind]
    generalize listed : readIds body (countOf body) 0 = ids
    have reading := listed ▸ readIds_spec body (countOf body) 0
    cases reading with
    | read length valid bytes inside unreserved =>
      rw [Outcome.ok_bind, resize]
      have there : kHeader + countOf body * 8 ≤ body.length := by
        rcases inside with none | inside
        · rw [none, fullSize, kHeader] at wraps
          omega
        · omega
      split
      next rowsFit =>
        rw [Outcome.ok_bind]
        have overruns : Overruns room body dim limits :=
          ⟨admitted.header, admitted.batch, wraps, admitted.size, idsFit,
          fun i less _ => unreserved i (by omega) (by omega), fun _ => rowsFit⟩
        refine ⟨fun ⟨e, run⟩ => ?_, fun no => absurd overruns no⟩
        rcases readRows_spec body (kHeader + countOf body * 8) (countOf body * dim.toNat % 2 ^ 64) 0 with
          ⟨-, rows, read, -, -⟩ | ⟨-, read⟩
        · rw [read] at run
          cases run
        · rw [read] at run
          cases run
      next full => exact ⟨fun _ overruns => full (overruns.rowsFit there), fun _ => ⟨_, rfl⟩⟩
    | reserved first last inside reserved =>
      exact ⟨fun _ overruns => overruns.unreserved _ (by omega) inside reserved, fun _ => ⟨_, rfl⟩⟩
    | outside beyond unreserved =>
      refine ⟨fun ⟨e, run⟩ => (by cases run), fun no => absurd ?_ no⟩
      exact ⟨admitted.header, admitted.batch, wraps, admitted.size, idsFit,
        fun i less inside => unreserved i (by omega) (by omega) inside,
        fun inside => by omega⟩
  next full =>
    refine ⟨fun _ overruns => full overruns.idsFit, fun _ => ⟨_, rfl⟩⟩

/-- Where the full size wraps no body has the format. -/
theorem no_format_of_wrap (wraps : 2 ^ 64 ≤ fullSize (countOf body) dim) (held : body.length ≤ room.toNat)
    (request : InsertRequest) : ¬ BulkFormat body dim limits request := by
  intro format
  have length := format.length
  rw [← (format.admitted held).2] at length
  have room' := room.toNat_lt
  omega

theorem not_exact_of_overruns (held : body.length ≤ room.toNat) (overruns : Overruns room body dim limits) :
    ¬ DecodesExactly room body dim limits := by
  have admitted : Admitted body dim limits := ⟨overruns.header, overruns.batch, overruns.size⟩
  rintro ⟨exact, safe⟩
  cases run : decodeBulk room body dim limits with
  | error stop =>
    cases stop with
    | error e =>
      rw [decodeBulk_of_admitted admitted] at run
      exact (decodeVectors_of_wrap admitted overruns.wraps).mp ⟨e, run⟩ overruns
    | fault f => exact safe f run
  | ok request => exact no_format_of_wrap overruns.wraps held request ((exact request).mp run)

/-- A refusal is right where no request has the format. -/
theorem exact_of_refused {e : Refusal} (run : decodeBulk room body dim limits = .error (.error e))
    (none : ∀ request, ¬ BulkFormat body dim limits request) : DecodesExactly room body dim limits := by
  rw [DecodesExactly, run]
  exact ⟨fun request => ⟨fun ok => (by cases ok), fun format => absurd format (none request)⟩,
    fun f fault => (by cases fault)⟩

theorem exact_of_not_overruns (held : body.length ≤ room.toNat) (stays : ¬ Overruns room body dim limits) :
    DecodesExactly room body dim limits := by
  by_cases admitted : Admitted body dim limits
  · by_cases wraps : 2 ^ 64 ≤ fullSize (countOf body) dim
    · obtain ⟨e, run⟩ := (decodeVectors_of_wrap admitted wraps).mpr stays
      rw [← decodeBulk_of_admitted admitted] at run
      exact exact_of_refused run (no_format_of_wrap wraps held)
    · have sound := decodeVectors_of_size room admitted (Nat.not_le.mp wraps)
      rw [← decodeBulk_of_admitted admitted] at sound
      exact ⟨fun request => ⟨sound.1 request, fun format => decodeBulk_of_format format held⟩, sound.2⟩
  · obtain ⟨e, run⟩ := decodeBulk_of_not_admitted room admitted
    exact exact_of_refused run fun _ format => admitted (format.admitted held).1

/-- What the decoder does for any amount of room: only a body whose size matches its count just modulo 2^64 can lead
behind the body. -/
theorem decodesExactly_iff (held : body.length ≤ room.toNat) :
    DecodesExactly room body dim limits ↔ ¬ Overruns room body dim limits :=
  ⟨fun exact overruns => not_exact_of_overruns held overruns exact, exact_of_not_overruns held⟩

/-- Where ids and components have to fit into a 48-bit address space, there is no such body. -/
theorem Overruns.room_gt (overruns : Overruns room body dim limits) (dims : dim.toNat ≤ kMaxDim) :
    2 ^ 48 < room.toNat := by
  have wraps := overruns.wraps
  have ids := overruns.idsFit
  have product : countOf body * dim.toNat ≤ countOf body * 65536 := Nat.mul_le_mul_left _ dims
  rw [fullSize, kHeader] at wraps
  omega

/-- `decode_bulk` accepts exactly its format and reads nothing behind the body. A vector can get `room` bytes,
which are enough for the body and are not more than the address space has. -/
theorem decode_bulk_is_exact (held : body.length ≤ room.toNat) (granted : room.toNat ≤ 2 ^ 48)
    (dims : dim.toNat ≤ kMaxDim) : DecodesExactly room body dim limits :=
  (decodesExactly_iff held).mpr fun overruns => absurd (overruns.room_gt dims) (Nat.not_lt.mpr granted)

end Exact

/-- The body of one vector with one component, and a header whose full size is 2^64 + 16. -/
theorem decode_bulk_is_exact_wrapped :
    DecodesExactly 0x1000000000000
      [0x56, 0x46, 0x42, 0x31, 1, 0, 0, 0, 1, 0, 0, 0, 0, 0, 0, 0, 7, 0, 0, 0, 0, 0, 0, 0, 0, 0, 0x80, 0x3F] 1 {} ∧
    DecodesExactly 0x1000000000000 [0x56, 0x46, 0x42, 0x31, 0xFE, 0xFF, 0, 0, 0, 0, 0, 0, 0, 0x40, 0, 0] 65534
      { maxBatch := 0x400000000000 } :=
  ⟨decode_bulk_is_exact (by decide) (by decide) (by decide),
    decode_bulk_is_exact (by decide) (by decide) (by decide)⟩

end BulkDecoder
end VectorForge
