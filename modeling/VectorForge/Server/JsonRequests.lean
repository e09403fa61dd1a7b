import VectorForge.Server.JsonCodec

/-! What the decoders of insert and search bodies accept. -/

namespace VectorForge.JsonCodec
open JsonDepth (withinDepth kMaxJsonDepth)

section Parts
variable {lib : JsonLibrary} {body : List Byte} {allowed : List (List Byte)} {doc : Fields} {dim : UInt32}
  {what : String} {row rows : List F32}

theorem ok_bind {α β : Type} {m : Decoded α} {f : α → Decoded β} {b : β} : m >>= f = .ok b ↔
    ∃ a, m = .ok a ∧ f a = .ok b := by
  cases m with
  | error e => exact ⟨nofun, fun ⟨a, run, _⟩ => (by cases run)⟩
  | ok a => exact ⟨fun run => ⟨a, rfl, run⟩, fun ⟨_, same, run⟩ => (by cases same; exact run)⟩

theorem parseObject_ok_iff : parseObject lib body allowed = .ok doc ↔
    withinDepth body kMaxJsonDepth = true ∧ lib.parse body = some (.object doc) ∧
    ∀ field ∈ doc, field.1 ∈ allowed := by
  have known (fields : Fields) : fields.find? (fun field => !allowed.contains field.1) = none ↔
      ∀ field ∈ fields, field.1 ∈ allowed := by
    simp only [List.find?_eq_none, Bool.not_eq_true', Bool.not_eq_false, List.contains_iff_mem]
  constructor
  · intro run
    unfold parseObject at run
    split at run
    · cases run
    next shallow =>
      rw [Bool.not_eq_true', Bool.not_eq_false] at shallow
      split at run
      · cases run
      next fields parsed =>
        split at run
        · cases run
        next none =>
          cases run
          exact ⟨shallow, parsed, (known _).mp none⟩
      · cases run
  · rintro ⟨shallow, parsed, all⟩
    rw [parseObject, if_neg (by rw [shallow]; decide), parsed]
    simp only
    rw [(known doc).mpr all]

theorem components_ok_iff : ∀ {items : List Json} {row : List F32},
    components lib what items = .ok row ↔ ∃ numbers : List JsonNumber, items = numbers.map .number ∧
    row = numbers.map lib.component
  | [], row => by
    constructor
    · intro run
      cases run
      exact ⟨[], rfl, rfl⟩
    · rintro ⟨numbers, none, rfl⟩
      rw [List.map_eq_nil_iff.mp none.symm]
      rfl
  | item :: items, row => by
    constructor
    · intro run
      cases item with
      | number n =>
        obtain ⟨rest, tail, done⟩ := ok_bind.mp run
        cases done
        obtain ⟨numbers, rfl, rfl⟩ := components_ok_iff.mp tail
        exact ⟨n :: numbers, rfl, rfl⟩
      | _ => cases run
    · rintro ⟨numbers, all, rfl⟩
      cases numbers with
      | nil => cases all
      | cons n numbers =>
        cases all
        exact ok_bind.mpr ⟨_, components_ok_iff.mpr ⟨numbers, rfl, rfl⟩, rfl⟩

/-- A vector is an array of as many numbers as there are components. -/
theorem appendVector_ok_iff {value : Json} : appendVector lib value dim what = .ok row ↔
    ∃ numbers : List JsonNumber, value = .array (numbers.map .number) ∧ numbers.length = dim.toNat ∧
    row = numbers.map lib.component := by
  constructor
  · intro run
    unfold appendVector at run
    split at run
    next items =>
      split at run
      · cases run
      next length =>
        obtain ⟨numbers, rfl, rfl⟩ := components_ok_iff.mp run
        rw [not_not, List.length_map] at length
        exact ⟨numbers, rfl, length, rfl⟩
    · cases run
  · rintro ⟨numbers, rfl, length, rfl⟩
    rw [appendVector, if_neg (by rw [List.length_map, length]; exact not_not.mpr rfl)]
    exact components_ok_iff.mpr ⟨numbers, rfl, rfl⟩

end Parts

section Insert
variable {lib : JsonLibrary} {body : List Byte} {dim : UInt32} {limits : JsonLimits}

/-- An item of an insert body. -/
structure ItemFormat (lib : JsonLibrary) (dim : UInt32) (item : Json) (id : ExternalId)
    (row : List F32) : Prop where
  object : ∃ fields, item = .object fields ∧ fields.length = 2 ∧
    (∃ value, fields.lookup (ascii "id") = some value ∧ getUint value (0xFFFFFFFFFFFFFFFF - 1) = some id) ∧
    ∃ numbers : List JsonNumber, fields.lookup (ascii "vector") = some (.array (numbers.map .number)) ∧
    numbers.length = dim.toNat ∧
      row = numbers.map lib.component

/-- The items, with their ids and components. -/
inductive ItemsFormat (lib : JsonLibrary) (dim : UInt32) : List Json → List ExternalId → List F32 → Prop
  | nil : ItemsFormat lib dim [] [] []
  | cons {item : Json} {items : List Json} {id : ExternalId} {ids : List ExternalId} {row rows : List F32}
      (first : ItemFormat lib dim item id row) (others : ItemsFormat lib dim items ids rows) :
      ItemsFormat lib dim (item :: items) (id :: ids) (row ++ rows)

theorem readItem_ok_iff {item : Json} {where_ : String} {id : ExternalId} {row : List F32} :
    readItem lib item dim where_ = .ok (id, row) ↔ ItemFormat lib dim item id row := by
  constructor
  · intro run
    unfold readItem at run
    split at run
    next fields =>
      split at run
      next value vector two idThere vectorThere =>
        split at run
        · cases run
        next id valid =>
          obtain ⟨row, vector, done⟩ := ok_bind.mp run
          cases done
          obtain ⟨numbers, rfl, length, rfl⟩ := appendVector_ok_iff.mp vector
          exact ⟨fields, rfl, two, ⟨value, idThere, valid⟩, numbers, vectorThere, length, rfl⟩
      · cases run
    · cases run
  · rintro ⟨fields, rfl, two, ⟨value, idThere, valid⟩, numbers, vectorThere, length, rfl⟩
    rw [readItem, two, idThere, vectorThere]
    simp only [valid]
    exact ok_bind.mpr ⟨_, appendVector_ok_iff.mpr ⟨numbers, rfl, length, rfl⟩, rfl⟩

theorem readItems_ok_iff : ∀ {items : List Json} {i : Nat} {ids : List ExternalId} {rows : List F32},
    readItems lib dim i items = .ok (ids, rows) ↔ ItemsFormat lib dim items ids rows
  | [], i, ids, rows => ⟨fun run => (by cases run; exact .nil), fun format => (by cases format; rfl)⟩
  | item :: items, i, ids, rows => by
    constructor
    · intro run
      obtain ⟨⟨id, row⟩, first, run⟩ := ok_bind.mp run
      obtain ⟨⟨ids, rows⟩, others, run⟩ := ok_bind.mp run
      cases run
      exact .cons (readItem_ok_iff.mp first) (readItems_ok_iff.mp others)
    · rintro (_ | ⟨first, others⟩)
      exact ok_bind.mpr ⟨_, readItem_ok_iff.mpr first, ok_bind.mpr ⟨_, readItems_ok_iff.mpr others, rfl⟩⟩

/-- The format of an insert body. -/
structure InsertFormat (lib : JsonLibrary) (doc : Fields) (dim : UInt32) (limits : JsonLimits)
    (request : InsertRequest) : Prop where
  known : ∀ field ∈ doc, field.1 ∈ [ascii "upsert", ascii "vectors"]
  upsert : doc.lookup (ascii "upsert") = none ∧ request.upsert = false ∨
    doc.lookup (ascii "upsert") = some (.boolean request.upsert)
  vectors : ∃ items, doc.lookup (ascii "vectors") = some (.array items) ∧ items.length ≤ limits.maxBatch.toNat ∧
    ItemsFormat lib dim items request.ids request.rows

theorem decodeInsert_ok_iff {request : InsertRequest} : decodeInsert lib body dim limits = .ok request ↔
    withinDepth body kMaxJsonDepth = true ∧ ∃ doc, lib.parse body = some (.object doc) ∧
    InsertFormat lib doc dim limits request := by
  constructor
  · intro run
    obtain ⟨doc, parsed, run⟩ := ok_bind.mp run
    obtain ⟨shallow, parsed, known⟩ := parseObject_ok_iff.mp parsed
    obtain ⟨upsert, flag, run⟩ := ok_bind.mp run
    have given : doc.lookup (ascii "upsert") = none ∧ upsert = false ∨
        doc.lookup (ascii "upsert") = some (.boolean upsert) := by
      unfold readUpsert at flag
      split at flag
      next none => exact .inl ⟨none, (Except.ok.inj flag).symm⟩
      next b there => exact .inr (there.trans (by rw [Except.ok.inj flag]))
      · cases flag
    split at run
    next items vectors =>
      split at run
      · cases run
      next batch =>
        obtain ⟨⟨ids, rows⟩, read, run⟩ := ok_bind.mp run
        cases run
        exact ⟨shallow, doc, parsed, known, given, items, vectors, Nat.not_lt.mp batch, readItems_ok_iff.mp read⟩
    · cases run
  · rintro ⟨shallow, doc, parsed, known, upsert, items, vectors, batch, format⟩
    refine ok_bind.mpr ⟨doc, parseObject_ok_iff.mpr ⟨shallow, parsed, known⟩, ok_bind.mpr ⟨request.upsert, ?_, ?_⟩⟩
    · rw [readUpsert]
      rcases upsert with ⟨none, off⟩ | given
      · rw [none, off]
      · rw [given]
    · rw [vectors]
      simp only
      rw [if_neg (Nat.not_lt.mpr batch)]
      exact ok_bind.mpr ⟨_, readItems_ok_iff.mpr format, rfl⟩

theorem getUint_le {value : Json} {max n : UInt64} (read : getUint value max = some n) : n ≤ max := by
  unfold getUint at read
  split at read
  · split at read
    next below =>
      cases read
      exact below
    · cases read
  · split at read
    next below =>
      cases read
      exact below.2
    · cases read
  · cases read

theorem ItemsFormat.shape {items : List Json} {ids : List ExternalId} {rows : List F32}
    (format : ItemsFormat lib dim items ids rows) :
    items.length = ids.length ∧ rows.length = ids.length * dim.toNat ∧ ∀ id ∈ ids, id ≠ kInvalidExternalId := by
  induction format with
  | nil => exact ⟨rfl, (Nat.zero_mul _).symm, nofun⟩
  | cons first others ih =>
    obtain ⟨fields, -, -, ⟨value, -, valid⟩, numbers, -, length, rfl⟩ := first
    obtain ⟨items, rows, valids⟩ := ih
    refine ⟨congrArg Nat.succ items, ?_, List.forall_mem_cons.mpr ⟨?_, valids⟩⟩
    · rw [List.length_append, List.length_map, length, rows, List.length_cons, Nat.succ_mul, Nat.add_comm]
    · rintro rfl
      exact absurd (getUint_le valid) (by decide)

/-- The bulk body of a request. -/
def bulkBody (dim : UInt32) (request : InsertRequest) : List Byte :=
  BulkDecoder.kBulkMagic ++ leBytes 4 dim.toNat ++ leBytes 8 request.ids.length ++
    BulkDecoder.idBytes request.ids ++
    BulkDecoder.rowBytes request.rows

/-- The JSON body of some ids and their vectors. -/
def insertDocument (entries : List (ExternalId × List JsonNumber)) : Fields :=
  [(ascii "vectors", .array (entries.map fun entry =>
    .object [(ascii "id", .number (.unsigned entry.1)), (ascii "vector", .array (entry.2.map .number))]))]

theorem itemsFormat_of_entries : ∀ {entries : List (ExternalId × List JsonNumber)},
    (∀ entry ∈ entries, entry.1 ≠ kInvalidExternalId) →
    (∀ entry ∈ entries, entry.2.length = dim.toNat) →
    ItemsFormat lib dim (entries.map fun entry =>
      .object [(ascii "id", .number (.unsigned entry.1)), (ascii "vector", .array (entry.2.map .number))])
      (entries.map Prod.fst) (entries.flatMap fun entry => entry.2.map lib.component)
  | [], _, _ => .nil
  | (id, numbers) :: entries, valid, lengths => by
    obtain ⟨first, valid⟩ := List.forall_mem_cons.mp valid
    obtain ⟨length, lengths⟩ := List.forall_mem_cons.mp lengths
    have below : id ≤ 0xFFFFFFFFFFFFFFFF - 1 := by
      have other : id.toNat ≠ kInvalidExternalId.toNat := fun same => first (UInt64.toNat_inj.mp same)
      have most := id.toNat_lt
      have value : kInvalidExternalId.toNat = 2 ^ 64 - 1 := rfl
      have bound : (0xFFFFFFFFFFFFFFFF - 1 : UInt64).toNat = 2 ^ 64 - 2 := rfl
      rw [UInt64.le_iff_toNat_le, bound]
      omega
    rw [List.map_cons, List.map_cons, List.flatMap_cons]
    have idThere : [(ascii "id", Json.number (.unsigned id)),
        (ascii "vector", .array (numbers.map .number))].lookup (ascii "id") =
        some (.number (.unsigned id)) := List.lookup_cons_self
    refine .cons ⟨_, rfl, rfl, ⟨_, idThere, if_pos below⟩, numbers, ?_, length, rfl⟩
      (itemsFormat_of_entries valid lengths)
    rw [List.lookup_cons, show (ascii "vector" == ascii "id") = false by decide]
    exact List.lookup_cons_self

end Insert

/-- A JSON insert body is accepted exactly if it has the format; the same vectors can then be sent as a bulk body,
and both are decoded to the same request. So are a bulk body and the same vectors as JSON, where JSON has numbers
for all components: there are none for what is not a number. -/
theorem insert_bodies_are_decoded_alike (lib : JsonLibrary) (dim : UInt32) (limits : JsonLimits) :
    (∀ body request, decodeInsert lib body dim limits = .ok request ↔
      withinDepth body kMaxJsonDepth = true ∧ ∃ doc, lib.parse body = some (.object doc) ∧
      InsertFormat lib doc dim limits request) ∧
    (∀ room body request, decodeInsert lib body dim limits = .ok request →
      (bulkBody dim request).length ≤ room.toNat →
      BulkDecoder.decodeBulk room (bulkBody dim request) dim limits.toLimits =
        .ok { request with upsert := false }) ∧
    ∀ bulk request, BulkDecoder.BulkFormat bulk dim limits.toLimits request →
    ∀ entries body, entries.map Prod.fst = request.ids →
      (∀ entry ∈ entries, entry.2.length = dim.toNat) →
      entries.flatMap (fun entry => entry.2.map lib.component) = request.rows →
      withinDepth body kMaxJsonDepth = true → lib.parse body = some (.object (insertDocument entries)) →
      decodeInsert lib body dim limits = .ok request := by
  refine ⟨fun body request => decodeInsert_ok_iff, fun room body request run held => ?_,
    fun bulk request format entries body ids lengths rows shallow parsed => ?_⟩
  · obtain ⟨-, doc, -, -, -, items, -, batch, format⟩ := decodeInsert_ok_iff.mp run
    obtain ⟨count, rows, valid⟩ := format.shape
    refine BulkDecoder.decodeBulk_of_format ⟨rfl, ?_, valid, rows, rfl⟩ held
    rw [← count]
    exact batch
  · have valid : ∀ entry ∈ entries, entry.1 ≠ kInvalidExternalId := fun entry member =>
      format.ids entry.1 (ids ▸ List.mem_map_of_mem member)
    have items : ItemsFormat lib dim _ (entries.map Prod.fst) _ := itemsFormat_of_entries valid lengths
    rw [ids, rows] at items
    refine decodeInsert_ok_iff.mpr ⟨shallow, _, parsed, ?_, ?_, _, List.lookup_cons_self, ?_, items⟩
    · intro field member
      rw [List.mem_singleton.mp member]
      exact List.mem_cons_of_mem _ List.mem_cons_self
    · refine .inl ⟨?_, format.upsert⟩
      rw [insertDocument, List.lookup_cons, show (ascii "upsert" == ascii "vectors") = false by decide]
      rfl
    · rw [items.shape.1]
      exact format.batch

/-- `{"vectors":[{"id":7,"vector":[0]}]}` -/
theorem insert_bodies_are_decoded_alike_one :
    decodeInsert ⟨fun _ => some (.object (insertDocument [(7, [.unsigned 0])])), fun _ => F32.zero⟩
    (ascii "\x7b\"vectors\":[\x7b\"id\":7,\"vector\":[0]\x7d]\x7d") 1 {} = .ok { ids := [7], rows := [F32.zero] } :=
  (insert_bodies_are_decoded_alike ⟨fun _ => some (.object (insertDocument [(7, [.unsigned 0])])),
    fun _ => F32.zero⟩ 1 {}).2.2
    (bulkBody 1 { ids := [7], rows := [F32.zero] }) { ids := [7], rows := [F32.zero] }
    ⟨rfl, by decide, List.forall_mem_singleton.mpr (by decide), rfl, rfl⟩ [(7, [.unsigned 0])] _ rfl
    (by decide) rfl (by decide +kernel) rfl

section Search
variable {lib : JsonLibrary} {body : List Byte} {dim : UInt32} {limits : JsonLimits} {doc : Fields}

/-- A positive integer up to its limit, if it is there. -/
inductive BoundFormat (doc : Fields) (key : String) (limit : UInt32) : Option UInt32 → Prop
  | absent (missing : doc.lookup (ascii key) = none) : BoundFormat doc key limit none
  | given {value : Json} {n : UInt64} (there : doc.lookup (ascii key) = some value)
      (valid : getUint value 0xFFFFFFFF = some n)
      (positive : n ≠ 0) (small : n.toNat ≤ limit.toNat) : BoundFormat doc key limit (some n.toUInt32)

theorem readBound_ok_iff {key : String} {limit : UInt32} {bound : Option UInt32} :
    readBound doc key limit = .ok bound ↔ BoundFormat doc key limit bound := by
  constructor
  · intro run
    unfold readBound at run
    split at run
    next missing =>
      cases run
      exact .absent missing
    next value there =>
      split at run
      · cases run
      next n valid =>
        split at run
        · cases run
        next positive =>
          split at run
          · cases run
          next small =>
            cases run
            exact .given there valid positive (Nat.not_lt.mp small)
  · rintro (missing | ⟨there, valid, positive, small⟩)
    · rw [readBound, missing]
    · rw [readBound, there]
      simp only [valid]
      rw [if_neg positive, if_neg (Nat.not_lt.mpr small)]

theorem readQueries_ok_iff : ∀ {items : List Json} {i : Nat} {rows : List F32},
    readQueries lib dim i items = .ok rows ↔
    ∃ vectors : List (List JsonNumber), items = vectors.map (fun numbers => .array (numbers.map .number)) ∧
      (∀ numbers ∈ vectors, numbers.length = dim.toNat) ∧ rows = vectors.flatMap fun numbers =>
        numbers.map lib.component
  | [], i, rows => by
    constructor
    · intro run
      cases run
      exact ⟨[], rfl, nofun, rfl⟩
    · rintro ⟨vectors, none, -, rfl⟩
      rw [List.map_eq_nil_iff.mp none.symm]
      rfl
  | item :: items, i, rows => by
    constructor
    · intro run
      obtain ⟨row, first, run⟩ := ok_bind.mp run
      obtain ⟨rest, others, run⟩ := ok_bind.mp run
      cases run
      obtain ⟨numbers, rfl, length, rfl⟩ := appendVector_ok_iff.mp first
      obtain ⟨vectors, rfl, lengths, rfl⟩ := readQueries_ok_iff.mp others
      exact ⟨numbers :: vectors, rfl, List.forall_mem_cons.mpr ⟨length, lengths⟩, rfl⟩
    · rintro ⟨vectors, all, lengths, rfl⟩
      cases vectors with
      | nil => cases all
      | cons numbers vectors =>
        cases all
        obtain ⟨length, lengths⟩ := List.forall_mem_cons.mp lengths
        exact ok_bind.mpr ⟨_, appendVector_ok_iff.mpr ⟨numbers, rfl, length, rfl⟩,
          ok_bind.mpr ⟨_, readQueries_ok_iff.mpr ⟨vectors, rfl, lengths, rfl⟩, rfl⟩⟩

/-- The format of a search body for the vectors of its queries. -/
structure SearchFormat (lib : JsonLibrary) (doc : Fields) (dim : UInt32) (batch : Bool) (limits : JsonLimits)
    (request : SearchRequest) : Prop where
  known : ∀ field ∈ doc, field.1 ∈ [if batch then ascii "vectors" else ascii "vector", ascii "k", ascii "ef_search"]
  k : ∃ k, BoundFormat doc "k" limits.maxK k ∧ request.params.k = k.getD 10
  efSearch : BoundFormat doc "ef_search" limits.maxEf request.params.efSearch
  vectors : ∃ vectors : List (List JsonNumber), (∀ numbers ∈ vectors, numbers.length = dim.toNat) ∧
    request.count = vectors.length ∧
    request.vectors = vectors.flatMap (fun numbers => numbers.map lib.component) ∧
    if batch then vectors.length ≤ limits.maxBatch.toNat ∧
      doc.lookup (ascii "vectors") = some (.array (vectors.map fun numbers => .array (numbers.map .number)))
    else ∃ numbers, vectors = [numbers] ∧ doc.lookup (ascii "vector") = some (.array (numbers.map .number))

theorem decodeSearch_ok_iff {batch : Bool} {request : SearchRequest} :
    decodeSearch lib body dim batch limits = .ok request ↔
    withinDepth body kMaxJsonDepth = true ∧ ∃ doc, lib.parse body = some (.object doc) ∧
    SearchFormat lib doc dim batch limits request := by
  constructor
  · intro run
    obtain ⟨doc, parsed, run⟩ := ok_bind.mp run
    obtain ⟨shallow, parsed, known⟩ := parseObject_ok_iff.mp parsed
    obtain ⟨params, bounds, run⟩ := ok_bind.mp run
    obtain ⟨k, kThere, bounds⟩ := ok_bind.mp bounds
    obtain ⟨efSearch, efThere, bounds⟩ := ok_bind.mp bounds
    cases bounds
    refine ⟨shallow, doc, parsed, ?_⟩
    cases batch with
    | false =>
      simp only [Bool.not_false, if_true] at run
      split at run
      · cases run
      next vector there =>
        obtain ⟨row, first, run⟩ := ok_bind.mp run
        cases run
        obtain ⟨numbers, rfl, length, rfl⟩ := appendVector_ok_iff.mp first
        refine ⟨known, ⟨k, readBound_ok_iff.mp kThere, rfl⟩, readBound_ok_iff.mp efThere, [numbers], ?_, rfl, ?_,
          numbers, rfl, there⟩
        · exact fun other member => List.mem_singleton.mp member ▸ length
        · exact (List.flatMap_singleton _ _).symm
    | true =>
      simp only [Bool.not_true, Bool.false_eq_true, if_false] at run
      split at run
      next items there =>
        split at run
        · cases run
        next few =>
          obtain ⟨rows, read, run⟩ := ok_bind.mp run
          cases run
          obtain ⟨vectors, rfl, lengths, rfl⟩ := readQueries_ok_iff.mp read
          rw [List.length_map] at few
          exact ⟨known, ⟨k, readBound_ok_iff.mp kThere, rfl⟩, readBound_ok_iff.mp efThere, vectors, lengths,
            List.length_map _, rfl,
            Nat.not_lt.mp few, there⟩
      · cases run
  · rintro ⟨shallow, doc, parsed, known, ⟨k, kThere, kGiven⟩, efThere, vectors, lengths, count, rows, there⟩
    obtain ⟨requestVectors, requestCount, ⟨requestK, efSearch⟩⟩ := request
    dsimp only at kGiven efThere count rows
    subst kGiven count rows
    refine ok_bind.mpr ⟨doc, parseObject_ok_iff.mpr ⟨shallow, parsed, known⟩,
      ok_bind.mpr ⟨⟨k.getD 10, efSearch⟩, ?_, ?_⟩⟩
    · exact ok_bind.mpr ⟨k, readBound_ok_iff.mpr kThere, ok_bind.mpr ⟨efSearch, readBound_ok_iff.mpr efThere, rfl⟩⟩
    · cases batch with
      | false =>
        obtain ⟨numbers, rfl, there⟩ := there
        simp only [Bool.not_false, if_true]
        rw [there]
        refine ok_bind.mpr ⟨_, appendVector_ok_iff.mpr ⟨numbers, rfl, lengths numbers List.mem_cons_self, rfl⟩, ?_⟩
        rw [List.flatMap_singleton]
        rfl
      | true =>
        obtain ⟨few, there⟩ := there
        simp only [Bool.not_true, Bool.false_eq_true, if_false]
        rw [there]
        simp only
        rw [if_neg (by rw [List.length_map]; exact Nat.not_lt.mpr few)]
        refine ok_bind.mpr ⟨_, readQueries_ok_iff.mpr ⟨vectors, rfl, lengths, rfl⟩, ?_⟩
        rw [List.length_map]

theorem BoundFormat.of_same {other : Fields} {key : String} {limit : UInt32} {bound : Option UInt32}
    (same : doc.lookup (ascii key) = other.lookup (ascii key)) (format : BoundFormat doc key limit bound) :
    BoundFormat other key limit bound := by
  cases format with
  | absent missing => exact .absent (same ▸ missing)
  | given there valid positive small => exact .given (same ▸ there) valid positive small

/-- A batch of one query. -/
theorem searchFormat_single {single batch : Fields} {vector : Json} {request : SearchRequest}
    (few : 1 ≤ limits.maxBatch.toNat)
    (knownSingle : ∀ field ∈ single, field.1 ∈ [ascii "vector", ascii "k", ascii "ef_search"])
    (knownBatch : ∀ field ∈ batch, field.1 ∈ [ascii "vectors", ascii "k", ascii "ef_search"])
    (one : single.lookup (ascii "vector") = some vector)
    (many : batch.lookup (ascii "vectors") = some (.array [vector]))
    (k : single.lookup (ascii "k") = batch.lookup (ascii "k"))
    (ef : single.lookup (ascii "ef_search") = batch.lookup (ascii "ef_search")) :
    SearchFormat lib single dim false limits request ↔ SearchFormat lib batch dim true limits request := by
  constructor
  · rintro ⟨-, ⟨bound, kThere, kGiven⟩, efThere, vectors, lengths, count, rows, numbers, rfl, there⟩
    refine ⟨knownBatch, ⟨bound, kThere.of_same k, kGiven⟩, efThere.of_same ef, [numbers], lengths,
      count, rows, few, ?_⟩
    rw [many, Option.some.inj (one.symm.trans there)]
    rfl
  · rintro ⟨-, ⟨bound, kThere, kGiven⟩, efThere, vectors, lengths, count, rows, -, there⟩
    have items := Option.some.inj (many.symm.trans there)
    obtain ⟨numbers, rfl, same⟩ : ∃ numbers, vectors = [numbers] ∧ vector = .array (numbers.map .number) := by
      match vectors, items with
      | [numbers], items => exact ⟨numbers, rfl, (List.cons.inj (Json.array.inj items)).1⟩
      | [], items => cases items
      | _ :: _ :: _, items => cases items
    exact ⟨knownSingle, ⟨bound, kThere.of_same k.symm, kGiven⟩, efThere.of_same ef.symm, [numbers], lengths,
      count, rows, numbers, rfl,
      one.trans (congrArg some same)⟩

end Search

/-- A search body is accepted exactly if it has the format, and a batch of one query is the same request as that
query alone. -/
theorem search_bodies_are_decoded_exactly (lib : JsonLibrary) (dim : UInt32) (limits : JsonLimits) :
    (∀ batch body request, decodeSearch lib body dim batch limits = .ok request ↔
      withinDepth body kMaxJsonDepth = true ∧ ∃ doc, lib.parse body = some (.object doc) ∧
      SearchFormat lib doc dim batch limits request) ∧
    ∀ bodySingle bodyBatch single batch vector request, 1 ≤ limits.maxBatch.toNat →
      withinDepth bodySingle kMaxJsonDepth = true → withinDepth bodyBatch kMaxJsonDepth = true →
      lib.parse bodySingle = some (.object single) → lib.parse bodyBatch = some (.object batch) →
      (∀ field ∈ single, field.1 ∈ [ascii "vector", ascii "k", ascii "ef_search"]) →
      (∀ field ∈ batch, field.1 ∈ [ascii "vectors", ascii "k", ascii "ef_search"]) →
      single.lookup (ascii "vector") = some vector → batch.lookup (ascii "vectors") = some (.array [vector]) →
      single.lookup (ascii "k") = batch.lookup (ascii "k") →
      single.lookup (ascii "ef_search") = batch.lookup (ascii "ef_search") →
      (decodeSearch lib bodySingle dim false limits = .ok request ↔
        decodeSearch lib bodyBatch dim true limits = .ok request) := by
  refine ⟨fun batch body request => decodeSearch_ok_iff, ?_⟩
  intro bodySingle bodyBatch single batch vector request few shallowSingle shallowBatch parsedSingle parsedBatch
    knownSingle knownBatch one many k ef
  have same : SearchFormat lib single dim false limits request ↔ SearchFormat lib batch dim true limits request :=
    searchFormat_single few knownSingle knownBatch one many k ef
  constructor
  · intro run
    obtain ⟨-, doc, parsed, format⟩ := decodeSearch_ok_iff.mp run
    obtain rfl : doc = single := Json.object.inj (Option.some.inj (parsed.symm.trans parsedSingle))
    exact decodeSearch_ok_iff.mpr ⟨shallowBatch, batch, parsedBatch, same.mp format⟩
  · intro run
    obtain ⟨-, doc, parsed, format⟩ := decodeSearch_ok_iff.mp run
    obtain rfl : doc = batch := Json.object.inj (Option.some.inj (parsed.symm.trans parsedBatch))
    exact decodeSearch_ok_iff.mpr ⟨shallowSingle, single, parsedSingle, same.mpr format⟩

/-- `{"vector":[0]}` and `{"vectors":[[0]]}` -/
theorem search_bodies_are_decoded_exactly_one : decodeSearch ⟨fun body => if body = ascii "\x7b\"vector\":[0]\x7d"
      then some (.object [(ascii "vector", .array [.number (.unsigned 0)])])
      else some (.object [(ascii "vectors", .array [.array [.number (.unsigned 0)]])]), fun _ => F32.zero⟩
    (ascii "\x7b\"vectors\":[[0]]\x7d") 1 true {} = .ok { vectors := [F32.zero], count := 1 } :=
  ((search_bodies_are_decoded_exactly ⟨fun body => if body = ascii "\x7b\"vector\":[0]\x7d"
      then some (.object [(ascii "vector", .array [.number (.unsigned 0)])])
      else some (.object [(ascii "vectors", .array [.array [.number (.unsigned 0)]])]), fun _ => F32.zero⟩ 1 {}).2
    (ascii "\x7b\"vector\":[0]\x7d") (ascii "\x7b\"vectors\":[[0]]\x7d")
    [(ascii "vector", .array [.number (.unsigned 0)])]
    [(ascii "vectors", .array [.array [.number (.unsigned 0)]])] (.array [.number (.unsigned 0)])
    { vectors := [F32.zero], count := 1 }
    (by decide) (by decide +kernel) (by decide +kernel) rfl rfl (by simp) (by simp) rfl rfl rfl rfl).mp rfl

end VectorForge.JsonCodec
