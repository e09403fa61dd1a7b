import VectorForge.Catalog.Catalog
import VectorForge.Collection.Queries
import VectorForge.Server.BulkDecoder
import VectorForge.Server.JsonDepth

/-! Decoding and encoding the JSON bodies of the HTTP API. Parsing a text is left to a library. -/

namespace VectorForge

namespace Concurrency

/-- `to_string`. -/
def text : Concurrency → List Byte
  | .coarse => ascii "coarse"
  | .concurrent => ascii "concurrent"

/-- `parse_concurrency`. -/
def parse (text : List Byte) : Result Concurrency :=
  if text = ascii "coarse" then .ok .coarse
  else if text = ascii "concurrent" then .ok .concurrent
  else .error (.invalidArgument ("unknown concurrency mode '" ++ shown text ++ "' (expected coarse or concurrent)"))

theorem parse_text (c : Concurrency) : parse c.text = .ok c := by cases c <;> rfl

end Concurrency

/-- A number as the parser holds it. -/
inductive JsonNumber where
  | unsigned (n : UInt64)
  | integer (n : Int64)
  /-- The bits of a double. -/
  | float (bits : UInt64)
  deriving DecidableEq, Repr

/-- A parsed value. The fields of an object are in the order of their keys, of which none is there twice. -/
inductive Json where
  | null
  | boolean (b : Bool)
  | number (n : JsonNumber)
  | string (text : List Byte)
  | array (items : List Json)
  | object (fields : List (List Byte × Json))

structure JsonLimits extends Limits where
  maxK : UInt32 := 1000
  maxEf : UInt32 := 4096
  maxDim : UInt32 := 65536

structure CreateRequest where
  name : FileName := []
  config : CollectionConfig := {}
  deriving DecidableEq

structure SearchRequest where
  vectors : List F32 := []
  count : Nat := 0
  params : SearchParams := {}
  deriving DecidableEq

namespace JsonCodec
open JsonDepth (withinDepth kMaxJsonDepth)

abbrev Decoded (α : Type) := Except ApiError α

abbrev Fields := List (List Byte × Json)

def failWith {α : Type} (status : Nat) (code message : String) : Decoded α := .error ⟨status, code, message⟩

def badRequest {α : Type} (message : String) : Decoded α := failWith 400 "INVALID_ARGUMENT" message

def limitExceeded {α : Type} (message : String) : Decoded α := failWith 422 "LIMIT_EXCEEDED" message

/-- What the library makes of a text, and what `append_vector` makes of a number. -/
structure JsonLibrary where
  parse : List Byte → Option Json
  /-- `get<double>`, rounded to a float, or infinite beyond the range of floats. -/
  component : JsonNumber → F32

def parseObject (lib : JsonLibrary) (body : List Byte) (allowed : List (List Byte)) : Decoded Fields :=
  if !withinDepth body kMaxJsonDepth then
    failWith 400 "MALFORMED_JSON" ("JSON nesting deeper than " ++ toString kMaxJsonDepth ++ " levels")
  else match lib.parse body with
    | none => failWith 400 "MALFORMED_JSON" "request body is not valid JSON"
    | some (.object fields) =>
      match fields.find? fun field => !allowed.contains field.1 with
      | some field => badRequest ("unknown field '" ++ shown field.1 ++ "'")
      | none => .ok fields
    | some _ => badRequest "request body must be a JSON object"

/-- `get_uint`. -/
def getUint (value : Json) (max : UInt64) : Option UInt64 :=
  match value with
  | .number (.unsigned n) => if n ≤ max then some n else none
  | .number (.integer n) => if 0 ≤ n ∧ n.toUInt64 ≤ max then some n.toUInt64 else none
  | _ => none

section Vectors
variable (lib : JsonLibrary)

/-- The loop of `append_vector`. -/
def components (what : String) : List Json → Decoded (List F32)
  | [] => .ok []
  | .number n :: items => do
    let rest ← components what items
    .ok (lib.component n :: rest)
  | _ :: _ => badRequest (what ++ " must contain only numbers")

def appendVector (value : Json) (dim : UInt32) (what : String) : Decoded (List F32) :=
  match value with
  | .array items =>
    if items.length ≠ dim.toNat then
      failWith 400 "DIMENSION_MISMATCH" (what ++ " has " ++ toString items.length ++
        " components, expected " ++ toString dim.toNat)
    else components lib what items
  | _ => badRequest (what ++ " must be an array of numbers")

/-- One round of the loop of `decode_insert`. -/
def readItem (item : Json) (dim : UInt32) (where_ : String) : Decoded (ExternalId × List F32) :=
  match item with
  | .object fields =>
    match fields.length, fields.lookup (ascii "id"), fields.lookup (ascii "vector") with
    | 2, some idField, some vector =>
      match getUint idField (0xFFFFFFFFFFFFFFFF - 1) with
      | none => badRequest (where_ ++ ".id must be an integer in [0, 2^64 - 2]")
      | some id => do
        let row ← appendVector lib vector dim (where_ ++ ".vector")
        .ok (id, row)
    | _, _, _ => badRequest (where_ ++ " must be \x7b\"id\": ..., \"vector\": [...]\x7d")
  | _ => badRequest (where_ ++ " must be \x7b\"id\": ..., \"vector\": [...]\x7d")

/-- The loop from item `i` on. -/
def readItems (dim : UInt32) : (i : Nat) → List Json → Decoded (List ExternalId × List F32)
  | _, [] => .ok ([], [])
  | i, item :: items => do
    let (id, row) ← readItem lib item dim ("vectors[" ++ toString i ++ "]")
    let (ids, rows) ← readItems dim (i + 1) items
    .ok (id :: ids, row ++ rows)

def readUpsert (doc : Fields) : Decoded Bool :=
  match doc.lookup (ascii "upsert") with
  | none => .ok false
  | some (.boolean b) => .ok b
  | some _ => badRequest "'upsert' must be a boolean"

def decodeInsert (body : List Byte) (dim : UInt32) (limits : JsonLimits) : Decoded InsertRequest := do
  let doc ← parseObject lib body [ascii "upsert", ascii "vectors"]
  let upsert ← readUpsert doc
  match doc.lookup (ascii "vectors") with
  | some (.array items) =>
    if items.length > limits.maxBatch.toNat then
      limitExceeded (toString items.length ++ " vectors exceed the batch limit of " ++
        toString limits.maxBatch.toNat)
    else do
      let (ids, rows) ← readItems lib dim 0 items
      .ok { ids, rows, upsert }
  | _ => badRequest "'vectors' (array) is required"

/-- A positive integer of `read_search_params` with its limit. -/
def readBound (doc : Fields) (key : String) (limit : UInt32) : Decoded (Option UInt32) :=
  match doc.lookup (ascii key) with
  | none => .ok none
  | some field =>
    match getUint field 0xFFFFFFFF with
    | none => badRequest ("'" ++ key ++ "' must be a positive integer")
    | some value =>
      if value = 0 then badRequest ("'" ++ key ++ "' must be a positive integer")
      else if value.toNat > limit.toNat then
        limitExceeded ("'" ++ key ++ "' is " ++ toString value.toNat ++ ", the limit is " ++ toString limit.toNat)
      else .ok (some value.toUInt32)

def readSearchParams (doc : Fields) (limits : JsonLimits) : Decoded SearchParams := do
  let k ← readBound doc "k" limits.maxK
  let efSearch ← readBound doc "ef_search" limits.maxEf
  .ok { k := k.getD 10, efSearch }

/-- The loop over the queries of a batch, from query `i` on. -/
def readQueries (dim : UInt32) : (i : Nat) → List Json → Decoded (List F32)
  | _, [] => .ok []
  | i, item :: items => do
    let row ← appendVector lib item dim ("vectors[" ++ toString i ++ "]")
    let rows ← readQueries dim (i + 1) items
    .ok (row ++ rows)

def decodeSearch (body : List Byte) (dim : UInt32) (batch : Bool) (limits : JsonLimits) :
    Decoded SearchRequest := do
  let doc ← parseObject lib body [if batch then ascii "vectors" else ascii "vector", ascii "k", ascii "ef_search"]
  let params ← readSearchParams doc limits
  if !batch then
    match doc.lookup (ascii "vector") with
    | none => badRequest "'vector' is required"
    | some vector => do
      let vectors ← appendVector lib vector dim "vector"
      .ok { vectors, count := 1, params }
  else
    match doc.lookup (ascii "vectors") with
    | some (.array items) =>
      if items.length > limits.maxBatch.toNat then
        limitExceeded (toString items.length ++ " queries exceed the batch limit of " ++
          toString limits.maxBatch.toNat)
      else do
        let vectors ← readQueries lib dim 0 items
        .ok { vectors, count := items.length, params }
    | _ => badRequest "'vectors' (array) is required"

end Vectors

section Create

/-- A text field of a configuration. -/
def readText {α : Type} (value : Json) (what : String) (parse : List Byte → Result α) : Decoded α :=
  match value with
  | .string text =>
    match parse text with
    | .ok a => .ok a
    | .error st => badRequest st.message
  | _ => badRequest ("'" ++ what ++ "' must be a string")

def readParam (key : String) (value : Json) : Decoded UInt64 :=
  match getUint value 0xFFFFFFFF with
  | none => badRequest ("'index." ++ key ++ "' must be a non-negative integer")
  | some n => .ok n

/-- One round of the loop over the fields of `index`. -/
def readIndexField (config : CollectionConfig) (field : List Byte × Json) : Decoded CollectionConfig :=
  let (key, v) := field
  if key = ascii "type" then do
    let index ← readText v "index.type" IndexType.parse
    .ok { config with index }
  else if key = ascii "M" then do
    let value ← readParam "M" v
    .ok { config with hnsw := { config.hnsw with M := value.toUInt32 } }
  else if key = ascii "ef_construction" then do
    let value ← readParam "ef_construction" v
    .ok { config with hnsw := { config.hnsw with efConstruction := value.toUInt32 } }
  else if key = ascii "ef_search" then do
    let value ← readParam "ef_search" v
    .ok { config with hnsw := { config.hnsw with efSearch := value.toUInt32 } }
  else if key = ascii "max_level" then do
    let value ← readParam "max_level" v
    if value.toNat > HnswParams.kMaxLevelCap then
      badRequest ("'index.max_level' must be at most " ++ toString HnswParams.kMaxLevelCap)
    else .ok { config with hnsw := { config.hnsw with maxLevel := value.toUInt8 } }
  else if key = ascii "seed" then
    match getUint v 0xFFFFFFFFFFFFFFFF with
    | none => badRequest "'index.seed' must be a non-negative integer"
    | some seed => .ok { config with hnsw := { config.hnsw with seed } }
  else if key = ascii "concurrency" then do
    let concurrency ← readText v "index.concurrency" Concurrency.parse
    .ok { config with concurrency }
  else badRequest ("unknown field 'index." ++ shown key ++ "'")

def readMetric (doc : Fields) (config : CollectionConfig) : Decoded CollectionConfig :=
  match doc.lookup (ascii "metric") with
  | none => .ok config
  | some value => do
    let metric ← readText value "metric" Metric.parse
    .ok { config with metric }

def readNormalize (doc : Fields) (config : CollectionConfig) : Decoded CollectionConfig :=
  match doc.lookup (ascii "normalize") with
  | none => .ok config
  | some (.boolean normalize) => .ok { config with normalize }
  | some _ => badRequest "'normalize' must be a boolean"

def readIndex (doc : Fields) (config : CollectionConfig) : Decoded CollectionConfig :=
  match doc.lookup (ascii "index") with
  | none => .ok config
  | some (.object fields) => fields.foldlM readIndexField config
  | some _ => badRequest "'index' must be an object"

def decodeCreate (lib : JsonLibrary) (body : List Byte) (limits : JsonLimits) : Decoded CreateRequest := do
  let doc ← parseObject lib body [ascii "name", ascii "dim", ascii "metric", ascii "normalize", ascii "index"]
  match doc.lookup (ascii "name") with
  | some (.string name) =>
    if !Catalog.isValidName name then badRequest "'name' must match [A-Za-z0-9_-]\x7b1,64\x7d"
    else
      match (doc.lookup (ascii "dim")).bind (getUint · 0xFFFFFFFF) with
      | none => badRequest "'dim' (positive integer) is required"
      | some value =>
        if value = 0 then badRequest "'dim' (positive integer) is required"
        else if value.toNat > limits.maxDim.toNat then
          limitExceeded ("'dim' is " ++ toString value.toNat ++ ", the limit is " ++ toString limits.maxDim.toNat)
        else do
          let config ← readMetric doc { dim := value.toUInt32 }
          let config ← readNormalize doc config
          let config ← readIndex doc config
          match config.validate with
          | .error st => badRequest st.message
          | .ok _ => .ok { name, config }
  | _ => badRequest "'name' (string) is required"

/-- The unsigned number of a value. -/
def unsigned (n : Nat) : Json := .number (.unsigned (UInt64.ofNat n))

/-- `encode_config`, before it is written as a text. -/
def encodeConfig (c : CollectionConfig) : Fields :=
  [(ascii "dim", unsigned c.dim.toNat),
    (ascii "index", .object (match c.index with
      | .flat => [(ascii "type", .string c.index.text)]
      | .hnsw => [(ascii "M", unsigned c.hnsw.M.toNat), (ascii "concurrency", .string c.concurrency.text),
        (ascii "ef_construction", unsigned c.hnsw.efConstruction.toNat),
        (ascii "ef_search", unsigned c.hnsw.efSearch.toNat),
        (ascii "max_level", unsigned c.hnsw.maxLevel.toNat), (ascii "seed", unsigned c.hnsw.seed.toNat),
        (ascii "type", .string c.index.text)])),
    (ascii "metric", .string c.metric.text),
    (ascii "normalize", .boolean c.effectiveNormalize)]

/-- Assignment to a field of an object. -/
def setField (key : List Byte) (value : Json) : Fields → Fields
  | [] => [(key, value)]
  | (other, old) :: fields =>
    if key = other then (key, value) :: fields
    else if key < other then (key, value) :: (other, old) :: fields
    else (other, old) :: setField key value fields

end Create
end JsonCodec
end VectorForge
