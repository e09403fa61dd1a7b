import VectorForge.Collection.BatchSemantics
import VectorForge.Lib.OrderedMap

/-! What a Flat collection is for: a map from external ids to vectors, searched exactly. -/

namespace VectorForge
open Collection

/-- The vectors as they are stored, in the order of their insertion, and the number of insertions since the
last compaction: compaction reports it, and there is a limit to it. -/
structure KeyedMap where
  map : OrderedMap ExternalId (List F32) := {}
  used : Nat := 0

/-- What it can be asked for. -/
inductive MapCall where
  | add (id : ExternalId) (vector : List F32)
  | upsert (id : ExternalId) (vector : List F32)
  | addBatch (ids : List ExternalId) (rows : List F32) (upsert : Bool) (pool : Option ThreadPool)
  | remove (id : ExternalId)
  | get (id : ExternalId)
  | contains (id : ExternalId)
  | size
  | search (query : List F32) (params : SearchParams)
  | compact

/-- The same call of a collection. -/
def MapCall.operation : MapCall → Operation
  | .add id vector => .mutate (.add id vector false)
  | .upsert id vector => .mutate (.add id vector true)
  | .addBatch ids rows replace pool => .mutate (.addBatch ids rows replace pool)
  | .remove id => .mutate (.remove id)
  | .get id => .get id
  | .contains id => .contains id
  | .size => .size
  | .search query params => .search query params
  | .compact => .mutate .compact

/-- A result of which only the error code is kept. -/
def coded {α : Type} (r : Result α) : Except ErrorCode α := r.mapError Status.code

/-- The error of a computation that fails. -/
def failure {ε α : Type} : Except ε α → Option ε
  | .ok _ => none
  | .error e => some e

namespace KeyedMap
variable (k : KernelTable) (config : CollectionConfig) (m : KeyedMap)

def insert (id : ExternalId) (row : List F32) (upsert : Bool) : Except ErrorCode KeyedMap :=
  if id = kInvalidExternalId then .error .invalidArgument
  else if m.map.contains id && !upsert then .error .alreadyExists
  else if kMaxVectorsPerCollection ≤ m.used then .error .resourceExhausted
  else .ok { map := m.map.put id row, used := m.used + 1 }

def add (id : ExternalId) (vector : List F32) (upsert : Bool) : Except ErrorCode KeyedMap := do
  let row ← coded (storedVector k config vector)
  m.insert id row upsert

def addBatch (ids : List ExternalId) (rows : List F32) (upsert : Bool) : Except ErrorCode KeyedMap := do
  coded (validateBatch rows ids.length config.dim.toNat)
  if ids = [] then return m
  else if ¬ids.Nodup ∨ kInvalidExternalId ∈ ids then .error .invalidArgument
  else do
    let vectors ← (givenRows config ids rows ids.length).mapM fun x => coded (storedVector k config x.2)
    if !upsert && ids.any m.map.contains then .error .alreadyExists
    else if kMaxVectorsPerCollection < m.used + ids.length then .error .resourceExhausted
    else return { map := m.map.putAll (ids.zip vectors), used := m.used + ids.length }

def remove (id : ExternalId) : Except ErrorCode KeyedMap :=
  if m.map.contains id then .ok { m with map := m.map.erase id } else .error .notFound

def get (id : ExternalId) : Except ErrorCode (List F32) :=
  match m.map.find id with
  | some e => .ok e.value
  | none => .error .notFound

/-- Nothing is lost by compaction, and the insertions keep their order. -/
def compact : CompactStats × KeyedMap :=
  ({ rowsBefore := m.used, removedRows := m.used - m.map.size, rowsAfter := m.map.size },
    { m with used := m.map.size })

/-- The query as it is compared with the stored vectors. -/
def viewOf (query : List F32) : Except ErrorCode QueryView := do
  coded (validateVector query config.dim.toNat)
  if config.effectiveNormalize then do
    let scale ← coded (inverseNorm k query)
    return { data := query, invNorm := scale }
  else return { data := query }

def distanceTo (view : QueryView) (row : List F32) : F32 :=
  queryDistance k (scoreMode config.metric config.effectiveNormalize) view row

/-- The entries closest to the query, those at the same distance in the order of their insertion. -/
def search (query : List F32) (params : SearchParams) : Except ErrorCode (List Neighbor) := do
  coded params.validate
  let view ← viewOf k config query
  return (m.map.nearest (fun row => (distanceTo k config view row).rank) params.k.toNat).map fun e =>
    { id := e.key, distance := distanceTo k config view e.value }

/-- The map after a call that may have failed. -/
def after (r : Except ErrorCode (Answer × KeyedMap)) : Except ErrorCode Answer × KeyedMap :=
  match r with
  | .ok (a, n) => (.ok a, n)
  | .error e => (.error e, m)

def answer : MapCall → Except ErrorCode Answer × KeyedMap
  | .add id vector => m.after do
    let n ← m.add k config id vector false
    return (.reply .done, n)
  | .upsert id vector => m.after do
    let n ← m.add k config id vector true
    return (.reply .done, n)
  | .addBatch ids rows upsert _ => m.after do
    let n ← m.addBatch k config ids rows upsert
    return (.reply (.inserted ids.length), n)
  | .remove id => m.after do
    let n ← m.remove id
    return (.reply .done, n)
  | .get id => ((m.get id).map .vector, m)
  | .contains id => (.ok (.flag (m.map.contains id)), m)
  | .size => (.ok (.count m.map.size), m)
  | .search query params => ((m.search k config query params).map .neighbors, m)
  | .compact => (.ok (.reply (.compacted m.compact.1)), m.compact.2)

/-- The answers to calls one after the other, and the map in the end. -/
def follow : List MapCall → KeyedMap → List (Except ErrorCode Answer) × KeyedMap
  | [], m => ([], m)
  | c :: rest, m =>
    let (a, n) := m.answer k config c
    let (answers, last) := follow rest n
    (a :: answers, last)

/-- The distance of the vector to any query is a number. -/
def RealRow (row : List F32) : Prop := ∀ query view, viewOf k config query = .ok view →
    (distanceTo k config view row).isNan = false

/-- What is assumed of the kernels: several rows are compared as single ones are, and the vectors that are
stored have distances that are numbers. -/
structure Numeric : Prop extends k.Batched where
  real : ∀ vector row, storedVector k config vector = .ok row → RealRow k config row

section Values
variable {k config m} {P : List F32 → Prop} {n : KeyedMap}

/-- All vectors of the map are of a kind. -/
def Values (m : KeyedMap) (P : List F32 → Prop) : Prop := ∀ x ∈ m.map.pairs, P x.2

theorem mem_of_mapM {α β ε : Type} {f : α → Except ε β} {xs : List α} {ys : List β} (run : xs.mapM f = .ok ys)
    {y : β} (member : y ∈ ys) : ∃ x, f x = .ok y := by
  induction xs generalizing ys with
  | nil =>
    cases run
    cases member
  | cons x xs ih =>
    rw [List.mapM_cons] at run
    cases first : f x with
    | error e => rw [first] at run; cases run
    | ok b =>
      cases others : xs.mapM f with
      | error e => rw [first, others] at run; cases run
      | ok rest =>
        rw [first, others] at run
        cases run
        rcases List.mem_cons.mp member with rfl | later
        · exact ⟨x, first⟩
        · exact ih others later

theorem of_coded {α : Type} {r : Result α} {a : α} (run : coded r = .ok a) : r = .ok a := by
  cases r with
  | ok b => cases run; rfl
  | error e => cases run

theorem Values.insert (values : m.Values P) {id : ExternalId} {row : List F32} {upsert : Bool} (here : P row)
    (run : m.insert id row upsert = .ok n) : n.Values P := by
  unfold KeyedMap.insert at run
  split at run
  · cases run
  split at run
  · cases run
  split at run
  · cases run
  · cases run
    intro x member
    rcases OrderedMap.mem_pairs_put member with old | rfl
    · exact values x old
    · exact here

theorem Values.add (values : m.Values P)
    (stored : ∀ vector row, storedVector k config vector = .ok row → P row) {id : ExternalId}
    {vector : List F32} {upsert : Bool} (run : m.add k config id vector upsert = .ok n) : n.Values P := by
  unfold KeyedMap.add at run
  cases known : coded (storedVector k config vector) with
  | error e => rw [known] at run; cases run
  | ok row =>
    rw [known] at run
    exact values.insert (stored vector row (of_coded known)) run

theorem Values.addBatch (values : m.Values P)
    (stored : ∀ vector row, storedVector k config vector = .ok row → P row)
    {ids : List ExternalId} {rows : List F32} {upsert : Bool}
    (run : m.addBatch k config ids rows upsert = .ok n) : n.Values P := by
  unfold KeyedMap.addBatch at run
  cases valid : coded (validateBatch rows ids.length config.dim.toNat) with
  | error e => rw [valid] at run; cases run
  | ok u =>
    rw [valid] at run
    change (if ids = [] then (Except.ok m : Except ErrorCode KeyedMap) else _) = .ok n at run
    split at run
    · cases run
      exact values
    split at run
    · cases run
    cases known : (givenRows config ids rows ids.length).mapM fun x => coded (storedVector k config x.2) with
    | error e => rw [known] at run; cases run
    | ok vectors =>
      rw [known] at run
      change (if !upsert && ids.any m.map.contains then
        (Except.error ErrorCode.alreadyExists : Except ErrorCode KeyedMap)
        else if kMaxVectorsPerCollection < m.used + ids.length then .error .resourceExhausted else _) = .ok n at run
      split at run
      · cases run
      split at run
      · cases run
      · cases run
        intro x member
        rcases OrderedMap.mem_pairs_putAll member with old | new
        · exact values x old
        · obtain ⟨raw, kept⟩ := mem_of_mapM known (List.of_mem_zip new).2
          exact stored raw.2 x.2 (of_coded kept)

theorem Values.after (values : m.Values P) {r : Except ErrorCode (Answer × KeyedMap)}
    (kept : ∀ a n, r = .ok (a, n) → n.Values P) : (m.after r).2.Values P := by
  cases r with
  | error e => exact values
  | ok x => exact kept x.1 x.2 rfl

/-- The vectors stay of the kind of which all stored vectors are. -/
theorem Values.answer (values : m.Values P)
    (stored : ∀ vector row, storedVector k config vector = .ok row → P row) (c : MapCall) :
    (m.answer k config c).2.Values P := by
  have adds (id : ExternalId) (vector : List F32) (upsert : Bool) : (m.after do
      let n ← m.add k config id vector upsert
      return (.reply .done, n)).2.Values P := by
    refine values.after fun a n run => ?_
    cases known : m.add k config id vector upsert with
    | error e => rw [known] at run; cases run
    | ok x =>
      rw [known] at run
      cases run
      exact values.add stored known
  cases c with
  | add id vector => exact adds id vector false
  | upsert id vector => exact adds id vector true
  | addBatch ids rows upsert pool =>
    refine values.after fun a n run => ?_
    cases known : m.addBatch k config ids rows upsert with
    | error e => rw [known] at run; cases run
    | ok x =>
      rw [known] at run
      cases run
      exact values.addBatch stored known
  | remove id =>
    refine values.after fun a n run => ?_
    unfold KeyedMap.remove at run
    split at run
    · cases run
      intro x member
      rw [OrderedMap.pairs_erase] at member
      exact values x (List.mem_filter.mp member).1
    · cases run
  | get id => exact values
  | contains id => exact values
  | size => exact values
  | search query params => exact values
  | compact => exact values

end Values
end KeyedMap
end VectorForge
