import VectorForge.Collection.TableRoundTrip
import VectorForge.Collection.ReaderSafety

namespace VectorForge

/-- What a collection has to satisfy to be written. -/
structure CollectionState.Savable (s : CollectionState) : Prop extends CollectionState.Coupled s where
  graph : ∀ g, s.backend.graph? = some g → HnswIo.Bounded g

/-- What a collection that goes through a file has to satisfy: the representation invariant and
the limits of the METADATA section. -/
structure CollectionState.Persistable (s : CollectionState) : Prop extends CollectionState.RepInv s where
  maxLevel : s.config.hnsw.maxLevel.toNat ≤ HnswParams.kMaxLevelCap
  creator : s.creator.length ≤ Format.kMaxCreatorLength
  components : s.ComponentsOk

namespace IndexWriter
open Format LittleEndian HnswIo

/-- The stored components as bytes. -/
def vectorBytes (s : CollectionState) : List Byte := wordBytes 4 (s.vectors.rows.flatten.map (·.bits.toNat))

def metadataOf (s : CollectionState) : Metadata := makeMetadata s s.backend.graph?

/-- The entry point as METADATA has it. -/
def storedEntry (graph : Option HnswGraph) : UInt32 × UInt8 :=
  match graph with
  | none => (kEmptySlot, 0)
  | some g => if g.entry.valid then (UInt32.ofNat g.entry.id, UInt8.ofNat g.entry.level) else (kEmptySlot, 0)

def tombstoneBytes (s : CollectionState) : List Byte :=
  wordBytes 8 ((s.deleted.words.take (TombstoneSet.wordsFor s.vectors.size)).map (·.toNat))

def graphParts (g : HnswGraph) : List Part :=
  [{ type := .levels, alignment := kSectionAlignment, payload := (encodedSections g).levels },
   { type := .l0Links, alignment := kSectionAlignment, payload := (encodedSections g).l0Links },
   { type := .upperIndex, alignment := kSectionAlignment, payload := (encodedSections g).upperIndex },
   { type := .upperLinks, alignment := kSectionAlignment, payload := (encodedSections g).upperLinks }]

/-- The sections of the file of `s` as bytes, in the order of the plan. -/
def partsOf (s : CollectionState) : List Part :=
  [{ type := .metadata, alignment := kSectionAlignment, payload := metadataBytes (metadataOf s) },
   { type := .labels, alignment := kSectionAlignment, payload := wordBytes 8 (s.ids.labels.map (·.toNat)) }] ++
  (if s.deleted.count ≠ 0 then
    [{ type := .tombstones, alignment := kSectionAlignment, payload := tombstoneBytes s }] else []) ++
  (match s.backend.graph? with
   | none => []
   | some g => graphParts g) ++
  [{ type := .vectors, alignment := kVectorAlignment, payload := vectorBytes s }]

variable {s : CollectionState}

theorem metadataOf_eq (s : CollectionState) : metadataOf s =
    { dim := s.config.dim
      metric := s.config.metric.toByte
      indexType := s.config.index.toByte
      normalize := if s.config.normalize then 1 else 0
      nodeCount := UInt64.ofNat s.vectors.size
      liveCount := UInt64.ofNat s.ids.size
      m := s.config.hnsw.M
      m0 := s.config.hnsw.maxLinksLevel0
      efConstruction := s.config.hnsw.efConstruction
      efSearch := s.config.hnsw.efSearch
      maxLevelCap := s.config.hnsw.maxLevel
      maxLevel := (storedEntry s.backend.graph?).2
      entryPoint := (storedEntry s.backend.graph?).1
      seed := s.config.hnsw.seed
      creator := s.creator
      createdUnixMs := s.createdUnixMs } := by
  unfold metadataOf makeMetadata storedEntry
  cases s.backend.graph? with
  | none => rfl
  | some g =>
    simp only
    split <;> rfl

theorem length_flatten_rows (coupled : s.Coupled) :
    s.vectors.rows.flatten.length = s.vectors.size * s.config.dim.toNat := by
  rw [length_flatten_uniform (d := s.config.dim.toNat), VectorStore.length_rows]
  intro row member
  rw [coupled.store.mem_rows member, coupled.dim]

theorem length_vectorBytes (coupled : s.Coupled) :
    (vectorBytes s).length = s.vectors.size * s.config.dim.toNat * 4 := by
  rw [vectorBytes, length_wordBytes, List.length_map, length_flatten_rows coupled]

theorem length_tombstoneBytes (coupled : s.Coupled) :
    (tombstoneBytes s).length = (s.vectors.size + 63) / 64 * 8 := by
  rw [tombstoneBytes, length_wordBytes, List.length_map, List.length_take, min_eq_left coupled.tracks.covers]
  rfl

/-- A graph of a collection that satisfies the invariant can be stored. -/
theorem storable (inv : s.RepInv) {g : HnswGraph} (graph : s.backend.graph? = some g) : Storable g := by
  cases kind : s.backend with
  | flat => rw [kind] at graph; cases graph
  | hnsw b =>
    rw [kind] at graph
    cases graph
    have fits := inv.backend
    rw [kind] at fits
    obtain ⟨_, fits⟩ := fits
    have valid := fits.valid
    have rows := inv.rows_le
    refine ⟨fits.laid, HnswValidator.checkInvariants_ok_iff.mp (inv.graph b kind), ?_, ?_, ?_, ?_, ?_⟩
    · rw [fits.m]; exact valid.minM
    · rw [fits.m]; exact valid.maxM
    · rw [fits.maxLevel]; exact valid.minLevel
    · rw [fits.maxLevel]; exact valid.maxLevel
    · rw [fits.nodes]; exact rows

theorem savable (inv : s.RepInv) : s.Savable :=
  { inv.toCoupled with graph := fun _ graph => (storable inv graph).bounded }

theorem graph_nodes (coupled : s.Coupled) {g : HnswGraph} (graph : s.backend.graph? = some g) :
    g.nodeCount = s.vectors.size ∧ g.m = s.config.hnsw.M.toNat ∧ g.maxLevel = s.config.hnsw.maxLevel.toNat ∧
      s.config.index = .hnsw ∧ s.config.hnsw.Valid := by
  cases kind : s.backend with
  | flat => rw [kind] at graph; cases graph
  | hnsw b =>
    rw [kind] at graph
    cases graph
    have fits := coupled.backend
    rw [kind] at fits
    exact ⟨fits.2.nodes, fits.2.m, fits.2.maxLevel, fits.1, fits.2.valid⟩

theorem index_flat (coupled : s.Coupled) (graph : s.backend.graph? = none) : s.config.index = .flat := by
  cases kind : s.backend with
  | flat =>
    have fits := coupled.backend
    rwa [kind] at fits
  | hnsw b => rw [kind] at graph; cases graph

section Write

theorem writeVectors_eq (coupled : s.Coupled) {w : BinaryWriter MemorySink} (clean : w.status = none) :
    writeVectors s w = w.appended (vectorBytes s) := by
  rw [writeVectors, vectorBytes, ← coupled.store.flatten_chunks, coupled.dim]
  rw [foldl_appended (f := fun c => wordBytes 4
    (((s.vectors.chunkData c).take (s.vectors.rowsInChunk c * s.config.dim.toNat)).map (·.bits.toNat)))
    (fun w c clean => array_eq_appended clean 4 _) _ clean, flatMap_wordBytes, List.flatMap_def, List.map_flatten,
    List.map_map]
  rfl

theorem graphParts_realise {g : HnswGraph} (ok : Bounded g) (rows : g.nodeCount = s.vectors.size) :
    List.Forall₂ Realises
      [{ type := .levels, size := s.vectors.size, alignment := kSectionAlignment
         write := fun w => writeLevels w g },
       { type := .l0Links, size := s.vectors.size * (g.capacity 0 + 1) * 4, alignment := kSectionAlignment
         write := fun w => writeL0Links w g },
       { type := .upperIndex, size := s.vectors.size * 8, alignment := kSectionAlignment
         write := fun w => writeUpperIndex w g },
       { type := .upperLinks, size := upperLinkWords g * 4, alignment := kSectionAlignment
         write := fun w => writeUpperLinks w g }] (graphParts g) := by
  refine .cons ⟨rfl, rfl, ?_, fun w => writeLevels_eq⟩ (.cons ⟨rfl, rfl, ?_, fun w => writeL0Links_eq⟩
    (.cons ⟨rfl, rfl, ?_, fun w => writeUpperIndex_eq⟩ (.cons ⟨rfl, rfl, ?_, fun w => writeUpperLinks_eq⟩ .nil)))
  · rw [encodedSections, length_wordBytes, Nat.mul_one, ← rows]
    rfl
  · rw [encodedSections, length_wordBytes, length_l0 ok.writable, rows]
  · rw [encodedSections, length_wordBytes, length_upperOffsets, ← rows]
    rfl
  · rw [encodedSections, length_wordBytes, length_upper ok.writable]

/-- Every planned section writes the bytes of its part. -/
theorem plan_realised (inv : s.Savable) : List.Forall₂ Realises (plan s) (partsOf s) := by
  have labels : s.vectors.size * 8 = (wordBytes 8 (s.ids.labels.map (·.toNat))).length := by
    rw [length_wordBytes, List.length_map, inv.labels]
  unfold plan partsOf
  refine List.rel_append (List.rel_append (List.rel_append ?_ ?_) ?_) ?_
  · exact .cons ⟨rfl, rfl, (length_metadataBytes _).symm, fun w clean => encodeMetadata_eq_appended clean _⟩
      (.cons ⟨rfl, rfl, labels, fun w clean => array_eq_appended clean 8 _⟩ .nil)
  · split
    · exact .cons ⟨rfl, rfl, (length_tombstoneBytes inv.toCoupled).symm,
        fun w clean => array_eq_appended clean 8 _⟩ .nil
    · exact .nil
  · cases graph : s.backend.graph? with
    | none => exact .nil
    | some g => exact graphParts_realise (inv.graph g graph) (graph_nodes inv.toCoupled graph).1
  · exact .cons ⟨rfl, rfl, (length_vectorBytes inv.toCoupled).symm,
      fun w clean => writeVectors_eq inv.toCoupled clean⟩
      .nil

end Write

section Plan

theorem partsOf_cases {p : Part} (member : p ∈ partsOf s) :
    p = { type := .metadata, alignment := kSectionAlignment, payload := metadataBytes (metadataOf s) } ∨
    p = { type := .labels, alignment := kSectionAlignment, payload := wordBytes 8 (s.ids.labels.map (·.toNat)) } ∨
    p = { type := .tombstones, alignment := kSectionAlignment, payload := tombstoneBytes s } ∨
    (∃ g, s.backend.graph? = some g ∧ p ∈ graphParts g) ∨
    p = { type := .vectors, alignment := kVectorAlignment, payload := vectorBytes s } := by
  unfold partsOf at member
  simp only [List.mem_append, List.mem_cons, List.not_mem_nil, or_false] at member
  rcases member with ((first | marks) | graph) | last
  · rcases first with rfl | rfl
    · exact .inl rfl
    · exact .inr (.inl rfl)
  · split at marks
    · exact .inr (.inr (.inl (List.mem_singleton.mp marks)))
    · cases marks
  · cases found : s.backend.graph? with
    | none => rw [found] at graph; cases graph
    | some g =>
      rw [found] at graph
      exact .inr (.inr (.inr (.inl ⟨g, rfl, graph⟩)))
  · exact .inr (.inr (.inr (.inr last)))

theorem partsOf_aligned (s : CollectionState) : Aligned (partsOf s) := by
  have narrow : kSectionAlignment ∣ 4096 ∧ 8 ∣ kSectionAlignment := by decide
  have page : kVectorAlignment ∣ 4096 ∧ 8 ∣ kVectorAlignment := by decide
  intro p member
  rcases partsOf_cases member with rfl | rfl | rfl | ⟨g, _, graph⟩ | rfl
  · exact narrow
  · exact narrow
  · exact narrow
  · simp only [graphParts, List.mem_cons, List.not_mem_nil, or_false] at graph
    rcases graph with rfl | rfl | rfl | rfl <;> exact narrow
  · exact page

theorem graphParts_short {g : HnswGraph} (ok : Bounded g) {p : Part} (member : p ∈ graphParts g) :
    p.payload.length + 4096 ≤ 2 ^ 52 := by
  have sized := ok.sized
  have words := upperLinkWords_le ok
  have nodes := ok.nodes
  have m := ok.maxM
  have l0 : g.nodeCount * (2 * g.m + 1) ≤ kMaxVectorsPerCollection * 1025 := Nat.mul_le_mul nodes (by omega)
  have levels := sized.levels
  have l0Length := sized.l0
  have index := sized.index
  have upper : (encodedSections g).upperLinks.length = upperLinkWords g * 4 := by
    rw [encodedSections, length_wordBytes, length_upper ok.writable]
  simp only [show (encodedShape g).nodeCount = g.nodeCount from rfl, show (encodedShape g).m = g.m from rfl]
    at levels l0Length index
  simp only [kMaxVectorsPerCollection, kInvalidInternalId] at nodes l0
  simp only [graphParts, List.mem_cons, List.not_mem_nil, or_false] at member
  rcases member with rfl | rfl | rfl | rfl <;> simp only <;> omega

/-- No section of a collection comes near the limits of the layout. -/
theorem partsOf_short (inv : s.Savable) (creator : s.creator.length ≤ kMaxCreatorLength) {p : Part}
    (member : p ∈ partsOf s) : p.payload.length + 4096 ≤ 2 ^ 52 := by
  have rows := inv.rows_le
  have dim := inv.dimRange.2
  have floats : s.vectors.size * s.config.dim.toNat ≤ kMaxVectorsPerCollection * kMaxDim := Nat.mul_le_mul rows dim
  simp only [kMaxVectorsPerCollection, kInvalidInternalId, kMaxDim] at rows floats
  rcases partsOf_cases member with rfl | rfl | rfl | ⟨g, graph, inGraph⟩ | rfl
  · simp only [length_metadataBytes, metadataSize, metadataOf_eq, kMaxCreatorLength] at creator ⊢
    omega
  · simp only [length_wordBytes, List.length_map, inv.labels]
    omega
  · simp only [length_tombstoneBytes inv.toCoupled]
    omega
  · exact graphParts_short (inv.graph g graph) inGraph
  · simp only [length_vectorBytes inv.toCoupled]
    omega

theorem partsOf_count (s : CollectionState) : 0 < (partsOf s).length ∧ (partsOf s).length ≤ 8 := by
  unfold partsOf
  split <;> split <;> simp [graphParts]

theorem partsOf_distinct (s : CollectionState) : ((partsOf s).map (·.type)).Nodup := by
  unfold partsOf
  split <;> split <;> simp [graphParts]

theorem partsOf_plannable (inv : s.Savable) (creator : s.creator.length ≤ kMaxCreatorLength) :
    IndexReader.Plannable (partsOf s) := by
  obtain ⟨some, few⟩ := partsOf_count s
  have total := endFrom_le (o := kHeaderSize) (partsOf_aligned s)
  have each : ((partsOf s).map fun p => p.payload.length + 4096).sum ≤ 8 * 2 ^ 52 := by
    have sum := List.sum_le_card_nsmul ((partsOf s).map fun p => p.payload.length + 4096) (2 ^ 52) (by
      intro x inMap
      obtain ⟨p, inParts, rfl⟩ := List.mem_map.mp inMap
      exact partsOf_short inv creator inParts)
    rw [List.length_map] at sum
    exact sum.trans (Nat.mul_le_mul_right (2 ^ 52) few)
  refine ⟨partsOf_aligned s, ?_, List.ne_nil_of_length_pos some, ?_, partsOf_distinct s⟩
  · simp only [kHeaderSize] at total ⊢
    omega
  · simp only [kMaxSections]
    omega

/-- The writer into memory succeeds and produces the file of the parts. -/
theorem writeIndex_partsOf (inv : s.Savable) (creator : s.creator.length ≤ kMaxCreatorLength) :
    writeIndex s ({} : MemorySink) = .ok ⟨fileOf (headerFlags s) (partsOf s)⟩ := by
  have ok := partsOf_plannable inv creator
  exact writeIndex_eq inv.labels (plan_realised inv) ok.aligned ok.bound ok.few

end Plan
end IndexWriter
end VectorForge
