import VectorForge.Collection.WrittenFile

namespace VectorForge.IndexReader
open Format LittleEndian HnswIo
open IndexWriter (Part partsOf fileOf headerFlags vectorBytes tombstoneBytes graphParts storedEntry
  entriesFrom metadataOf_eq length_vectorBytes length_tombstoneBytes graph_nodes index_flat storable)

section Bytes

theorem readArray_wordBytes {width : Nat} {words : List Nat} (positive : 0 < width)
    (fits : ∀ w ∈ words, w < 256 ^ width) : readArray width (wordBytes width words) = words := by
  apply List.ext_getElem?
  intro i
  rw [readArray, length_wordBytes, Nat.mul_div_cancel _ positive, List.getElem?_map]
  by_cases inside : i < words.length
  · have found := List.getElem?_eq_getElem inside
    rw [List.getElem?_range inside, Option.map_some, wordBytes_slice found,
      leValue_leBytes_of_lt (fits _ (List.getElem_mem inside)), found]
  · rw [List.getElem?_eq_none (by simpa using inside), List.getElem?_eq_none (by omega)]
    rfl

theorem readLabels (labels : List ExternalId) :
    (readU64Array (wordBytes 8 (labels.map (·.toNat)))).map UInt64.ofNat = labels := by
  rw [readU64Array, readArray_wordBytes (by decide), List.map_map]
  · conv_rhs => rw [← List.map_id labels]
    exact List.map_congr_left fun id _ => UInt64.ofNat_toNat
  · intro w member
    obtain ⟨id, _, rfl⟩ := List.mem_map.mp member
    exact id.toNat_lt

theorem readWords (words : List (BitVec 64)) :
    (readU64Array (wordBytes 8 (words.map (·.toNat)))).map (BitVec.ofNat 64) = words := by
  rw [readU64Array, readArray_wordBytes (by decide), List.map_map]
  · conv_rhs => rw [← List.map_id words]
    exact List.map_congr_left fun word _ => by simp
  · intro w member
    obtain ⟨word, _, rfl⟩ := List.mem_map.mp member
    exact word.isLt

theorem readFloats_wordBytes (values : List F32) :
    readFloats (wordBytes 4 (values.map (·.bits.toNat))) = values := by
  rw [readFloats, readArray_wordBytes (by decide), List.map_map]
  · conv_rhs => rw [← List.map_id values]
    refine List.map_congr_left fun x _ => ?_
    show (⟨UInt32.ofNat x.bits.toNat⟩ : F32) = x
    rw [UInt32.ofNat_toNat]
  · intro w member
    obtain ⟨x, _, rfl⟩ := List.mem_map.mp member
    exact x.bits.toNat_lt

/-- Cutting the concatenation of equally long rows gives the rows back. -/
theorem rowsOf_flatten {d : Nat} (rows : List (List F32)) (uniform : ∀ row ∈ rows, row.length = d) :
    VectorStore.rowsOf d rows.flatten rows.length = rows := by
  apply List.ext_getElem?
  intro i
  rw [VectorStore.rowsOf, List.getElem?_map]
  by_cases inside : i < rows.length
  · have before : ((rows.take i).flatten).length = i * d := by
      rw [length_flatten_uniform (d := d) (fun row member => uniform row (List.mem_of_mem_take member)),
        List.length_take, min_eq_left inside.le]
    have split : rows.flatten = (rows.take i).flatten ++ (rows[i] ++ (rows.drop (i + 1)).flatten) := by
      conv_lhs => rw [← List.take_append_drop i rows, List.flatten_append, List.drop_eq_getElem_cons inside,
        List.flatten_cons]
    rw [List.getElem?_range inside, List.getElem?_eq_getElem inside, Option.map_some, split, ← before,
      List.drop_left, List.take_append_of_le_length (uniform _ (List.getElem_mem inside)).ge,
      List.take_of_length_le (uniform _ (List.getElem_mem inside)).le]
  · rw [List.getElem?_eq_none (by simpa using inside), List.getElem?_eq_none (by omega)]
    rfl

end Bytes

section Sections
variable {file : List Byte} {parts : List Part} {entries : List SectionEntry} {p : Part} {e : SectionEntry}

theorem Placed.sectionBytes (placed : Placed file p e) : sectionBytes file e = .ok p.payload := by
  rw [IndexReader.sectionBytes, Outcome.slice_ok placed.inside, placed.bytes]

theorem Placed.verifyCrc (placed : Placed file p e) : verifyCrc file e = .ok () := by
  rw [IndexReader.verifyCrc, placed.sectionBytes, Outcome.ok_bind, placed.crc, if_neg (by simp)]
  rfl

theorem verifyEntries_placed (placed : List.Forall₂ (Placed file) parts entries) :
    verifyEntries file entries = .ok () := by
  induction placed with
  | nil => rfl
  | cons first _ ih =>
    rw [verifyEntries, ih, first.verifyCrc]
    split <;> rfl

/-- The entry of a part of the file, found by its type. -/
theorem placed_of_find {t : SectionType} (placed : List.Forall₂ (Placed file) parts entries)
    (part : parts.find? (fun p => decide (p.type = t)) = some p) :
    ∃ e, (entries.find? fun e => decide (e.type = t.toU32)) = some e ∧ Placed file p e := by
  have found := find_placed t placed
  rwa [part] at found

theorem absent_of_find {t : SectionType} (placed : List.Forall₂ (Placed file) parts entries)
    (part : parts.find? (fun p => decide (p.type = t)) = none) :
    (entries.find? fun e => decide (e.type = t.toU32)) = none := by
  have found := find_placed t placed
  rwa [part] at found

end Sections

section Parts
variable {s : CollectionState}

theorem find_metadata (s : CollectionState) : (partsOf s).find? (fun p => decide (p.type = .metadata)) =
    some { type := .metadata, alignment := kSectionAlignment
           payload := metadataBytes (IndexWriter.metadataOf s) } := rfl

theorem find_labels (s : CollectionState) : (partsOf s).find? (fun p => decide (p.type = .labels)) =
    some { type := .labels, alignment := kSectionAlignment, payload := wordBytes 8 (s.ids.labels.map (·.toNat)) } :=
    rfl

theorem find_vectors (s : CollectionState) : (partsOf s).find? (fun p => decide (p.type = .vectors)) =
    some { type := .vectors, alignment := kVectorAlignment, payload := vectorBytes s } := by
  unfold partsOf
  split <;> split <;> rfl

theorem find_tombstones (s : CollectionState) : (partsOf s).find? (fun p => decide (p.type = .tombstones)) =
    if s.deleted.count ≠ 0 then
      some { type := .tombstones, alignment := kSectionAlignment, payload := tombstoneBytes s } else none := by
  unfold partsOf
  split <;> split <;> rfl

/-- The graph sections are there exactly if there is a graph. -/
theorem find_graph {t : SectionType} (graph : t ∈ [SectionType.levels, .l0Links, .upperIndex, .upperLinks])
    (s : CollectionState) : (partsOf s).find? (fun p => decide (p.type = t)) =
      s.backend.graph?.bind fun g => (graphParts g).find? fun p => decide (p.type = t) := by
  simp only [List.mem_cons, List.not_mem_nil, or_false] at graph
  unfold partsOf
  cases s.backend.graph? <;> rcases graph with rfl | rfl | rfl | rfl <;> split <;> rfl

/-- The flags say what the state is. -/
theorem headerFlags_bits (s : CollectionState) :
    (decide (headerFlags s &&& kFlagHasGraph ≠ 0) = s.backend.graph?.isSome) ∧
    (decide (headerFlags s &&& kFlagHasTombstones ≠ 0) = decide (s.deleted.count ≠ 0)) ∧
    (decide (headerFlags s &&& kFlagVectorsNormalized ≠ 0) = s.normalized) ∧
    headerFlags s &&& ~~~kKnownFlags = 0 := by
  unfold headerFlags
  generalize s.backend.graph?.isSome = graph
  generalize s.normalized = normalized
  by_cases marks : s.deleted.count ≠ 0
  · rw [if_pos marks]
    simp only [marks, not_false_eq_true, ne_eq]
    cases graph <;> cases normalized <;> decide
  · rw [if_neg marks]
    simp only [marks]
    cases graph <;> cases normalized <;> decide

theorem toNat_rows (coupled : s.Coupled) : (UInt64.ofNat s.vectors.size).toNat = s.vectors.size := by
  have rows := coupled.rows_le
  simp only [kMaxVectorsPerCollection, kInvalidInternalId] at rows
  rw [UInt64.toNat_ofNat']
  omega

theorem toNat_live (coupled : s.Coupled) : (UInt64.ofNat s.ids.size).toNat = s.ids.live := by
  have rows := coupled.rows_le
  have total := coupled.live_add_count
  simp only [kMaxVectorsPerCollection, kInvalidInternalId] at rows
  rw [UInt64.toNat_ofNat', IdMap.size]
  omega

/-- The entry point that METADATA stores is the one the decoder is given. -/
theorem storedEntry_eq (inv : s.RepInv) {g : HnswGraph} (graph : s.backend.graph? = some g) :
    (storedEntry (some g)).1.toNat = (encodedShape g).entryPoint ∧
      (storedEntry (some g)).2.toNat = (encodedShape g).entryLevel ∧
      (storedEntry (some g)).2.toNat ≤ s.config.hnsw.maxLevel.toNat := by
  have ok := storable inv graph
  have nodes := ok.nodes
  have cap := ok.maxLevel
  have maxLevel := (graph_nodes inv.toCoupled graph).2.2.1
  simp only [kMaxVectorsPerCollection, kInvalidInternalId] at nodes
  unfold storedEntry encodedShape
  simp only
  by_cases valid : g.entry.valid = true
  · have some : g.nodeCount ≠ 0 := by
      intro none
      rw [ok.invariants.empty none] at valid
      cases valid
    obtain ⟨_, inside, level⟩ := ok.invariants.entry some
    have top := (ok.invariants.levels g.entry.id inside).1
    rw [if_pos valid, if_pos valid, if_pos valid]
    simp only [UInt32.toNat_ofNat', UInt8.toNat_ofNat']
    omega
  · rw [if_neg valid, if_neg valid, if_neg valid]
    exact ⟨rfl, rfl, Nat.zero_le _⟩

theorem validateMetadata_written (ok : s.RepInv)
    (cap : s.config.hnsw.maxLevel.toNat ≤ HnswParams.kMaxLevelCap) {h : FileHeader}
    (flags : h.flags = headerFlags s) :
    validateMetadata (IndexWriter.metadataOf s) h = .ok (s.config.metric, s.config.index) := by
  obtain ⟨graphBit, _, normalizedBit, _⟩ := headerFlags_bits s
  have dim := ok.dimRange
  have rows := ok.rows_le
  have total := ok.live_add_count
  have normalizeByte : ¬(if s.config.normalize then (1 : UInt8) else 0).toNat > 1 := by
    split <;> decide
  have normalizedFlag : ¬decide ((if s.config.normalize then (1 : UInt8) else 0) = 1 ∨ s.config.metric = .cosine) ≠
      decide (headerFlags s &&& kFlagVectorsNormalized ≠ 0) := by
    rw [normalizedBit, ok.normalized, CollectionConfig.effectiveNormalize]
    cases s.config.normalize <;> simp
  unfold validateMetadata
  rw [metadataOf_eq]
  simp only [Metric.ofByte_toByte, IndexType.ofByte_toByte, toNat_rows ok.toCoupled, toNat_live ok.toCoupled, flags]
  rw [if_neg (by omega), if_neg normalizeByte, if_neg (by omega), if_neg (by omega), if_neg normalizedFlag]
  cases graph : s.backend.graph? with
  | none =>
    have flat := index_flat ok.toCoupled graph
    rw [graphBit, graph, flat, if_neg (by simp), if_neg (by simp only [storedEntry, UInt8.toNat_zero]; omega)]
    exact if_neg (by simp [storedEntry])
  | some g =>
    obtain ⟨_, _, _, hnsw, valid⟩ := graph_nodes ok.toCoupled graph
    have entryLevel := (storedEntry_eq ok graph).2.2
    have params : (metadataParams
        { dim := s.config.dim
          metric := s.config.metric.toByte
          indexType := IndexType.hnsw.toByte
          normalize := if s.config.normalize then 1 else 0
          nodeCount := UInt64.ofNat s.vectors.size
          liveCount := UInt64.ofNat s.ids.size
          m := s.config.hnsw.M
          m0 := s.config.hnsw.maxLinksLevel0
          efConstruction := s.config.hnsw.efConstruction
          efSearch := s.config.hnsw.efSearch
          maxLevelCap := s.config.hnsw.maxLevel
          maxLevel := (storedEntry (some g)).2
          entryPoint := (storedEntry (some g)).1
          seed := s.config.hnsw.seed
          creator := s.creator
          createdUnixMs := s.createdUnixMs }).validate = .ok () := HnswParams.validate_ok_iff.mpr valid
    rw [graphBit, graph, hnsw, if_neg (by simp), if_neg (by omega)]
    simp only [params]
    exact if_neg (by simp [HnswParams.maxLinksLevel0])

end Parts

section Stages
variable {file : List Byte} {s : CollectionState}

theorem expectSize_ok {e : SectionEntry} {t : SectionType} {expected : Option Nat}
    (same : expected = some e.size.toNat) : expectSize e t expected = .ok () := by
  rw [expectSize, if_neg (by simpa using same)]

/-- The entries of the plain sections of a written file. -/
structure Located (file : List Byte) (s : CollectionState) (sections : Sections) : Prop where
  metadata : Placed file { type := .metadata, alignment := kSectionAlignment
                           payload := metadataBytes (IndexWriter.metadataOf s) } sections.metadata
  labels : Placed file { type := .labels, alignment := kSectionAlignment
                         payload := wordBytes 8 (s.ids.labels.map (·.toNat)) } sections.labels
  vectors : Placed file { type := .vectors, alignment := kVectorAlignment, payload := vectorBytes s }
    sections.vectors
  unmarked : s.deleted.count = 0 → sections.tombstones = none
  marked : s.deleted.count ≠ 0 → ∃ e, sections.tombstones = some e ∧
    Placed file { type := .tombstones, alignment := kSectionAlignment, payload := tombstoneBytes s } e

theorem checkGraphSections_yields {p : ParsedFile} (ok : ParsedOk file p) {present : Bool} :
    ∀ {types : List SectionType},
      (∀ t ∈ types, (p.entries.find? fun e => decide (e.type = t.toU32)).isSome = present) →
      checkGraphSections p present types = .ok ()
  | [], _ => rfl
  | t :: rest, each => by
    rw [checkGraphSections, ok.find_eq, Outcome.ok_bind,
      if_neg (by simpa using each t (List.mem_cons_self ..)),
      checkGraphSections_yields ok fun u member => each u (List.mem_cons_of_mem t member)]

theorem findSections_written {p : ParsedFile} (ok : ParsedOk file p) (flags : p.header.flags = headerFlags s)
    (placed : List.Forall₂ (Placed file) (partsOf s) p.entries) :
    Outcome.Yields (findSections p) (Located file s) := by
  obtain ⟨graphBit, marksBit, _⟩ := headerFlags_bits s
  obtain ⟨metadata, atMetadata, isMetadata⟩ := placed_of_find placed (find_metadata s)
  obtain ⟨labels, atLabels, isLabels⟩ := placed_of_find placed (find_labels s)
  obtain ⟨vectors, atVectors, isVectors⟩ := placed_of_find placed (find_vectors s)
  have graph : ∀ t ∈ [SectionType.levels, .l0Links, .upperIndex, .upperLinks],
      (p.entries.find? fun e => decide (e.type = t.toU32)).isSome = hasGraph p.header := by
    intro t member
    have part := find_graph member s
    rw [hasGraph, flags, graphBit]
    cases isGraph : s.backend.graph? with
    | none =>
      rw [isGraph] at part
      rw [absent_of_find placed part]
      rfl
    | some g =>
      rw [isGraph] at part
      simp only [List.mem_cons, List.not_mem_nil, or_false] at member
      have found : ∃ q, (graphParts g).find? (fun p => decide (p.type = t)) = some q := by
        rcases member with rfl | rfl | rfl | rfl <;> exact ⟨_, rfl⟩
      obtain ⟨q, isPart⟩ := found
      obtain ⟨e, here, _⟩ := placed_of_find placed (part.trans isPart)
      rw [here]
      rfl
  have marks : (p.entries.find? fun e => decide (e.type = SectionType.tombstones.toU32)).isSome =
      decide (s.deleted.count ≠ 0) ∧
      (s.deleted.count = 0 → (p.entries.find? fun e => decide (e.type = SectionType.tombstones.toU32)) = none) ∧
      (s.deleted.count ≠ 0 → ∃ e, (p.entries.find? fun e =>
        decide (e.type = SectionType.tombstones.toU32)) = some e ∧
        Placed file { type := .tombstones, alignment := kSectionAlignment, payload := tombstoneBytes s } e) := by
    have part := find_tombstones s
    by_cases none : s.deleted.count = 0
    · rw [if_neg (by simpa using none)] at part
      rw [absent_of_find placed part]
      simp [none]
    · rw [if_pos none] at part
      obtain ⟨e, here, isMarks⟩ := placed_of_find placed part
      rw [here]
      exact ⟨by simp [none], fun zero => absurd zero none, fun _ => ⟨e, rfl, isMarks⟩⟩
  have page : vectors.offset.toNat % kVectorAlignment = 0 := Nat.mod_eq_zero_of_dvd isVectors.offset
  unfold findSections
  simp only [ok.find_eq, Outcome.ok_bind, atMetadata, atLabels, atVectors, flags]
  rw [marksBit, marks.1, if_neg (by simp), checkGraphSections_yields ok graph, Outcome.ok_bind,
    if_neg (by simpa using page)]
  exact Outcome.Yields.ok ⟨isMetadata, isLabels, isVectors, marks.2.1, marks.2.2⟩

theorem expectSizes_written (coupled : s.Coupled) {sections : Sections} (located : Located file s sections) :
    expectSizes sections (IndexWriter.metadataOf s) = .ok () := by
  have rows := coupled.rows_le
  have dim := coupled.dimRange.2
  have floats : s.vectors.size * s.config.dim.toNat ≤ kMaxVectorsPerCollection * kMaxDim := Nat.mul_le_mul rows dim
  simp only [kMaxVectorsPerCollection, kInvalidInternalId, kMaxDim] at rows floats
  have vectors : checkedMul3 64 s.vectors.size s.config.dim.toNat 4 = some sections.vectors.size.toNat := by
    rw [located.vectors.size, checkedMul3, checkedMul_eq_some.mpr ⟨by omega, rfl⟩,
      Option.bind_some, checkedMul_eq_some]
    exact ⟨by omega, length_vectorBytes coupled⟩
  have labels : checkedMul 64 s.vectors.size 8 = some sections.labels.size.toNat := by
    rw [located.labels.size, checkedMul_eq_some]
    refine ⟨by omega, ?_⟩
    simp only [length_wordBytes, List.length_map, coupled.labels]
  unfold expectSizes
  simp only [metadataOf_eq, toNat_rows coupled]
  rw [expectSize_ok vectors, Outcome.ok_bind, expectSize_ok labels, Outcome.ok_bind]
  by_cases none : s.deleted.count = 0
  · rw [located.unmarked none]
    rfl
  · obtain ⟨e, here, isMarks⟩ := located.marked none
    rw [here]
    exact expectSize_ok (by rw [isMarks.size, length_tombstoneBytes coupled])

theorem readTombstones_written (coupled : s.Coupled) {sections : Sections} (located : Located file s sections) :
    Outcome.Yields (readTombstones file sections.tombstones s.vectors.size s.ids.live) fun deleted =>
      (∀ i, deleted.test i = s.deleted.test i) ∧ deleted.count = s.deleted.count := by
  have total := coupled.live_add_count
  have bound := coupled.tracks.count_le
  unfold readTombstones
  by_cases none : s.deleted.count = 0
  · have unmarked (i : Nat) : s.deleted.test i = false := by
      have empty := coupled.tracks.exact
      rw [none, eq_comm, Finset.card_eq_zero] at empty
      by_contra bit
      have bit : s.deleted.test i = true := by simpa using bit
      have member := TombstoneSet.mem_marked.mpr ⟨coupled.tracks.below i bit, bit⟩
      rw [empty] at member
      cases member
    rw [located.unmarked none]
    simp only [Outcome.pure_eq_ok, Outcome.ok_bind]
    rw [Outcome.sub_ok (Nat.zero_le _), Outcome.ok_bind, if_neg (by omega)]
    refine Outcome.Yields.ok ⟨?_, none.symm⟩
    intro i
    rw [unmarked, TombstoneSet.test_ensureSize]
    rfl
  · obtain ⟨e, here, isMarks⟩ := located.marked none
    obtain ⟨restored, run, _, same, count, _⟩ := TombstoneSet.restore_take coupled.tracks
    rw [here]
    simp only [isMarks.sectionBytes, Outcome.ok_bind, tombstoneBytes, readWords, run]
    rw [if_neg (by omega), Outcome.pure_eq_ok, Outcome.ok_bind, Outcome.sub_ok (by omega), Outcome.ok_bind,
      if_neg (by omega)]
    refine Outcome.Yields.ok ⟨?_, ?_⟩
    · intro i
      rw [TombstoneSet.test_ensureSize]
      exact same i
    · rw [TombstoneSet.count_ensureSize]
      exact count

theorem readGraph_written (inv : s.RepInv) {p : ParsedFile} (ok : ParsedOk file p)
    (flags : p.header.flags = headerFlags s) (placed : List.Forall₂ (Placed file) (partsOf s) p.entries) :
    Outcome.Yields (readGraph file p (IndexWriter.metadataOf s)) fun graph =>
      (s.backend.graph? = none → graph = none) ∧
      ∀ g, s.backend.graph? = some g → ∃ h, graph = some h ∧ SameGraph h g := by
  obtain ⟨graphBit, _⟩ := headerFlags_bits s
  unfold readGraph
  rw [hasGraph, flags, graphBit]
  cases isGraph : s.backend.graph? with
  | none =>
    rw [if_pos (by simp)]
    exact Outcome.Yields.ok ⟨fun _ => rfl, fun g wrong => by cases wrong⟩
  | some g =>
    have part {t : SectionType} (member : t ∈ [SectionType.levels, .l0Links, .upperIndex, .upperLinks]) {q : Part}
        (isPart : (graphParts g).find? (fun p => decide (p.type = t)) = some q) :
        ∃ e, (p.entries.find? fun e => decide (e.type = t.toU32)) = some e ∧ Placed file q e := by
      have found := find_graph member s
      rw [isGraph] at found
      exact placed_of_find placed (found.trans isPart)
    obtain ⟨levels, atLevels, isLevels⟩ := part (t := .levels) (by simp) rfl
    obtain ⟨l0, atL0, isL0⟩ := part (t := .l0Links) (by simp) rfl
    obtain ⟨index, atIndex, isIndex⟩ := part (t := .upperIndex) (by simp) rfl
    obtain ⟨upper, atUpper, isUpper⟩ := part (t := .upperLinks) (by simp) rfl
    obtain ⟨nodes, m, maxLevel, _⟩ := graph_nodes inv.toCoupled isGraph
    obtain ⟨entryPoint, entryLevel, _⟩ := storedEntry_eq inv isGraph
    have shape : ({ nodeCount := (IndexWriter.metadataOf s).nodeCount.toNat, m := (IndexWriter.metadataOf s).m.toNat
                    maxLevelCap := (IndexWriter.metadataOf s).maxLevelCap.toNat
                    entryPoint := (IndexWriter.metadataOf s).entryPoint.toNat
                    entryLevel := (IndexWriter.metadataOf s).maxLevel.toNat } : GraphShape) = encodedShape g := by
      rw [metadataOf_eq]
      simp only [toNat_rows inv.toCoupled, ← m, ← maxLevel, isGraph, entryPoint, entryLevel]
      rw [← nodes]
      rfl
    rw [if_neg (by simp)]
    simp only [ok.find_eq, Outcome.ok_bind, atLevels, atL0, atIndex, atUpper, isLevels.sectionBytes,
      isL0.sectionBytes, isIndex.sectionBytes, isUpper.sectionBytes, shape]
    refine Outcome.Yields.bind (decode_yields (storable inv isGraph)) ?_
    intro h same
    refine Outcome.Yields.ok ⟨fun wrong => (by cases wrong), ?_⟩
    intro g' found
    cases found
    exact ⟨h, rfl, same⟩

theorem copyRow_yields {vectorBytes : List Byte} {dim n r : Nat} {store : VectorStore}
    (length : vectorBytes.length = n * dim * 4) (small : vectorBytes.length < 2 ^ 64) (inside : r < n)
    (limit : n ≤ kMaxVectorsPerCollection) (valid : ∀ x ∈ readFloats vectorBytes, x.acceptable = true)
    (before : RowsOk vectorBytes true dim r store) :
    Outcome.Yields (copyRow vectorBytes dim r store) fun _ => True := by
  have block : r * dim + dim ≤ n * dim := by
    have step := Nat.mul_le_mul_right dim (Nat.succ_le_of_lt inside)
    rwa [Nat.succ_mul] at step
  have floats := readFloats_slice (a := r * dim) (b := dim) vectorBytes (by omega)
  have accepted : findInvalidComponent (((readFloats vectorBytes).drop (r * dim)).take dim) =
      (((readFloats vectorBytes).drop (r * dim)).take dim).length := by
    rw [findInvalidComponent_eq_length]
    intro x member
    exact valid x (List.mem_of_mem_drop (List.mem_of_mem_take member))
  have rowLength : (((readFloats vectorBytes).drop (r * dim)).take dim).length = dim := by
    rw [List.length_take, List.length_drop, length_readFloats]
    omega
  obtain ⟨t, run, _⟩ := before.wf.append (rowLength.trans before.dim.symm)
    (by rw [before.size, before.limit]; omega)
  unfold copyRow
  rw [Outcome.mul_ok (by omega), Outcome.ok_bind, Outcome.mul_ok (by omega), Outcome.ok_bind,
    Outcome.slice_ok (by omega), Outcome.ok_bind]
  simp only [floats]
  rw [if_neg (by simpa using accepted), run]
  exact Outcome.Yields.ok True.intro

/-- Rows with valid components are read, copied to the heap or served in place. -/
theorem readVectors_yields {vectorBytes : List Byte} {mapped checked : Bool} {dim n : Nat}
    (length : vectorBytes.length = n * dim * 4) (small : vectorBytes.length < 2 ^ 64) (dimLow : 1 ≤ dim)
    (dimHigh : dim ≤ kMaxDim) (limit : n ≤ kMaxVectorsPerCollection)
    (valid : ∀ x ∈ readFloats vectorBytes, x.acceptable = true) :
    Outcome.Yields (readVectors vectorBytes mapped checked dim n) fun _ => True := by
  obtain ⟨empty, created⟩ := VectorStore.create_default dimLow dimHigh
  obtain ⟨wf, shape⟩ := VectorStore.create_spec created
  unfold readVectors
  cases mapped with
  | true =>
    have accepted : findInvalidComponent (readFloats vectorBytes) = vectorBytes.length / 4 := by
      rw [← length_readFloats]
      exact findInvalidComponent_eq_length.mpr valid
    have long : n * dim ≤ (readFloats vectorBytes).length := by
      rw [length_readFloats, length]
      omega
    obtain ⟨t, run, _⟩ := VectorStore.createMapped_spec created limit long
    rw [if_pos rfl]
    simp only [accepted, ne_eq, not_true_eq_false, decide_false, Bool.and_false, Bool.false_eq_true, if_false, run]
    exact Outcome.Yields.ok True.intro
  | false =>
    have maxRows : empty.maxRows = kMaxVectorsPerCollection := congrArg VectorStore.maxRows shape
    have dimEmpty : empty.dim = dim := congrArg VectorStore.dim shape
    have sizeEmpty : empty.size = 0 := congrArg VectorStore.size shape
    rw [if_neg (by simp), created, Outcome.lift_ok, Outcome.ok_bind, VectorStore.reserve, if_neg (by omega),
      Outcome.lift_ok, Outcome.ok_bind]
    have run := Outcome.Yields.loop (RowsOk vectorBytes true dim) (f := copyRow vectorBytes dim) (n := n)
      (reserved_rowsOk (n := n) wf dimEmpty sizeEmpty maxRows)
      (fun r store _ high holds => (copyRow_yields length small (by omega) limit valid holds).and_sat
        (copyRow_sat length small (by omega) limit holds) |>.mono fun _ both => both.2)
    exact run.mono fun _ _ => True.intro

end Stages

/-- The same backend: the same parameters and switches, and for HNSW the same graph. -/
def SameBackend : IndexBackend → IndexBackend → Prop
  | .flat, .flat => True
  | .hnsw a, .hnsw b => a.params = b.params ∧ a.options = b.options ∧ SameGraph a.graph b.graph
  | _, _ => False

/-- Two states that hold the same collection: only the concurrency mode and the way the
rows and bits are kept in memory may differ. -/
structure SameState (a b : CollectionState) : Prop where
  config : a.config = { b.config with concurrency := a.config.concurrency }
  rows : a.vectors.rows = b.vectors.rows
  ids : a.ids = b.ids
  marks : ∀ i, a.deleted.test i = b.deleted.test i
  count : a.deleted.count = b.deleted.count
  backend : SameBackend a.backend b.backend
  creator : a.creator = b.creator
  createdUnixMs : a.createdUnixMs = b.createdUnixMs

section RoundTrip
variable {s t : CollectionState} {options : ReadOptions}

theorem metadataConfig_written (s : CollectionState) (concurrency : Concurrency) :
    metadataConfig (IndexWriter.metadataOf s) s.config.metric s.config.index concurrency =
      { s.config with concurrency } := by
  have byte : decide ((if s.config.normalize then (1 : UInt8) else 0) = 1) = s.config.normalize := by
    cases s.config.normalize <;> decide
  simp only [metadataOf_eq, metadataConfig, metadataParams, byte]

theorem readFloats_vectorBytes (s : CollectionState) : readFloats (vectorBytes s) = s.vectors.rows.flatten :=
  readFloats_wordBytes _

theorem attach_written (inv : s.RepInv) {graph : Option HnswGraph} {rows : Nat} (size : rows = s.vectors.size)
    (absent : s.backend.graph? = none → graph = none)
    (present : ∀ g, s.backend.graph? = some g → ∃ h, graph = some h ∧ SameGraph h g) :
    Outcome.Yields (attach graph rows s.config.hnsw) fun backend => SameBackend backend s.backend := by
  cases kind : s.backend with
  | flat =>
    rw [absent (by rw [kind]; rfl)]
    exact Outcome.Yields.ok True.intro
  | hnsw b =>
    obtain ⟨h, rfl, same⟩ := present b.graph (by rw [kind]; rfl)
    have fits := inv.backend
    rw [kind] at fits
    obtain ⟨_, fits⟩ := fits
    have shape : h.m = s.config.hnsw.M.toNat ∧ h.nodeCount = rows :=
      ⟨same.shape.m.trans fits.m, by rw [same.shape.nodeCount_eq, fits.nodes, size]⟩
    have created : HnswBackend.createLoaded rows s.config.hnsw h = .ok { params := s.config.hnsw, graph := h } := by
      rw [HnswBackend.createLoaded, HnswParams.validate_ok_iff.mpr fits.valid, Outcome.lift_ok, Outcome.ok_bind,
        Outcome.check, if_pos (by simpa using shape)]
      rfl
    rw [attach]
    simp only [created]
    exact Outcome.Yields.ok ⟨fits.params.symm, fits.options.symm, same⟩

theorem Located.vectors_small {file : List Byte} {sections : Sections} (located : Located file s sections) :
    (vectorBytes s).length < 2 ^ 64 := by
  have size := located.vectors.size
  have bound := sections.vectors.size.toNat_lt
  simp only at size
  omega

theorem rows_written (coupled : s.Coupled) {rows : List (List F32)}
    (read : rows = VectorStore.rowsOf s.config.dim.toNat (readFloats (vectorBytes s)) s.vectors.size) :
    rows = s.vectors.rows := by
  have cut := rowsOf_flatten (d := s.config.dim.toNat) s.vectors.rows (by
    intro row member
    rw [coupled.store.mem_rows member, coupled.dim])
  rw [VectorStore.length_rows] at cut
  rw [read, readFloats_vectorBytes, cut]

/-- What `read_index` does after METADATA. -/
def readState (simd : Result Unit) (file : List Byte) (options : ReadOptions) (p : ParsedFile)
    (sections : Sections) (m : Metadata) (kind : Metric × IndexType) : Checked CollectionState := do
  expectSizes sections m
  let vectorBytes ← sectionBytes file sections.vectors
  (if options.verify = .full then verifyCrc file sections.vectors else .ok ())
  let deleted ← readTombstones file sections.tombstones m.nodeCount.toNat m.liveCount.toNat
  let labelBytes ← sectionBytes file sections.labels
  let ids ← Outcome.lift (IdMap.restore ((readU64Array labelBytes).map UInt64.ofNat) deleted)
  let graph ← readGraph file p m
  let mapped := inPlace options sections.vectors
  let store ← readVectors vectorBytes mapped (!mapped || decide (options.verify = .full))
    m.dim.toNat m.nodeCount.toNat
  let config := metadataConfig m kind.1 kind.2 options.concurrency
  Outcome.lift simd
  let backend ← attach graph store.size config.hnsw
  return { config, creator := m.creator, createdUnixMs := m.createdUnixMs, vectors := store, ids, deleted, backend }

/-- The table and METADATA of a written file are read back. -/
theorem readIndex_metadata (simd : Result Unit) (savable : s.Savable)
    (creator : s.creator.length ≤ Format.kMaxCreatorLength)
    (resolved : options.verify ≠ .auto) : ∃ p sections, ParsedOk (fileOf (headerFlags s) (partsOf s)) p ∧
      p.header.flags = headerFlags s ∧ List.Forall₂ (Placed (fileOf (headerFlags s) (partsOf s)))
        (partsOf s) p.entries ∧
      Located (fileOf (headerFlags s) (partsOf s)) s sections ∧
      readIndex simd (fileOf (headerFlags s) (partsOf s)) options =
        (Outcome.lift (validateMetadata (IndexWriter.metadataOf s) p.header) >>=
          readState simd (fileOf (headerFlags s) (partsOf s)) options p sections (IndexWriter.metadataOf s)) := by
  have plannable := IndexWriter.partsOf_plannable savable creator
  have known := (headerFlags_bits s).2.2.2
  have bound := plannable.bound
  have parsing := plannable.parsed known
  have placed := placed_fileOf (headerFlags s) plannable.aligned (by omega)
  generalize fileOf (headerFlags s) (partsOf s) = file at parsing placed ⊢
  have decoded := decodeMetadata_metadataBytes (IndexWriter.metadataOf s) (by
    rw [metadataOf_eq]
    exact creator)
  obtain ⟨p, parses, ⟨header, entries⟩, parsed⟩ := parsing.and_sat parseHeaderAndTable_sat
  have flags : p.header.flags = headerFlags s := by
    rw [header]
    rfl
  rw [← entries] at placed
  obtain ⟨sections, finds, located⟩ := findSections_written parsed flags placed
  have checks : (if options.verify ≠ .none then verifyEntries file p.entries else .ok ()) = .ok () := by
    split
    · exact verifyEntries_placed placed
    · rfl
  refine ⟨p, sections, parsed, flags, placed, located, ?_⟩
  unfold readIndex
  rw [Outcome.check, if_pos (by simpa using resolved), Outcome.ok_bind, parses, Outcome.ok_bind, finds,
    Outcome.ok_bind, checks,
    Outcome.ok_bind, located.metadata.sectionBytes, Outcome.ok_bind, decoded, Outcome.lift_ok, Outcome.ok_bind]
  rfl

/-- Everything but the rows of a written file is read back. -/
theorem readState_written (inv : s.RepInv) {file : List Byte} {p : ParsedFile} {sections : Sections}
    (parsed : ParsedOk file p)
    (flags : p.header.flags = headerFlags s) (placed : List.Forall₂ (Placed file) (partsOf s) p.entries)
    (located : Located file s sections) : ∃ deleted graph mapped checked, (∀ i, deleted.test i = s.deleted.test i) ∧
      deleted.count = s.deleted.count ∧ (s.backend.graph? = none → graph = none) ∧
      (∀ g, s.backend.graph? = some g → ∃ h, graph = some h ∧ SameGraph h g) ∧
      readState (.ok ()) file options p sections (IndexWriter.metadataOf s) (s.config.metric, s.config.index) =
        (readVectors (vectorBytes s) mapped checked s.config.dim.toNat s.vectors.size >>= fun store =>
          attach graph store.size s.config.hnsw >>= fun backend =>
            .ok { config := { s.config with concurrency := options.concurrency }, creator := s.creator,
                  createdUnixMs := s.createdUnixMs, vectors := store, ids := s.ids, deleted, backend }) := by
  have rows := toNat_rows inv.toCoupled
  have live := toNat_live inv.toCoupled
  have full : (if options.verify = .full then verifyCrc file sections.vectors else .ok ()) = .ok () := by
    split
    · exact located.vectors.verifyCrc
    · rfl
  have counts : (IndexWriter.metadataOf s).nodeCount.toNat = s.vectors.size ∧
      (IndexWriter.metadataOf s).liveCount.toNat = s.ids.live ∧ (IndexWriter.metadataOf s).dim = s.config.dim ∧
      (IndexWriter.metadataOf s).creator = s.creator ∧
      (IndexWriter.metadataOf s).createdUnixMs = s.createdUnixMs := by
    rw [metadataOf_eq]
    exact ⟨rows, live, rfl, rfl, rfl⟩
  obtain ⟨nodeCount, liveCount, dim, creator, created⟩ := counts
  obtain ⟨deleted, readsMarks, marks, count⟩ := readTombstones_written inv.toCoupled located
  obtain ⟨graph, readsGraph, absent, present⟩ := readGraph_written inv parsed flags placed
  refine ⟨deleted, graph, inPlace options sections.vectors, !inPlace options sections.vectors ||
    decide (options.verify = .full), marks,
    count, absent, present, ?_⟩
  unfold readState
  rw [expectSizes_written inv.toCoupled located, Outcome.ok_bind, located.vectors.sectionBytes, Outcome.ok_bind,
    full, Outcome.ok_bind,
    nodeCount, liveCount, readsMarks, Outcome.ok_bind, located.labels.sectionBytes, Outcome.ok_bind]
  simp only [readLabels, inv.settled.restore marks, Outcome.lift_ok, Outcome.ok_bind, readsGraph,
    metadataConfig_written, dim, creator,
    created]
  rfl

/-- The file of a state loads, under every verification level and from the heap as in place,
to the same state. -/
theorem readIndex_written (ok : s.Persistable) (resolved : options.verify ≠ .auto) :
    Outcome.Yields (readIndex (.ok ()) (fileOf (headerFlags s) (partsOf s)) options) fun t =>
      SameState t s ∧ t.config.concurrency = options.concurrency := by
  obtain ⟨p, sections, parsed, flags, placed, located, read⟩ :=
    readIndex_metadata (.ok ()) (IndexWriter.savable ok.toRepInv) ok.creator resolved
  obtain ⟨deleted, graph, mapped, checked, marks, count, absent, present, rest⟩ :=
    readState_written ok.toRepInv parsed flags placed located
  rw [read, validateMetadata_written ok.toRepInv ok.maxLevel flags, Outcome.lift_ok, Outcome.ok_bind, rest]
  have length := length_vectorBytes ok.toCoupled
  have small := located.vectors_small
  have accepted : ∀ x ∈ readFloats (vectorBytes s), x.acceptable = true := by
    intro x member
    rw [readFloats_vectorBytes] at member
    obtain ⟨row, inRows, inRow⟩ := List.mem_flatten.mp member
    exact findInvalidComponent_eq_length.mp (ok.components row inRows) x inRow
  refine Outcome.Yields.bind
    ((readVectors_yields length small ok.dimRange.1 ok.dimRange.2 ok.rows_le accepted).and_sat
    (readVectors_sat length small ok.dimRange.1 ok.dimRange.2 ok.rows_le)) ?_
  rintro store ⟨-, read⟩
  refine Outcome.Yields.bind (attach_written ok.toRepInv read.size absent present) ?_
  intro backend same
  exact Outcome.Yields.ok ⟨⟨rfl, rows_written ok.toCoupled read.rows, rfl, marks, count, same, rfl, rfl⟩, rfl⟩

/-- Whatever the components: if the file of a state loads, it loads to the same state. -/
theorem readIndex_of_ok (inv : s.RepInv) (creator : s.creator.length ≤ Format.kMaxCreatorLength)
    (resolved : options.verify ≠ .auto)
    (run : readIndex (.ok ()) (fileOf (headerFlags s) (partsOf s)) options = .ok t) :
    s.config.hnsw.maxLevel.toNat ≤ HnswParams.kMaxLevelCap ∧ SameState t s ∧
    t.config.concurrency = options.concurrency := by
  obtain ⟨p, sections, parsed, flags, placed, located, read⟩ :=
    readIndex_metadata (.ok ()) (IndexWriter.savable inv) creator resolved
  obtain ⟨deleted, graph, mapped, checked, marks, count, absent, present, rest⟩ :=
    readState_written inv parsed flags placed located
  rw [read] at run
  have cap : s.config.hnsw.maxLevel.toNat ≤ HnswParams.kMaxLevelCap := by
    cases known : validateMetadata (IndexWriter.metadataOf s) p.header with
    | error e =>
      rw [known] at run
      cases run
    | ok kind =>
      obtain ⟨metric, index⟩ := kind
      have low := (validateMetadata_ok known).maxLevel
      rwa [metadataOf_eq] at low
  refine ⟨cap, ?_⟩
  rw [validateMetadata_written inv cap flags, Outcome.lift_ok, Outcome.ok_bind, rest] at run
  cases known : readVectors (vectorBytes s) mapped checked s.config.dim.toNat s.vectors.size with
  | error e =>
    rw [known] at run
    cases run
  | ok store =>
    have read := (readVectors_sat (length_vectorBytes inv.toCoupled) located.vectors_small
      inv.dimRange.1 inv.dimRange.2
      inv.rows_le).value known
    obtain ⟨backend, attached, same⟩ := attach_written inv read.size absent present
    rw [known, Outcome.ok_bind, attached, Outcome.ok_bind] at run
    cases run
    exact ⟨⟨rfl, rows_written inv.toCoupled read.rows, rfl, marks, count, same, rfl, rfl⟩, rfl⟩

theorem SameBackend.graph {a b : IndexBackend} (same : SameBackend a b) :
    (a.graph? = none ∧ b.graph? = none) ∨ ∃ g h, a.graph? = some g ∧ b.graph? = some h ∧ SameGraph g h := by
  cases a <;> cases b
  · exact .inl ⟨rfl, rfl⟩
  · exact same.elim
  · exact same.elim
  · exact .inr ⟨_, _, rfl, rfl, same.2.2⟩

theorem encodedSections_congr {g h : HnswGraph} (same : SameGraph g h) : encodedSections g = encodedSections h := by
  have nodes := same.shape.nodeCount_eq
  have l0 : l0Blocks g = l0Blocks h := by
    rw [l0Blocks, l0Blocks, nodes]
    refine List.map_congr_left fun i member => ?_
    rw [same.links i 0 (List.mem_range.mp member) (Nat.zero_le _), same.shape.capacity_eq]
  have upper : upperBlocks g = upperBlocks h := by
    rw [upperBlocks, upperBlocks, nodes]
    refine List.map_congr_left fun i member => ?_
    rw [nodeBlocks, nodeBlocks, same.shape.level_eq]
    congr 1
    refine List.map_congr_left fun k inLevel => ?_
    rw [same.links i (k + 1) (List.mem_range.mp member) (List.mem_range.mp inLevel), same.shape.capacity_eq]
  rw [encodedSections, encodedSections, l0, upper, same.shape.levels, same.shape.m]

theorem storedEntry_congr {g h : HnswGraph} (same : SameGraph g h) :
    storedEntry (some g) = storedEntry (some h) := by
  simp only [storedEntry, same.valid]
  split
  · next valid => rw [same.entry valid]
  · rfl

/-- The words of a tombstone set are determined by its bits. -/
theorem words_congr {a b : TombstoneSet} {rows : Nat} (left : a.Tracks rows) (right : b.Tracks rows)
    (marks : ∀ i, a.test i = b.test i) :
    a.words.take (TombstoneSet.wordsFor rows) = b.words.take (TombstoneSet.wordsFor rows) := by
  apply List.ext_getElem?
  intro k
  by_cases inside : k < TombstoneSet.wordsFor rows
  · have inA : k < a.words.length := lt_of_lt_of_le inside left.covers
    have inB : k < b.words.length := lt_of_lt_of_le inside right.covers
    rw [List.getElem?_take_of_lt inside, List.getElem?_take_of_lt inside, List.getElem?_eq_getElem inA,
      List.getElem?_eq_getElem inB]
    congr 1
    apply BitVec.eq_of_getLsbD_eq
    intro j small
    have bit := marks (64 * k + j)
    have word : (64 * k + j) / 64 = k := by omega
    have offset : (64 * k + j) % 64 = j := by omega
    simpa only [TombstoneSet.test, word, offset, List.getElem?_eq_getElem inA,
      List.getElem?_eq_getElem inB] using bit
  · rw [List.getElem?_take_eq_none (by omega), List.getElem?_take_eq_none (by omega)]

/-- A collection determines its file, whatever the memory layout of the state. -/
theorem file_congr (left : t.Coupled) (right : s.Coupled) (same : SameState t s) :
    fileOf (headerFlags t) (partsOf t) = fileOf (headerFlags s) (partsOf s) := by
  have config := same.config
  have size : t.vectors.size = s.vectors.size := by
    rw [← VectorStore.length_rows, same.rows, VectorStore.length_rows]
  have normalized : t.normalized = s.normalized := by
    rw [left.normalized, right.normalized, config]
    rfl
  have graphs := same.backend.graph
  have metadata : IndexWriter.metadataOf t = IndexWriter.metadataOf s := by
    have entry : storedEntry t.backend.graph? = storedEntry s.backend.graph? := by
      rcases graphs with ⟨one, two⟩ | ⟨g, h, one, two, sameGraph⟩
      · rw [one, two]
      · rw [one, two, storedEntry_congr sameGraph]
    rw [metadataOf_eq, metadataOf_eq, entry, size, same.ids, same.creator, same.createdUnixMs, config]
  have marks : tombstoneBytes t = tombstoneBytes s := by
    have tracks := left.tracks
    rw [size] at tracks
    rw [tombstoneBytes, tombstoneBytes, size, words_congr tracks right.tracks same.marks]
  have parts : partsOf t = partsOf s := by
    rw [partsOf, partsOf, metadata, same.ids, same.count, marks, vectorBytes, vectorBytes, same.rows]
    rcases graphs with ⟨one, two⟩ | ⟨g, h, one, two, sameGraph⟩
    · rw [one, two]
    · rw [one, two]
      simp only [graphParts, encodedSections_congr sameGraph]
  have present : t.backend.graph?.isSome = s.backend.graph?.isSome := by
    rcases graphs with ⟨one, two⟩ | ⟨g, h, one, two, _⟩ <;> rw [one, two]
    rfl
  rw [parts, headerFlags, headerFlags, present, same.count, normalized]

/-- The file of a state: the writer produces it, the reader returns the state, and writing what
was read produces the file again. -/
theorem written_read_written (options : ReadOptions) (ok : s.Persistable) (resolved : options.verify ≠ .auto) :
    ∃ file, IndexWriter.writeIndex s ({} : MemorySink) = .ok ⟨file⟩ ∧
      Outcome.Yields (readIndex (.ok ()) file options) fun t => SameState t s ∧
        t.config.concurrency = options.concurrency ∧ IndexWriter.writeIndex t ({} : MemorySink) = .ok ⟨file⟩ := by
  refine ⟨_, IndexWriter.writeIndex_partsOf (IndexWriter.savable ok.toRepInv) ok.creator, ?_⟩
  refine ((readIndex_written ok resolved).and_sat (readIndex_sat _ _ resolved)).mono ?_
  rintro t ⟨⟨same, mode⟩, loaded⟩
  refine ⟨same, mode, ?_⟩
  rw [IndexWriter.writeIndex_partsOf (IndexWriter.savable loaded.inv) (same.creator ▸ ok.creator),
    file_congr loaded.inv.toCoupled ok.toCoupled same]

end RoundTrip
end VectorForge.IndexReader
