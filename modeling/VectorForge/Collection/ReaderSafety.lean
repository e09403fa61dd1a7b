import VectorForge.Collection.TableSafety
import VectorForge.Hnsw.IoSafety

namespace VectorForge.IndexReader
open Format LittleEndian

variable {file : List Byte}

section Arrays

@[simp] theorem length_readArray {width : Nat} {bytes : List Byte} :
    (readArray width bytes).length = bytes.length / width := by
  simp [readArray]

/-- Part of the words is the words of part of the bytes. -/
theorem readArray_slice {width a b : Nat} {bytes : List Byte} (positive : 0 < width)
    (fits : (a + b) * width ≤ bytes.length) :
    ((readArray width bytes).drop a).take b = readArray width ((bytes.drop (a * width)).take (b * width)) := by
  have total : a + b ≤ bytes.length / width := (Nat.le_div_iff_mul_le positive).mpr fits
  rw [Nat.add_mul] at fits
  have partLength : ((bytes.drop (a * width)).take (b * width)).length / width = b := by
    rw [List.length_take, List.length_drop, min_eq_left (by omega), Nat.mul_div_cancel _ positive]
  apply List.ext_getElem?
  intro i
  by_cases inside : i < b
  · rw [List.getElem?_take_of_lt inside, List.getElem?_drop, readArray, readArray,
      List.getElem?_map, List.getElem?_map,
      List.getElem?_range (by omega), List.getElem?_range (by omega)]
    simp only [Option.map_some]
    congr 2
    have block : i * width + width ≤ b * width := by
      have step := Nat.mul_le_mul_right width (Nat.succ_le_of_lt inside)
      rwa [Nat.succ_mul] at step
    rw [List.drop_take, List.take_take, List.drop_drop, Nat.add_mul, min_eq_left (by omega)]
  · rw [List.getElem?_eq_none (by rw [List.length_take]; omega), List.getElem?_eq_none]
    rw [length_readArray, partLength]
    omega

theorem readFloats_slice {a b : Nat} (bytes : List Byte) (fits : (a + b) * 4 ≤ bytes.length) :
    readFloats ((bytes.drop (a * 4)).take (b * 4)) = ((readFloats bytes).drop a).take b := by
  rw [readFloats, ← readArray_slice (by decide) fits, List.map_take, List.map_drop]
  rfl

@[simp] theorem length_readFloats {bytes : List Byte} : (readFloats bytes).length = bytes.length / 4 := by
  simp [readFloats]

end Arrays

section Parts

theorem verifyCrc_sat {e : SectionEntry} (ok : EntryOk file e) : Outcome.Sat (verifyCrc file e) fun _ => True := by
  rw [verifyCrc, sectionBytes, Outcome.slice_ok ok.inside, Outcome.ok_bind]
  split <;> exact True.intro

theorem verifyEntries_sat : ∀ {entries : List SectionEntry}, (∀ e ∈ entries, EntryOk file e) →
    Outcome.Sat (verifyEntries file entries) fun _ => True
  | [], _ => True.intro
  | e :: rest, each => by
    have later := verifyEntries_sat fun x h => each x (List.mem_cons_of_mem e h)
    rw [verifyEntries]
    split
    · exact Outcome.Sat.bind (verifyCrc_sat (each e (List.mem_cons_self ..))) fun _ _ _ => later
    · exact later

/-- The sections of an accepted table, and what their presence says. -/
structure SectionsOk (p : ParsedFile) (sections : Sections) : Prop where
  metadata : (p.entries.find? fun e => decide (e.type = SectionType.metadata.toU32)) = some sections.metadata
  vectors : (p.entries.find? fun e => decide (e.type = SectionType.vectors.toU32)) = some sections.vectors
  labels : (p.entries.find? fun e => decide (e.type = SectionType.labels.toU32)) = some sections.labels
  tombstones : (p.entries.find? fun e => decide (e.type = SectionType.tombstones.toU32)) = sections.tombstones
  graph : ∀ t ∈ [SectionType.levels, .l0Links, .upperIndex, .upperLinks],
    (p.entries.find? fun e => decide (e.type = t.toU32)).isSome = hasGraph p.header
  aligned : sections.vectors.offset.toNat % kVectorAlignment = 0

theorem checkGraphSections_sat {p : ParsedFile} (ok : ParsedOk file p) {present : Bool} :
    ∀ types : List SectionType, Outcome.Sat (checkGraphSections p present types) fun _ =>
      ∀ t ∈ types, (p.entries.find? fun e => decide (e.type = t.toU32)).isSome = present
  | [] => by
    rw [checkGraphSections, Outcome.Sat.ok_iff]
    intro t member
    cases member
  | t :: rest => by
    rw [checkGraphSections, ok.find_eq, Outcome.ok_bind]
    split
    · exact True.intro
    next same =>
    refine (checkGraphSections_sat ok rest).mono ?_
    intro _ later u member
    rcases List.mem_cons.mp member with rfl | old
    · simpa using same
    · exact later u old

theorem findSections_sat {p : ParsedFile} (ok : ParsedOk file p) :
    Outcome.Sat (findSections p) (SectionsOk p) := by
  unfold findSections
  simp only [ok.find_eq, Outcome.ok_bind]
  split
  · next metadata vectors labels atMetadata atVectors atLabels =>
    split
    · exact True.intro
    refine Outcome.Sat.bind (checkGraphSections_sat ok _) ?_
    intro _ _ graph
    split
    · exact True.intro
    · next aligned => exact ⟨atMetadata, atVectors, atLabels, rfl, graph, by simpa using aligned⟩
  · exact True.intro

/-- What `validate_metadata` establishes. -/
structure MetadataOk (m : Metadata) (h : FileHeader) (metric : Metric) (index : IndexType) : Prop where
  dimLow : 1 ≤ m.dim.toNat
  dimHigh : m.dim.toNat ≤ kMaxDim
  rows : m.nodeCount.toNat ≤ kMaxVectorsPerCollection
  live : m.liveCount.toNat ≤ m.nodeCount.toNat
  graph : hasGraph h = decide (index = .hnsw)
  maxLevel : m.maxLevelCap.toNat ≤ HnswParams.kMaxLevelCap
  params : index = .hnsw → (metadataParams m).Valid

theorem validateMetadata_ok {m : Metadata} {h : FileHeader} {metric : Metric} {index : IndexType}
    (run : validateMetadata m h = .ok (metric, index)) : MetadataOk m h metric index := by
  unfold validateMetadata at run
  simp only at run
  split at run
  · cases run
  next dim =>
  split at run
  · cases run
  split at run
  · cases run
  next indexType _ =>
  split at run
  · cases run
  split at run
  · cases run
  next rows =>
  split at run
  · cases run
  next live =>
  split at run
  · cases run
  split at run
  · cases run
  next graph =>
  split at run
  · cases run
  next cap =>
  rw [not_or] at cap
  cases indexType with
  | flat =>
    simp only at run
    split at run
    · cases run
    · cases run
      refine ⟨by omega, by omega, by omega, by omega, ?_, by omega, ?_⟩
      · simp only [ne_eq, Decidable.not_not] at graph
        exact graph.symm
      · intro wrong
        cases wrong
  | hnsw =>
    simp only at run
    split at run
    · cases run
    next valid =>
    split at run
    · cases run
    · cases run
      refine ⟨by omega, by omega, by omega, by omega, ?_, by omega, fun _ => HnswParams.validate_ok_iff.mp valid⟩
      simp only [ne_eq, Decidable.not_not] at graph
      exact graph.symm

theorem expectSize_sat {e : SectionEntry} {t : SectionType} (expected : Option Nat) :
    Outcome.Sat (expectSize e t expected) fun _ => expected = some e.size.toNat := by
  unfold expectSize
  split
  · exact True.intro
  · next same => simpa using same

/-- The sizes of the plain sections after the checks. -/
structure SizesOk (sections : Sections) (m : Metadata) : Prop where
  vectors : sections.vectors.size.toNat = m.nodeCount.toNat * m.dim.toNat * 4
  labels : sections.labels.size.toNat = m.nodeCount.toNat * 8

theorem expectSizes_sat {sections : Sections} {m : Metadata} :
    Outcome.Sat (expectSizes sections m) fun _ => SizesOk sections m := by
  unfold expectSizes
  simp only
  refine Outcome.Sat.bind (expectSize_sat _) ?_
  intro _ _ vectors
  refine Outcome.Sat.bind (expectSize_sat _) ?_
  intro _ _ labels
  have sizes : SizesOk sections m := by
    obtain ⟨product, first, second⟩ := Option.bind_eq_some_iff.mp vectors
    obtain ⟨_, rfl⟩ := checkedMul_eq_some.mp first
    exact ⟨(checkedMul_eq_some.mp second).2, (checkedMul_eq_some.mp labels).2⟩
  split
  · exact (expectSize_sat _).mono fun _ _ => sizes
  · exact sizes

/-- The tombstones that are read track the rows and leave `liveCount` of them. -/
theorem readTombstones_sat {e : Option SectionEntry} {n liveCount : Nat} (ok : ∀ x, e = some x → EntryOk file x) :
    Outcome.Sat (readTombstones file e n liveCount) fun deleted =>
      deleted.Tracks n ∧ n - deleted.count = liveCount := by
  unfold readTombstones
  refine Outcome.Sat.bind (?first : Outcome.Sat _ fun deleted : TombstoneSet => (deleted.ensureSize n).Tracks n) ?_
  case first =>
    split
    · exact TombstoneSet.Tracks.empty n
    · next x =>
      rw [sectionBytes, Outcome.slice_ok (ok x rfl).inside, Outcome.ok_bind]
      split
      · exact True.intro
      next restored run =>
      split
      · exact True.intro
      · exact (TombstoneSet.restore_tracks run).2.ensureSize n
  intro deleted _ tracks
  have bound : deleted.count ≤ n := tracks.count_le
  rw [Outcome.sub_ok bound, Outcome.ok_bind]
  split
  · exact True.intro
  · next live => exact ⟨tracks, by simpa using live⟩

/-- A decoded graph for exactly the rows, whenever the header announces one. -/
theorem readGraph_sat {p : ParsedFile} {sections : Sections} {m : Metadata} (ok : ParsedOk file p)
    (found : SectionsOk p sections) (rows : m.nodeCount.toNat ≤ kMaxVectorsPerCollection) :
    Outcome.Sat (readGraph file p m) fun graph => graph.isSome = hasGraph p.header ∧
      ∀ g, graph = some g → g.m = m.m.toNat ∧ g.maxLevel = m.maxLevelCap.toNat ∧
        g.nodeCount = m.nodeCount.toNat ∧ g.Laid ∧ HnswValidator.Invariants g := by
  unfold readGraph
  cases present : hasGraph p.header with
  | false =>
    rw [if_pos (by rfl), Outcome.Sat.ok_iff]
    exact ⟨rfl, fun g none => by cases none⟩
  | true =>
    have each := found.graph
    rw [present] at each
    obtain ⟨levels, atLevels⟩ := Option.isSome_iff_exists.mp (each .levels (by simp))
    obtain ⟨l0, atL0⟩ := Option.isSome_iff_exists.mp (each .l0Links (by simp))
    obtain ⟨index, atIndex⟩ := Option.isSome_iff_exists.mp (each .upperIndex (by simp))
    obtain ⟨upper, atUpper⟩ := Option.isSome_iff_exists.mp (each .upperLinks (by simp))
    rw [if_neg (by simp)]
    simp only [ok.find_eq, Outcome.ok_bind, atLevels, atL0, atIndex, atUpper, (ok.found_ok atLevels).2.1,
      (ok.found_ok atL0).2.1, (ok.found_ok atIndex).2.1, (ok.found_ok atUpper).2.1]
    refine Outcome.Sat.bind (HnswIo.decode_sat rows) ?_
    intro g _ decoded
    refine ⟨rfl, ?_⟩
    intro h same
    cases same
    exact ⟨decoded.m, decoded.maxLevel, decoded.nodeCount, decoded.laid, decoded.invariants⟩

/-- What the reader knows about the rows it made of `vectorBytes`. -/
structure RowsOk (vectorBytes : List Byte) (checked : Bool) (d n : Nat) (store : VectorStore) : Prop where
  wf : store.Wf
  size : store.size = n
  dim : store.dim = d
  limit : store.maxRows = kMaxVectorsPerCollection
  rows : store.rows = VectorStore.rowsOf d (readFloats vectorBytes) n
  components : checked = true → ∀ row ∈ store.rows, findInvalidComponent row = row.length

theorem copyRow_sat {vectorBytes : List Byte} {dim n r : Nat} {store : VectorStore}
    (length : vectorBytes.length = n * dim * 4) (small : vectorBytes.length < 2 ^ 64) (inside : r < n)
    (limit : n ≤ kMaxVectorsPerCollection) (before : RowsOk vectorBytes true dim r store) :
    Outcome.Sat (copyRow vectorBytes dim r store) (RowsOk vectorBytes true dim (r + 1)) := by
  have block : r * dim + dim ≤ n * dim := by
    have step := Nat.mul_le_mul_right dim (Nat.succ_le_of_lt inside)
    rwa [Nat.succ_mul] at step
  have floats := readFloats_slice (a := r * dim) (b := dim) vectorBytes (by omega)
  unfold copyRow
  rw [Outcome.mul_ok (by omega), Outcome.ok_bind, Outcome.mul_ok (by omega), Outcome.ok_bind,
    Outcome.slice_ok (by omega), Outcome.ok_bind]
  simp only [floats]
  split
  · exact True.intro
  next valid =>
  have rowLength : (((readFloats vectorBytes).drop (r * dim)).take dim).length = dim := by
    rw [List.length_take, List.length_drop, length_readFloats]
    omega
  obtain ⟨t, run, wf, rows, size, dimT, maxT, _⟩ := before.wf.append (rowLength.trans before.dim.symm)
    (by rw [before.size, before.limit]; omega)
  rw [run, Outcome.ok_bind]
  have grown : t.rows = VectorStore.rowsOf dim (readFloats vectorBytes) (r + 1) := by
    rw [rows, before.rows, VectorStore.rowsOf, VectorStore.rowsOf, List.range_succ, List.map_append,
      List.map_singleton]
  refine ⟨wf, by rw [size, before.size], dimT.trans before.dim, maxT.trans before.limit, grown, ?_⟩
  intro _ row member
  rw [rows] at member
  rcases List.mem_append.mp member with old | new
  · exact before.components rfl row old
  · rw [List.mem_singleton.mp new]
    simpa using valid

/-- An empty store with memory for `n` rows. -/
theorem reserved_rowsOk {vectorBytes : List Byte} {dim n : Nat} {empty : VectorStore} (wf : empty.Wf)
    (dimEmpty : empty.dim = dim) (sizeEmpty : empty.size = 0) (maxRows : empty.maxRows = kMaxVectorsPerCollection) :
    RowsOk vectorBytes true dim 0 (VectorStore.reserveLoop n n empty) := by
  obtain ⟨wfR, rowsR, _, dimR, limitR, _⟩ := VectorStore.Wf.reserveLoop n n wf (Nat.le_add_left n _)
  have none : (VectorStore.reserveLoop n n empty).rows = [] := by
    rw [rowsR, VectorStore.rows, sizeEmpty]
    rfl
  refine ⟨wfR, ?_, dimR.trans dimEmpty, limitR.trans maxRows, none, ?_⟩
  · rw [← VectorStore.length_rows, none]
    rfl
  · intro _ row member
    rw [none] at member
    cases member

theorem readVectors_sat {vectorBytes : List Byte} {mapped checked : Bool} {dim n : Nat}
    (length : vectorBytes.length = n * dim * 4) (small : vectorBytes.length < 2 ^ 64) (dimLow : 1 ≤ dim)
    (dimHigh : dim ≤ kMaxDim) (limit : n ≤ kMaxVectorsPerCollection) :
    Outcome.Sat (readVectors vectorBytes mapped checked dim n) (RowsOk vectorBytes (checked || !mapped) dim n) := by
  obtain ⟨empty, created⟩ := VectorStore.create_default dimLow dimHigh
  obtain ⟨wf, shape⟩ := VectorStore.create_spec created
  unfold readVectors
  cases mapped with
  | true =>
    rw [if_pos rfl]
    simp only
    split
    · exact True.intro
    next valid =>
    have long : n * dim ≤ (readFloats vectorBytes).length := by
      rw [length_readFloats, length]
      omega
    obtain ⟨t, run, wfT, rows, size, dimT, maxT⟩ := VectorStore.createMapped_spec created limit long
    rw [run, Outcome.Sat.ok_iff]
    refine ⟨wfT, size, dimT, maxT, rows, ?_⟩
    intro check row member
    have all : findInvalidComponent (readFloats vectorBytes) = (readFloats vectorBytes).length := by
      rw [length_readFloats]
      simpa [show checked = true by simpa using check] using valid
    rw [findInvalidComponent_eq_length] at all ⊢
    intro x inRow
    rw [rows, VectorStore.rowsOf] at member
    obtain ⟨i, _, rfl⟩ := List.mem_map.mp member
    exact all x (List.mem_of_mem_drop (List.mem_of_mem_take inRow))
  | false =>
    rw [if_neg (by simp), created, Outcome.lift_ok, Outcome.ok_bind]
    have maxRows : empty.maxRows = kMaxVectorsPerCollection := congrArg VectorStore.maxRows shape
    have dimEmpty : empty.dim = dim := congrArg VectorStore.dim shape
    have sizeEmpty : empty.size = 0 := congrArg VectorStore.size shape
    rw [VectorStore.reserve, if_neg (by omega), Outcome.lift_ok, Outcome.ok_bind]
    have start : RowsOk vectorBytes true dim 0 (VectorStore.reserveLoop n n empty) :=
      reserved_rowsOk wf dimEmpty sizeEmpty maxRows
    have run := Outcome.Sat.loop (RowsOk vectorBytes true dim) (f := copyRow vectorBytes dim) (n := n)
      start (fun r store _ high holds => copyRow_sat length small (by omega) limit holds)
    rw [Nat.zero_add] at run
    exact run.mono fun store done =>
      ⟨done.wf, done.size, done.dim, done.limit, done.rows, fun _ => done.components rfl⟩

end Parts

/-- A loaded collection: the representation invariant, the counts of METADATA, and valid
components wherever the reader looks at them. -/
structure Loaded (file : List Byte) (options : ReadOptions) (s : CollectionState) : Prop where
  inv : s.RepInv
  counts : ∃ m, metadataOf file = .ok m ∧ m.nodeCount.toNat = s.vectors.size ∧ m.liveCount.toNat = s.ids.live ∧
    m.nodeCount.toNat - s.deleted.count = m.liveCount.toNat
  components : options.owner = false ∨ options.address % 4 ≠ 0 ∨ options.verify = .full → s.ComponentsOk
  maxLevel : s.config.hnsw.maxLevel.toNat ≤ HnswParams.kMaxLevelCap
  creator : s.creator.length ≤ kMaxCreatorLength

/-- The reader on any bytes: no access outside the file, no wrapped size, no failed check;
and if it returns a state, a state with the whole representation invariant. -/
theorem readIndex_sat (simd : Result Unit) (file : List Byte) {options : ReadOptions}
    (resolved : options.verify ≠ .auto) : Outcome.Sat (readIndex simd file options) (Loaded file options) := by
  unfold readIndex
  refine Outcome.Sat.bind (Outcome.Sat.check (by simpa using resolved)) ?_
  intro _ _ _
  refine Outcome.Sat.bind parseHeaderAndTable_sat ?_
  intro p parsed ok
  refine Outcome.Sat.bind (findSections_sat ok) ?_
  intro sections located found
  have checks : Outcome.Sat (if options.verify ≠ .none then verifyEntries file p.entries else .ok ())
      fun _ => True := by
    split
    · exact verifyEntries_sat ok.table.sections
    · exact True.intro
  refine Outcome.Sat.bind checks ?_
  intro _ _ _
  obtain ⟨_, metaBytes, _⟩ := ok.found_ok found.metadata
  obtain ⟨vectorsIn, vectorBytes, vectorLength⟩ := ok.found_ok found.vectors
  obtain ⟨_, labelBytes, labelLength⟩ := ok.found_ok found.labels
  rw [metaBytes, Outcome.ok_bind]
  refine Outcome.Sat.bind (Outcome.Sat.lift _) ?_
  intro m _ decoded
  refine Outcome.Sat.bind (Outcome.Sat.lift _) ?_
  rintro ⟨metric, index⟩ - validated
  have valid := validateMetadata_ok validated
  refine Outcome.Sat.bind expectSizes_sat ?_
  intro _ _ sizes
  rw [vectorBytes, Outcome.ok_bind]
  have full : Outcome.Sat (if options.verify = .full then verifyCrc file sections.vectors else .ok ())
      fun _ => True := by
    split
    · exact verifyCrc_sat vectorsIn
    · exact True.intro
  refine Outcome.Sat.bind full ?_
  intro _ _ _
  simp only
  refine Outcome.Sat.bind (readTombstones_sat fun x some =>
    (ok.found_ok (t := .tombstones) (found.tombstones.trans some)).1) ?_
  rintro deleted - ⟨tracks, live⟩
  rw [labelBytes, Outcome.ok_bind]
  refine Outcome.Sat.bind (Outcome.Sat.lift _) ?_
  intro ids _ restored
  obtain ⟨labels, settled⟩ := IdMap.restore_settled restored
  have labelCount : ids.labels.length = m.nodeCount.toNat := by
    rw [labels, List.length_map, readU64Array, length_readArray, labelLength, sizes.labels,
      Nat.mul_div_cancel _ (by decide)]
  refine Outcome.Sat.bind (readGraph_sat ok found valid.rows) ?_
  rintro graph - ⟨present, isGraph⟩
  have vectorSmall : ((file.drop sections.vectors.offset.toNat).take sections.vectors.size.toNat).length < 2 ^
      64 := by
    rw [vectorLength]
    exact sections.vectors.size.toNat_lt
  refine Outcome.Sat.bind (readVectors_sat (vectorLength.trans sizes.vectors) vectorSmall valid.dimLow
    valid.dimHigh valid.rows) ?_
  intro store _ rows
  refine Outcome.Sat.bind (Outcome.Sat.lift _) ?_
  intro _ _ _
  have attached : Outcome.Sat (attach graph store.size (metadataConfig m metric index options.concurrency).hnsw)
      fun backend => backend.Fits (metadataConfig m metric index options.concurrency) store.size ∧
        ∀ b, backend = .hnsw b → HnswValidator.checkInvariants b.graph = .ok () := by
    rw [valid.graph] at present
    cases graph with
    | none =>
      rw [attach, Outcome.Sat.ok_iff]
      refine ⟨?_, fun b wrong => by cases wrong⟩
      have notHnsw : index ≠ .hnsw := by simpa using present
      cases index
      · rfl
      · exact absurd rfl notHnsw
    | some g =>
      have isHnsw : index = .hnsw := by simpa using present
      obtain ⟨gm, gmax, gcount, laid, inv⟩ := isGraph g rfl
      have params := valid.params isHnsw
      have created : HnswBackend.createLoaded store.size (metadataParams m) g =
          .ok { params := metadataParams m, graph := g } := by
        rw [HnswBackend.createLoaded, HnswParams.validate_ok_iff.mpr params, Outcome.lift_ok, Outcome.ok_bind,
          Outcome.check, if_pos (by simp only [decide_eq_true_eq]; exact ⟨gm, gcount.trans rows.size.symm⟩)]
        rfl
      have run : attach (some g) store.size (metadataConfig m metric index options.concurrency).hnsw =
          .ok (.hnsw { params := metadataParams m, graph := g }) := by
        rw [attach]
        simp only [metadataConfig, created]
      rw [run, Outcome.Sat.ok_iff]
      refine ⟨⟨isHnsw, rfl, params, rfl, gm, gmax, gcount.trans rows.size.symm, laid⟩, ?_⟩
      intro b same
      cases same
      exact HnswValidator.checkInvariants_ok_iff.mpr inv
  refine Outcome.Sat.bind attached ?_
  rintro backend - ⟨fits, graphOk⟩
  rw [Outcome.pure_eq_ok, Outcome.Sat.ok_iff]
  have coupled : CollectionState.Coupled
      { config := metadataConfig m metric index options.concurrency, creator := m.creator,
        createdUnixMs := m.createdUnixMs, vectors := store, ids, deleted, backend } :=
    ⟨rows.wf, rows.dim, rows.limit, ⟨valid.dimLow, valid.dimHigh⟩, rfl, labelCount.trans rows.size.symm, settled,
      by rw [rows.size]; exact tracks, fits⟩
  refine ⟨⟨coupled, graphOk⟩, ?_, ?_, valid.maxLevel, decodeMetadata_creator decoded⟩
  · have total := coupled.live_add_count
    simp only [rows.size] at total
    refine ⟨m, ?_, rows.size.symm, by simp only; omega, live⟩
    rw [metadataOf, parsed, Outcome.ok_bind, located, Outcome.ok_bind, metaBytes, Outcome.ok_bind, decoded,
      Outcome.lift_ok]
  · intro looked
    apply rows.components
    rcases looked with heap | odd | whole
    · simp [inPlace, heap]
    · have shifted : ¬(options.address + sections.vectors.offset.toNat) % 4 = 0 := by
        have page := found.aligned
        simp only [kVectorAlignment] at page
        omega
      simp [inPlace, shifted]
    · simp [whole]

end VectorForge.IndexReader
