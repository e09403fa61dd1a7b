import VectorForge.Collection.State
import VectorForge.Hnsw.Io

namespace VectorForge.IndexReader
open Format LittleEndian

def corrupt {α : Type} (what : String) : Checked α := Outcome.fail (.corruptData what)

structure ParsedFile where
  header : FileHeader
  entries : List SectionEntry
  byType : List (Option Nat)

/-- `section_bytes`; the bounds were validated by the table parser. -/
def sectionBytes (file : List Byte) (e : SectionEntry) : Checked (List Byte) :=
  Outcome.slice file e.offset.toNat e.size.toNat

/-- The header checks in front of everything else. -/
def parseHeader (file : List Byte) : Checked FileHeader :=
  if file.length < kHeaderSize then corrupt "file is smaller than the 64-byte header"
  else do
    let head ← Outcome.slice file 0 kHeaderSize
    let magic ← Outcome.slice head 0 kMagic.length
    if magic ≠ kMagic then corrupt "not a VectorForge index (bad magic)"
    else do
      let endian ← getLe head 12 4
      if endian = kEndianTagSwapped.toNat then
        Outcome.fail (.unsupportedVersion "index file has big-endian byte order")
      else if endian ≠ kEndianTag.toNat then corrupt "header: invalid endian tag"
      else do
        let h ← decodeHeader head
        if h.formatMajor ≠ kFormatMajor then
          Outcome.fail (.unsupportedVersion ("index format major version " ++ toString h.formatMajor ++
            " (supported: " ++ toString kFormatMajor ++ ")"))
        else do
          let covered ← Outcome.slice file 0 kHeaderCrcCoverage
          if crc32c covered ≠ h.headerCrc32c then corrupt "header: checksum mismatch"
          else do
            let reserved ← headerReservedZero head
            if !reserved then corrupt "header: reserved fields are not zero"
            else if h.fileSize.toNat ≠ file.length then
              corrupt ("header: file_size " ++ toString h.fileSize ++ " but the file has " ++
                toString file.length ++
                " bytes (truncated or extended)")
            else if h.flags &&& ~~~kKnownFlags ≠ 0 then corrupt "header: unknown flags"
            else if h.sectionCount.toNat = 0 ∨ h.sectionCount.toNat > kMaxSections then
              corrupt ("header: section_count " ++ toString h.sectionCount ++ " out of range")
            else return h

/-- What the entry loop has read: the rest of the table and the entries so far. -/
structure TableState where
  reader : ByteReader
  entries : List SectionEntry := []
  byType : List (Option Nat) := List.replicate (kMaxKnownSectionType + 1) none

def parseEntry (file : List Byte) (k : Nat) (t : TableState) : Checked TableState :=
  match decodeSectionEntry t.reader with
  | none => corrupt "section table: malformed entry"
  | some (e, reservedZero, reader) =>
    if !reservedZero then corrupt "section table: malformed entry"
    else
      let outOfBounds : Checked TableState :=
        corrupt ("section table: section type " ++ toString e.type ++ " out of bounds")
      match checkedAdd 64 e.offset.toNat e.size.toNat with
      | none => outOfBounds
      | some stop =>
        if e.offset.toNat < kHeaderSize ∨ stop > file.length ∨
          e.offset.toNat % kSectionAlignment ≠ 0 then outOfBounds
        else if e.flags &&& ~~~kSectionOptional ≠ 0 then corrupt "section table: unknown section flags"
        else if e.type.toNat = 0 ∨ e.type.toNat > kMaxKnownSectionType then
          if e.flags &&& kSectionOptional = 0 then
            Outcome.fail (.unsupportedVersion ("index contains unknown required section type " ++ toString e.type))
          else return { t with reader, entries := t.entries ++ [e] }
        else do
          let slot ← Outcome.index t.byType e.type.toNat
          match slot with
          | some _ => corrupt ("section table: duplicate " ++ SectionType.nameOf e.type)
          | none => return { reader, entries := t.entries ++ [e], byType := t.byType.set e.type.toNat (some k) }

/-- `operator<` of pairs, as an order for the sort. -/
def regionLe (a b : Nat × Nat) : Bool := decide (a.1 < b.1 ∨ (a.1 = b.1 ∧ a.2 ≤ b.2))

/-- Regions in order do not overlap, and the bytes between them are zero. -/
def checkGaps (file : List Byte) : Nat → List (Nat × Nat) → Checked Nat
  | covered, [] => .ok covered
  | covered, (start, stop) :: rest =>
    if start < covered then corrupt "section table: sections overlap"
    else do
      let length ← Outcome.sub start covered
      let gap ← Outcome.slice file covered length
      if gap.any (· ≠ 0) then corrupt "padding between sections is not zero"
      else checkGaps file stop rest

/-- The region of a section; the sum was checked when the entry was parsed. -/
def regions : List SectionEntry → Checked (List (Nat × Nat))
  | [] => .ok []
  | e :: rest => do
    let stop ← Outcome.add 64 e.offset.toNat e.size.toNat
    let more ← regions rest
    return (e.offset.toNat, stop) :: more

def parseHeaderAndTable (file : List Byte) : Checked ParsedFile := do
  let h ← parseHeader file
  let tableSize ← Outcome.mul 64 h.sectionCount.toNat kSectionEntrySize
  match checkedAdd 64 h.sectionTableOffset.toNat tableSize with
  | none => corrupt "header: section table out of bounds"
  | some tableEnd =>
    if h.sectionTableOffset.toNat < kHeaderSize ∨ tableEnd > file.length ∨
        h.sectionTableOffset.toNat % kSectionAlignment ≠ 0 then
      corrupt "header: section table out of bounds"
    else do
      let table ← Outcome.slice file h.sectionTableOffset.toNat tableSize
      if crc32c table ≠ h.sectionTableCrc32c then corrupt "section table: checksum mismatch"
      else do
        let t ← Outcome.loop (parseEntry file) h.sectionCount.toNat 0 { reader := ⟨table⟩ }
        let sections ← regions t.entries
        let all := (0, kHeaderSize) :: sections ++ [(h.sectionTableOffset.toNat, tableEnd)]
        let covered ← checkGaps file 0 (all.mergeSort regionLe)
        let length ← Outcome.sub file.length covered
        let tail ← Outcome.slice file covered length
        if tail.any (· ≠ 0) then corrupt "padding after the last region is not zero"
        else return { header := h, entries := t.entries, byType := t.byType }

def find (p : ParsedFile) (type : SectionType) : Checked (Option SectionEntry) := do
  let slot ← Outcome.index p.byType type.value
  match slot with
  | none => return none
  | some k =>
    let e ← Outcome.index p.entries k
    return some e

def verifyCrc (file : List Byte) (e : SectionEntry) : Checked Unit := do
  let bytes ← sectionBytes file e
  if crc32c bytes ≠ e.crc32c then corrupt (SectionType.nameOf e.type ++ ": checksum mismatch") else return ()

/-- The checksums of everything but the vectors. -/
def verifyEntries (file : List Byte) : List SectionEntry → Checked Unit
  | [] => .ok ()
  | e :: rest =>
    if e.type ≠ SectionType.vectors.toU32 then verifyCrc file e >>= fun _ => verifyEntries file rest
    else verifyEntries file rest

/-- The parameters that METADATA stores. -/
def metadataParams (m : Metadata) : HnswParams where
  M := m.m
  efConstruction := m.efConstruction
  efSearch := m.efSearch
  maxLevel := m.maxLevelCap
  seed := m.seed

/-- The metric and index type, once every value is in range. -/
def validateMetadata (m : Metadata) (h : FileHeader) : Result (Metric × IndexType) :=
  let bad {α : Type} (what : String) : Result α := .error (.corruptData what)
  if m.dim.toNat < 1 ∨ m.dim.toNat > kMaxDim then bad ("METADATA: dim " ++ toString m.dim ++ " out of range")
  else match Metric.ofByte m.metric with
  | none => bad ("METADATA: invalid metric " ++ toString m.metric)
  | some metric =>
  match IndexType.ofByte m.indexType with
  | none => bad ("METADATA: invalid index type " ++ toString m.indexType)
  | some index =>
  if m.normalize.toNat > 1 then bad "METADATA: invalid normalize flag"
  else if m.nodeCount.toNat > kMaxVectorsPerCollection then
    bad ("METADATA: node_count " ++ toString m.nodeCount ++ " out of range")
  else if m.liveCount.toNat > m.nodeCount.toNat then bad "METADATA: live_count exceeds node_count"
  else if decide (m.normalize = 1 ∨ metric = .cosine) ≠ decide (h.flags &&& kFlagVectorsNormalized ≠ 0) then
    bad "header: VECTORS_NORMALIZED flag contradicts METADATA"
  else if decide (index = .hnsw) ≠ decide (h.flags &&& kFlagHasGraph ≠ 0) then
    bad "header: HAS_GRAPH flag contradicts the index type"
  else if m.maxLevelCap.toNat > HnswParams.kMaxLevelCap ∨ m.maxLevel.toNat > m.maxLevelCap.toNat then
    bad "METADATA: max_level out of range"
  else match index with
  | .hnsw =>
    match (metadataParams m).validate with
    | .error st => bad ("METADATA: " ++ st.message)
    | .ok () => if m.m0 ≠ 2 * m.m then bad "METADATA: M0 must equal 2 * M" else .ok (metric, index)
  | .flat =>
    if m.entryPoint ≠ kEmptySlot ∨ m.maxLevel ≠ 0 then bad "METADATA: Flat index with a graph entry point"
    else .ok (metric, index)

def expectSize (e : SectionEntry) (type : SectionType) (expected : Option Nat) : Checked Unit :=
  if expected ≠ some e.size.toNat then
    corrupt (type.name ++ ": size " ++ toString e.size ++ " does not match METADATA")
  else .ok ()

/-- The little-endian words of a byte string, `width` bytes each; a partial word is dropped. -/
def readArray (width : Nat) (bytes : List Byte) : List Nat :=
  (List.range (bytes.length / width)).map fun i => leValue ((bytes.drop (i * width)).take width)

def readU64Array (bytes : List Byte) : List Nat := readArray 8 bytes

def readFloats (bytes : List Byte) : List F32 := (readArray 4 bytes).map fun v => ⟨UInt32.ofNat v⟩

structure ReadOptions where
  verify : Verify := .full
  /-- A non-null owner allows the vectors to be served in place. -/
  owner : Bool := false
  /-- Address of the first byte of the file in memory. -/
  address : Nat := 0
  concurrency : Concurrency := .concurrent

/-- Sections that must be there and sections that must not. -/
structure Sections where
  metadata : SectionEntry
  vectors : SectionEntry
  labels : SectionEntry
  tombstones : Option SectionEntry

def checkGraphSections (p : ParsedFile) (hasGraph : Bool) : List SectionType → Checked Unit
  | [] => .ok ()
  | t :: rest => do
    let e ← find p t
    if e.isSome ≠ hasGraph then
      corrupt ("section table: " ++ t.name ++ (if hasGraph then " is missing" else " present without HAS_GRAPH"))
    else checkGraphSections p hasGraph rest

def hasGraph (h : FileHeader) : Bool := decide (h.flags &&& kFlagHasGraph ≠ 0)

def findSections (p : ParsedFile) : Checked Sections := do
  let metadata ← find p .metadata
  let vectors ← find p .vectors
  let labels ← find p .labels
  match metadata, vectors, labels with
  | some metadata, some vectors, some labels => do
    let tombstones ← find p .tombstones
    if tombstones.isSome ≠ decide (p.header.flags &&& kFlagHasTombstones ≠ 0) then
      corrupt "header: HAS_TOMBSTONES flag contradicts the section table"
    else do
      checkGraphSections p (hasGraph p.header) [.levels, .l0Links, .upperIndex, .upperLinks]
      if vectors.offset.toNat % kVectorAlignment ≠ 0 then corrupt "VECTORS: offset is not page-aligned"
      else return { metadata, vectors, labels, tombstones }
  | _, _, _ => corrupt "section table: METADATA, VECTORS and LABELS are required"

/-- The tombstones, sized for `n` rows. -/
def readTombstones (file : List Byte) (e : Option SectionEntry) (n liveCount : Nat) : Checked TombstoneSet := do
  let deleted ← (match e with
    | none => return {}
    | some e => do
      let bytes ← sectionBytes file e
      match TombstoneSet.restore ((readU64Array bytes).map (BitVec.ofNat 64)) n with
      | none => corrupt "TOMBSTONES: bits set beyond the last row"
      | some restored =>
        if restored.count = 0 then corrupt "TOMBSTONES: section present but empty" else return restored)
  let live ← Outcome.sub n deleted.count
  if live ≠ liveCount then corrupt "METADATA: live_count does not match TOMBSTONES"
  else return deleted.ensureSize n

def readGraph (file : List Byte) (p : ParsedFile) (m : Metadata) : Checked (Option HnswGraph) :=
  if !hasGraph p.header then .ok none
  else do
    let levels ← find p .levels
    let l0 ← find p .l0Links
    let index ← find p .upperIndex
    let upper ← find p .upperLinks
    match levels, l0, index, upper with
    | some levels, some l0, some index, some upper => do
      let levels ← sectionBytes file levels
      let l0Links ← sectionBytes file l0
      let upperIndex ← sectionBytes file index
      let upperLinks ← sectionBytes file upper
      let graph ← HnswIo.decode { levels, l0Links, upperIndex, upperLinks } {
        nodeCount := m.nodeCount.toNat, m := m.m.toNat, maxLevelCap := m.maxLevelCap.toNat
        entryPoint := m.entryPoint.toNat, entryLevel := m.maxLevel.toNat }
      return some graph
    | _, _, _, _ => Outcome.crash (.checkFailed "read_index: graph sections missing after validation")

/-- One row of the heap path: copy, check, append. -/
def copyRow (vectorBytes : List Byte) (dim r : Nat) (store : VectorStore) : Checked VectorStore := do
  let start ← Outcome.mul 64 r dim
  let start ← Outcome.mul 64 start 4
  let bytes ← Outcome.slice vectorBytes start (dim * 4)
  let row := readFloats bytes
  if findInvalidComponent row ≠ row.length then
    corrupt ("VECTORS: row " ++ toString r ++ " has a non-finite or out-of-range component")
  else do
    let (store, _) ← store.append row
    return store

def readVectors (vectorBytes : List Byte) (inPlace checkValues : Bool) (dim n : Nat) : Checked VectorStore :=
  if inPlace then
    let floats := readFloats vectorBytes
    if checkValues && decide (findInvalidComponent floats ≠ vectorBytes.length / 4) then
      corrupt "VECTORS: non-finite or out-of-range component"
    else VectorStore.createMapped { dim } floats n
  else do
    let store ← Outcome.lift (VectorStore.create { dim })
    let store ← Outcome.lift (store.reserve n)
    Outcome.loop (copyRow vectorBytes dim) n 0 store

/-- The sizes METADATA implies for the plain sections. -/
def expectSizes (sections : Sections) (m : Metadata) : Checked Unit := do
  let n := m.nodeCount.toNat
  expectSize sections.vectors .vectors (checkedMul3 64 n m.dim.toNat 4)
  expectSize sections.labels .labels (checkedMul 64 n 8)
  match sections.tombstones with
  | some e => expectSize e .tombstones (some ((n + 63) / 64 * 8))
  | none => return ()

/-- The backend of the loaded collection. -/
def attach (graph : Option HnswGraph) (rows : Nat) (params : HnswParams) : Checked IndexBackend :=
  match graph with
  | none => .ok .flat
  | some g =>
    match HnswBackend.createLoaded rows params g with
    | .ok b => .ok (.hnsw b)
    | .error (.error st) => corrupt ("METADATA: " ++ st.message)
    | .error (.fault f) => Outcome.crash f

def metadataConfig (m : Metadata) (metric : Metric) (index : IndexType) (concurrency : Concurrency) :
    CollectionConfig where
  dim := m.dim
  metric := metric
  normalize := decide (m.normalize = 1)
  index := index
  hnsw := metadataParams m
  concurrency := concurrency

/-- Whether the vectors of `e` can be served from the file itself. -/
def inPlace (options : ReadOptions) (e : SectionEntry) : Bool :=
  options.owner && decide ((options.address + e.offset.toNat) % 4 = 0)

/-- `read_index`; `simd` is the status of the run-time kernel selection. -/
def readIndex (simd : Result Unit) (file : List Byte) (options : ReadOptions) : Checked CollectionState := do
  Outcome.check (decide (options.verify ≠ .auto)) "read_index: Verify::Auto must be resolved by caller"
  let p ← parseHeaderAndTable file
  let sections ← findSections p
  (if options.verify ≠ .none then verifyEntries file p.entries else .ok ())
  let metaBytes ← sectionBytes file sections.metadata
  let m ← Outcome.lift (decodeMetadata metaBytes)
  let (metric, index) ← Outcome.lift (validateMetadata m p.header)
  expectSizes sections m
  let vectorBytes ← sectionBytes file sections.vectors
  (if options.verify = .full then verifyCrc file sections.vectors else .ok ())
  let n := m.nodeCount.toNat
  let deleted ← readTombstones file sections.tombstones n m.liveCount.toNat
  let labelBytes ← sectionBytes file sections.labels
  let ids ← Outcome.lift (IdMap.restore ((readU64Array labelBytes).map UInt64.ofNat) deleted)
  let graph ← readGraph file p m
  let mapped := inPlace options sections.vectors
  let store ← readVectors vectorBytes mapped (!mapped || decide (options.verify = .full)) m.dim.toNat n
  let config := metadataConfig m metric index options.concurrency
  Outcome.lift simd
  let backend ← attach graph store.size config.hnsw
  return { config, creator := m.creator, createdUnixMs := m.createdUnixMs, vectors := store, ids, deleted, backend }

/-- The METADATA record of a file whose table is sound. -/
def metadataOf (file : List Byte) : Checked Metadata := do
  let p ← parseHeaderAndTable file
  let sections ← findSections p
  let metaBytes ← sectionBytes file sections.metadata
  Outcome.lift (decodeMetadata metaBytes)

end VectorForge.IndexReader
