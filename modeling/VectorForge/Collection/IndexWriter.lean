import VectorForge.Collection.State
import VectorForge.Hnsw.Io

namespace VectorForge.IndexWriter
open Format

def makeMetadata (s : CollectionState) (graph : Option HnswGraph) : Metadata :=
  let c := s.config
  let m : Metadata := {
    dim := c.dim
    metric := c.metric.toByte
    indexType := c.index.toByte
    normalize := if c.normalize then 1 else 0
    nodeCount := UInt64.ofNat s.vectors.size
    liveCount := UInt64.ofNat s.ids.size
    m := c.hnsw.M
    m0 := c.hnsw.maxLinksLevel0
    efConstruction := c.hnsw.efConstruction
    efSearch := c.hnsw.efSearch
    maxLevelCap := c.hnsw.maxLevel
    seed := c.hnsw.seed
    creator := s.creator
    createdUnixMs := s.createdUnixMs }
  match graph with
  | none => m
  | some g =>
    if g.entry.valid then
      { m with entryPoint := UInt32.ofNat g.entry.id, maxLevel := UInt8.ofNat g.entry.level }
    else m

section Plan
variable (σ : Type)

structure PlannedSection where
  type : SectionType
  size : Nat
  alignment : Nat
  write : BinaryWriter σ → BinaryWriter σ

variable {σ} [ByteSink σ]

/-- The VECTORS payload: the used rows of every chunk in turn. -/
def writeVectors (s : CollectionState) (out : BinaryWriter σ) : BinaryWriter σ :=
  (List.range s.vectors.chunkCount).foldl (fun out c =>
    out.array 4 (((s.vectors.chunkData c).take (s.vectors.rowsInChunk c * s.config.dim.toNat)).map
      (·.bits.toNat))) out

def plan (s : CollectionState) : List (PlannedSection σ) :=
  let n := s.vectors.size
  let graph := s.backend.graph?
  let meta_ := makeMetadata s graph
  let tombstoneWords := (n + 63) / 64
  [{ type := .metadata, size := metadataSize meta_, alignment := kSectionAlignment
     write := fun w => encodeMetadata w meta_ },
   { type := .labels, size := n * 8, alignment := kSectionAlignment
     write := fun w => w.array 8 (s.ids.labels.map (·.toNat)) }] ++
  (if s.deleted.count ≠ 0 then
    [{ type := .tombstones, size := tombstoneWords * 8, alignment := kSectionAlignment
       write := fun w => w.array 8 ((s.deleted.words.take tombstoneWords).map (·.toNat)) }]
   else []) ++
  (match graph with
   | none => []
   | some g =>
     [{ type := .levels, size := n, alignment := kSectionAlignment
        write := fun w => HnswIo.writeLevels w g },
      { type := .l0Links, size := n * (g.capacity 0 + 1) * 4, alignment := kSectionAlignment
        write := fun w => HnswIo.writeL0Links w g },
      { type := .upperIndex, size := n * 8, alignment := kSectionAlignment
        write := fun w => HnswIo.writeUpperIndex w g },
      { type := .upperLinks, size := HnswIo.upperLinkWords g * 4, alignment := kSectionAlignment
        write := fun w => HnswIo.writeUpperLinks w g }]) ++
  [{ type := .vectors, size := n * s.config.dim.toNat * 4, alignment := kVectorAlignment
     write := writeVectors s }]

end Plan

def aligned (value alignment : Nat) : Checked Nat :=
  match alignUp value alignment with
  | some result => .ok result
  | none => Outcome.crash (.checkFailed "write_index: layout overflow")

section Write
variable {σ : Type} [ByteSink σ]

/-- Offsets for the planned sections from `position` on, and the first free byte. -/
def layout : Nat → List (PlannedSection σ) → Checked (List SectionEntry × Nat)
  | position, [] => .ok ([], position)
  | position, p :: rest => do
    let position ← aligned position p.alignment
    let (entries, stop) ← layout (position + p.size) rest
    return ({ type := p.type.toU32, offset := UInt64.ofNat position, size := UInt64.ofNat p.size } :: entries, stop)

/-- Writes the sections to their offsets and fills in their checksums. -/
def writeSections : BinaryWriter σ → List (PlannedSection σ × SectionEntry) →
    Checked (BinaryWriter σ × List SectionEntry)
  | w, [] => .ok (w, [])
  | w, (p, e) :: rest => do
    let w := p.write (w.zeros (e.offset.toNat - w.position)).beginCrc
    match w.status with
    | some st => Outcome.fail st
    | none => do
      Outcome.check (decide (w.position = e.offset.toNat + e.size.toNat))
        "write_index: section size does not match its plan"
      let (w', entries) ← writeSections w rest
      return (w', { e with crc32c := w.crc } :: entries)

def headerFlags (s : CollectionState) : UInt64 :=
  (if s.backend.graph?.isSome then kFlagHasGraph else 0) |||
    (if s.deleted.count ≠ 0 then kFlagHasTombstones else 0) |||
    (if s.normalized then kFlagVectorsNormalized else 0)

def writeIndex (s : CollectionState) (sink : σ) : Checked σ := do
  Outcome.check (decide (s.ids.labelCount = s.vectors.size)) "write_index: labels and rows out of sync"
  let sections : List (PlannedSection σ) := plan s
  let (entries, position) ← layout kHeaderSize sections
  let tableOffset ← aligned position kSectionAlignment
  let fileSize := tableOffset + entries.length * kSectionEntrySize
  let w : BinaryWriter σ := { sink }
  let (w, entries) ← writeSections (w.zeros kHeaderSize) (sections.zip entries)
  let w := (w.zeros (tableOffset - w.position)).beginCrc
  let w := entries.foldl encodeSectionEntry w
  match w.status with
  | some st => Outcome.fail st
  | none => do
    Outcome.check (decide (w.position = fileSize)) "write_index: file size does not match its plan"
    let header : FileHeader := {
      flags := headerFlags s
      fileSize := UInt64.ofNat fileSize
      sectionTableOffset := UInt64.ofNat tableOffset
      sectionCount := UInt32.ofNat entries.length
      sectionTableCrc32c := w.crc }
    Outcome.lift (ByteSink.writeAt w.sink 0 (encodeHeader header))

end Write
end VectorForge.IndexWriter
