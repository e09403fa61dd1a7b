import VectorForge.Storage.BinaryIo

namespace VectorForge.Format
open LittleEndian

def kMagic : List Byte := [0x56, 0x46, 0x49, 0x44, 0x58, 0x0D, 0x0A, 0x1A]
def kFormatMajor : UInt16 := 1
def kFormatMinor : UInt16 := 0
def kEndianTag : UInt32 := 0x01020304
def kEndianTagSwapped : UInt32 := 0x04030201
def kHeaderSize : Nat := 64
def kHeaderCrcCoverage : Nat := 56
def kSectionEntrySize : Nat := 32
def kMaxSections : Nat := 64
def kSectionAlignment : Nat := 8
def kVectorAlignment : Nat := 4096
def kMaxCreatorLength : Nat := 256
def kEmptySlot : UInt32 := 0xFFFFFFFF
def kNoUpperBlock : UInt64 := 0xFFFFFFFFFFFFFFFF

def kFlagHasGraph : UInt64 := 1
def kFlagHasTombstones : UInt64 := 2
def kFlagVectorsNormalized : UInt64 := 4
def kKnownFlags : UInt64 := kFlagHasGraph ||| kFlagHasTombstones ||| kFlagVectorsNormalized
def kSectionOptional : UInt32 := 1

inductive SectionType where
  | metadata | vectors | labels | tombstones | levels | l0Links | upperIndex | upperLinks
  deriving DecidableEq, Repr

def kMaxKnownSectionType : Nat := 8

namespace SectionType

def value : SectionType → Nat
  | metadata => 1 | vectors => 2 | labels => 3 | tombstones => 4
  | levels => 5 | l0Links => 6 | upperIndex => 7 | upperLinks => 8

def toU32 (t : SectionType) : UInt32 := UInt32.ofNat t.value

def name : SectionType → String
  | metadata => "METADATA" | vectors => "VECTORS" | labels => "LABELS" | tombstones => "TOMBSTONES"
  | levels => "LEVELS" | l0Links => "L0_LINKS" | upperIndex => "UPPER_INDEX" | upperLinks => "UPPER_LINKS"

def known : Nat → Option SectionType
  | 1 => some metadata | 2 => some vectors | 3 => some labels | 4 => some tombstones
  | 5 => some levels | 6 => some l0Links | 7 => some upperIndex | 8 => some upperLinks
  | _ => none

/-- `to_string(static_cast<SectionType>(type))`. -/
def nameOf (type : UInt32) : String :=
  match known type.toNat with
  | some t => t.name
  | none => "UNKNOWN"

end SectionType

structure FileHeader where
  formatMajor : UInt16 := kFormatMajor
  formatMinor : UInt16 := kFormatMinor
  flags : UInt64 := 0
  fileSize : UInt64 := 0
  sectionTableOffset : UInt64 := 0
  sectionCount : UInt32 := 0
  sectionTableCrc32c : UInt32 := 0
  headerCrc32c : UInt32 := 0
  deriving DecidableEq, Repr

structure SectionEntry where
  type : UInt32 := 0
  flags : UInt32 := 0
  offset : UInt64 := 0
  size : UInt64 := 0
  crc32c : UInt32 := 0
  deriving DecidableEq, Repr

structure Metadata where
  dim : UInt32 := 0
  metric : UInt8 := 0
  indexType : UInt8 := 0
  normalize : UInt8 := 0
  nodeCount : UInt64 := 0
  liveCount : UInt64 := 0
  m : UInt32 := 0
  m0 : UInt32 := 0
  efConstruction : UInt32 := 0
  efSearch : UInt32 := 0
  maxLevelCap : UInt8 := 0
  maxLevel : UInt8 := 0
  entryPoint : UInt32 := kEmptySlot
  seed : UInt64 := 0
  creator : List Byte := []
  createdUnixMs : UInt64 := 0
  deriving DecidableEq, Repr

/-- Header bytes [0, 56), the part its own checksum covers. -/
def headerFields (h : FileHeader) : List Byte :=
  kMagic ++ leBytes 2 h.formatMajor.toNat ++ leBytes 2 h.formatMinor.toNat ++
    leBytes 4 kEndianTag.toNat ++ leBytes 8 h.flags.toNat ++ leBytes 8 h.fileSize.toNat ++
    leBytes 8 h.sectionTableOffset.toNat ++ leBytes 4 h.sectionCount.toNat ++
    leBytes 4 h.sectionTableCrc32c.toNat ++ leBytes 8 0

/-- Exactly `kHeaderSize` bytes; the stored checksum is computed from the other fields. -/
def encodeHeader (h : FileHeader) : List Byte :=
  headerFields h ++ leBytes 4 (crc32c (headerFields h)).toNat ++ leBytes 4 0

/-- `get_le`: `width` bytes at a fixed offset. -/
def getLe (bytes : List Byte) (offset width : Nat) : Checked Nat := do
  let field ← Outcome.slice bytes offset width
  return leValue field

/-- The fixed fields, not validated. -/
def decodeHeader (bytes : List Byte) : Checked FileHeader := do
  let formatMajor ← getLe bytes 8 2
  let formatMinor ← getLe bytes 10 2
  let flags ← getLe bytes 16 8
  let fileSize ← getLe bytes 24 8
  let sectionTableOffset ← getLe bytes 32 8
  let sectionCount ← getLe bytes 40 4
  let sectionTableCrc32c ← getLe bytes 44 4
  let headerCrc32c ← getLe bytes 56 4
  return {
    formatMajor := UInt16.ofNat formatMajor
    formatMinor := UInt16.ofNat formatMinor
    flags := UInt64.ofNat flags
    fileSize := UInt64.ofNat fileSize
    sectionTableOffset := UInt64.ofNat sectionTableOffset
    sectionCount := UInt32.ofNat sectionCount
    sectionTableCrc32c := UInt32.ofNat sectionTableCrc32c
    headerCrc32c := UInt32.ofNat headerCrc32c }

def headerReservedZero (bytes : List Byte) : Checked Bool := do
  let wide ← getLe bytes 48 8
  let narrow ← getLe bytes 60 4
  return decide (wide = 0 ∧ narrow = 0)

def encodeSectionEntry {σ : Type} [ByteSink σ] (out : BinaryWriter σ) (e : SectionEntry) : BinaryWriter σ :=
  (((((out.u32 e.type).u32 e.flags).u64 e.offset).u64 e.size).u32 e.crc32c).u32 0

/-- The entry, whether its reserved word is zero, and the reader behind it. -/
def decodeSectionEntry (r : ByteReader) : Option (SectionEntry × Bool × ByteReader) := do
  let (type, r) ← r.readU32
  let (flags, r) ← r.readU32
  let (offset, r) ← r.readU64
  let (size, r) ← r.readU64
  let (crc, r) ← r.readU32
  let (reserved, r) ← r.readU32
  return ({ type, flags, offset, size, crc32c := crc }, decide (reserved = 0), r)

def metadataSize (m : Metadata) : Nat := 64 + 2 + m.creator.length + 8

def encodeMetadata {σ : Type} [ByteSink σ] (out : BinaryWriter σ) (m : Metadata) : BinaryWriter σ :=
  let out := (((out.u32 m.dim).u8 m.metric).u8 m.indexType).u8 m.normalize
  let out := ((out.u8 0).u64 m.nodeCount).u64 m.liveCount
  let out := (((out.u32 m.m).u32 m.m0).u32 m.efConstruction).u32 m.efSearch
  let out := ((out.u8 m.maxLevelCap).u8 m.maxLevel).u16 0
  let out := ((out.u32 m.entryPoint).u64 m.seed).u64 0
  let out := (out.u16 (UInt16.ofNat m.creator.length)).bytes m.creator
  out.u64 m.createdUnixMs

/-- The fixed fields up to and including the creator length, with the three fields
that must be zero. -/
def decodeMetadataFixed (r : ByteReader) :
    Option (Metadata × UInt8 × UInt16 × UInt64 × UInt16 × ByteReader) := do
  let (dim, r) ← r.readU32
  let (metric, r) ← r.readU8
  let (indexType, r) ← r.readU8
  let (normalize, r) ← r.readU8
  let (pad8, r) ← r.readU8
  let (nodeCount, r) ← r.readU64
  let (liveCount, r) ← r.readU64
  let (m, r) ← r.readU32
  let (m0, r) ← r.readU32
  let (efConstruction, r) ← r.readU32
  let (efSearch, r) ← r.readU32
  let (maxLevelCap, r) ← r.readU8
  let (maxLevel, r) ← r.readU8
  let (pad16, r) ← r.readU16
  let (entryPoint, r) ← r.readU32
  let (seed, r) ← r.readU64
  let (reserved, r) ← r.readU64
  let (creatorLen, r) ← r.readU16
  return ({ dim, metric, indexType, normalize, nodeCount, liveCount, m, m0, efConstruction,
            efSearch, maxLevelCap, maxLevel, entryPoint, seed },
    pad8, pad16, reserved, creatorLen, r)

def decodeMetadata (bytes : List Byte) : Result Metadata :=
  match decodeMetadataFixed ⟨bytes⟩ with
  | none => .error (.corruptData "METADATA: truncated")
  | some (m, pad8, pad16, reserved, creatorLen, r) =>
    if pad8 ≠ 0 ∨ pad16 ≠ 0 ∨ reserved ≠ 0 then
      .error (.corruptData "METADATA: non-zero padding or reserved field")
    else if creatorLen.toNat > kMaxCreatorLength then
      .error (.corruptData
        ("METADATA: creator string longer than " ++ toString kMaxCreatorLength ++ " bytes"))
    else
      match (r.readView creatorLen.toNat).bind fun (creator, r) =>
          r.readU64.map fun (createdUnixMs, r) => (creator, createdUnixMs, r) with
      | none => .error (.corruptData "METADATA: truncated")
      | some (creator, createdUnixMs, r) =>
        if r.remaining ≠ 0 then
          .error (.corruptData ("METADATA: " ++ toString r.remaining ++ " trailing bytes"))
        else .ok { m with creator, createdUnixMs }

/-- `value` rounded up to a multiple of a power-of-two `alignment`; nothing on overflow. -/
def alignUp (value alignment : Nat) : Option Nat :=
  if value > 2 ^ 64 - 1 - (alignment - 1) then none
  else some ((value + (alignment - 1)) / alignment * alignment)

/-- The METADATA payload as one string of bytes. -/
def metadataBytes (m : Metadata) : List Byte :=
  leBytes 4 m.dim.toNat ++ leBytes 1 m.metric.toNat ++ leBytes 1 m.indexType.toNat ++
    leBytes 1 m.normalize.toNat ++ leBytes 1 0 ++ leBytes 8 m.nodeCount.toNat ++
    leBytes 8 m.liveCount.toNat ++ leBytes 4 m.m.toNat ++ leBytes 4 m.m0.toNat ++
    leBytes 4 m.efConstruction.toNat ++ leBytes 4 m.efSearch.toNat ++ leBytes 1 m.maxLevelCap.toNat ++
    leBytes 1 m.maxLevel.toNat ++ leBytes 2 0 ++ leBytes 4 m.entryPoint.toNat ++
    leBytes 8 m.seed.toNat ++ leBytes 8 0 ++
    leBytes 2 (UInt16.ofNat m.creator.length).toNat ++ m.creator ++ leBytes 8 m.createdUnixMs.toNat

def sectionEntryBytes (e : SectionEntry) : List Byte :=
  leBytes 4 e.type.toNat ++ leBytes 4 e.flags.toNat ++ leBytes 8 e.offset.toNat ++
    leBytes 8 e.size.toNat ++ leBytes 4 e.crc32c.toNat ++ leBytes 4 0

section Memory
variable {w : BinaryWriter MemorySink}

theorem encodeSectionEntry_eq_appended (clean : w.status = none) (e : SectionEntry) :
    encodeSectionEntry w e = w.appended (sectionEntryBytes e) := by
  simp only [encodeSectionEntry, sectionEntryBytes, BinaryWriter.u32, BinaryWriter.u64, UInt32.toNat_zero,
    BinaryWriter.bytes_eq_appended, BinaryWriter.appended_status, clean, BinaryWriter.appended_appended]

theorem encodeMetadata_eq_appended (clean : w.status = none) (m : Metadata) :
    encodeMetadata w m = w.appended (metadataBytes m) := by
  unfold encodeMetadata metadataBytes
  simp only [BinaryWriter.u8, BinaryWriter.u16, BinaryWriter.u32, BinaryWriter.u64, UInt8.toNat_zero,
    UInt16.toNat_zero, UInt64.toNat_zero]
  simp only [BinaryWriter.bytes_eq_appended, BinaryWriter.appended_status, clean]
  simp only [BinaryWriter.appended_appended]

end Memory

@[simp] theorem length_metadataBytes (m : Metadata) : (metadataBytes m).length = metadataSize m := by
  unfold metadataBytes
  simp only [List.length_append, length_leBytes, metadataSize]

@[simp] theorem length_sectionEntryBytes (e : SectionEntry) :
    (sectionEntryBytes e).length = kSectionEntrySize := by
  simp [sectionEntryBytes, kSectionEntrySize]

@[simp] theorem length_headerFields (h : FileHeader) : (headerFields h).length = kHeaderCrcCoverage := by
  simp [headerFields, kMagic, kHeaderCrcCoverage]

@[simp] theorem length_encodeHeader (h : FileHeader) : (encodeHeader h).length = kHeaderSize := by
  simp [encodeHeader, kHeaderCrcCoverage, kHeaderSize]

theorem decodeSectionEntry_append (e : SectionEntry) (tail : List Byte) :
    decodeSectionEntry ⟨sectionEntryBytes e ++ tail⟩ = some (e, true, ⟨tail⟩) := by
  unfold decodeSectionEntry sectionEntryBytes
  simp only [List.append_assoc]
  simp only [↓ByteReader.bind_readU32, ↓ByteReader.bind_readU64, ↓ByteReader.bind_readU32_zero, Option.pure_def,
    decide_true]

/-- What is stored is what is read, for every metadata record with a short creator string. -/
theorem decodeMetadata_metadataBytes (m : Metadata) (short : m.creator.length ≤ kMaxCreatorLength) :
    decodeMetadata (metadataBytes m) = .ok m := by
  have length : (UInt16.ofNat m.creator.length).toNat = m.creator.length := by
    simp only [kMaxCreatorLength] at short
    rw [UInt16.toNat_ofNat']
    omega
  have fixed : decodeMetadataFixed ⟨metadataBytes m⟩ =
      some ({ m with creator := [], createdUnixMs := 0 }, 0, 0, 0, UInt16.ofNat m.creator.length,
        ⟨m.creator ++ leBytes 8 m.createdUnixMs.toNat⟩) := by
    unfold decodeMetadataFixed metadataBytes
    simp only [List.append_assoc]
    simp only [↓ByteReader.bind_readU8, ↓ByteReader.bind_readU16, ↓ByteReader.bind_readU32,
      ↓ByteReader.bind_readU64, ↓ByteReader.bind_readU8_zero, ↓ByteReader.bind_readU16_zero,
      ↓ByteReader.bind_readU64_zero, Option.pure_def]
  have creator := ByteReader.readView_append (leBytes 8 m.createdUnixMs.toNat) length.symm
  have created := ByteReader.readU64_append m.createdUnixMs []
  rw [List.append_nil] at created
  rw [length] at creator
  rw [decodeMetadata, fixed]
  simp only [length, Nat.not_lt.mpr short, creator, created, ne_eq, not_true_eq_false, or_self, if_false,
    Option.bind_some, Option.map_some, ByteReader.remaining, List.length_nil]

theorem decodeMetadata_creator {bytes : List Byte} {m : Metadata} (run : decodeMetadata bytes = .ok m) :
    m.creator.length ≤ kMaxCreatorLength := by
  unfold decodeMetadata at run
  split at run
  · cases run
  split at run
  · cases run
  split at run
  · cases run
  next fixed pad8 pad16 reserved length r _ _ short =>
    split at run
    · cases run
    next creator createdUnixMs rest found =>
      split at run
      · cases run
      cases run
      obtain ⟨⟨view, after⟩, viewed, stamped⟩ := Option.bind_eq_some_iff.mp found
      obtain ⟨stamp, _, same⟩ := Option.map_eq_some_iff.mp stamped
      cases same
      unfold ByteReader.readView at viewed
      split at viewed
      · cases viewed
      · cases viewed
        rw [List.length_take]
        omega

end VectorForge.Format
