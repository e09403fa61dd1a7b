import VectorForge.Collection.IndexWriter
import VectorForge.Collection.TableSafety
import VectorForge.Hnsw.IoRoundTrip

namespace VectorForge.IndexWriter
open Format LittleEndian

/-- A section as bytes: what the plan says and what its writer produces. -/
structure Part where
  type : SectionType
  alignment : Nat
  payload : List Byte

def ceilTo (position alignment : Nat) : Nat := (position + (alignment - 1)) / alignment * alignment

/-- The sections from `position` on, with their padding. -/
def bodyFrom : Nat → List Part → List Byte
  | _, [] => []
  | position, p :: rest =>
    List.replicate (ceilTo position p.alignment - position) 0 ++ (p.payload ++
      bodyFrom (ceilTo position p.alignment + p.payload.length) rest)

def endFrom : Nat → List Part → Nat
  | position, [] => position
  | position, p :: rest => endFrom (ceilTo position p.alignment + p.payload.length) rest

def entriesFrom : Nat → List Part → List SectionEntry
  | _, [] => []
  | position, p :: rest =>
    { type := p.type.toU32, offset := UInt64.ofNat (ceilTo position p.alignment)
      size := UInt64.ofNat p.payload.length, crc32c := crc32c p.payload } ::
        entriesFrom (ceilTo position p.alignment + p.payload.length) rest

/-- Alignments are powers of two no larger than a page. -/
def Aligned (parts : List Part) : Prop := ∀ p ∈ parts, p.alignment ∣ 4096 ∧ 8 ∣ p.alignment

section Positions
variable {o alignment : Nat} {parts : List Part}

theorem le_ceilTo (positive : 0 < alignment) : o ≤ ceilTo o alignment := by
  have split := Nat.div_add_mod (o + (alignment - 1)) alignment
  have rest := Nat.mod_lt (o + (alignment - 1)) positive
  rw [Nat.mul_comm] at split
  rw [ceilTo]
  omega

theorem ceilTo_lt (positive : 0 < alignment) : ceilTo o alignment < o + alignment := by
  have below := Nat.div_mul_le_self (o + (alignment - 1)) alignment
  rw [ceilTo]
  omega

theorem Aligned.positive {p : Part} (aligned : Aligned parts) (member : p ∈ parts) : 0 < p.alignment :=
  Nat.pos_of_dvd_of_pos (aligned p member).1 (by decide)

theorem Aligned.small {p : Part} (aligned : Aligned parts) (member : p ∈ parts) : p.alignment ≤ 4096 :=
  Nat.le_of_dvd (by decide) (aligned p member).1

theorem Aligned.tail {p : Part} (aligned : Aligned (p :: parts)) : Aligned parts :=
  fun q member => aligned q (List.mem_cons_of_mem p member)

theorem le_endFrom : ∀ {l : List Part} {o : Nat}, Aligned l → o ≤ endFrom o l
  | [], _, _ => le_rfl
  | p :: rest, position, aligned => by
    have first := le_ceilTo (o := position) (aligned.positive (List.mem_cons_self ..))
    have later := le_endFrom (l := rest) (o := ceilTo position p.alignment + p.payload.length) aligned.tail
    rw [endFrom]
    omega

theorem length_bodyFrom : ∀ {l : List Part} {o : Nat}, Aligned l → o + (bodyFrom o l).length = endFrom o l
  | [], _, _ => rfl
  | p :: rest, position, aligned => by
    have first := le_ceilTo (o := position) (aligned.positive (List.mem_cons_self ..))
    have later := length_bodyFrom (l := rest) (o := ceilTo position p.alignment + p.payload.length) aligned.tail
    rw [endFrom, bodyFrom, ← later]
    simp only [List.length_append, List.length_replicate]
    omega

theorem endFrom_le : ∀ {l : List Part} {o : Nat}, Aligned l →
    endFrom o l ≤ o + (l.map fun p => p.payload.length + 4096).sum
  | [], _, _ => Nat.le_add_right _ _
  | p :: rest, position, aligned => by
    have first := ceilTo_lt (o := position) (aligned.positive (List.mem_cons_self ..))
    have small := aligned.small (List.mem_cons_self ..)
    have later := endFrom_le (l := rest) (o := ceilTo position p.alignment + p.payload.length) aligned.tail
    rw [endFrom, List.map_cons, List.sum_cons]
    omega

end Positions

section Write

/-- A planned section whose writer produces exactly the part. -/
structure Realises (p : PlannedSection MemorySink) (q : Part) : Prop where
  type : p.type = q.type
  alignment : p.alignment = q.alignment
  size : p.size = q.payload.length
  write : ∀ w : BinaryWriter MemorySink, w.status = none → p.write w = w.appended q.payload

theorem aligned_ok {position alignment : Nat} (room : position + alignment ≤ 2 ^ 64) (positive : 0 < alignment) :
    aligned position alignment = .ok (ceilTo position alignment) := by
  rw [aligned, alignUp, if_neg (by omega)]
  rfl

theorem layout_eq : ∀ {plan : List (PlannedSection MemorySink)} {parts : List Part} {o : Nat},
    List.Forall₂ Realises plan parts → Aligned parts → endFrom o parts ≤ 2 ^ 63 →
    layout o plan = .ok ((entriesFrom o parts).map fun e => { e with crc32c := 0 }, endFrom o parts)
  | [], [], _, _, _, _ => rfl
  | p :: plan, q :: parts, position, .cons first rest, aligned, bound => by
    have positive := aligned.positive (List.mem_cons_self ..)
    have small := aligned.small (List.mem_cons_self ..)
    have up := le_ceilTo (o := position) positive
    have later := le_endFrom (l := parts) (o := ceilTo position q.alignment + q.payload.length) aligned.tail
    rw [endFrom] at bound
    rw [layout, first.alignment, aligned_ok (by omega) positive, Outcome.ok_bind, first.size,
      layout_eq rest aligned.tail bound, Outcome.ok_bind, first.type]
    rfl

theorem writeSections_eq {plan : List (PlannedSection MemorySink)} {parts : List Part} {o : Nat}
    {w : BinaryWriter MemorySink} (realises : List.Forall₂ Realises plan parts) (aligned : Aligned parts)
    (bound : endFrom o parts ≤ 2 ^ 63) (clean : w.status = none) (at_ : w.position = o) :
    ∃ v, writeSections w (plan.zip ((entriesFrom o parts).map fun e => { e with crc32c := 0 })) =
        .ok (v, entriesFrom o parts) ∧ v.status = none ∧ v.position = endFrom o parts ∧
        v.sink.bytes = w.sink.bytes ++ bodyFrom o parts := by
  induction realises generalizing o w with
  | nil => exact ⟨w, rfl, clean, at_, by simp [bodyFrom]⟩
  | @cons p q plan parts first rest ih =>
    have positive := aligned.positive (List.mem_cons_self ..)
    have up := le_ceilTo (o := o) positive
    have later := le_endFrom (l := parts) (o := ceilTo o q.alignment + q.payload.length) aligned.tail
    rw [endFrom] at bound
    have offset : (UInt64.ofNat (ceilTo o q.alignment)).toNat = ceilTo o q.alignment := by
      rw [UInt64.toNat_ofNat', Nat.mod_eq_of_lt (by omega)]
    have size : (UInt64.ofNat q.payload.length).toNat = q.payload.length := by
      rw [UInt64.toNat_ofNat', Nat.mod_eq_of_lt (by omega)]
    have padded : w.zeros (ceilTo o q.alignment - o) =
        w.appended (List.replicate (ceilTo o q.alignment - o) 0) :=
      BinaryWriter.zeros_eq_appended clean _
    generalize written : (w.appended (List.replicate (ceilTo o q.alignment - o) 0)).beginCrc.appended
      q.payload = v
    have run : p.write (w.zeros (ceilTo o q.alignment - o)).beginCrc = v := by
      rw [padded, ← written, first.write _ (by simpa [BinaryWriter.beginCrc] using clean)]
    have cleanV : v.status = none := by
      rw [← written]
      simpa [BinaryWriter.beginCrc] using clean
    have positionV : v.position = ceilTo o q.alignment + q.payload.length := by
      rw [← written]
      simp only [BinaryWriter.appended_position, BinaryWriter.beginCrc, List.length_replicate, at_]
      omega
    have crcV : v.crc = crc32c q.payload := by
      rw [← written]
      rfl
    have bytesV : v.sink.bytes =
        w.sink.bytes ++ (List.replicate (ceilTo o q.alignment - o) 0 ++ q.payload) := by
      rw [← written]
      simp [BinaryWriter.beginCrc]
    obtain ⟨u, more, cleanU, positionU, bytesU⟩ := ih (w := v) aligned.tail bound cleanV positionV
    refine ⟨u, ?_, cleanU, positionU, ?_⟩
    · simp only [entriesFrom, List.map_cons, List.zip_cons_cons, writeSections, offset, size, at_, run, cleanV,
        positionV, Outcome.check, decide_true, if_true, Outcome.ok_bind, more, crcV, Outcome.pure_eq_ok]
    · rw [bytesU, bytesV, bodyFrom]
      simp only [List.append_assoc]

end Write

/-- The whole file for given sections and flags. -/
def tableOffset (parts : List Part) : Nat := ceilTo (endFrom kHeaderSize parts) kSectionAlignment

def tableBytes (parts : List Part) : List Byte := (entriesFrom kHeaderSize parts).flatMap sectionEntryBytes

def headerOf (flags : UInt64) (parts : List Part) : FileHeader where
  flags := flags
  fileSize := UInt64.ofNat (tableOffset parts + (entriesFrom kHeaderSize parts).length * kSectionEntrySize)
  sectionTableOffset := UInt64.ofNat (tableOffset parts)
  sectionCount := UInt32.ofNat (entriesFrom kHeaderSize parts).length
  sectionTableCrc32c := crc32c (tableBytes parts)

def fileOf (flags : UInt64) (parts : List Part) : List Byte :=
  encodeHeader (headerOf flags parts) ++ (bodyFrom kHeaderSize parts ++
    (List.replicate (tableOffset parts - endFrom kHeaderSize parts) 0 ++ tableBytes parts))

theorem length_entriesFrom : ∀ {parts : List Part} {position : Nat},
    (entriesFrom position parts).length = parts.length
  | [], _ => rfl
  | _ :: _, _ => congrArg Nat.succ length_entriesFrom

theorem length_tableBytes (parts : List Part) : (tableBytes parts).length = parts.length * kSectionEntrySize := by
  rw [tableBytes, List.flatMap_def, HnswIo.length_flatten_uniform (d := kSectionEntrySize), List.length_map,
    length_entriesFrom]
  intro b member
  obtain ⟨e, _, rfl⟩ := List.mem_map.mp member
  exact length_sectionEntryBytes e

theorem le_tableOffset (parts : List Part) : endFrom kHeaderSize parts ≤ tableOffset parts :=
  le_ceilTo (by decide)

theorem length_fileOf (flags : UInt64) {parts : List Part} (aligned : Aligned parts) :
    (fileOf flags parts).length = tableOffset parts + parts.length * kSectionEntrySize := by
  have body := length_bodyFrom (o := kHeaderSize) aligned
  have order := le_tableOffset parts
  rw [fileOf]
  simp only [List.length_append, length_encodeHeader, List.length_replicate, length_tableBytes]
  omega

/-- The writer into memory produces the file of its parts. -/
theorem writeIndex_eq {s : CollectionState} {parts : List Part} (rows : s.ids.labelCount = s.vectors.size)
    (realised : List.Forall₂ Realises (plan s) parts) (aligned : Aligned parts)
    (bound : endFrom kHeaderSize parts ≤ 2 ^ 62) (count : parts.length ≤ kMaxSections) :
    writeIndex s ({} : MemorySink) = .ok ⟨fileOf (headerFlags s) parts⟩ := by
  have order := le_tableOffset parts
  have near : tableOffset parts < endFrom kHeaderSize parts + 8 := ceilTo_lt (by decide)
  have start : ({ sink := {} } : BinaryWriter MemorySink).zeros kHeaderSize =
      ({ sink := {} } : BinaryWriter MemorySink).appended (List.replicate kHeaderSize 0) :=
    BinaryWriter.zeros_eq_appended rfl _
  obtain ⟨v, written, clean, position, bytes⟩ := writeSections_eq
    (w := ({ sink := {} } : BinaryWriter MemorySink).appended (List.replicate kHeaderSize 0)) (o := kHeaderSize)
    realised aligned (by omega) rfl (by simp)
  have sectionCount : parts.length ≤ 64 := count
  generalize last : (v.appended (List.replicate (tableOffset parts - endFrom kHeaderSize parts)
    0)).beginCrc.appended
    (tableBytes parts) = u
  have table : (entriesFrom kHeaderSize parts).foldl encodeSectionEntry
      (v.zeros (tableOffset parts - v.position)).beginCrc = u := by
    rw [BinaryWriter.zeros_eq_appended clean, position, ← last]
    exact HnswIo.foldl_appended (fun w e clean => encodeSectionEntry_eq_appended clean e) _
      (by simpa [BinaryWriter.beginCrc] using clean)
  have cleanU : u.status = none := by
    rw [← last]
    simpa [BinaryWriter.beginCrc] using clean
  have positionU : u.position = tableOffset parts + parts.length * kSectionEntrySize := by
    rw [← last]
    simp only [BinaryWriter.appended_position, BinaryWriter.beginCrc, List.length_replicate,
      position, length_tableBytes]
    omega
  have crcU : u.crc = crc32c (tableBytes parts) := by
    rw [← last]
    rfl
  have bytesU : u.sink.bytes = List.replicate kHeaderSize 0 ++ (bodyFrom kHeaderSize parts ++
      (List.replicate (tableOffset parts - endFrom kHeaderSize parts) 0 ++ tableBytes parts)) := by
    rw [← last]
    simp [BinaryWriter.beginCrc, bytes]
  rw [writeIndex]
  simp only [rows, Outcome.check, decide_true, if_true, Outcome.ok_bind,
    layout_eq (o := kHeaderSize) realised aligned (by omega)]
  rw [aligned_ok (by simp only [kSectionAlignment]; omega) (by decide), Outcome.ok_bind, start,
    written, Outcome.ok_bind]
  simp only [show ceilTo (endFrom kHeaderSize parts) kSectionAlignment = tableOffset parts from rfl, table, cleanU,
    positionU, crcU, List.length_map, length_entriesFrom, decide_true, if_true, Outcome.ok_bind]
  have header : ({ flags := headerFlags s
                   fileSize := UInt64.ofNat (tableOffset parts + parts.length * kSectionEntrySize)
                   sectionTableOffset := UInt64.ofNat (tableOffset parts)
                   sectionCount := UInt32.ofNat parts.length
                   sectionTableCrc32c := crc32c (tableBytes parts) } : FileHeader) = headerOf
                   (headerFlags s) parts := by
    simp only [headerOf, length_entriesFrom]
  have patch : ByteSink.writeAt u.sink 0 (encodeHeader (headerOf (headerFlags s) parts)) =
      .ok ⟨fileOf (headerFlags s) parts⟩ := by
    have room : kHeaderSize ≤ u.sink.bytes.length := by simp [bytesU]
    show MemorySink.writeAt _ _ _ = _
    rw [MemorySink.writeAt, length_encodeHeader,
      (checkedAdd_eq_some (by decide)).mpr ⟨by decide, (Nat.zero_add kHeaderSize).symm⟩]
    simp only
    rw [if_neg (by omega), bytesU, Nat.zero_add, List.take_zero, List.nil_append,
      List.drop_append_of_le_length (by simp), List.drop_of_length_le (by simp), List.nil_append]
    rfl
  rw [header, patch, Outcome.lift_ok]

end VectorForge.IndexWriter
