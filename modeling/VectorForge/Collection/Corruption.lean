import VectorForge.Collection.Persistence
import VectorForge.Lib.Burst

/-! What the reader's checks say of a file as a whole: a file that is near an accepted one, or has another
length, is not accepted. -/

namespace VectorForge.IndexReader
open Format LittleEndian

variable {file file' : List Byte} {first : Nat} {h h' : FileHeader} {p p' : ParsedFile}

section Checksums

theorem crc32c_eq_update (data : List Byte) : (crc32c data).toBitVec = ~~~Crc.update kPolynomial (~~~0#32)
    (data.map UInt8.toBitVec) := by
  rw [crc32c, crc32cExtend, crcLoop_eq_update]
  rfl

/-- The check tells strings apart that differ in at most four consecutive bytes. -/
theorem eq_of_crc32c (near : Near first file file') (same : crc32c file = crc32c file') : file = file' := by
  have registers := congrArg UInt32.toBitVec same
  rw [crc32c_eq_update, crc32c_eq_update] at registers
  have mapped : Near first (file.map UInt8.toBitVec) (file'.map UInt8.toBitVec) := by
    refine ⟨by simp only [List.length_map, near.length], fun j away => ?_⟩
    rw [List.getElem?_map, List.getElem?_map, near.outside j away]
  have bits := Crc.update_near (by decide) _ mapped (BitVec.not_inj.mp registers)
  exact List.map_injective_iff.mpr (fun a b => UInt8.toBitVec_inj.mp) bits

/-- A string followed by its own check leaves the register in a state that does not depend on the string. -/
theorem update_sealed {data stored : List Byte} (width : stored.length = 4)
    (value : crc32c data = UInt32.ofNat (leValue stored)) :
    Crc.update kPolynomial (~~~0#32) ((data ++ stored).map UInt8.toBitVec) =
      Crc.zeroBytes kPolynomial 4 (~~~0#32) := by
  obtain ⟨b0, b1, b2, b3, rfl⟩ := List.length_eq_four.mp width
  have word : Crc.word b0.toBitVec b1.toBitVec b2.toBitVec b3.toBitVec = (crc32c data).toBitVec := by
    apply BitVec.eq_of_toNat_eq
    rw [value, Crc.toNat_word]
    have small := leValue_lt [b0, b1, b2, b3]
    simp only [leValue_cons, leValue_nil, List.length_cons, List.length_nil] at small
    simp only [leValue_cons, leValue_nil, UInt32.toNat_toBitVec, UInt8.toNat_toBitVec, UInt32.toNat_ofNat']
    omega
  rw [List.map_append, Crc.update_append]
  simp only [List.map_cons, List.map_nil]
  rw [Crc.update_four, word, crc32c_eq_update, ← BitVec.not_xor_right, BitVec.xor_self]

end Checksums

section Header

theorem slice_eq_ok {view part : List Byte} {offset count : Nat}
    (run : (Outcome.slice view offset count : Checked _) = .ok part) :
    offset + count ≤ view.length ∧ part = (view.drop offset).take count := by
  rw [Outcome.slice] at run
  split at run
  next fits =>
    cases run
    exact ⟨fits, rfl⟩
  next => cases run

theorem getLe_eq_ok {bytes : List Byte} {offset width value : Nat} (run : getLe bytes offset width = .ok value) :
    value = leValue ((bytes.drop offset).take width) := by
  obtain ⟨field, sliced, rest⟩ := Outcome.bind_eq_ok run
  obtain ⟨-, rfl⟩ := slice_eq_ok sliced
  cases rest
  rfl

/-- An accepted header: what it says of the file, and what it says of itself. -/
structure Sealed (file : List Byte) (h : FileHeader) : Prop where
  room : kHeaderSize ≤ file.length
  decoded : decodeHeader (file.take kHeaderSize) = .ok h
  crc : crc32c (file.take kHeaderCrcCoverage) = h.headerCrc32c
  reserved : headerReservedZero (file.take kHeaderSize) = .ok true
  size : h.fileSize.toNat = file.length

theorem parseHeader_sealed (run : parseHeader file = .ok h) : Sealed file h := by
  rw [parseHeader] at run
  split at run
  next => cases run
  next room =>
  obtain ⟨head, sliced, run⟩ := Outcome.bind_eq_ok run
  obtain ⟨-, rfl⟩ := slice_eq_ok sliced
  rw [List.drop_zero] at run
  obtain ⟨magic, -, run⟩ := Outcome.bind_eq_ok run
  split at run
  next => cases run
  obtain ⟨endian, -, run⟩ := Outcome.bind_eq_ok run
  split at run
  next => cases run
  split at run
  next => cases run
  obtain ⟨header, decoded, run⟩ := Outcome.bind_eq_ok run
  split at run
  next => cases run
  obtain ⟨covered, sliced, run⟩ := Outcome.bind_eq_ok run
  obtain ⟨-, rfl⟩ := slice_eq_ok sliced
  rw [List.drop_zero] at run
  split at run
  next => cases run
  next crc =>
  obtain ⟨reserved, zero, run⟩ := Outcome.bind_eq_ok run
  split at run
  next => cases run
  next isZero =>
  split at run
  next => cases run
  next size =>
  split at run
  next => cases run
  split at run
  next => cases run
  cases run
  have whole : reserved = true := by simpa using isZero
  subst whole
  exact ⟨Nat.not_lt.mp room, decoded, not_not.mp crc, zero, not_not.mp size⟩

/-- Where the header keeps its own check. -/
theorem Sealed.stored (sealed_ : Sealed file h) : crc32c (file.take kHeaderCrcCoverage) =
    UInt32.ofNat (leValue ((file.drop kHeaderCrcCoverage).take 4)) := by
  rw [sealed_.crc]
  have decoded := sealed_.decoded
  rw [decodeHeader] at decoded
  obtain ⟨_, -, decoded⟩ := Outcome.bind_eq_ok decoded
  obtain ⟨_, -, decoded⟩ := Outcome.bind_eq_ok decoded
  obtain ⟨_, -, decoded⟩ := Outcome.bind_eq_ok decoded
  obtain ⟨_, -, decoded⟩ := Outcome.bind_eq_ok decoded
  obtain ⟨_, -, decoded⟩ := Outcome.bind_eq_ok decoded
  obtain ⟨_, -, decoded⟩ := Outcome.bind_eq_ok decoded
  obtain ⟨_, -, decoded⟩ := Outcome.bind_eq_ok decoded
  obtain ⟨crc, field, decoded⟩ := Outcome.bind_eq_ok decoded
  cases decoded
  rw [getLe_eq_ok field, List.drop_take, List.take_take]
  rfl

theorem eq_replicate_of_leValue {bytes : List Byte} (zero : leValue bytes = 0) :
    bytes = List.replicate bytes.length 0 := by
  have back := leBytes_leValue bytes
  have zeros := leBytes_leValue (List.replicate bytes.length (0 : UInt8))
  rw [leValue_replicate_zero, List.length_replicate] at zeros
  rw [zero] at back
  exact back.symm.trans zeros

/-- The four bytes behind the check are zero. -/
theorem Sealed.last (sealed_ : Sealed file h) : (file.drop 60).take 4 = List.replicate 4 0 := by
  have reserved := sealed_.reserved
  rw [headerReservedZero] at reserved
  obtain ⟨wide, -, reserved⟩ := Outcome.bind_eq_ok reserved
  obtain ⟨narrow, field, reserved⟩ := Outcome.bind_eq_ok reserved
  have zeros := Except.ok.inj reserved
  simp only [decide_eq_true_eq] at zeros
  have zero := getLe_eq_ok field
  rw [zeros.2, List.drop_take, List.take_take] at zero
  have room := sealed_.room
  have length : ((file.drop 60).take 4).length = 4 := by
    rw [List.length_take, List.length_drop]
    simp only [kHeaderSize] at room
    omega
  have all := eq_replicate_of_leValue zero.symm
  exact all.trans (congrArg (List.replicate · 0) length)

theorem Sealed.head_eq (near : Near first file file') (sealed_ : Sealed file h) (sealed' : Sealed file' h') :
    file.take kHeaderSize = file'.take kHeaderSize := by
  have join (x : List Byte) : x.take kHeaderSize = x.take 60 ++ (x.drop 60).take 4 := by
    rw [← List.take_add]
    rfl
  have body {x : List Byte} {hx : FileHeader} (sound : Sealed x hx) :
      Crc.update kPolynomial (~~~0#32) ((x.take 60).map UInt8.toBitVec) =
      Crc.zeroBytes kPolynomial 4 (~~~0#32) := by
    have parts : x.take 60 = x.take kHeaderCrcCoverage ++ (x.drop kHeaderCrcCoverage).take 4 := by
      rw [← List.take_add]
      rfl
    have room := sound.room
    simp only [kHeaderSize] at room
    rw [parts]
    refine update_sealed ?_ sound.stored
    rw [List.length_take, List.length_drop]
    simp only [kHeaderCrcCoverage]
    omega
  have front : file.take 60 = file'.take 60 := by
    have part := near.slice 0 60
    rw [List.drop_zero, List.drop_zero] at part
    apply eq_of_crc32c part
    apply UInt32.toBitVec_inj.mp
    rw [crc32c_eq_update, crc32c_eq_update, body sealed_, body sealed']
  rw [join, join, front, sealed_.last, sealed'.last]

/-- Headers that are near each other are the same. -/
theorem Sealed.header_eq (near : Near first file file') (sealed_ : Sealed file h)
    (sealed' : Sealed file' h') : h = h' := by
  have decoded := sealed_.decoded
  rw [sealed_.head_eq near sealed', sealed'.decoded] at decoded
  exact (Except.ok.inj decoded).symm

end Header

section Table

theorem parseEntry_congr (length : file.length = file'.length) : parseEntry file = parseEntry file' := by
  funext k t
  rw [parseEntry, parseEntry, length]

/-- An entry is put behind the others, and a known type is new. -/
theorem parseEntry_eq_ok {k : Nat} {t t' : TableState} (run : parseEntry file k t = .ok t') :
    ∃ e, t'.entries = t.entries ++ [e] ∧ ∀ type : SectionType, e.type = type.toU32 →
    t.byType[type.value]? = some none := by
  rw [parseEntry] at run
  split at run
  next => cases run
  next e reservedZero reader _ =>
  split at run
  next => cases run
  simp only at run
  split at run
  next => cases run
  split at run
  next => cases run
  split at run
  next => cases run
  split at run
  next unknown =>
    split at run
    next => cases run
    next =>
      cases run
      refine ⟨e, rfl, fun type same => ?_⟩
      have known := value_le type
      rw [type_eq_iff] at same
      omega
  next known =>
    obtain ⟨slot, indexed, run⟩ := Outcome.bind_eq_ok run
    rw [Outcome.index] at indexed
    split at indexed
    next found =>
      cases indexed
      split at run
      next => cases run
      next =>
        cases run
        refine ⟨e, rfl, fun type same => ?_⟩
        rw [← type_eq_iff.mp same]
        exact found
    next => cases indexed

/-- At most one section of every known type. -/
def Unique (entries : List SectionEntry) : Prop :=
  ∀ type : SectionType, (entries.countP fun e => e.type = type.toU32) ≤ 1

theorem Unique.next {entries : List SectionEntry} {byType : List (Option Nat)} {e : SectionEntry}
    (unique : Unique entries) (table : TableOk file entries byType)
    (free : ∀ type : SectionType, e.type = type.toU32 → byType[type.value]? = some none) :
    Unique (entries ++ [e]) := by
  intro type
  rw [List.countP_append]
  by_cases same : e.type = type.toU32
  · have named := table.named type
    rw [free type same] at named
    have absent := List.findIdx?_eq_none_iff.mp (Option.some.inj named).symm
    have none : (entries.countP fun e => e.type = type.toU32) = 0 := by
      rw [List.countP_eq_zero]
      intro x member
      simpa using absent x member
    rw [none, Nat.zero_add]
    exact List.countP_le_length
  · have none : ([e].countP fun e => e.type = type.toU32) = 0 := by
      simp [same]
    rw [none]
    exact unique type

theorem parseEntries_unique {count : Nat} {t : TableState} {table : List Byte}
    (run : Outcome.loop (parseEntry file) count 0 { reader := ⟨table⟩ } = .ok t) : Unique t.entries := by
  have sat := Outcome.Sat.loop (n := count) (i := 0) (s := { reader := ⟨table⟩ }) (f := parseEntry file)
    (fun k t => t.entries.length = k ∧ TableOk file t.entries t.byType ∧ Unique t.entries)
    ⟨rfl, ⟨by simp, by simp, ?_⟩, ?_⟩ ?_
  · exact (sat.value run).2.2
  · intro type
    cases type <;> rfl
  · intro type
    exact Nat.zero_le _
  · rintro k t - - ⟨length, sound, unique⟩
    have safe := parseEntry_sat length sound
    cases taken : parseEntry file k t with
    | ok t' =>
      obtain ⟨length', sound'⟩ := safe.value taken
      obtain ⟨e, entries, free⟩ := parseEntry_eq_ok taken
      refine ⟨length', sound', ?_⟩
      rw [entries]
      exact unique.next sound free
    | error stop =>
      rw [taken] at safe
      cases stop with
      | error _ => exact True.intro
      | fault _ => exact safe

/-- What the table has been checked for. -/
structure Pinned (file : List Byte) (p : ParsedFile) : Prop where
  header : Sealed file p.header
  crc : crc32c ((file.drop p.header.sectionTableOffset.toNat).take
    (p.header.sectionCount.toNat * kSectionEntrySize)) =
    p.header.sectionTableCrc32c
  entries : ∃ t, Outcome.loop (parseEntry file) p.header.sectionCount.toNat 0
      { reader := ⟨(file.drop p.header.sectionTableOffset.toNat).take
        (p.header.sectionCount.toNat * kSectionEntrySize)⟩ } = .ok t ∧
    t.entries = p.entries ∧ t.byType = p.byType
  padding : ∃ sections covered, regions p.entries = .ok sections ∧
    checkGaps file 0 (((0, kHeaderSize) :: sections ++ [(p.header.sectionTableOffset.toNat,
      p.header.sectionTableOffset.toNat + p.header.sectionCount.toNat *
      kSectionEntrySize)]).mergeSort regionLe) = .ok covered ∧
    ∀ b ∈ file.drop covered, b = 0

theorem mul_eq_ok {a b c : Nat} (run : (Outcome.mul 64 a b : Checked Nat) = .ok c) : c = a * b := by
  rw [Outcome.mul] at run
  split at run
  · exact (Except.ok.inj run).symm
  · cases run

theorem sub_eq_ok {a b c : Nat} (run : (Outcome.sub a b : Checked Nat) = .ok c) : b ≤ a ∧ c = a - b := by
  rw [Outcome.sub] at run
  split at run
  next order => exact ⟨order, (Except.ok.inj run).symm⟩
  next => cases run

theorem parseHeaderAndTable_pinned (run : parseHeaderAndTable file = .ok p) : Pinned file p := by
  rw [parseHeaderAndTable] at run
  obtain ⟨h, header, run⟩ := Outcome.bind_eq_ok run
  obtain ⟨tableSize, product, run⟩ := Outcome.bind_eq_ok run
  have size := mul_eq_ok product
  subst size
  split at run
  next => cases run
  next tableEnd sum =>
  have end_ : tableEnd = h.sectionTableOffset.toNat + h.sectionCount.toNat * kSectionEntrySize := by
    rw [checkedAdd] at sum
    split at sum
    · cases sum
    · exact (Option.some.inj sum).symm
  subst end_
  split at run
  next => cases run
  obtain ⟨table, sliced, run⟩ := Outcome.bind_eq_ok run
  obtain ⟨-, rfl⟩ := slice_eq_ok sliced
  split at run
  next => cases run
  next crc =>
  obtain ⟨t, loop, run⟩ := Outcome.bind_eq_ok run
  obtain ⟨sections, regioned, run⟩ := Outcome.bind_eq_ok run
  obtain ⟨covered, gaps, run⟩ := Outcome.bind_eq_ok run
  obtain ⟨length, difference, run⟩ := Outcome.bind_eq_ok run
  obtain ⟨-, rfl⟩ := sub_eq_ok difference
  obtain ⟨tail, sliced, run⟩ := Outcome.bind_eq_ok run
  obtain ⟨-, rfl⟩ := slice_eq_ok sliced
  split at run
  next => cases run
  next zeros =>
  cases run
  refine ⟨parseHeader_sealed header, not_not.mp crc, ⟨t, loop, rfl, rfl⟩, sections, covered, regioned,
    gaps, fun b member => ?_⟩
  rw [List.take_of_length_le (by rw [List.length_drop])] at zeros
  by_contra other
  exact zeros (List.any_eq_true.mpr ⟨b, member, by simpa using other⟩)

/-- Tables that are near each other are the same. -/
theorem Pinned.table_eq (near : Near first file file') (pinned : Pinned file p) (pinned' : Pinned file' p') :
    p = p' ∧ (file.drop p.header.sectionTableOffset.toNat).take (p.header.sectionCount.toNat * kSectionEntrySize) =
      (file'.drop p.header.sectionTableOffset.toNat).take (p.header.sectionCount.toNat * kSectionEntrySize) := by
  obtain ⟨h, entries, byType⟩ := p
  obtain ⟨h', entries', byType'⟩ := p'
  obtain rfl : h = h' := pinned.header.header_eq near pinned'.header
  have table := eq_of_crc32c (near.slice h.sectionTableOffset.toNat (h.sectionCount.toNat * kSectionEntrySize))
    (pinned.crc.trans pinned'.crc.symm)
  obtain ⟨t, loop, rfl, rfl⟩ := pinned.entries
  obtain ⟨t', loop', rfl, rfl⟩ := pinned'.entries
  simp only at loop loop'
  rw [parseEntry_congr near.length, table, loop'] at loop
  cases loop
  exact ⟨rfl, table⟩

end Table

section Contents

/-- The bytes of a section are those its checksum was computed from. -/
def Intact (file : List Byte) (e : SectionEntry) : Prop :=
  crc32c ((file.drop e.offset.toNat).take e.size.toNat) = e.crc32c

theorem verifyCrc_intact {e : SectionEntry} (run : verifyCrc file e = .ok ()) : Intact file e := by
  rw [verifyCrc, sectionBytes] at run
  obtain ⟨bytes, sliced, run⟩ := Outcome.bind_eq_ok run
  obtain ⟨-, rfl⟩ := slice_eq_ok sliced
  split at run
  next => cases run
  next same => exact not_not.mp same

theorem verifyEntries_intact : ∀ {entries : List SectionEntry}, verifyEntries file entries = .ok () →
    ∀ e ∈ entries, e.type ≠ SectionType.vectors.toU32 → Intact file e
  | [], _, _, member, _ => by cases member
  | e :: rest, run, x, member, other => by
    rw [verifyEntries] at run
    split at run
    next checked =>
      obtain ⟨⟨⟩, first, run⟩ := Outcome.bind_eq_ok run
      rcases List.mem_cons.mp member with rfl | later
      · exact verifyCrc_intact first
      · exact verifyEntries_intact run x later other
    next skipped =>
      rcases List.mem_cons.mp member with rfl | later
      · exact absurd other skipped
      · exact verifyEntries_intact run x later other

/-- There is no other section of the type that is found. -/
theorem Unique.eq_of_find {entries : List SectionEntry} {type : SectionType} {e x : SectionEntry}
    (unique : Unique entries)
    (found : (entries.find? fun e => decide (e.type = type.toU32)) = some e) (member : x ∈ entries)
    (same : x.type = type.toU32) : x = e := by
  obtain ⟨is, before, after, whole, none⟩ := List.find?_eq_some_iff_append.mp found
  have count := unique type
  subst whole
  rw [List.countP_append, List.countP_cons, if_pos is] at count
  rcases List.mem_append.mp member with early | late
  · have wrong := none x early
    simp only [same, decide_true, Bool.not_true, Bool.false_eq_true] at wrong
  · rcases List.mem_cons.mp late with rfl | late
    · rfl
    · have some := List.countP_pos_iff (p := fun e : SectionEntry => e.type = type.toU32) |>.mpr
        ⟨x, late, decide_eq_true same⟩
      omega

/-- A file that the reader accepts after looking at all of it. -/
theorem readIndex_intact {simd : Result Unit} {options : ReadOptions} {s : CollectionState}
    (full : options.verify = .full)
    (accepted : readIndex simd file options = .ok s) : ∃ p, parseHeaderAndTable file = .ok p ∧
    ∀ e ∈ p.entries, Intact file e := by
  rw [readIndex] at accepted
  obtain ⟨_, -, accepted⟩ := Outcome.bind_eq_ok accepted
  obtain ⟨p, parsed, accepted⟩ := Outcome.bind_eq_ok accepted
  obtain ⟨sections, located, accepted⟩ := Outcome.bind_eq_ok accepted
  obtain ⟨⟨⟩, entries, accepted⟩ := Outcome.bind_eq_ok accepted
  rw [if_pos (by rw [full]; decide)] at entries
  obtain ⟨_, -, accepted⟩ := Outcome.bind_eq_ok accepted
  obtain ⟨_, -, accepted⟩ := Outcome.bind_eq_ok accepted
  obtain ⟨⟨metric, index⟩, -, accepted⟩ := Outcome.bind_eq_ok accepted
  obtain ⟨_, -, accepted⟩ := Outcome.bind_eq_ok accepted
  obtain ⟨_, -, accepted⟩ := Outcome.bind_eq_ok accepted
  obtain ⟨⟨⟩, vectors, accepted⟩ := Outcome.bind_eq_ok accepted
  rw [if_pos full] at vectors
  have ok := parseHeaderAndTable_sat.value parsed
  have found := (findSections_sat ok).value located
  obtain ⟨t, loop, same, -⟩ := (parseHeaderAndTable_pinned parsed).entries
  refine ⟨p, parsed, fun e member => ?_⟩
  by_cases vector : e.type = SectionType.vectors.toU32
  · have unique := parseEntries_unique loop
    rw [same] at unique
    rw [unique.eq_of_find found.vectors member vector]
    exact verifyCrc_intact vectors
  · exact verifyEntries_intact entries e member vector

theorem eq_of_zeros {l l' : List Byte} (length : l.length = l'.length) (zeros : ∀ b ∈ l, b = 0)
    (zeros' : ∀ b ∈ l', b = 0) : l = l' := by
  rw [List.eq_replicate_of_mem zeros, List.eq_replicate_of_mem zeros', length]

/-- Files that agree in every region agree everywhere, as what is between the regions is zero. -/
theorem checkGaps_drop_eq (length : file.length = file'.length) : ∀ {all : List (Nat × Nat)} {covered done : Nat},
    checkGaps file covered all = .ok done → checkGaps file' covered all = .ok done →
    (∀ r ∈ all, r.1 ≤ r.2 ∧ (file.drop r.1).take (r.2 - r.1) = (file'.drop r.1).take (r.2 - r.1)) →
    file.drop done = file'.drop done → file.drop covered = file'.drop covered
  | [], _, _, run, _, _, rest => by
    cases run
    exact rest
  | (start, stop) :: more, covered, done, run, run', agree, rest => by
    rw [checkGaps] at run run'
    split at run
    next => cases run
    next order =>
    rw [if_neg order] at run'
    obtain ⟨n, difference, run⟩ := Outcome.bind_eq_ok run
    obtain ⟨below, rfl⟩ := sub_eq_ok difference
    rw [difference, Outcome.ok_bind] at run'
    obtain ⟨gap, sliced, run⟩ := Outcome.bind_eq_ok run
    obtain ⟨gap', sliced', run'⟩ := Outcome.bind_eq_ok run'
    obtain ⟨-, rfl⟩ := slice_eq_ok sliced
    obtain ⟨-, rfl⟩ := slice_eq_ok sliced'
    split at run
    next => cases run
    next zeros =>
    split at run'
    next => cases run'
    next zeros' =>
    have later := checkGaps_drop_eq length run run' (fun r member => agree r (List.mem_cons_of_mem _ member)) rest
    obtain ⟨positive, region⟩ := agree (start, stop) (List.mem_cons_self ..)
    simp only at positive region
    have between : (file.drop covered).take (start - covered) = (file'.drop covered).take (start - covered) := by
      apply eq_of_zeros (by simp only [List.length_take, List.length_drop, length])
      · intro b member
        by_contra other
        exact zeros (List.any_eq_true.mpr ⟨b, member, by simpa using other⟩)
      · intro b member
        by_contra other
        exact zeros' (List.any_eq_true.mpr ⟨b, member, by simpa using other⟩)
    have parts (x : List Byte) : x.drop covered = (x.drop covered).take (start - covered) ++
        ((x.drop start).take (stop - start) ++ x.drop stop) := by
      rw [show x.drop stop = (x.drop start).drop (stop - start) by
        rw [List.drop_drop, Nat.add_sub_cancel' positive], List.take_append_drop,
        show x.drop start = (x.drop covered).drop (start - covered) by
          rw [List.drop_drop, Nat.add_sub_cancel' below], List.take_append_drop]
    rw [parts, parts file', between, region, later]

/-- The last region ends what is covered. -/
theorem checkGaps_done : ∀ {all : List (Nat × Nat)} {covered done : Nat}, checkGaps file covered all = .ok done →
    done = all.foldl (fun _ r => r.2) covered
  | [], _, _, run => (Except.ok.inj run).symm
  | (start, stop) :: more, covered, done, run => by
    rw [checkGaps] at run
    split at run
    next => cases run
    obtain ⟨n, -, run⟩ := Outcome.bind_eq_ok run
    obtain ⟨gap, -, run⟩ := Outcome.bind_eq_ok run
    split at run
    next => cases run
    have later := checkGaps_done run
    exact later

theorem regions_eq_ok : ∀ {entries : List SectionEntry} {sections : List (Nat × Nat)},
    regions entries = .ok sections →
    ∀ r ∈ sections, ∃ e ∈ entries, r = (e.offset.toNat, e.offset.toNat + e.size.toNat)
  | [], _, run, r, member => by
    cases run
    cases member
  | e :: rest, sections, run, r, member => by
    rw [regions] at run
    obtain ⟨stop, sum, run⟩ := Outcome.bind_eq_ok run
    obtain ⟨more, later, run⟩ := Outcome.bind_eq_ok run
    cases run
    have end_ : stop = e.offset.toNat + e.size.toNat := by
      rw [Outcome.add] at sum
      split at sum
      · exact (Except.ok.inj sum).symm
      · cases sum
    rcases List.mem_cons.mp member with rfl | old
    · exact ⟨e, List.mem_cons_self .., by rw [end_]⟩
    · obtain ⟨x, inside, same⟩ := regions_eq_ok later r old
      exact ⟨x, List.mem_cons_of_mem _ inside, same⟩

/-- Two accepted files that are near each other are the same file. -/
theorem eq_of_intact (near : Near first file file') (pinned : Pinned file p) (pinned' : Pinned file' p')
    (intact : ∀ e ∈ p.entries, Intact file e) (intact' : ∀ e ∈ p'.entries, Intact file' e) : file = file' := by
  obtain ⟨rfl, table⟩ := pinned.table_eq near pinned'
  obtain ⟨sections, covered, regioned, gaps, zeros⟩ := pinned.padding
  obtain ⟨sections', covered', regioned', gaps', zeros'⟩ := pinned'.padding
  rw [regioned] at regioned'
  cases regioned'
  have agree : ∀ r ∈ ((0, kHeaderSize) :: sections ++ [(p.header.sectionTableOffset.toNat,
      p.header.sectionTableOffset.toNat + p.header.sectionCount.toNat * kSectionEntrySize)]).mergeSort regionLe,
      r.1 ≤ r.2 ∧ (file.drop r.1).take (r.2 - r.1) = (file'.drop r.1).take (r.2 - r.1) := by
    intro r member
    rw [List.mem_mergeSort] at member
    simp only [List.cons_append, List.mem_cons, List.mem_append, List.not_mem_nil, or_false] at member
    rcases member with rfl | old | rfl
    · refine ⟨Nat.zero_le _, ?_⟩
      rw [List.drop_zero, List.drop_zero, Nat.sub_zero]
      exact pinned.header.head_eq near pinned'.header
    · obtain ⟨e, inside, rfl⟩ := regions_eq_ok regioned r old
      refine ⟨Nat.le_add_right _ _, ?_⟩
      rw [Nat.add_sub_cancel_left]
      exact eq_of_crc32c (near.slice _ _) ((intact e inside).trans (intact' e inside).symm)
    · refine ⟨Nat.le_add_right _ _, ?_⟩
      rw [Nat.add_sub_cancel_left]
      exact table
  have same := (checkGaps_done gaps).trans (checkGaps_done gaps').symm
  subst same
  have last : file.drop covered = file'.drop covered :=
    eq_of_zeros (by rw [List.length_drop, List.length_drop, near.length]) zeros zeros'
  have whole := checkGaps_drop_eq near.length gaps gaps' agree last
  rwa [List.drop_zero, List.drop_zero] at whole

end Contents

/-- What may happen to a file: at most four consecutive bytes change, or it loses or gains bytes at its end. -/
inductive Damaged : List Byte → List Byte → Prop
  | changed {a w w' z : List Byte} (length : w.length = w'.length) (short : w.length ≤ 4) (other : w ≠ w') :
      Damaged (a ++ w ++ z) (a ++ w' ++ z)
  | truncated {kept lost : List Byte} (some : lost ≠ []) : Damaged (kept ++ lost) kept
  | extended {kept added : List Byte} (some : added ≠ []) : Damaged kept (kept ++ added)

/-- The header of an accepted file says how long the file is. -/
theorem Sealed.length_eq {tail : List Byte} (sealed_ : Sealed file h)
    (sealed' : Sealed (file ++ tail) h') : tail = [] := by
  have same : (file ++ tail).take kHeaderSize = file.take kHeaderSize := List.take_append_of_le_length sealed_.room
  have decoded := sealed'.decoded
  rw [same, sealed_.decoded] at decoded
  have size := sealed'.size
  rw [← Except.ok.inj decoded, sealed_.size, List.length_append] at size
  exact List.eq_nil_of_length_eq_zero (by omega)

theorem not_damaged {simd simd' : Result Unit} {options options' : ReadOptions} {s s' : CollectionState}
    (full : options.verify = .full) (full' : options'.verify = .full)
    (accepted : readIndex simd file options = .ok s)
    (accepted' : readIndex simd' file' options' = .ok s') : ¬Damaged file file' := by
  obtain ⟨p, parsed, intact⟩ := readIndex_intact full accepted
  obtain ⟨p', parsed', intact'⟩ := readIndex_intact full' accepted'
  have pinned := parseHeaderAndTable_pinned parsed
  have pinned' := parseHeaderAndTable_pinned parsed'
  intro damaged
  cases damaged with
  | changed length short other =>
    have same := eq_of_intact (.of_split length short) pinned pinned' intact intact'
    exact other (List.append_cancel_left (List.append_cancel_right same))
  | truncated some => exact some (pinned'.header.length_eq pinned.header)
  | extended some => exact some (pinned.header.length_eq pinned'.header)

end VectorForge.IndexReader

namespace VectorForge.Persistence
open IndexWriter IndexReader

/-- A damaged file is rejected with a status, when all of it is verified. -/
theorem damage_is_detected {file file' : List Byte} {simd simd' : Result Unit} {options options' : ReadOptions}
    {s : CollectionState} (full : options.verify = .full) (full' : options'.verify = .full)
    (accepted : readIndex simd file options = .ok s)
    (damaged : Damaged file file') : ∃ status, readIndex simd' file' options' = Outcome.fail status := by
  have resolved : options'.verify ≠ .auto := by
    rw [full']
    decide
  have safe := readIndex_sat simd' file' resolved
  cases run : readIndex simd' file' options' with
  | ok s' => exact absurd damaged (not_damaged full full' accepted run)
  | error stop =>
    rw [run] at safe
    cases stop with
    | error status => exact ⟨status, rfl⟩
    | fault _ => exact safe.elim

theorem damage_is_detected_upserted : ∃ file, writeIndex upserted ({} : MemorySink) = .ok ⟨file⟩ ∧
    ∃ status, readIndex (.ok ()) (file ++ [0]) {} = Outcome.fail status := by
  obtain ⟨file, written, t, run, -⟩ := written_read_written {} upserted_persistable (by decide)
  exact ⟨file, written, damage_is_detected rfl rfl run (.extended (by decide))⟩

end VectorForge.Persistence
