import VectorForge.Collection.Layout

namespace VectorForge.IndexReader
open Format LittleEndian IndexWriter

section Fields

theorem slice_skip {first rest : List Byte} {offset width : Nat} (before : first.length ≤ offset) :
    ((first ++ rest).drop offset).take width = (rest.drop (offset - first.length)).take width := by
  rw [List.drop_append, List.drop_of_length_le before, List.nil_append]

theorem slice_here {field rest : List Byte} {width : Nat} (length : field.length = width) :
    ((field ++ rest).drop 0).take width = field := by
  rw [List.drop_zero, ← length, List.take_left]

/-- The header as its fields, nested to the right. -/
theorem encodeHeader_fields (h : FileHeader) (rest : List Byte) : encodeHeader h ++ rest =
    kMagic ++ (leBytes 2 h.formatMajor.toNat ++ (leBytes 2 h.formatMinor.toNat ++ (leBytes 4 kEndianTag.toNat ++
      (leBytes 8 h.flags.toNat ++ (leBytes 8 h.fileSize.toNat ++ (leBytes 8 h.sectionTableOffset.toNat ++
        (leBytes 4 h.sectionCount.toNat ++ (leBytes 4 h.sectionTableCrc32c.toNat ++ (leBytes 8 0 ++
          (leBytes 4 (crc32c (headerFields h)).toNat ++ (leBytes 4 0 ++ rest))))))))))) := by
  unfold encodeHeader
  conv_lhs => arg 1; arg 1; arg 1; unfold headerFields
  simp only [List.append_assoc]

theorem u16_field (v : UInt16) : UInt16.ofNat (leValue (leBytes 2 v.toNat)) = v := by
  rw [leValue_leBytes_of_lt v.toNat_lt, UInt16.ofNat_toNat]

theorem u32_field (v : UInt32) : UInt32.ofNat (leValue (leBytes 4 v.toNat)) = v := by
  rw [leValue_leBytes_of_lt v.toNat_lt, UInt32.ofNat_toNat]

theorem u64_field (v : UInt64) : UInt64.ofNat (leValue (leBytes 8 v.toNat)) = v := by
  rw [leValue_leBytes_of_lt v.toNat_lt, UInt64.ofNat_toNat]

/-- Reading a field at its offset in an encoded header. -/
theorem header_field {h : FileHeader} {offset width value : Nat} (fits : offset + width ≤ kHeaderSize)
    (field : ((encodeHeader h).drop offset).take width = leBytes width value) :
    getLe (encodeHeader h) offset width = .ok (leValue (leBytes width value)) := by
  rw [getLe_ok (by rw [length_encodeHeader]; exact fits), field]

theorem header_slices (h : FileHeader) :
    ((encodeHeader h).drop 8).take 2 = leBytes 2 h.formatMajor.toNat ∧
    ((encodeHeader h).drop 10).take 2 = leBytes 2 h.formatMinor.toNat ∧
    ((encodeHeader h).drop 12).take 4 = leBytes 4 kEndianTag.toNat ∧
    ((encodeHeader h).drop 16).take 8 = leBytes 8 h.flags.toNat ∧
    ((encodeHeader h).drop 24).take 8 = leBytes 8 h.fileSize.toNat ∧
    ((encodeHeader h).drop 32).take 8 = leBytes 8 h.sectionTableOffset.toNat ∧
    ((encodeHeader h).drop 40).take 4 = leBytes 4 h.sectionCount.toNat ∧
    ((encodeHeader h).drop 44).take 4 = leBytes 4 h.sectionTableCrc32c.toNat ∧
    ((encodeHeader h).drop 48).take 8 = leBytes 8 0 ∧
    ((encodeHeader h).drop 56).take 4 = leBytes 4 (crc32c (headerFields h)).toNat ∧
    ((encodeHeader h).drop 60).take 4 = leBytes 4 0 := by
  have fields := encodeHeader_fields h []
  rw [List.append_nil] at fields
  rw [fields]
  generalize (crc32c (headerFields h)).toNat = crc
  have magic : kMagic.length = 8 := rfl
  refine ⟨?_, ?_, ?_, ?_, ?_, ?_, ?_, ?_, ?_, ?_, ?_⟩ <;>
    simp (disch := simp [magic]) only [slice_skip, magic, length_leBytes, Nat.reduceSub, slice_here]

theorem decodeHeader_encodeHeader (h : FileHeader) :
    decodeHeader (encodeHeader h) = .ok { h with headerCrc32c := crc32c (headerFields h) } := by
  obtain ⟨major, minor, _, flags, size, table, count, tableCrc, _, headerCrc, _⟩ := header_slices h
  unfold decodeHeader
  simp only [header_field (by decide) major, header_field (by decide) minor, header_field (by decide) flags,
    header_field (by decide) size, header_field (by decide) table, header_field (by decide) count,
    header_field (by decide) tableCrc, header_field (by decide) headerCrc, Outcome.ok_bind, Outcome.pure_eq_ok,
    u16_field, u32_field, u64_field]

theorem headerReservedZero_encodeHeader (h : FileHeader) : headerReservedZero (encodeHeader h) = .ok true := by
  obtain ⟨_, _, _, _, _, _, _, _, wide, _, narrow⟩ := header_slices h
  rw [headerReservedZero, header_field (by decide) wide, Outcome.ok_bind, header_field (by decide) narrow,
    Outcome.ok_bind]
  rfl

/-- A header in front of the right number of bytes is accepted. -/
theorem parseHeader_encodeHeader {h : FileHeader} {rest : List Byte} (major : h.formatMajor = kFormatMajor)
    (size : h.fileSize.toNat = kHeaderSize + rest.length) (flags : h.flags &&& ~~~kKnownFlags = 0)
    (some : h.sectionCount.toNat ≠ 0) (few : h.sectionCount.toNat ≤ kMaxSections) :
    parseHeader (encodeHeader h ++ rest) = .ok { h with headerCrc32c := crc32c (headerFields h) } := by
  have length : (encodeHeader h).length = kHeaderSize := length_encodeHeader h
  have head : ((encodeHeader h ++ rest).drop 0).take kHeaderSize = encodeHeader h := slice_here length
  have covered : ((encodeHeader h ++ rest).drop 0).take kHeaderCrcCoverage = headerFields h := by
    rw [encodeHeader, List.append_assoc, List.append_assoc]
    exact slice_here (length_headerFields h)
  have magic : ((encodeHeader h).drop 0).take kMagic.length = kMagic := by
    have fields := encodeHeader_fields h []
    rw [List.append_nil] at fields
    rw [fields]
    exact slice_here rfl
  obtain ⟨_, _, endian, _⟩ := header_slices h
  have tag : leValue (leBytes 4 kEndianTag.toNat) = kEndianTag.toNat := leValue_leBytes_of_lt kEndianTag.toNat_lt
  have total : (encodeHeader h ++ rest).length = kHeaderSize + rest.length := by rw [List.length_append, length]
  have countOk : ¬(h.sectionCount.toNat = 0 ∨ h.sectionCount.toNat > kMaxSections) := by omega
  have notSwapped : ¬kEndianTag.toNat = kEndianTagSwapped.toNat := by decide
  unfold parseHeader
  rw [if_neg (by omega), Outcome.slice_ok (by omega), Outcome.ok_bind, head,
    Outcome.slice_ok (by rw [length]; decide),
    Outcome.ok_bind, magic, if_neg (by simp), header_field (by decide) endian, Outcome.ok_bind,
    tag, if_neg notSwapped,
    if_neg (by simp), decodeHeader_encodeHeader, Outcome.ok_bind]
  simp only [major, ne_eq, not_true_eq_false, if_false]
  rw [Outcome.slice_ok (by simp only [kHeaderCrcCoverage, kHeaderSize] at total ⊢; omega), Outcome.ok_bind, covered,
    headerReservedZero_encodeHeader, Outcome.ok_bind]
  simp only [not_true_eq_false, if_false, Bool.not_true, Bool.false_eq_true, size, total, flags, if_neg countOk]
  rfl

end Fields

section Placed

/-- The entry of a part in a file that holds its payload. -/
structure Placed (file : List Byte) (p : Part) (e : SectionEntry) : Prop where
  type : e.type = p.type.toU32
  flags : e.flags = 0
  bytes : (file.drop e.offset.toNat).take e.size.toNat = p.payload
  size : e.size.toNat = p.payload.length
  crc : e.crc32c = crc32c p.payload
  offset : p.alignment ∣ e.offset.toNat
  inside : e.offset.toNat + e.size.toNat ≤ file.length
  behind : kHeaderSize ≤ e.offset.toNat

theorem dvd_ceilTo (position alignment : Nat) : alignment ∣ ceilTo position alignment := Dvd.intro_left _ rfl

/-- Every part of a laid out body is where its entry says. -/
theorem placed_from : ∀ {parts : List Part} {position : Nat} {before after : List Byte}, Aligned parts →
    before.length = position → kHeaderSize ≤ position → endFrom position parts ≤ 2 ^ 63 →
    List.Forall₂ (Placed (before ++ (bodyFrom position parts ++ after))) parts (entriesFrom position parts)
  | [], _, _, _, _, _, _, _ => .nil
  | p :: rest, position, before, after, aligned, length, behind, bound => by
    have positive := aligned.positive (List.mem_cons_self ..)
    have up := le_ceilTo (o := position) positive
    have later := le_endFrom (l := rest) (o := ceilTo position p.alignment + p.payload.length) aligned.tail
    rw [endFrom] at bound
    have offset : (UInt64.ofNat (ceilTo position p.alignment)).toNat = ceilTo position p.alignment := by
      rw [UInt64.toNat_ofNat', Nat.mod_eq_of_lt (by omega)]
    have size : (UInt64.ofNat p.payload.length).toNat = p.payload.length := by
      rw [UInt64.toNat_ofNat', Nat.mod_eq_of_lt (by omega)]
    have regroup : before ++ (bodyFrom position (p :: rest) ++ after) =
        (before ++ List.replicate (ceilTo position p.alignment - position) 0 ++ p.payload) ++
          (bodyFrom (ceilTo position p.alignment + p.payload.length) rest ++ after) := by
      rw [bodyFrom]
      simp only [List.append_assoc]
    have front : (before ++ List.replicate (ceilTo position p.alignment - position) 0).length =
        ceilTo position p.alignment := by
      rw [List.length_append, List.length_replicate]
      omega
    rw [entriesFrom, regroup]
    refine .cons ⟨rfl, rfl, ?_, size, rfl, by rw [offset]; exact dvd_ceilTo _ _, ?_, by rw [offset]; omega⟩ ?_
    · rw [offset, size, List.append_assoc, slice_skip (by omega), front, Nat.sub_self]
      exact slice_here rfl
    · simp only [offset, size, List.length_append] at front ⊢
      omega
    · exact placed_from aligned.tail (by rw [List.length_append, front]) (by omega) bound

theorem placed_fileOf (flags : UInt64) {parts : List Part} (aligned : Aligned parts)
    (bound : endFrom kHeaderSize parts ≤ 2 ^ 63) :
    List.Forall₂ (Placed (fileOf flags parts)) parts (entriesFrom kHeaderSize parts) :=
  placed_from aligned (length_encodeHeader _) le_rfl bound

/-- What holds of every pair holds of every entry. -/
theorem forall₂_right {α β : Type} {R : α → β → Prop} {as : List α} {bs : List β} (related : List.Forall₂ R as bs) :
    ∀ b ∈ bs, ∃ a ∈ as, R a b := by
  induction related with
  | nil => intro b member; cases member
  | cons first _ ih =>
    intro b member
    rcases List.mem_cons.mp member with rfl | old
    · exact ⟨_, List.mem_cons_self .., first⟩
    · obtain ⟨a, inAs, holds⟩ := ih b old
      exact ⟨a, List.mem_cons_of_mem _ inAs, holds⟩

/-- Looking a type up in the entries is looking it up in the parts. -/
theorem find_placed {file : List Byte} {parts : List Part} {entries : List SectionEntry} (t : SectionType)
    (placed : List.Forall₂ (Placed file) parts entries) :
    match parts.find? (fun p => decide (p.type = t)) with
    | none => (entries.find? fun e => decide (e.type = t.toU32)) = none
    | some p => ∃ e, (entries.find? fun e => decide (e.type = t.toU32)) = some e ∧ Placed file p e := by
  induction placed with
  | nil => rfl
  | @cons p e parts entries first _ ih =>
    have same : e.type = t.toU32 ↔ p.type = t := by
      rw [first.type]
      constructor
      · intro equal
        cases p with
        | mk type alignment payload =>
          simp only at equal ⊢
          cases type <;> cases t <;>
            first | rfl | (simp only [SectionType.toU32, SectionType.value] at equal; cases equal)
      · intro equal
        rw [equal]
    by_cases here : p.type = t
    · have found : e.type = t.toU32 := same.mpr here
      simp only [List.find?_cons, here, found, decide_true]
      exact ⟨e, rfl, first⟩
    · have other : ¬e.type = t.toU32 := fun h => here (same.mp h)
      simp only [List.find?_cons, here, other, decide_false]
      exact ih

end Placed

section Table
variable {file : List Byte} {parts : List Part} {entries : List SectionEntry}

theorem flags_clear : (0 : UInt32) &&& ~~~kSectionOptional = 0 := by decide

/-- One entry of a well-formed table. -/
theorem parseEntry_yields {p : Part} {e : SectionEntry} {k : Nat} {t : TableState} {rest : List Byte}
    (placed : Placed file p e) (page : 8 ∣ p.alignment) (small : file.length < 2 ^ 64)
    (reader : t.reader = ⟨sectionEntryBytes e ++ rest⟩) (table : TableOk file t.entries t.byType)
    (fresh : ∀ x ∈ t.entries, x.type ≠ e.type) :
    Outcome.Yields (parseEntry file k t) fun next => next.reader = ⟨rest⟩ ∧ next.entries = t.entries ++ [e] := by
  have inside := placed.inside
  have behind := placed.behind
  have eight : e.offset.toNat % kSectionAlignment = 0 := Nat.mod_eq_zero_of_dvd (page.trans placed.offset)
  have sum : checkedAdd 64 e.offset.toNat e.size.toNat = some (e.offset.toNat + e.size.toNat) :=
    (checkedAdd_eq_some e.size.toNat_lt).mpr ⟨by omega, rfl⟩
  have bounds : ¬(e.offset.toNat < kHeaderSize ∨ e.offset.toNat + e.size.toNat > file.length ∨
      e.offset.toNat % kSectionAlignment ≠ 0) := by omega
  have known := value_le p.type
  have value : e.type.toNat = p.type.value := type_eq_iff.mp placed.type
  have range : ¬(e.type.toNat = 0 ∨ e.type.toNat > kMaxKnownSectionType) := by omega
  have room : e.type.toNat < t.byType.length := by rw [table.slots]; omega
  have free : t.byType[e.type.toNat] = none := by
    have named := table.named p.type
    rw [← value, List.getElem?_eq_getElem room] at named
    rw [Option.some.inj named, List.findIdx?_eq_none_iff]
    intro x member
    rw [← placed.type]
    simpa using fresh x member
  unfold parseEntry
  rw [reader, decodeSectionEntry_append]
  simp only [Bool.not_true, Bool.false_eq_true, if_false, sum, if_neg bounds, placed.flags, flags_clear, ne_eq,
    not_true_eq_false, if_neg range, Outcome.index_ok room, Outcome.ok_bind, free]
  exact ⟨_, rfl, rfl, rfl⟩

theorem take_flatMap_step {e : SectionEntry} {k : Nat} (found : entries[k]? = some e) :
    (entries.drop k).flatMap sectionEntryBytes =
      sectionEntryBytes e ++ (entries.drop (k + 1)).flatMap sectionEntryBytes := by
  have inside : k < entries.length := (List.getElem?_eq_some_iff.mp found).1
  have value : entries[k] = e := (List.getElem?_eq_some_iff.mp found).2
  rw [List.drop_eq_getElem_cons inside, value, List.flatMap_cons]

/-- The loop over the table reads back the entries. -/
theorem parseTable_yields (placed : List.Forall₂ (Placed file) parts entries) (aligned : Aligned parts)
    (small : file.length < 2 ^ 64) (distinct : (entries.map (·.type)).Nodup) :
    Outcome.Yields (Outcome.loop (parseEntry file) entries.length 0
      { reader := ⟨entries.flatMap sectionEntryBytes⟩ }) fun t => t.entries = entries := by
  have run := Outcome.Yields.loop (f := parseEntry file) (n := entries.length) (i := 0)
    (s := { reader := ⟨entries.flatMap sectionEntryBytes⟩ })
    (fun k t => (t.reader = ⟨(entries.drop k).flatMap sectionEntryBytes⟩ ∧ t.entries = entries.take k) ∧
      t.entries.length = k ∧ TableOk file t.entries t.byType)
    ⟨⟨by simp, rfl⟩, rfl, by simp, by simp, fun t => by cases t <;> rfl⟩ (by
    rintro k t - high ⟨⟨reader, taken⟩, length, table⟩
    have inside : k < entries.length := by omega
    have found : entries[k]? = some entries[k] := List.getElem?_eq_getElem inside
    obtain ⟨p, inParts, at_⟩ := forall₂_right placed entries[k] (List.getElem_mem inside)
    have fresh : ∀ x ∈ t.entries, x.type ≠ entries[k].type := by
      intro x member same
      rw [taken] at member
      obtain ⟨j, bound, rfl⟩ := List.mem_iff_getElem.mp member
      rw [List.length_take] at bound
      rw [List.getElem_take] at same
      have jIn : j < entries.length := by omega
      have inJ : j < (entries.map (·.type)).length := by simpa using jIn
      have inK : k < (entries.map (·.type)).length := by simpa using inside
      have equal := (List.Nodup.getElem_inj_iff distinct).mp
        (show (entries.map (·.type))[j] = (entries.map (·.type))[k] by simpa using same)
      omega
    rw [take_flatMap_step found] at reader
    have step := parseEntry_yields (k := k) at_ (aligned p inParts).2 small reader table fresh
    refine (step.mono ?_).and_sat (parseEntry_sat length table)
    rintro next ⟨readerNext, entriesNext⟩
    refine ⟨readerNext, ?_⟩
    rw [entriesNext, taken, List.take_add_one, found]
    rfl)
  refine run.mono ?_
  rintro t ⟨⟨_, taken⟩, _⟩
  rw [taken, Nat.zero_add, List.take_length]

end Table

section Gaps

/-- Begin and end of the sections from `position` on. -/
def regionsFrom : Nat → List Part → List (Nat × Nat)
  | _, [] => []
  | position, p :: rest =>
    (ceilTo position p.alignment, ceilTo position p.alignment + p.payload.length) ::
      regionsFrom (ceilTo position p.alignment + p.payload.length) rest

theorem regions_eq : ∀ {parts : List Part} {position : Nat}, Aligned parts → endFrom position parts ≤ 2 ^ 63 →
    regions (entriesFrom position parts) = .ok (regionsFrom position parts)
  | [], _, _, _ => rfl
  | p :: rest, position, aligned, bound => by
    have later := le_endFrom (l := rest) (o := ceilTo position p.alignment + p.payload.length) aligned.tail
    rw [endFrom] at bound
    have offset : (UInt64.ofNat (ceilTo position p.alignment)).toNat = ceilTo position p.alignment := by
      rw [UInt64.toNat_ofNat', Nat.mod_eq_of_lt (by omega)]
    have size : (UInt64.ofNat p.payload.length).toNat = p.payload.length := by
      rw [UInt64.toNat_ofNat', Nat.mod_eq_of_lt (by omega)]
    rw [entriesFrom, regions, offset, size, Outcome.add_ok (by omega), Outcome.ok_bind,
      regions_eq aligned.tail bound,
      Outcome.ok_bind]
    rfl

theorem regionsFrom_bounds : ∀ {parts : List Part} {o : Nat}, Aligned parts → ∀ r ∈ regionsFrom o parts,
    o ≤ r.1 ∧ r.1 ≤ r.2 ∧ r.2 ≤ endFrom o parts
  | [], _, _, r, member => by cases member
  | p :: rest, position, aligned, r, member => by
    have up := le_ceilTo (o := position) (aligned.positive (List.mem_cons_self ..))
    have later := le_endFrom (l := rest) (o := ceilTo position p.alignment + p.payload.length) aligned.tail
    rw [endFrom]
    rcases List.mem_cons.mp member with rfl | old
    · exact ⟨up, Nat.le_add_right _ _, later⟩
    · have bounds := regionsFrom_bounds aligned.tail r old
      exact ⟨by omega, bounds.2.1, bounds.2.2⟩

theorem regionsFrom_sorted : ∀ {parts : List Part} {position : Nat}, Aligned parts →
    (regionsFrom position parts).Pairwise fun a b => regionLe a b = true
  | [], _, _ => .nil
  | p :: rest, position, aligned => by
    refine .cons ?_ (regionsFrom_sorted aligned.tail)
    intro r member
    have bounds := regionsFrom_bounds aligned.tail r member
    simp only [regionLe, decide_eq_true_eq]
    omega

/-- Zero padding in front of every section is accepted. -/
theorem checkGaps_from : ∀ {parts : List Part} {o : Nat} (before after : List Byte) (more : List (Nat × Nat)),
    Aligned parts → before.length = o →
    checkGaps (before ++ (bodyFrom o parts ++ after)) o (regionsFrom o parts ++ more) =
      checkGaps (before ++ (bodyFrom o parts ++ after)) (endFrom o parts) more
  | [], _, _, _, _, _, _ => rfl
  | p :: rest, position, before, after, more, aligned, length => by
    have up := le_ceilTo (o := position) (aligned.positive (List.mem_cons_self ..))
    have regroup : before ++ (bodyFrom position (p :: rest) ++ after) =
        (before ++ List.replicate (ceilTo position p.alignment - position) 0 ++ p.payload) ++
          (bodyFrom (ceilTo position p.alignment + p.payload.length) rest ++ after) := by
      rw [bodyFrom]
      simp only [List.append_assoc]
    have front : (before ++ List.replicate (ceilTo position p.alignment - position) 0 ++ p.payload).length =
        ceilTo position p.alignment + p.payload.length := by
      rw [List.length_append, List.length_append, List.length_replicate]
      omega
    have gap : ((before ++ (bodyFrom position (p :: rest) ++ after)).drop position).take
        (ceilTo position p.alignment - position) = List.replicate (ceilTo position p.alignment - position) 0 := by
      rw [regroup, List.append_assoc, List.append_assoc, slice_skip (by omega), length, Nat.sub_self]
      exact slice_here List.length_replicate
    have room : position + (ceilTo position p.alignment - position) ≤
        (before ++ (bodyFrom position (p :: rest) ++ after)).length := by
      rw [regroup, List.length_append, front]
      omega
    rw [regionsFrom, List.cons_append, checkGaps, if_neg (by omega), Outcome.sub_ok up, Outcome.ok_bind,
      Outcome.slice_ok room, Outcome.ok_bind, gap, if_neg (by simp), endFrom, regroup]
    exact checkGaps_from _ _ _ aligned.tail front

end Gaps

/-- The header that the parser returns for a written file. -/
def parsedHeader (flags : UInt64) (parts : List Part) : FileHeader :=
  { headerOf flags parts with headerCrc32c := crc32c (headerFields (headerOf flags parts)) }

section File
variable {flags : UInt64} {parts : List Part}

/-- The sections a writer may lay out: aligned, few, of different types and not too long. -/
structure Plannable (parts : List Part) : Prop where
  aligned : Aligned parts
  bound : endFrom kHeaderSize parts ≤ 2 ^ 62
  some : parts ≠ []
  few : parts.length ≤ kMaxSections
  distinct : (parts.map (·.type)).Nodup

theorem Plannable.tableOffset_lt (ok : Plannable parts) : tableOffset parts < 2 ^ 62 + 8 := by
  have near : tableOffset parts < endFrom kHeaderSize parts + 8 := ceilTo_lt (by decide)
  have bound := ok.bound
  omega

theorem Plannable.table_size (ok : Plannable parts) : parts.length * kSectionEntrySize ≤ 2048 :=
  Nat.mul_le_mul_right kSectionEntrySize ok.few

theorem Plannable.fileSize (ok : Plannable parts) :
    (headerOf flags parts).fileSize.toNat = tableOffset parts + parts.length * kSectionEntrySize := by
  have near := ok.tableOffset_lt
  have size := ok.table_size
  rw [headerOf, length_entriesFrom, UInt64.toNat_ofNat', Nat.mod_eq_of_lt (by omega)]

theorem Plannable.tableAt (ok : Plannable parts) :
    (headerOf flags parts).sectionTableOffset.toNat = tableOffset parts := by
  have near := ok.tableOffset_lt
  rw [headerOf, UInt64.toNat_ofNat', Nat.mod_eq_of_lt (by omega)]

theorem Plannable.sectionCount (flags : UInt64) (ok : Plannable parts) :
    (headerOf flags parts).sectionCount.toNat = parts.length := by
  have few : parts.length ≤ 64 := ok.few
  rw [headerOf, length_entriesFrom, UInt32.toNat_ofNat', Nat.mod_eq_of_lt (by omega)]

theorem Plannable.header (ok : Plannable parts) (known : flags &&& ~~~kKnownFlags = 0) :
    parseHeader (fileOf flags parts) = .ok (parsedHeader flags parts) := by
  have body := length_bodyFrom (o := kHeaderSize) ok.aligned
  have order := le_tableOffset parts
  have few := ok.few
  have count := ok.sectionCount flags
  have nonzero : parts.length ≠ 0 := by simpa using ok.some
  refine parseHeader_encodeHeader rfl ?_ known (by omega) (by omega)
  rw [ok.fileSize]
  simp only [List.length_append, List.length_replicate, length_tableBytes]
  omega

theorem Plannable.table (ok : Plannable parts) :
    ((fileOf flags parts).drop (tableOffset parts)).take (parts.length * kSectionEntrySize) = tableBytes parts := by
  have body := length_bodyFrom (o := kHeaderSize) ok.aligned
  have order := le_tableOffset parts
  have split : fileOf flags parts = (encodeHeader (headerOf flags parts) ++ (bodyFrom kHeaderSize parts ++
      List.replicate (tableOffset parts - endFrom kHeaderSize parts) 0)) ++ (tableBytes parts ++ []) := by
    rw [fileOf, List.append_nil]
    simp only [List.append_assoc]
  have front : (encodeHeader (headerOf flags parts) ++ (bodyFrom kHeaderSize parts ++
      List.replicate (tableOffset parts - endFrom kHeaderSize parts) 0)).length = tableOffset parts := by
    simp only [List.length_append, length_encodeHeader, List.length_replicate]
    omega
  rw [split, slice_skip (by omega), front, Nat.sub_self]
  exact slice_here (length_tableBytes parts)

theorem Plannable.padding (ok : Plannable parts) :
    ((fileOf flags parts).drop (endFrom kHeaderSize parts)).take (tableOffset parts - endFrom kHeaderSize parts) =
      List.replicate (tableOffset parts - endFrom kHeaderSize parts) 0 := by
  have body := length_bodyFrom (o := kHeaderSize) ok.aligned
  have front : (encodeHeader (headerOf flags parts) ++ bodyFrom kHeaderSize parts).length =
      endFrom kHeaderSize parts := by
    rw [List.length_append, length_encodeHeader]
    omega
  rw [fileOf, ← List.append_assoc, slice_skip (by omega), front, Nat.sub_self]
  exact slice_here List.length_replicate

/-- Header, sections and table, as the parser lists them. -/
def allRegions (parts : List Part) : List (Nat × Nat) :=
  (0, kHeaderSize) :: regionsFrom kHeaderSize parts ++
    [(tableOffset parts, tableOffset parts + parts.length * kSectionEntrySize)]

theorem Plannable.sorted (ok : Plannable parts) : (allRegions parts).Pairwise fun a b => regionLe a b = true := by
  have bounds := regionsFrom_bounds (o := kHeaderSize) ok.aligned
  have order := le_tableOffset parts
  have start := le_endFrom (o := kHeaderSize) ok.aligned
  have positive : 0 < kHeaderSize := by decide
  rw [allRegions, List.cons_append, List.pairwise_cons, List.pairwise_append]
  refine ⟨?_, regionsFrom_sorted ok.aligned, List.pairwise_singleton _ _, ?_⟩
  · intro r member
    simp only [regionLe, decide_eq_true_eq]
    rcases List.mem_append.mp member with old | last
    · have low := (bounds r old).1
      omega
    · rw [List.mem_singleton.mp last]
      simp only
      omega
  · intro a old b last
    have low := bounds a old
    rw [List.mem_singleton.mp last]
    simp only [regionLe, decide_eq_true_eq]
    omega

theorem Plannable.gaps (ok : Plannable parts) : checkGaps (fileOf flags parts) 0 (allRegions parts) =
    .ok (fileOf flags parts).length := by
  have order := le_tableOffset parts
  have total := length_fileOf flags ok.aligned
  have sections := checkGaps_from (o := kHeaderSize) (encodeHeader (headerOf flags parts))
    (List.replicate (tableOffset parts - endFrom kHeaderSize parts) 0 ++ tableBytes parts)
    [(tableOffset parts, tableOffset parts + parts.length * kSectionEntrySize)] ok.aligned
    (length_encodeHeader _)
  rw [show encodeHeader (headerOf flags parts) ++ (bodyFrom kHeaderSize parts ++
    (List.replicate (tableOffset parts - endFrom kHeaderSize parts) 0 ++ tableBytes parts)) =
    fileOf flags parts from rfl]
    at sections
  rw [allRegions, List.cons_append, checkGaps, if_neg (by omega), Outcome.sub_ok le_rfl, Outcome.ok_bind,
    Outcome.slice_ok (by omega), Outcome.ok_bind, if_neg (by simp), sections, checkGaps, if_neg (by omega),
    Outcome.sub_ok order, Outcome.ok_bind, Outcome.slice_ok (by omega), Outcome.ok_bind,
    ok.padding, if_neg (by simp),
    checkGaps, total]

theorem toU32_injective : Function.Injective SectionType.toU32 := by
  intro a b same
  cases a <;> cases b <;> first | rfl | (simp only [SectionType.toU32, SectionType.value] at same; cases same)

theorem types_entriesFrom : ∀ {parts : List Part} {position : Nat},
    (entriesFrom position parts).map (·.type) = (parts.map (·.type)).map SectionType.toU32
  | [], _ => rfl
  | p :: rest, position => by rw [entriesFrom, List.map_cons, List.map_cons, List.map_cons, types_entriesFrom]

/-- The table of a written file is accepted and gives its entries back. -/
theorem Plannable.parsed (ok : Plannable parts) (known : flags &&& ~~~kKnownFlags = 0) :
    Outcome.Yields (parseHeaderAndTable (fileOf flags parts)) fun p =>
      p.header = parsedHeader flags parts ∧ p.entries = entriesFrom kHeaderSize parts := by
  have total := length_fileOf flags ok.aligned
  have near := ok.tableOffset_lt
  have size := ok.table_size
  have bound := ok.bound
  have order := le_tableOffset parts
  have start := le_endFrom (o := kHeaderSize) ok.aligned
  have eight : tableOffset parts % kSectionAlignment = 0 := Nat.mod_eq_zero_of_dvd (dvd_ceilTo _ _)
  have sum : checkedAdd 64 (tableOffset parts) (parts.length * kSectionEntrySize) =
      Option.some (tableOffset parts + parts.length * kSectionEntrySize) :=
    (checkedAdd_eq_some (by omega)).mpr ⟨by omega, rfl⟩
  have inBounds : ¬(tableOffset parts < kHeaderSize ∨ tableOffset parts + parts.length * kSectionEntrySize >
      (fileOf flags parts).length ∨ tableOffset parts % kSectionAlignment ≠ 0) := by omega
  have typesDistinct : ((entriesFrom kHeaderSize parts).map (·.type)).Nodup := by
    rw [types_entriesFrom]
    exact ok.distinct.map toU32_injective
  have loop := parseTable_yields (placed_fileOf flags ok.aligned (by omega)) ok.aligned (by omega)
    typesDistinct
  rw [length_entriesFrom] at loop
  unfold parseHeaderAndTable
  rw [ok.header known, Outcome.ok_bind]
  simp only [show (parsedHeader flags parts).sectionCount = (headerOf flags parts).sectionCount from rfl,
    show (parsedHeader flags parts).sectionTableOffset = (headerOf flags parts).sectionTableOffset from rfl,
    show (parsedHeader flags parts).sectionTableCrc32c = crc32c (tableBytes parts) from rfl,
    ok.sectionCount, ok.tableAt]
  rw [Outcome.mul_ok (by omega), Outcome.ok_bind, sum]
  simp only [if_neg inBounds]
  rw [Outcome.slice_ok (by omega), Outcome.ok_bind, ok.table, if_neg (by simp)]
  refine Outcome.Yields.bind loop ?_
  intro t read
  rw [read, regions_eq ok.aligned (by omega), Outcome.ok_bind,
    show (0, kHeaderSize) :: regionsFrom kHeaderSize parts ++
      [(tableOffset parts, tableOffset parts + parts.length * kSectionEntrySize)] = allRegions parts from rfl,
    List.mergeSort_of_pairwise ok.sorted, ok.gaps, Outcome.ok_bind, Outcome.sub_ok le_rfl, Outcome.ok_bind,
    Nat.sub_self, Outcome.slice_ok (by omega), Outcome.ok_bind, if_neg (by simp)]
  exact Outcome.Yields.ok ⟨rfl, rfl⟩

end File
end VectorForge.IndexReader
