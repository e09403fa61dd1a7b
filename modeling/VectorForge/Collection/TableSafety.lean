import VectorForge.Collection.IndexReader

namespace VectorForge.IndexReader
open Format LittleEndian

variable {file : List Byte}

theorem getLe_ok {bytes : List Byte} {offset width : Nat} (fits : offset + width ≤ bytes.length) :
    getLe bytes offset width = .ok (leValue ((bytes.drop offset).take width)) := by
  rw [getLe, Outcome.slice_ok fits, Outcome.ok_bind, Outcome.pure_eq_ok]

/-- Every fixed field lies inside a header of full size. -/
theorem decodeHeader_total {head : List Byte} (length : head.length = kHeaderSize) :
    ∃ h, decodeHeader head = .ok h := by
  have field (offset width : Nat) (fits : offset + width ≤ kHeaderSize) :
      getLe head offset width = .ok (leValue ((head.drop offset).take width)) := getLe_ok (length ▸ fits)
  unfold decodeHeader
  simp only [field 8 2 (by decide), field 10 2 (by decide), field 16 8 (by decide), field 24 8 (by decide),
    field 32 8 (by decide), field 40 4 (by decide), field 44 4 (by decide), field 56 4 (by decide),
    Outcome.ok_bind, Outcome.pure_eq_ok]
  exact ⟨_, rfl⟩

theorem headerReservedZero_total {head : List Byte} (length : head.length = kHeaderSize) :
    ∃ b, headerReservedZero head = .ok b := by
  rw [headerReservedZero, getLe_ok (by rw [length]; decide), Outcome.ok_bind, getLe_ok (by rw [length]; decide),
    Outcome.ok_bind]
  exact ⟨_, rfl⟩

/-- What an accepted header says about the file. -/
structure HeaderOk (file : List Byte) (h : FileHeader) : Prop where
  size : h.fileSize.toNat = file.length
  room : kHeaderSize ≤ file.length
  count : h.sectionCount.toNat ≤ kMaxSections

theorem parseHeader_sat : Outcome.Sat (parseHeader file) (HeaderOk file) := by
  unfold parseHeader
  split
  · exact True.intro
  next room =>
  have length : ((file.drop 0).take kHeaderSize).length = kHeaderSize := by
    rw [List.length_take, List.length_drop]
    omega
  rw [Outcome.slice_ok (by omega), Outcome.ok_bind]
  generalize (file.drop 0).take kHeaderSize = head at length ⊢
  rw [Outcome.slice_ok (by rw [length]; decide), Outcome.ok_bind]
  split
  · exact True.intro
  rw [getLe_ok (by rw [length]; decide), Outcome.ok_bind]
  split
  · exact True.intro
  split
  · exact True.intro
  obtain ⟨h, decoded⟩ := decodeHeader_total length
  rw [decoded, Outcome.ok_bind]
  split
  · exact True.intro
  rw [Outcome.slice_ok (by simp only [kHeaderSize, kHeaderCrcCoverage] at room ⊢; omega), Outcome.ok_bind]
  split
  · exact True.intro
  obtain ⟨zero, reserved⟩ := headerReservedZero_total length
  rw [reserved, Outcome.ok_bind]
  split
  · exact True.intro
  split
  · exact True.intro
  next size =>
  split
  · exact True.intro
  split
  · exact True.intro
  next count =>
  exact ⟨by simpa using size, by omega, by omega⟩

/-- A section that lies inside the file, behind the header. -/
structure EntryOk (file : List Byte) (e : SectionEntry) : Prop where
  inside : e.offset.toNat + e.size.toNat ≤ file.length
  behind : kHeaderSize ≤ e.offset.toNat

/-- The directory by type names the first entry of each known type. -/
structure TableOk (file : List Byte) (entries : List SectionEntry) (byType : List (Option Nat)) : Prop where
  sections : ∀ e ∈ entries, EntryOk file e
  slots : byType.length = kMaxKnownSectionType + 1
  named : ∀ t : SectionType, byType[t.value]? = some (entries.findIdx? fun e => decide (e.type = t.toU32))

theorem type_eq_iff {e : SectionEntry} {t : SectionType} : e.type = t.toU32 ↔ e.type.toNat = t.value := by
  constructor
  · intro same
    rw [same]
    cases t <;> rfl
  · intro same
    rw [← UInt32.ofNat_toNat (x := e.type), same]
    rfl

theorem value_le (t : SectionType) : t.value ≤ kMaxKnownSectionType ∧ t.value ≠ 0 := by
  cases t <;> decide

theorem TableOk.skip {entries : List SectionEntry} {byType : List (Option Nat)} {e : SectionEntry}
    (table : TableOk file entries byType) (ok : EntryOk file e)
    (unknown : e.type.toNat = 0 ∨ e.type.toNat > kMaxKnownSectionType) : TableOk file (entries ++ [e]) byType := by
  refine ⟨?_, table.slots, ?_⟩
  · intro x member
    rcases List.mem_append.mp member with old | new
    · exact table.sections x old
    · rw [List.mem_singleton.mp new]; exact ok
  · intro t
    have known := value_le t
    have other : ¬e.type = t.toU32 := by
      rw [type_eq_iff]
      omega
    rw [table.named, List.findIdx?_append]
    simp [other]

theorem TableOk.next {entries : List SectionEntry} {byType : List (Option Nat)} {e : SectionEntry}
    (table : TableOk file entries byType) (ok : EntryOk file e) (free : byType[e.type.toNat]? = some none) :
    TableOk file (entries ++ [e]) (byType.set e.type.toNat (some entries.length)) := by
  have inside : e.type.toNat < byType.length := (List.getElem?_eq_some_iff.mp free).1
  refine ⟨?_, by rw [List.length_set, table.slots], ?_⟩
  · intro x member
    rcases List.mem_append.mp member with old | new
    · exact table.sections x old
    · rw [List.mem_singleton.mp new]; exact ok
  · intro t
    rw [List.getElem?_set, List.findIdx?_append]
    have known := value_le t
    by_cases same : e.type = t.toU32
    · have value := type_eq_iff.mp same
      have none : entries.findIdx? (fun e => decide (e.type = t.toU32)) = none := by
        have named := table.named t
        rw [← value, free] at named
        exact (Option.some.inj named).symm
      rw [if_pos value, if_pos inside, none]
      simp [same]
    · have value : ¬e.type.toNat = t.value := fun h => same (type_eq_iff.mpr h)
      rw [if_neg value, table.named]
      simp [same]

theorem parseEntry_sat {k : Nat} {t : TableState} (count : t.entries.length = k)
    (table : TableOk file t.entries t.byType) :
    Outcome.Sat (parseEntry file k t) fun t => t.entries.length = k + 1 ∧ TableOk file t.entries t.byType := by
  unfold parseEntry
  split
  · exact True.intro
  next e reservedZero reader _ =>
  split
  · exact True.intro
  simp only
  split
  · exact True.intro
  next stop sum =>
  obtain ⟨_, rfl⟩ := (checkedAdd_eq_some e.size.toNat_lt).mp sum
  split
  · exact True.intro
  next bounds =>
  have ok : EntryOk file e := ⟨by omega, by omega⟩
  split
  · exact True.intro
  split
  · next unknown =>
    split
    · exact True.intro
    · exact ⟨by simp [count], table.skip ok unknown⟩
  next known =>
  have inside : e.type.toNat < t.byType.length := by rw [table.slots]; omega
  rw [Outcome.index_ok inside, Outcome.ok_bind]
  split
  · exact True.intro
  · next free =>
    refine ⟨by simp [count], ?_⟩
    rw [← count]
    exact table.next ok (by rw [List.getElem?_eq_getElem inside, free])

theorem regions_sat : ∀ {entries : List SectionEntry}, (∀ e ∈ entries, EntryOk file e) → file.length < 2 ^ 64 →
    Outcome.Sat (regions entries) fun all => ∀ r ∈ all, r.1 ≤ r.2 ∧ r.2 ≤ file.length
  | [], _, _ => by
    rw [regions, Outcome.Sat.ok_iff]
    intro r member
    cases member
  | e :: rest, each, small => by
    have first := each e (List.mem_cons_self ..)
    rw [regions, Outcome.add_ok (by have := first.inside; omega), Outcome.ok_bind]
    refine Outcome.Sat.bind (regions_sat (fun x h => each x (List.mem_cons_of_mem _ h)) small) ?_
    intro more _ inside
    rw [Outcome.pure_eq_ok, Outcome.Sat.ok_iff]
    intro r member
    rcases List.mem_cons.mp member with rfl | old
    · exact ⟨Nat.le_add_right _ _, first.inside⟩
    · exact inside r old

theorem checkGaps_sat : ∀ {all : List (Nat × Nat)} {covered : Nat}, (∀ r ∈ all, r.1 ≤ r.2 ∧ r.2 ≤ file.length) →
    covered ≤ file.length → Outcome.Sat (checkGaps file covered all) fun done => done ≤ file.length
  | [], covered, _, bound => bound
  | (start, stop) :: rest, covered, each, bound => by
    have first := each (start, stop) (List.mem_cons_self ..)
    simp only at first
    rw [checkGaps]
    split
    · exact True.intro
    next order =>
    rw [Outcome.sub_ok (by omega), Outcome.ok_bind, Outcome.slice_ok (by omega), Outcome.ok_bind]
    split
    · exact True.intro
    · exact checkGaps_sat (fun r h => each r (List.mem_cons_of_mem _ h)) first.2

/-- A parsed table: the header fits the file, and every section lies in it. -/
structure ParsedOk (file : List Byte) (p : ParsedFile) : Prop where
  header : HeaderOk file p.header
  table : TableOk file p.entries p.byType

theorem parseHeaderAndTable_sat : Outcome.Sat (parseHeaderAndTable file) (ParsedOk file) := by
  unfold parseHeaderAndTable
  refine Outcome.Sat.bind parseHeader_sat ?_
  intro h _ header
  have small : file.length < 2 ^ 64 := by
    rw [← header.size]
    exact h.fileSize.toNat_lt
  have count := header.count
  have room := header.room
  simp only [kMaxSections] at count
  rw [Outcome.mul_ok (by simp only [kSectionEntrySize]; omega), Outcome.ok_bind]
  have entrySize : h.sectionCount.toNat * kSectionEntrySize < 2 ^ 64 := by
    simp only [kSectionEntrySize]
    omega
  split
  · exact True.intro
  next tableEnd sum =>
  obtain ⟨_, rfl⟩ := (checkedAdd_eq_some entrySize).mp sum
  split
  · exact True.intro
  next bounds =>
  rw [Outcome.slice_ok (by omega), Outcome.ok_bind]
  split
  · exact True.intro
  refine Outcome.Sat.bind (Outcome.Sat.loop
    (fun k t => t.entries.length = k ∧ TableOk file t.entries t.byType) ⟨rfl, ?_⟩
    (fun k t _ _ holds => parseEntry_sat holds.1 holds.2)) ?_
  · refine ⟨by simp, by simp, ?_⟩
    intro t
    cases t <;> rfl
  rintro t - ⟨_, table⟩
  refine Outcome.Sat.bind (regions_sat table.sections small) ?_
  intro sections _ inside
  have all : ∀ r ∈ (((0, kHeaderSize) :: sections ++
      [(h.sectionTableOffset.toNat, h.sectionTableOffset.toNat + h.sectionCount.toNat *
        kSectionEntrySize)]).mergeSort
        regionLe), r.1 ≤ r.2 ∧ r.2 ≤ file.length := by
    intro r member
    rw [List.mem_mergeSort] at member
    simp only [List.cons_append, List.mem_cons, List.mem_append, List.not_mem_nil, or_false] at member
    rcases member with rfl | old | rfl
    · exact ⟨Nat.zero_le _, room⟩
    · exact inside r old
    · simp only
      omega
  refine Outcome.Sat.bind (checkGaps_sat all (Nat.zero_le _)) ?_
  intro covered _ bound
  rw [Outcome.sub_ok bound, Outcome.ok_bind, Outcome.slice_ok (by omega), Outcome.ok_bind]
  split
  · exact True.intro
  · exact ⟨header, table⟩

section Find
variable {p : ParsedFile} (ok : ParsedOk file p)
include ok

/-- Looking a section up by its type is a search of the table. -/
theorem ParsedOk.find_eq (t : SectionType) :
    find p t = .ok (p.entries.find? fun e => decide (e.type = t.toU32)) := by
  have named := ok.table.named t
  have inside : t.value < p.byType.length := (List.getElem?_eq_some_iff.mp named).1
  have slot : p.byType[t.value] = p.entries.findIdx? fun e => decide (e.type = t.toU32) := by
    rw [List.getElem?_eq_getElem inside] at named
    exact Option.some.inj named
  rw [find, Outcome.index_ok inside, Outcome.ok_bind, slot]
  cases search : p.entries.findIdx? fun e => decide (e.type = t.toU32) with
  | none =>
    rw [List.findIdx?_eq_none_iff] at search
    have absent : (p.entries.find? fun e => decide (e.type = t.toU32)) = none := by
      rw [List.find?_eq_none]
      intro e member
      simpa using search e member
    rw [absent]
    rfl
  | some k =>
    obtain ⟨bound, holds, first⟩ := List.findIdx?_eq_some_iff_getElem.mp search
    have found : (p.entries.find? fun e => decide (e.type = t.toU32)) = some p.entries[k] := by
      rw [List.find?_eq_some_iff_getElem]
      refine ⟨holds, k, bound, rfl, ?_⟩
      intro j earlier
      simpa using first j earlier
    simp only [Outcome.index_ok bound, Outcome.ok_bind, found]
    rfl

theorem ParsedOk.found_ok {t : SectionType} {e : SectionEntry}
    (found : (p.entries.find? fun e => decide (e.type = t.toU32)) = some e) :
    EntryOk file e ∧ sectionBytes file e = .ok ((file.drop e.offset.toNat).take e.size.toNat) ∧
      ((file.drop e.offset.toNat).take e.size.toNat).length = e.size.toNat := by
  have inside := ok.table.sections e (List.mem_of_find?_eq_some found)
  refine ⟨inside, Outcome.slice_ok inside.inside, ?_⟩
  have fits := inside.inside
  rw [List.length_take, List.length_drop]
  omega

end Find
end VectorForge.IndexReader
