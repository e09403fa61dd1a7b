import VectorForge.Collection.RoundTrip

namespace VectorForge.Persistence
open IndexWriter IndexReader HnswValidator

/-- Saving and loading a collection is the identity, up to the concurrency mode: the reader
accepts what the writer produced under every verification level, copied to the heap or served
in place, and a second save produces the same bytes. -/
theorem index_file_round_trip {s : CollectionState} (options : ReadOptions) (ok : s.Persistable)
    (resolved : options.verify ≠ .auto) :
    ∃ file t, writeIndex s ({} : MemorySink) = .ok ⟨file⟩ ∧ readIndex (.ok ()) file options = .ok t ∧
      t.config = { s.config with concurrency := options.concurrency } ∧
      t.vectors.rows = s.vectors.rows ∧
      t.ids.labels = s.ids.labels ∧ t.ids = s.ids ∧
      (∀ i, t.deleted.test i = s.deleted.test i) ∧ t.deleted.count = s.deleted.count ∧
      (s.config.index = .flat → t.backend = .flat) ∧
      (∀ b, s.backend = .hnsw b → ∃ c, t.backend = .hnsw c ∧ c.graph.nodeCount = b.graph.nodeCount ∧
        (∀ node, c.graph.level node = b.graph.level node) ∧
        (∀ node l, node < b.graph.nodeCount → l ≤ b.graph.level node →
          c.graph.links node l = b.graph.links node l) ∧
        c.graph.entry.valid = b.graph.entry.valid ∧ (b.graph.entry.valid = true → c.graph.entry = b.graph.entry)) ∧
      t.creator = s.creator ∧ t.createdUnixMs = s.createdUnixMs ∧
      writeIndex t ({} : MemorySink) = .ok ⟨file⟩ := by
  obtain ⟨file, written, t, run, same, mode, again⟩ := written_read_written options ok resolved
  have config := same.config
  rw [mode] at config
  refine ⟨file, t, written, run, config, same.rows, congrArg IdMap.labels same.ids, same.ids,
    same.marks, same.count, ?_,
    ?_, same.creator, same.createdUnixMs, again⟩
  · intro flat
    have fits := ok.backend
    have backend := same.backend
    cases kind : s.backend with
    | flat =>
      rw [kind] at backend
      cases other : t.backend with
      | flat => rfl
      | hnsw c => rw [other] at backend; exact backend.elim
    | hnsw b =>
      rw [kind] at fits
      cases flat.symm.trans fits.1
  · intro b kind
    have backend := same.backend
    rw [kind] at backend
    cases other : t.backend with
    | flat => rw [other] at backend; exact backend.elim
    | hnsw c =>
      rw [other] at backend
      obtain ⟨_, _, graph⟩ := backend
      exact ⟨c, rfl, graph.shape.nodeCount_eq, graph.shape.level_eq, graph.links, graph.valid, graph.entry⟩

/-- Two rows of the same id, the first of them replaced by an upsert. -/
def upserted : CollectionState where
  config := { dim := 1, index := .flat }
  vectors := { dim := 1, rowsPerChunk := 2, maxRows := kMaxVectorsPerCollection, size := 2
               chunkPtrs := [.owned 0], ownedChunks := [[⟨0x3F800000⟩, ⟨0x40000000⟩]] }
  ids := { map := (∅ : Finmap fun _ : ExternalId => IdMap.Entry).insert 7 { current := 1 }
           labels := [7, 7], live := 1 }
  deleted := { words := [1#64], count := 1 }
  backend := .flat

theorem upserted_marks (i : Nat) : upserted.deleted.test i = decide (i = 0) := by
  have words : upserted.deleted.words = [1#64] := rfl
  rw [TombstoneSet.test, words]
  by_cases first : i / 64 = 0
  · have small : i % 64 = i := by omega
    simp [first, small, BitVec.getLsbD_one]
  · have far : ¬i = 0 := by omega
    obtain ⟨k, next⟩ := Nat.exists_eq_succ_of_ne_zero first
    simp [next, far]

theorem upserted_persistable : upserted.Persistable := by
  have store : upserted.vectors.Wf := by
    refine ⟨by decide, by decide, by decide, by decide, ?_, by decide, by decide, by decide⟩
    intro chunk member
    rw [List.mem_singleton.mp member]
    rfl
  have settled : upserted.ids.Settled upserted.deleted := by
    refine ⟨?_, ?_, by rfl, by rfl⟩
    · intro id r
      rw [upserted_marks]
      show Finmap.lookup id (Finmap.insert 7 _ ∅) = _ ↔ ([7, 7] : List ExternalId)[r]? = _ ∧ _
      by_cases same : id = 7
      · subst same
        rw [Finmap.lookup_insert]
        match r with
        | 0 => simp
        | 1 => simp
        | r + 2 => simp
      · rw [Finmap.lookup_insert_of_ne _ same]
        match r with
        | 0 => simp [Ne.symm same]
        | 1 => simp [Ne.symm same]
        | r + 2 => simp
    · intro id entry found
      by_cases same : id = 7
      · subst same
        change Finmap.lookup 7 (Finmap.insert 7 _ ∅) = _ at found
        rw [Finmap.lookup_insert] at found
        cases found
        rfl
      · change Finmap.lookup id (Finmap.insert 7 _ ∅) = _ at found
        rw [Finmap.lookup_insert_of_ne _ same] at found
        cases found
  have tracks : upserted.deleted.Tracks 2 := by
    refine ⟨by decide, ?_, by decide⟩
    intro i bit
    rw [upserted_marks, decide_eq_true_eq] at bit
    omega
  refine ⟨⟨⟨store, rfl, rfl, by decide, rfl, rfl, settled, tracks, rfl⟩, ?_⟩, by decide, by decide, ?_⟩
  · intro b wrong
    cases wrong
  · unfold CollectionState.ComponentsOk
    decide

theorem index_file_round_trip_upserted : upserted.Persistable ∧
    ∃ file t, writeIndex upserted ({} : MemorySink) = .ok ⟨file⟩ ∧
      readIndex (.ok ()) file { verify := .metadata, owner := true, address := 4096 } = .ok t ∧
      t.vectors.rows = upserted.vectors.rows ∧ writeIndex t ({} : MemorySink) = .ok ⟨file⟩ := by
  refine ⟨upserted_persistable, ?_⟩
  obtain ⟨file, t, written, run, _, rows, _, _, _, _, _, _, _, _, again⟩ :=
    index_file_round_trip { verify := .metadata, owner := true, address := 4096 } upserted_persistable
      (by decide)
  exact ⟨file, t, written, run, rows, again⟩

/-- The reader on untrusted bytes. It never reads outside the file, wraps a size or fails an
always-on check; and a state it returns satisfies the whole representation invariant. -/
theorem untrusted_file_read_is_safe (simd : Result Unit) (file : List Byte) (options : ReadOptions)
    (resolved : options.verify ≠ .auto) :
    (∀ f, readIndex simd file options ≠ .error (.fault f)) ∧
    ∀ s, readIndex simd file options = .ok s →
      s.RepInv ∧ s.ids.labelCount = s.vectors.size ∧
      (∀ r id, s.ids.labels[r]? = some id → s.deleted.test r = false →
        id ≠ kInvalidExternalId ∧ s.ids.find id = some r) ∧
      (∀ r q id, s.ids.labels[r]? = some id → s.deleted.test r = false →
        s.ids.labels[q]? = some id → s.deleted.test q = false → r = q) ∧
      s.deleted.count = ((Finset.range s.vectors.size).filter fun i => s.deleted.test i = true).card ∧
      (∀ i, s.deleted.test i = true → i < s.vectors.size) ∧
      (∃ m, IndexReader.metadataOf file = .ok m ∧ m.nodeCount.toNat = s.vectors.size ∧
        m.liveCount.toNat = s.ids.size ∧ s.ids.size + s.deleted.count = s.vectors.size) ∧
      (s.config.index = .hnsw → ∃ b, s.backend = .hnsw b ∧ b.graph.nodeCount = s.vectors.size ∧
        checkInvariants b.graph = .ok ()) ∧
      (options.owner = false ∨ options.address % 4 ≠ 0 ∨ options.verify = .full → s.ComponentsOk) := by
  have safe := readIndex_sat simd file resolved
  refine ⟨?_, ?_⟩
  · intro f crash
    rw [crash] at safe
    exact safe
  · intro s run
    have loaded := safe.value run
    have inv := loaded.inv
    have settled := inv.settled
    refine ⟨inv, inv.labels, ?_, ?_, inv.tracks.exact, inv.tracks.below, ?_, ?_, ?_⟩
    · intro r id label mark
      have found := (settled.maps id r).mpr ⟨label, mark⟩
      refine ⟨?_, (settled.find_eq_some inv.labels_le).mpr ⟨label, mark⟩⟩
      rintro rfl
      rw [settled.unreserved] at found
      cases found
    · intro r q id label mark label' mark'
      exact settled.live_unique label label' mark mark'
    · obtain ⟨m, decoded, nodes, live, _⟩ := loaded.counts
      exact ⟨m, decoded, nodes, live, inv.live_add_count⟩
    · intro hnsw
      cases kind : s.backend with
      | flat =>
        have fits := inv.backend
        rw [kind] at fits
        rw [show s.config.index = .flat from fits] at hnsw
        cases hnsw
      | hnsw b =>
        have fits := inv.backend
        rw [kind] at fits
        exact ⟨b, rfl, fits.2.nodes, inv.graph b kind⟩
    · exact loaded.components

theorem untrusted_file_read_is_safe_upserted : ∃ file t, writeIndex upserted ({} : MemorySink) = .ok ⟨file⟩ ∧
    readIndex (.ok ()) file { verify := .none } = .ok t ∧ t.RepInv ∧ t.ComponentsOk := by
  obtain ⟨file, written, t, run, _⟩ := written_read_written { verify := .none } upserted_persistable (by decide)
  obtain ⟨_, loaded⟩ := untrusted_file_read_is_safe (.ok ()) file { verify := .none } (by decide)
  obtain ⟨inv, _, _, _, _, _, _, _, components⟩ := loaded t run
  exact ⟨file, t, written, run, inv, components (.inl rfl)⟩

end VectorForge.Persistence
