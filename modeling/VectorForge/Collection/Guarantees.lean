import VectorForge.Collection.Undisturbed

/-! What callers of a collection may rely on. -/

namespace VectorForge.Guarantees
open Effect Collection CollectionState
open IndexReader (readIndex ReadOptions SameState)
open IndexWriter (writeIndex)

section Samples

/-- Kernels that compute zero, as all kernels do for rows of zeros. -/
def zeroKernels : KernelTable where
  dot _ _ := F32.zero
  l2sq _ _ := F32.zero
  norm2 _ := F32.zero
  dot1ToN _ rows := rows.map fun _ => F32.zero
  l2sq1ToN _ rows := rows.map fun _ => F32.zero
  mul _ _ := F32.zero
  sub _ _ := F32.zero
  inverseSqrt _ := F32.zero

theorem zeroKernels_batched : zeroKernels.Batched := ⟨fun _ _ => rfl, fun _ _ => rfl⟩

theorem zeroKernels_normalises : zeroKernels.Normalises := by
  intro vector unit _ run
  unfold normalizeInplace at run
  cases norm : inverseNorm zeroKernels vector with
  | error e => rw [norm] at run; cases run
  | ok scale =>
    rw [norm] at run
    cases run
    intro x member
    obtain ⟨_, _, rfl⟩ := List.mem_map.mp member
    exact (by decide : F32.zero.acceptable = true)

def smallConfig : CollectionConfig := { dim := 1, index := .flat }

theorem create_ok {config : CollectionConfig} (now : UInt64) (valid : config.validate = .ok ()) :
    ∃ s, create (.ok ()) now config = .ok s := by
  obtain ⟨dim, _⟩ := CollectionConfig.validate_ok_iff.mp valid
  obtain ⟨vectors, store⟩ := VectorStore.create_default dim.1 dim.2
  obtain ⟨backend, attached⟩ := attachBackend_ok valid
  refine ⟨{ config, vectors, backend, createdUnixMs := now
            creator := asBytes ("vectorforge ".toList ++ kVersion) }, ?_⟩
  unfold create
  rw [valid, store, attached]
  rfl

theorem create_ids {now : UInt64} {config : CollectionConfig} {s : CollectionState}
    (run : create (.ok ()) now config = .ok s) : s.ids = {} := by
  obtain ⟨_, _, _, _, _, rfl⟩ := create_made run
  rfl

/-- A collection with one row. -/
theorem exists_single : ∃ start s, create (.ok ()) 0 smallConfig = .ok start ∧ Undisturbed zeroKernels start s ∧
    s.vectors.rows = [[F32.zero]] := by
  obtain ⟨start, created⟩ := create_ok 0 (show smallConfig.validate = .ok () by decide)
  obtain ⟨sound, config, _, rows, _⟩ := create_sound created
  have flat : start.backend = .flat := flat_of_config sound.toCoupled (by rw [config]; rfl)
  have none : start.vectors.size = 0 := by
    rw [← VectorStore.length_rows, rows]
    rfl
  have stored : storedVector zeroKernels start.config [F32.zero] = .ok [F32.zero] := by
    rw [config]
    rfl
  have allowed : addRefusal zeroKernels start 7 [F32.zero] false = Option.none := by
    have reserves : ∃ r, ({} : IdMap).reserve 7 false = .ok r := ⟨_, rfl⟩
    obtain ⟨r, run⟩ := reserves
    simp only [addRefusal, stored, keyRefusal, create_ids created, run, rowRefusal, none,
      sound.limit, indexRefusal, flat]
    rfl
  have ample : ({} : World).Ample := rfl
  obtain ⟨τ, run, row, same, added⟩ := add_returns sound ample allowed
  rw [stored] at same
  cases same
  have whole : Command.run zeroKernels (.add 7 [F32.zero] false) ⟨start, {}⟩ = (.ok .done, τ) := bind_of_ok run
  refine ⟨start, τ.state, created, .step .refl ample whole (fun same => by cases same), ?_⟩
  rw [(RowsAdded.single added).rows, rows]
  rfl

/-- Mutations one after the other, each in its world. -/
def mutate (k : KernelTable) : List (Command × World) → CollectionState → List (Except Exit Reply) × CollectionState
  | [], s => ([], s)
  | (c, w) :: rest, s =>
    let (result, τ) := c.run k ⟨s, w⟩
    let (results, u) := mutate k rest τ.state
    (result :: results, u)

theorem mutate_reachable {k : KernelTable} :
    ∀ {calls : List (Command × World)} {s : CollectionState}, Reachable k s →
    (∀ r ∈ (mutate k calls s).1, r ≠ .error .stuck) → Reachable k (mutate k calls s).2
  | [], _, reached, _ => reached
  | (c, w) :: rest, s, reached, ended => by
    have all : ∀ r ∈ (c.run k ⟨s, w⟩).1 :: (mutate k rest (c.run k ⟨s, w⟩).2.state).1, r ≠ .error .stuck := ended
    rw [List.forall_mem_cons] at all
    have next : Reachable k (c.run k ⟨s, w⟩).2.state := reached.step rfl all.1
    change Reachable k (mutate k rest (c.run k ⟨s, w⟩).2.state).2
    exact mutate_reachable next all.2

def changedConfig : CollectionConfig := { dim := 1, index := .hnsw, hnsw := { seed := 0 } }

/-- 1.0 -/
def one : F32 := ⟨0x3F800000⟩

/-- Two rows, of which the first is replaced and the second removed. -/
def changes : List (Command × World) :=
  [(.add 7 [F32.zero] false, {}), (.add 8 [F32.zero] false, {}), (.add 7 [one] true, {}), (.remove 8, {})]

/-- A graph in which rows have been replaced and removed. Then there is memory for a fourth row, but not for the
search for its neighbours. -/
theorem exists_changed : ∃ s τ, Reachable zeroKernels s ∧ s.vectors.size = 3 ∧ s.deleted.count = 2 ∧
    [7, 8].map s.ids.find = [some 2, none] ∧ (s.vectors.chunkData 0)[3]? = some F32.zero ∧
    add zeroKernels 9 [one] false ⟨s, { memory := List.replicate 5 true ++ [false] }⟩ = (.error .threw, τ) ∧
    (τ.state.vectors.chunkData 0)[3]? = some one := by
  obtain ⟨start, created⟩ := create_ok 0 (show changedConfig.validate = .ok () by decide)
  let failing : World := { memory := List.replicate 5 true ++ [false] }
  have evaluated : (create (.ok ()) 0 changedConfig).toOption.any (fun start =>
      let changed := mutate zeroKernels changes start
      let s := changed.2
      let failed := add zeroKernels 9 [one] false ⟨s, failing⟩
      changed.1 == List.replicate 4 (.ok .done) && s.vectors.size == 3 && s.deleted.count == 2 &&
        [7, 8].map s.ids.find == [some 2, none] && (s.vectors.chunkData 0)[3]? == some F32.zero &&
        decide (failed.1 = .error .threw) && (failed.2.state.vectors.chunkData 0)[3]? == some one) = true := by
    decide +kernel
  rw [created] at evaluated
  simp only [Except.toOption, Option.any_some, Bool.and_eq_true, beq_iff_eq, decide_eq_true_eq] at evaluated
  obtain ⟨⟨⟨⟨⟨⟨results, size⟩, count⟩, found⟩, slot⟩, threw⟩, written⟩ := evaluated
  have reached : Reachable zeroKernels (mutate zeroKernels changes start).2 := by
    refine mutate_reachable (.created created) fun r member => ?_
    rw [results] at member
    rw [List.eq_of_mem_replicate member]
    exact fun stuck => by cases stuck
  cases run : add zeroKernels 9 [one] false ⟨(mutate zeroKernels changes start).2, failing⟩ with
  | mk result τ =>
    rw [run] at threw written
    cases threw
    exact ⟨_, τ, reached, size, count, found, slot, run, written⟩

end Samples

/-- When `add` fails, whatever the reason, it has changed nothing that a later operation could
notice. -/
theorem failed_add_changes_nothing {k : KernelTable} {s : CollectionState} {w : World} {id : ExternalId}
    {vector : List F32} {upsert : Bool}
    {e : Exit} {τ : Session} (reached : Reachable k s) (run : add k id vector upsert ⟨s, w⟩ = (.error e, τ)) :
    (e = .threw ∨ ∃ status, e = .status status) ∧
    τ.state.config = s.config ∧ τ.state.vectors.rows = s.vectors.rows ∧ τ.state.ids = s.ids ∧
    (∀ other entry, τ.state.ids.map.lookup other = some entry → entry.pending = false) ∧
    (∀ i, τ.state.deleted.test i = s.deleted.test i) ∧ τ.state.deleted.count = s.deleted.count ∧
    τ.state.backend = s.backend ∧
    ∀ (operations : List Operation) (here there : Nat → Setting), (∀ o ∈ operations, o.Serial) →
      (∀ o ∈ operations, o.Searches → k.Batched) →
      (follow k operations here τ.state).1 = (follow k operations there s).1 := by
  obtain ⟨⟨lost, sound⟩, creator⟩ := reached.sound
  have untouched := (add_ends sound).2 e τ run
  have kept := untouched.kept
  have why : e = .threw ∨ ∃ status, e = .status status := by
    rcases untouched.reason with ⟨threw, _⟩ | ⟨status, same, _⟩
    · exact .inl threw
    · exact .inr ⟨status, same⟩
  have alike : Alike τ.state s :=
    ⟨.of_kept kept, ⟨lost, untouched.sound sound⟩, ⟨lost, sound⟩, kept.creator ▸ creator⟩
  refine ⟨why, kept.config, kept.rows, kept.ids, untouched.coupled.settled.quiet, kept.marks,
    kept.count, kept.backend, ?_⟩
  intro operations here there serial batched
  exact (follow_alike operations batched serial here there alike).1

/-- The row has been written when the search for its neighbours runs out of memory. -/
theorem failed_add_changes_nothing_written : ∃ s τ, Reachable zeroKernels s ∧ s.vectors.size = 3 ∧
    add zeroKernels 9 [one] false ⟨s, { memory := List.replicate 5 true ++ [false] }⟩ = (.error .threw, τ) ∧
    (s.vectors.chunkData 0)[3]? = some F32.zero ∧ (τ.state.vectors.chunkData 0)[3]? = some one ∧
    τ.state.vectors.rows = s.vectors.rows ∧ τ.state.ids = s.ids ∧ τ.state.backend = s.backend ∧
    ∀ here there, (follow zeroKernels [.mutate (.add 9 [one] false), .get 9] here τ.state).1 =
      (follow zeroKernels [.mutate (.add 9 [one] false), .get 9] there s).1 := by
  obtain ⟨s, τ, reached, size, _, _, slot, run, written⟩ := exists_changed
  obtain ⟨_, _, rows, ids, _, _, _, backend, later⟩ := failed_add_changes_nothing reached run
  refine ⟨s, τ, reached, size, run, slot, written, rows, ids, backend, fun here there => ?_⟩
  exact later _ here there (by simp [Operation.Serial]) fun _ _ _ => zeroKernels_batched

/-- Saving a collection and loading it again changes nothing that a later operation could notice,
in whatever mode and memory it is loaded. -/
theorem save_and_load_is_transparent {k : KernelTable} {start s : CollectionState} {options : ReadOptions}
    (opened : Opened start)
    (run : Undisturbed k start s) (low : s.config.hnsw.maxLevel.toNat ≤ 32) (resolved : options.verify ≠ .auto) :
    ∃ file, writeIndex s ({} : MemorySink) = .ok ⟨file⟩ ∧
      (k.Normalises → start.ComponentsOk → ∃ t, readIndex (.ok ()) file options = .ok t) ∧
      ∀ t, readIndex (.ok ()) file options = .ok t → ∀ (operations : List Operation) (here there : Nat → Setting),
        (∀ o ∈ operations, o.Serial) → (∀ o ∈ operations, o.Searches → k.Batched) →
        (follow k operations here t).1 = (follow k operations there s).1 ∧
        ∃ last, writeIndex (follow k operations here t).2 ({} : MemorySink) = .ok ⟨last⟩ ∧
          writeIndex (follow k operations there s).2 ({} : MemorySink) = .ok ⟨last⟩ := by
  have evolved := run.evolved opened.sound
  have sound := evolved.sound
  have inv := Sound.repInv sound
  obtain ⟨_, creator⟩ := (run.reachable opened).sound
  refine ⟨fileBytes s, IndexWriter.writeIndex_partsOf (IndexWriter.savable inv) creator, ?_, ?_⟩
  · intro normalises components
    have ok : s.Persistable :=
      { inv with maxLevel := low, creator, components := evolved.components normalises components }
    obtain ⟨t, read, _⟩ := IndexReader.readIndex_written ok resolved
    exact ⟨t, read⟩
  · intro t read operations here there serial batched
    obtain ⟨_, same, _⟩ := IndexReader.readIndex_of_ok inv creator resolved read
    have loaded := (IndexReader.readIndex_sat (.ok ()) _ resolved).value read
    have alike : Alike t s := ⟨same, ⟨_, RepInv.sound loaded.inv⟩, ⟨_, sound⟩, loaded.creator⟩
    obtain ⟨answers, after, _⟩ := follow_alike operations batched serial here there alike
    obtain ⟨_, left⟩ := after.left
    obtain ⟨_, right⟩ := after.right
    refine ⟨answers, _, IndexWriter.writeIndex_partsOf (Sound.savable left) after.creator, ?_⟩
    rw [IndexReader.file_congr left.toCoupled right.toCoupled after.same]
    exact IndexWriter.writeIndex_partsOf (Sound.savable right) (after.same.creator ▸ after.creator)

/-- A row is added to the loaded collection and to the saved one, which then are saved. -/
theorem save_and_load_is_transparent_single : ∃ s file t last, Reachable zeroKernels s ∧
    s.vectors.rows = [[F32.zero]] ∧
    writeIndex s ({} : MemorySink) = .ok ⟨file⟩ ∧ readIndex (.ok ()) file {} = .ok t ∧
    writeIndex (follow zeroKernels [.mutate (.add 9 [F32.zero] false)] (fun _ => {}) t).2
      ({} : MemorySink) = .ok ⟨last⟩ ∧
    writeIndex (follow zeroKernels [.mutate (.add 9 [F32.zero] false)] (fun _ => {}) s).2
      ({} : MemorySink) = .ok ⟨last⟩ := by
  obtain ⟨start, s, created, run, rows⟩ := exists_single
  obtain ⟨sound, known, _, empty, _⟩ := create_sound created
  have config : s.config = smallConfig := (run.evolved sound).config.trans known
  have low : s.config.hnsw.maxLevel.toNat ≤ 32 := by rw [config]; decide
  have components : start.ComponentsOk := by
    intro row member
    rw [empty] at member
    cases member
  obtain ⟨file, saved, loads, same⟩ :=
    save_and_load_is_transparent (.created created) run low (show ({} : ReadOptions).verify ≠ .auto by decide)
  obtain ⟨t, read⟩ := loads zeroKernels_normalises components
  obtain ⟨_, last, left, right⟩ := same t read [.mutate (.add 9 [F32.zero] false)] (fun _ => {}) (fun _ => {})
    (by simp [Operation.Serial]) fun _ _ _ => zeroKernels_batched
  exact ⟨s, file, t, last, run.reachable (.created created), rows, saved, read, left, right⟩

/-- What can be created can be saved and loaded, unless it is a flat index with a level cap that
the reader does not accept. -/
theorem created_collections_persist_iff {k : KernelTable} {now : UInt64} {config : CollectionConfig}
    {start s : CollectionState}
    (normalises : k.Normalises) (created : create (.ok ()) now config = .ok start) (run : Undisturbed k start s) :
    (∃ file, writeIndex s ({} : MemorySink) = .ok ⟨file⟩ ∧
      ∀ options, options.verify ≠ .auto → ∃ t, readIndex (.ok ()) file options = .ok t) ↔
    config.index = .hnsw ∨ config.hnsw.maxLevel.toNat ≤ 32 := by
  obtain ⟨begin, known, valid, empty, _⟩ := create_sound created
  have evolved := run.evolved begin
  have inv := Sound.repInv evolved.sound
  have config_eq : s.config = config := evolved.config.trans known
  obtain ⟨_, creator⟩ := (run.reachable (.created created)).sound
  have written := IndexWriter.writeIndex_partsOf (IndexWriter.savable inv) creator
  have components : s.ComponentsOk := by
    refine evolved.components normalises fun row member => ?_
    rw [empty] at member
    cases member
  constructor
  · rintro ⟨file, saved, loads⟩
    rw [written] at saved
    cases saved
    obtain ⟨t, read⟩ := loads {} (by decide)
    obtain ⟨low, _⟩ := IndexReader.readIndex_of_ok inv creator (by decide) read
    rw [config_eq] at low
    exact .inr low
  · intro supported
    have low : s.config.hnsw.maxLevel.toNat ≤ HnswParams.kMaxLevelCap := by
      rw [config_eq]
      rcases supported with hnsw | low
      · exact ((CollectionConfig.validate_ok_iff.mp valid).2 hnsw).maxLevel
      · exact low
    have ok : s.Persistable := { inv with maxLevel := low, creator, components }
    refine ⟨_, written, fun options resolved => ?_⟩
    obtain ⟨t, read, _⟩ := IndexReader.readIndex_written ok resolved
    exact ⟨t, read⟩

theorem created_collections_persist_iff_single : ∃ start s, create (.ok ()) 0 smallConfig = .ok start ∧
    Undisturbed zeroKernels start s ∧ s.vectors.rows = [[F32.zero]] ∧
    ∃ file, writeIndex s ({} : MemorySink) = .ok ⟨file⟩ ∧
      ∀ options, options.verify ≠ .auto → ∃ t, readIndex (.ok ()) file options = .ok t := by
  obtain ⟨start, s, created, run, rows⟩ := exists_single
  have low : smallConfig.hnsw.maxLevel.toNat ≤ 32 := by decide
  exact ⟨start, s, created, run, rows,
    (created_collections_persist_iff zeroKernels_normalises created run).mpr (.inr low)⟩

/-- A flat collection whose parameters for an index that it does not have are out of range: it is
created and saved, and its file cannot be loaded. -/
def tallFlatConfig : CollectionConfig := { dim := 1, index := .flat, hnsw := { maxLevel := 33 } }

theorem tall_flat_collection_is_lost : ∃ s file, create (.ok ()) 0 tallFlatConfig = .ok s ∧
    writeIndex s ({} : MemorySink) = .ok ⟨file⟩ ∧ ∀ t, readIndex (.ok ()) file {} ≠ .ok t := by
  obtain ⟨s, created⟩ := create_ok 0 (show tallFlatConfig.validate = .ok () by decide)
  obtain ⟨sound, config, _⟩ := create_sound created
  have inv := Sound.repInv sound
  obtain ⟨_, creator⟩ := (Reachable.created (k := zeroKernels) created).sound
  refine ⟨s, _, created, IndexWriter.writeIndex_partsOf (IndexWriter.savable inv) creator, fun t read => ?_⟩
  obtain ⟨low, _⟩ := IndexReader.readIndex_of_ok inv creator (by decide) read
  rw [config] at low
  exact absurd low (by decide)

end VectorForge.Guarantees
