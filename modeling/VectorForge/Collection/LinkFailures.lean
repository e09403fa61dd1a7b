import VectorForge.Collection.BatchSemantics

/-! Concurrent batches in which some links throw. -/

namespace VectorForge
open Effect

namespace Collection
open Op CollectionState
variable {k : KernelTable} {s t u : CollectionState} {lost : Nat → Prop} {b : Batch} {h : HnswBackend} {w : World}

/-- A batch whose links failed in its last section: all sections before it were finished, and in it the
links came to an end. `outcomes` says for each row of the sections whether it was linked. -/
structure LinksFailed (k : KernelTable) (s : CollectionState) (ids : List ExternalId)
    (rows : List F32) (upsert : Bool)
    (pool : Option ThreadPool) (w : World) (data : List F32) (outcomes : List Bool) : Prop where
  sectioned : s.config.Sectioned
  admitted : Admitted k s ids rows upsert data
  failed : false ∈ outcomes
  sections : ∃ t w' done σ grown σ₁ linked υ, Kept s t ∧ t.Coupled ∧ done < ids.length ∧
    addBatch k ids rows upsert pool ⟨s, w⟩ =
      batchSections k (batchOf s.config ids data upsert pool) ids.length 0 0 ⟨t, w'⟩ ∧
    SectionsRun k (batchOf s.config ids data upsert pool) 0 ⟨t, w'⟩ done σ ∧
    growSection (batchOf s.config ids data upsert pool) done σ = (.ok grown, σ₁) ∧
    linkSection k (batchOf s.config ids data upsert pool) grown σ₁ = (.ok linked, υ) ∧
    outcomes = List.replicate done true ++ linked

/-- Where the batch ends. -/
theorem LinksFailed.ends {ids : List ExternalId} {rows data : List F32} {upsert : Bool} {pool : Option ThreadPool}
    {outcomes : List Bool} (links : LinksFailed k s ids rows upsert pool w data outcomes) (sound : s.Sound lost)
    (kind : s.backend = .hnsw h) : ∃ τ, addBatch k ids rows upsert pool ⟨s, w⟩ = (.error .threw, τ) ∧
      SectionDone lost (batchOf s.config ids data upsert pool) 0 s outcomes.length outcomes τ.state := by
  obtain ⟨t, w', done, σ, grown, σ₁, linked, υ, kept, coupled, more, start, run, grows, ended, rfl⟩ :=
    links.sections
  obtain ⟨fits, distinct, _⟩ := links.admitted.batch pool sound.toCoupled
  have held := kept.sound sound coupled
  obtain ⟨up, reaches⟩ := run.linked distinct held (kept.backend.trans kind)
    (fits.of_config sound.toCoupled coupled kept.config) (Nat.zero_le _)
  have later := up.sound held
  obtain ⟨g, at_⟩ := up.backend (kept.backend.trans kind)
  have fits' := fits.of_config sound.toCoupled later.toCoupled (up.2.config.trans kept.config)
  obtain ⟨τ, ran, finished, _⟩ := batchSection_finished later at_ fits' distinct more grows ended
  have failed : false ∈ linked := by
    rcases List.mem_append.mp links.failed with early | late
    · cases List.eq_of_mem_replicate early
    · exact late
  rw [sectionResult, if_pos failed] at ran
  obtain ⟨left, total, room, loop⟩ := reaches ids.length 0 (Nat.le_add_left _ _)
  obtain ⟨left, rfl⟩ : ∃ n, left = n + 1 := ⟨left - 1, by
    have bound : ids.length ≤ done + left := room
    omega⟩
  refine ⟨τ, ?_, ?_⟩
  · refine (start.trans loop).trans ?_
    rw [batchSections, if_pos (show done < (batchOf s.config ids data upsert pool).ids.length from more)]
    exact bind_of_error ran
  · have whole := (finished.after held distinct up).of_kept kept
    have length : (List.replicate done true ++ linked).length = done - 0 + grown.rows.length := by
      rw [List.length_append, List.length_replicate, finished.size, Nat.sub_zero]
    rw [length]
    exact whole

/-- What a batch with failed links must leave behind. -/
structure Recovered (s : CollectionState) (b : Batch) (outcomes : List Bool) (t : CollectionState) : Prop where
  reverted : ∀ i, outcomes[i]? = some false → t.ids.find (b.entry i).1 = s.ids.find (b.entry i).1
  inserted : ∀ i, outcomes[i]? = some true → t.ids.find (b.entry i).1 = some (s.vectors.size + i) ∧
    t.vectors.rows[s.vectors.size + i]? = some (b.entry i).2 ∧ t.deleted.test (s.vectors.size + i) = false
  valid : ∀ h, t.backend = .hnsw h → HnswValidator.checkInvariants h.graph = .ok ()
  persists : ∃ file, IndexWriter.writeIndex t ({} : MemorySink) = .ok ⟨file⟩ ∧
    ∀ options, options.verify ≠ .auto → ∃ u, IndexReader.readIndex (.ok ()) file options = .ok u

/-- Every node from before the batch and every node whose link failed is no higher than the entry point was or
than some node that was linked. -/
def Topped (s : CollectionState) (h : HnswBackend) (outcomes : List Bool) : Prop :=
  ∀ level, (∃ x, x < h.graph.nodeCount ∧ h.graph.level x = level) ∨
      (∃ i, outcomes[i]? = some false ∧ h.params.levels.levelFor (s.vectors.size + i) = level) →
    (h.graph.entry.valid = true ∧ level ≤ h.graph.entry.level) ∨
      ∃ i, outcomes[i]? = some true ∧ level ≤ h.params.levels.levelFor (s.vectors.size + i)

namespace SectionDone
variable {outcomes : List Bool}

theorem found (finished : SectionDone lost b 0 s outcomes.length outcomes t) {i : Nat}
    (linked : outcomes[i]? = some true) : t.ids.find (b.entry i).1 = some (s.vectors.size + i) := by
  have entry := finished.inserted i linked
  rw [Nat.zero_add] at entry
  have inside : i < outcomes.length := (List.getElem?_eq_some_iff.mp linked).1
  have few := finished.sound.toCoupled.rows_le
  have size := finished.size_eq
  have limit : kMaxVectorsPerCollection ≤ kInvalidInternalId := by decide
  rw [IdMap.find, entry]
  dsimp only
  rw [if_neg (by omega)]

theorem row (finished : SectionDone lost b 0 s outcomes.length outcomes t) {i : Nat}
    (inside : i < outcomes.length) : t.vectors.rows[s.vectors.size + i]? = some (b.entry i).2 := by
  rw [finished.rows, ← VectorStore.length_rows, List.getElem?_append_right (Nat.le_add_right _ _),
    Nat.add_sub_cancel_left,
    List.getElem?_map, entry_of_between inside, Nat.zero_add]
  rfl

/-- The level of a node after the batch. -/
theorem level (finished : SectionDone lost b 0 s outcomes.length outcomes t) (sound : s.Sound lost)
    (kind : s.backend = .hnsw h) {g : HnswGraph} (at_ : t.backend = .hnsw { h with graph := g }) :
    (∀ x, x < h.graph.nodeCount → g.level x = h.graph.level x) ∧
    ∀ i, i < outcomes.length → g.level (s.vectors.size + i) = h.params.levels.levelFor (s.vectors.size + i) := by
  obtain ⟨g', kind', levels⟩ := finished.graph h kind
  cases at_.symm.trans kind'
  have nodes : h.graph.levels.length = s.vectors.size := (sound.fits kind).2.nodes
  refine ⟨fun x node => ?_, fun i inside => ?_⟩
  · rw [HnswGraph.level, levels, List.getD_append _ _ _ _ node]
    rfl
  · rw [HnswGraph.level, levels, List.getD_append_right _ _ _ _ (by omega), nodes, Nat.add_sub_cancel_left,
      List.getD_eq_getElem?_getD, List.getElem?_map, List.getElem?_range' inside]
    simp

/-- The graph passes the validator unless a node without links is higher than all the others. -/
theorem invariants_iff (finished : SectionDone lost b 0 s outcomes.length outcomes t) (sound : s.Sound lost)
    (kind : s.backend = .hnsw h) {g : HnswGraph} (at_ : t.backend = .hnsw { h with graph := g }) :
    HnswValidator.checkInvariants g = .ok () ↔ Topped s h outcomes := by
  obtain ⟨old, new⟩ := finished.level sound kind at_
  have nodes : h.graph.nodeCount = s.vectors.size := (sound.fits kind).2.nodes
  have count : g.nodeCount = s.vectors.size + outcomes.length :=
    (finished.sound.fits at_).2.nodes.trans finished.size_eq
  have before := sound.rests h kind
  have rests := finished.sound.rests _ at_
  dsimp only at before rests
  -- whether a node of the batch is lost is its outcome
  have kept {i : Nat} (linked : outcomes[i]? = some true) :
      ¬lostAfter lost s.vectors.size (fun x => outcomes.getD (x - s.vectors.size) true) (s.vectors.size + i) := by
    rintro (⟨low, _⟩ | ⟨_, failed⟩)
    · omega
    · dsimp only at failed
      rw [Nat.add_sub_cancel_left, List.getD_eq_getElem?_getD, linked] at failed
      cases failed
  have still {x : Nat} (node : x < s.vectors.size) (here : ¬lost x) :
      ¬lostAfter lost s.vectors.size (fun x => outcomes.getD (x - s.vectors.size) true) x := by
    rintro (⟨_, gone⟩ | ⟨high, _⟩)
    · exact here gone
    · omega
  rw [HnswValidator.checkInvariants_ok_iff, rests.invariants_iff]
  constructor
  · intro low level source
    have all (x : Nat) (node : x < g.nodeCount) : g.entry.valid = true ∧ g.level x ≤ g.entry.level := by
      by_cases gone : lostAfter lost s.vectors.size (fun x => outcomes.getD (x - s.vectors.size) true) x
      · exact low x node gone
      · exact rests.reach x node gone
    obtain ⟨valid, below⟩ : g.entry.valid = true ∧ level ≤ g.entry.level := by
      rcases source with ⟨x, node, rfl⟩ | ⟨i, failed, rfl⟩
      · rw [← old x node]
        exact all x (by omega)
      · have inside : i < outcomes.length := (List.getElem?_eq_some_iff.mp failed).1
        rw [← new i inside]
        exact all _ (by omega)
    obtain ⟨node, here, top⟩ := rests.entry valid
    dsimp only at node here top
    rw [← top] at below
    rcases Nat.lt_or_ge g.entry.id s.vectors.size with early | late
    · rw [old _ (nodes.symm ▸ early)] at below
      obtain ⟨valid', reached⟩ := before.reach _ (nodes.symm ▸ early) fun gone => here (.inl ⟨early, gone⟩)
      exact .inl ⟨valid', below.trans reached⟩
    · obtain ⟨i, same⟩ : ∃ i, g.entry.id = s.vectors.size + i := ⟨g.entry.id - s.vectors.size, by omega⟩
      have inside : i < outcomes.length := by omega
      rw [same, new i inside] at below
      refine .inr ⟨i, ?_, below⟩
      rw [List.getElem?_eq_getElem inside]
      cases outcome : outcomes[i] with
      | true => rfl
      | false =>
        refine (here (.inr ⟨late, ?_⟩)).elim
        dsimp only
        rw [same, Nat.add_sub_cancel_left, List.getD_eq_getElem _ _ inside, outcome]
  · intro topped x node gone
    have source : (∃ y, y < h.graph.nodeCount ∧ h.graph.level y = g.level x) ∨
        ∃ i, outcomes[i]? = some false ∧ h.params.levels.levelFor (s.vectors.size + i) = g.level x := by
      rcases gone with ⟨low, _⟩ | ⟨high, failed⟩
      · exact .inl ⟨x, nodes.symm ▸ low, (old x (nodes.symm ▸ low)).symm⟩
      · obtain ⟨i, rfl⟩ : ∃ i, x = s.vectors.size + i := ⟨x - s.vectors.size, by omega⟩
        dsimp only at node failed
        have inside : i < outcomes.length := by omega
        rw [Nat.add_sub_cancel_left, List.getD_eq_getElem _ _ inside] at failed
        exact .inr ⟨i, by rw [List.getElem?_eq_getElem inside, failed], (new i inside).symm⟩
    rcases topped _ source with ⟨valid, below⟩ | ⟨i, linked, below⟩
    · obtain ⟨top, here, level⟩ := before.entry valid
      obtain ⟨valid', reached⟩ := rests.reach h.graph.entry.id (by dsimp only at top ⊢; omega)
        (still (nodes ▸ top) here)
      rw [← level, ← old _ top] at below
      exact ⟨valid', below.trans reached⟩
    · have inside : i < outcomes.length := (List.getElem?_eq_some_iff.mp linked).1
      obtain ⟨valid', reached⟩ := rests.reach (s.vectors.size + i) (by dsimp only; omega) (kept linked)
      rw [← new i inside] at below
      exact ⟨valid', below.trans reached⟩

end SectionDone
end Collection

namespace Guarantees
open Op Collection CollectionState
open IndexReader (ReadOptions)

/-- When links of a batch throw, the rows whose links threw are taken back and the others are inserted. The
collection passes the validator and can be saved and loaded exactly if none of the nodes without links is higher
than all linked nodes (and its components could be loaded before). -/
theorem failed_links_recover_iff {k : KernelTable} {s : CollectionState} {ids : List ExternalId}
    {rows data : List F32} {upsert : Bool}
    {pool : Option ThreadPool} {w : World} {outcomes : List Bool} {h : HnswBackend} (normalises : k.Normalises)
    (reached : Reachable k s)
    (kind : s.backend = .hnsw h) (links : LinksFailed k s ids rows upsert pool w data outcomes) :
    ∃ τ, addBatch k ids rows upsert pool ⟨s, w⟩ = (.error .threw, τ) ∧
      (∀ i, outcomes[i]? = some false → τ.state.ids.find ((batchOf s.config ids data upsert pool).entry i).1 =
        s.ids.find ((batchOf s.config ids data upsert pool).entry i).1) ∧
      (Recovered s (batchOf s.config ids data upsert pool) outcomes τ.state ↔ s.ComponentsOk ∧
        Topped s h outcomes) := by
  obtain ⟨⟨lost, sound⟩, creator⟩ := reached.sound
  obtain ⟨τ, run, finished⟩ := links.ends sound kind
  have coupled := finished.sound.toCoupled
  have writable : τ.state.creator.length ≤ Format.kMaxCreatorLength := finished.creator ▸ creator
  have reverted (i : Nat) (failed : outcomes[i]? = some false) :
      τ.state.ids.find ((batchOf s.config ids data upsert pool).entry i).1 =
      s.ids.find ((batchOf s.config ids data upsert pool).entry i).1 := by
    have back := finished.reverted i failed
    rw [Nat.zero_add] at back
    rw [IdMap.find, back, IdMap.find]
  obtain ⟨g, at_, _⟩ := finished.graph h kind
  refine ⟨τ, run, reverted, ?_⟩
  constructor
  · rintro ⟨_, _, valid, file, saved, loads⟩
    refine ⟨?_, (finished.invariants_iff sound kind at_).mp (valid _ at_)⟩
    have inv : τ.state.RepInv := { coupled with graph := valid }
    rw [IndexWriter.writeIndex_partsOf (IndexWriter.savable inv) writable] at saved
    cases saved
    obtain ⟨u, read⟩ := loads { verify := .full } (by decide)
    obtain ⟨_, same, _⟩ := IndexReader.readIndex_of_ok inv writable (by decide) read
    have components := ((IndexReader.readIndex_sat (.ok ()) _
      (show ({ verify := .full } : ReadOptions).verify ≠ .auto by decide)).value
      read).components (.inr (.inr rfl))
    intro row member
    refine components row ?_
    rw [same.rows, finished.rows]
    exact List.mem_append_left _ member
  · rintro ⟨components, topped⟩
    have valid : ∀ c, τ.state.backend = .hnsw c → HnswValidator.checkInvariants c.graph = .ok () := by
      intro c kind'
      cases at_.symm.trans kind'
      exact (finished.invariants_iff sound kind at_).mpr topped
    have inv : τ.state.RepInv := { coupled with graph := valid }
    have low : τ.state.config.hnsw.maxLevel.toNat ≤ HnswParams.kMaxLevelCap := by
      rw [finished.config]
      exact (sound.fits kind).2.valid.maxLevel
    have accepted : τ.state.ComponentsOk := by
      rw [components_iff, finished.rows]
      intro row member
      rcases List.mem_append.mp member with old | new
      · exact components_iff.mp components row old
      · exact links.admitted.acceptable normalises sound.toCoupled finished.inside row new
    have ok : τ.state.Persistable := { inv with maxLevel := low, creator := writable, components := accepted }
    refine ⟨reverted, ?_, valid, _, IndexWriter.writeIndex_partsOf (IndexWriter.savable inv) writable, ?_⟩
    · intro i linked
      have found := finished.found linked
      have inside : i < outcomes.length := (List.getElem?_eq_some_iff.mp linked).1
      exact ⟨found, finished.row inside, ((coupled.settled.find_eq_some coupled.labels_le).mp found).2⟩
    · intro options resolved
      obtain ⟨u, read, _⟩ := IndexReader.readIndex_written ok resolved
      exact ⟨u, read⟩

section Step

/-- A collection whose second row draws a higher level than its first. -/
def stepConfig : CollectionConfig :=
  { dim := 1, index := .hnsw, hnsw := { M := 2, seed := 0 }, concurrency := .concurrent }

def stepBatch : Batch := batchOf stepConfig [7, 8] [F32.zero, F32.zero] false none

/-- Memory for everything but the search of the second row. -/
def stepWorld : World := { memory := List.replicate 14 true ++ [false] }

variable {s : CollectionState} (created : create (.ok ()) 0 stepConfig = .ok s)
include created

theorem step_size : s.vectors.size = 0 := by
  rw [← VectorStore.length_rows, (create_sound created).2.2.2.1]
  rfl

/-- The first section links the first row and not the second. -/
theorem step_links : ∃ τ grown σ υ,
    openSections zeroKernels [7, 8] [F32.zero, F32.zero] false none ⟨s, stepWorld⟩ = (.ok stepBatch, τ) ∧
    growSection stepBatch 0 τ = (.ok grown, σ) ∧
    linkSection zeroKernels stepBatch grown σ = (.ok [true, false], υ) := by
  have evaluated : (inFresh stepConfig 2 { memory := stepWorld.memory.tail } (do
      allocate
      let grown ← growSection stepBatch 0
      linkSection zeroKernels stepBatch grown : Op (List Bool))).map (·.1.toOption) = some (some [true,
        false]) := by
    decide +kernel
  obtain ⟨⟨result, υ⟩, run, links⟩ := Option.map_eq_some_iff.mp evaluated
  obtain ⟨start, opens, run⟩ := inFresh_opens [7, 8] [F32.zero, F32.zero] stepWorld created
    (checkKeys_of_ascending (by decide) (by decide)) rfl rfl (by decide) rfl run
  cases result with
  | error e => cases links
  | ok linked =>
    cases links
    obtain ⟨_, τ, allocated, run⟩ := ok_of_bind run
    obtain ⟨grown, σ, grows, links⟩ := ok_of_bind run
    exact ⟨τ, grown, σ, υ, (bind_of_ok opens).trans (bind_of_ok allocated), grows, links⟩

theorem step_links_fail :
    LinksFailed zeroKernels s [7, 8] [F32.zero, F32.zero] false none stepWorld
      [F32.zero, F32.zero] [true, false] := by
  obtain ⟨τ, grown, σ, υ, opens, grows, links⟩ := step_links created
  have config : s.config = stepConfig := (create_sound created).2.1
  have sectioned : s.config.Sectioned := by rw [config]; decide
  obtain ⟨data, same, admitted, kept, coupled⟩ :=
    (openSections_ends (create_sound created).1.toCoupled (by decide)).1 _ τ opens
  obtain rfl : data = [F32.zero, F32.zero] := (congrArg Batch.data same).symm
  refine ⟨sectioned, admitted, by decide, ?_⟩
  rw [config]
  refine ⟨τ.state, τ.world, 0, τ, grown, σ, [true, false], υ, kept, coupled, by
    decide, ?_, .refl 0 τ, grows, links, rfl⟩
  exact (addBatch_sections sectioned (by decide)).trans (bind_of_ok opens)

/-- The node of the second row is alone on its level. -/
theorem step_not_topped {h : HnswBackend} (kind : s.backend = .hnsw h) : ¬Topped s h [true, false] := by
  intro topped
  have sound := (create_sound created).1
  obtain ⟨_, fits⟩ := sound.fits kind
  have params : h.params.levels = stepConfig.hnsw.levels := by rw [fits.params, (create_sound created).2.1]
  have drawn : stepConfig.hnsw.levels.levelFor 0 = 0 ∧ stepConfig.hnsw.levels.levelFor 1 = 1 := by decide +kernel
  have size := step_size created
  rcases topped 1 (.inr ⟨1, rfl, by rw [params, size]; exact drawn.2⟩) with ⟨valid, _⟩ | ⟨i, linked, high⟩
  · have node := ((sound.rests h kind).entry valid).1
    dsimp only at node
    have nodes := fits.nodes
    omega
  · obtain rfl : i = 0 := by
      rcases i with _ | _ | i
      · rfl
      · cases linked
      · cases linked
    rw [params, size, drawn.1] at high
    omega

end Step

theorem failed_links_recover_iff_step : ∃ s τ, create (.ok ()) 0 stepConfig = .ok s ∧
    addBatch zeroKernels [7, 8] [F32.zero, F32.zero] false none ⟨s, stepWorld⟩ = (.error .threw, τ) ∧
    ¬Recovered s (batchOf s.config [7, 8] [F32.zero, F32.zero] false none) [true, false] τ.state := by
  obtain ⟨s, created⟩ := create_ok 0 (show stepConfig.validate = .ok () by decide)
  obtain ⟨h, kind⟩ := hnsw_of_config (create_sound created).1.toCoupled ((create_sound created).2.1 ▸ rfl)
  obtain ⟨τ, run, _, iff⟩ := failed_links_recover_iff zeroKernels_normalises (.created created) kind
    (step_links_fail created)
  exact ⟨s, τ, created, run, fun recovered => step_not_topped created kind (iff.mp recovered).2⟩

/-- The second of two rows cannot be linked: what is left is a graph whose entry point is not on its highest
level. -/
theorem high_failed_link_breaks_graph : ∃ s τ g, create (.ok ()) 0 stepConfig = .ok s ∧
    LinksFailed zeroKernels s [7, 8] [F32.zero, F32.zero] false none stepWorld [F32.zero, F32.zero] [true, false] ∧
    addBatch zeroKernels [7, 8] [F32.zero, F32.zero] false none ⟨s, stepWorld⟩ = (.error .threw, τ) ∧
    τ.state.backend.graph? = some g ∧ HnswValidator.checkInvariants g ≠ .ok () := by
  obtain ⟨s, created⟩ := create_ok 0 (show stepConfig.validate = .ok () by decide)
  have sound := (create_sound created).1
  obtain ⟨h, kind⟩ := hnsw_of_config sound.toCoupled ((create_sound created).2.1 ▸ rfl)
  have links := step_links_fail created
  obtain ⟨τ, run, finished⟩ := links.ends sound kind
  obtain ⟨g, at_, _⟩ := finished.graph h kind
  refine ⟨s, τ, g, created, links, run, by rw [at_]; rfl, fun valid => ?_⟩
  exact step_not_topped created kind ((finished.invariants_iff sound kind at_).mp valid)

end Guarantees
end VectorForge
