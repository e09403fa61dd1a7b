import VectorForge.Collection.LinkFailures

/-! Batches that stop before their last row. -/

namespace VectorForge
open Effect
open IndexReader (SameState)

namespace Collection
open Op CollectionState
variable {k : KernelTable} {s t : CollectionState} {lost : Nat → Prop} {b : Batch} {h : HnswBackend} {w : World}
  {ids : List ExternalId} {rows : List F32} {upsert : Bool} {pool : Option ThreadPool} {done : Nat}
  {start σ σ₁ τ : Session} {grown : Grown} {stop : Exit}

/-- `parallel_for` can allocate what it needs for the links of the rows that have been grown, if it is used for
them. -/
def GetsShared (b : Batch) (grown : Grown) (σ : Session) : Prop :=
  Batch.parallel b grown.rows.length = true → σ.world.memory.headD true = true

/-- Unless a link fails, the rows of a section that has been grown are linked, so that all rows of the batch up to
the last of them are inserted; and only then is reported what stopped growing, if anything did. -/
def GrownAreLinked (k : KernelTable) (s : CollectionState) (b : Batch)
    (report : Except Exit Nat × Session) (done : Nat) (grown : Grown) (σ : Session) : Prop :=
  (∀ linked τ, linkSection k b grown σ = (.ok linked, τ) → false ∉ linked) →
    ∃ linked τ lost, linkSection k b grown σ = (.ok linked, τ) ∧ s.Sound lost ∧
      LinkedUpTo lost b 0 s (done + grown.rows.length) τ.state ∧ ∀ stop, grown.stop = some stop →
      report = (.error stop, τ)

/-- Where `parallel_for` cannot allocate, no link is begun. -/
theorem linkSection_lacks (kind : t.backend = .hnsw h) (parallel : Batch.parallel b grown.rows.length = true)
    (lacks : w.memory.headD true = false) :
    linkSection k b grown ⟨t, w⟩ = (.error .threw, ⟨t, { w with memory := w.memory.tail }⟩) := by
  have several : grown.rows.length ≠ 0 := by
    intro none
    rw [none, Batch.parallel] at parallel
    split at parallel <;> simp at parallel
  have backend : hnswBackend ⟨t, w⟩ = (.ok h, ⟨t, w⟩) := by
    refine (bind_of_ok (p := state) rfl).trans ?_
    dsimp only
    rw [kind]
    rfl
  have refused : allocate ⟨t, w⟩ = (.error .threw, ⟨t, { w with memory := w.memory.tail }⟩) :=
    if_neg (by rw [lacks]; exact Bool.false_ne_true)
  rw [linkSection]
  dsimp only
  rw [if_neg several, bind_of_ok backend, if_pos parallel]
  exact bind_of_error refused

/-- The links of a section come to an end, unless `parallel_for` cannot allocate or the threads are not
scheduled. -/
theorem linkSection_of_grown (sound : s.Sound lost) (kind : s.backend = .hnsw h) (fits : Batch.Fits b s)
    (more : done < b.ids.length) (grows : growSection b done ⟨s, w⟩ = (.ok grown, σ)) :
    (GetsShared b grown σ ∧ Ends (linkSection k b grown) σ (fun _ _ => True) fun e _ => e = .stuck) ∨
      (¬GetsShared b grown σ ∧ ∃ τ, linkSection k b grown σ = (.error .threw, τ)) := by
  obtain ⟨t, w₁⟩ := σ
  obtain ⟨first, grownRows, prepared, _⟩ := (growSection_ends sound kind fits more).1 grown _ grows
  obtain ⟨g, at_, reserved, nodes, _⟩ := grownRows.chain.graph sound kind
  by_cases gets : GetsShared b grown ⟨t, w₁⟩
  · refine .inl ⟨gets, ?_⟩
    have params : h.params.Valid := by
      rw [(sound.fits kind).2.params]
      exact (sound.fits kind).2.valid
    have count : g.nodeCount = s.vectors.size + grown.rows.length :=
      nodes.trans (grownRows.chain.size.trans (by rw [← grownRows.chain.length_eq]))
    refine (linkSection_ends at_ reserved params first count (nodes.trans_le prepared)).mono
      (fun _ _ _ => True.intro) ?_
    rintro e τ ⟨_, _, why⟩
    cases why with
    | lacked parallel fails => exact absurd ((gets parallel).symm.trans fails) fun same => by cases same
    | stuck => rfl
  · obtain ⟨parallel, lacks⟩ := Classical.not_imp.mp gets
    exact .inr ⟨gets, _, linkSection_lacks at_ parallel (Bool.eq_false_of_not_eq_true lacks)⟩

/-- An exception at the start of a section comes after the rows of the sections before it. -/
theorem SectionsRun.thrown (run : SectionsRun k b 0 ⟨t, w⟩ done σ) (distinct : b.ids.Nodup) (sound : t.Sound lost)
    (kind : t.backend = .hnsw h) (fits : Batch.Fits b t) (more : done < b.ids.length)
    (throws : growSection b done σ = (.error stop, τ)) :
    batchSections k b b.ids.length 0 0 ⟨t, w⟩ = (.error stop, τ) ∧ LinkedUpTo lost b 0 t done τ.state := by
  obtain ⟨up, reaches⟩ := run.linked distinct sound kind fits (Nat.zero_le _)
  have held := up.sound sound
  obtain ⟨g, kind'⟩ := up.backend kind
  have untouched := (growSection_ends held kind' (fits.of_config sound.toCoupled held.toCoupled up.2.config) more).2
    _ _ throws
  obtain ⟨left, total, room, loop⟩ := reaches b.ids.length 0 (Nat.le_add_left _ _)
  obtain ⟨left, rfl⟩ : ∃ n, left = n + 1 := ⟨left - 1, by omega⟩
  have none : LinkedUpTo lost b done σ.state done τ.state :=
    (LinkedUpTo.refl (untouched.sound held) more.le).of_kept untouched.kept
  refine ⟨?_, up.trans none sound distinct⟩
  rw [loop, batchSections, if_pos more]
  exact bind_of_error (bind_of_error throws)

/-- When no link of a section fails, its rows have been inserted and linked before the batch reports what stopped
growing. -/
theorem SectionsRun.reports {linked : List Bool} (run : SectionsRun k b 0 ⟨t, w⟩ done σ) (distinct : b.ids.Nodup)
    (sound : t.Sound lost) (kind : t.backend = .hnsw h) (fits : Batch.Fits b t) (more : done < b.ids.length)
    (grows : growSection b done σ = (.ok grown, σ₁)) (links : linkSection k b grown σ₁ = (.ok linked, τ))
    (none : false ∉ linked) : LinkedUpTo lost b 0 t (done + grown.rows.length) τ.state ∧
      ∀ stop, grown.stop = some stop → batchSections k b b.ids.length 0 0 ⟨t, w⟩ = (.error stop, τ) := by
  obtain ⟨up, reaches⟩ := run.linked distinct sound kind fits (Nat.zero_le _)
  have held := up.sound sound
  obtain ⟨g, kind'⟩ := up.backend kind
  have fits' : Batch.Fits b σ.state := fits.of_config sound.toCoupled held.toCoupled up.2.config
  obtain ⟨υ, ran, finished, same, _⟩ := batchSection_finished held kind' fits' distinct more grows links
  rw [same none] at ran finished
  have all : linked = List.replicate grown.rows.length true :=
    List.eq_replicate_iff.mpr ⟨finished.size, fun l member => by
      cases l with
      | true => rfl
      | false => exact absurd member none⟩
  have last : LinkedUpTo lost b done σ.state (done + grown.rows.length) τ.state := by
    refine ⟨Nat.le_add_right _ _, ?_⟩
    rw [Nat.add_sub_cancel_left, ← all]
    exact finished
  refine ⟨up.trans last sound distinct, fun stop stops => ?_⟩
  rw [sectionResult, if_neg none, stops] at ran
  obtain ⟨left, total, room, loop⟩ := reaches b.ids.length 0 (Nat.le_add_left _ _)
  obtain ⟨left, rfl⟩ : ∃ n, left = n + 1 := ⟨left - 1, by omega⟩
  rw [loop, batchSections, if_pos more]
  exact bind_of_error ran

/-- The rows that have been grown are linked exactly if `parallel_for` can allocate. -/
theorem SectionsRun.grownAreLinked_iff (run : SectionsRun k b 0 ⟨t, w⟩ done σ) (distinct : b.ids.Nodup)
    (before : s.Sound lost)
    (kept : Kept s t) (sound : t.Sound lost) (kind : t.backend = .hnsw h) (fits : Batch.Fits b t)
    (more : done < b.ids.length)
    (grows : growSection b done σ = (.ok grown, σ₁)) (ends : ∀ τ, linkSection k b grown σ₁ ≠ (.error .stuck, τ)) :
    GrownAreLinked k s b (batchSections k b b.ids.length 0 0 ⟨t, w⟩) done grown σ₁ ↔ GetsShared b grown σ₁ := by
  have up := (run.linked distinct sound kind fits (Nat.zero_le _)).1
  have held := up.sound sound
  obtain ⟨g, kind'⟩ := up.backend kind
  have fits' : Batch.Fits b σ.state := fits.of_config sound.toCoupled held.toCoupled up.2.config
  rcases linkSection_of_grown (k := k) held kind' fits' more grows with ⟨gets, ending⟩ | ⟨lacks, τ, fails⟩
  · refine iff_of_true (fun all => ?_) gets
    cases links : linkSection k b grown σ₁ with
    | mk result τ =>
      cases result with
      | error e =>
        obtain rfl := ending.2 e τ links
        exact absurd links (ends τ)
      | ok linked =>
        obtain ⟨finished, reported⟩ := run.reports distinct sound kind fits more grows links (all linked τ links)
        exact ⟨linked, τ, lost, rfl, before, finished.of_kept kept, reported⟩
  · refine iff_of_false (fun linked => ?_) lacks
    obtain ⟨_, _, _, links, _⟩ := linked fun _ _ links => by cases fails.symm.trans links
    cases fails.symm.trans links

end Collection

namespace Guarantees
open Op Collection CollectionState

/-- What `add_batch` inserts. Arguments that fail the validation change nothing. Otherwise, in Flat and Coarse
collections, the rows up to the one that failed are inserted as by `add`. In Concurrent collections, when growing
stops and no link fails, the rows grown so far are inserted and linked exactly if `parallel_for` can allocate. -/
theorem add_batch_inserts_in_order {k : KernelTable} {s : CollectionState} (reached : Reachable k s)
    (ids : List ExternalId) (rows : List F32) (upsert : Bool) (pool : Option ThreadPool) (w : World) :
    (∀ status, batchRefusal k s ids rows upsert = some status →
      ∃ e τ, addBatch k ids rows upsert pool ⟨s, w⟩ = (.error e, τ) ∧
      (e = .status status ∨ e = .threw ∧ ¬w.Ample) ∧ Kept s τ.state) ∧
    (¬s.config.Sectioned → ∀ n τ, addBatch k ids rows upsert pool ⟨s, w⟩ = (.ok n, τ) → n = ids.length ∧ ∀ settings,
      (follow k (addCalls upsert (givenRows s.config ids rows n)) settings s).1 = List.replicate n
        (.ok (.reply .done)) ∧
      SameIndex (follow k (addCalls upsert (givenRows s.config ids rows n)) settings s).2 τ.state) ∧
    (¬s.config.Sectioned → ∀ e τ, addBatch k ids rows upsert pool ⟨s, w⟩ = (.error e, τ) →
      ∃ j, (j = 0 ∨ j < ids.length) ∧
      ∀ settings,
      (follow k (addCalls upsert (givenRows s.config ids rows j)) settings s).1 = List.replicate j
        (.ok (.reply .done)) ∧
      SameIndex (follow k (addCalls upsert (givenRows s.config ids rows j)) settings s).2 τ.state) ∧
    (s.config.Sectioned → ∀ e τ, addBatch k ids rows upsert pool ⟨s, w⟩ = (.error e, τ) → Kept s τ.state ∨
      ∃ b start, openSections k ids rows upsert pool ⟨s, w⟩ = (.ok b, start)) ∧
    (s.config.Sectioned → ∀ b start, openSections k ids rows upsert pool ⟨s, w⟩ = (.ok b, start) →
      ∀ done σ, SectionsRun k b 0 start done σ → done < ids.length →
        (∀ stop τ, growSection b done σ = (.error stop, τ) →
          addBatch k ids rows upsert pool ⟨s, w⟩ = (.error stop, τ) ∧
          ∃ lost, s.Sound lost ∧ LinkedUpTo lost b 0 s done τ.state) ∧
        ∀ grown σ₁, growSection b done σ = (.ok grown, σ₁) → (∀ τ, linkSection k b grown σ₁ ≠ (.error .stuck, τ)) →
          (GrownAreLinked k s b (addBatch k ids rows upsert pool ⟨s, w⟩) done grown σ₁ ↔
            GetsShared b grown σ₁)) := by
  obtain ⟨⟨lost, sound⟩, creator⟩ := reached.sound
  have self : Alike s s := ⟨.refl s, ⟨lost, sound⟩, ⟨lost, sound⟩, creator⟩
  have entry : SameEntry s s := by
    intro b c left right
    cases left.symm.trans right
    rfl
  have inserted {data : List F32} {n : Nat} {τ : Session} (admitted : Admitted k s ids rows upsert data)
      (inside : n ≤ ids.length)
      (added : RowsAdded k lost upsert s ((batchOf s.config ids data upsert pool).between 0 n) τ.state)
      (held : τ.state.Sound lost) (settings : Nat → Setting) :
      (follow k (addCalls upsert (givenRows s.config ids rows n)) settings s).1 = List.replicate n
      (.ok (.reply .done)) ∧
      SameIndex (follow k (addCalls upsert (givenRows s.config ids rows n)) settings s).2 τ.state := by
    obtain ⟨answers, after, last⟩ :=
      addCalls_follow added sound held (admitted.stores sound.toCoupled inside) self settings
    refine ⟨answers.trans ?_, after.sameIndex (last entry)⟩
    rw [givenRows, List.length_map, List.length_range]
  have nothing {τ : Session} (kept : Kept s τ.state) (coupled : τ.state.Coupled) (settings : Nat → Setting) :
      (follow k (addCalls upsert (givenRows s.config ids rows 0)) settings s).1 = List.replicate 0
      (.ok (.reply .done)) ∧
      SameIndex (follow k (addCalls upsert (givenRows s.config ids rows 0)) settings s).2 τ.state := by
    have same : Alike s τ.state :=
      ⟨(SameState.of_kept kept).symm, ⟨lost, sound⟩, ⟨lost, kept.sound sound coupled⟩, creator⟩
    exact ⟨rfl, same.sameIndex (entry.of_backends rfl kept.backend)⟩
  refine ⟨?_, ?_, ?_, ?_, ?_⟩
  · intro status refused
    have refuted {data : List F32} (admitted : Admitted k s ids rows upsert data) : False := by
      cases refused.symm.trans admitted.allowed
    have ends : Ends (addBatch k ids rows upsert pool) ⟨s, w⟩ _ _ := addBatch_ends sound
    cases run : addBatch k ids rows upsert pool ⟨s, w⟩ with
    | mk outcome τ =>
      cases outcome with
      | ok n =>
        obtain ⟨_, _, _, data, admitted, _⟩ := ends.1 n τ run
        exact (refuted admitted).elim
      | error e =>
        rcases ends.2 e τ run with untouched | ⟨data, admitted, _⟩
        · refine ⟨e, τ, rfl, ?_, untouched.kept⟩
          rcases untouched.reason with short | ⟨other, named, given⟩
          · exact .inr short
          · cases refused.symm.trans given
            exact .inl named
        · exact (refuted admitted).elim
  · intro plain n τ run
    obtain ⟨rfl, _, held, data, admitted, added⟩ := (addBatch_rows ids rows upsert sound (.inl plain)).1 n τ run
    exact ⟨rfl, inserted admitted (Nat.le_refl _) added held⟩
  · intro plain e τ run
    rcases (addBatch_rows ids rows upsert sound (.inl plain)).2 e τ run with
      untouched | ⟨data, admitted, j, _, inside, t, held, added, untouched⟩
    · exact ⟨0, .inl rfl, nothing untouched.kept untouched.coupled⟩
    · exact ⟨j, .inr inside, inserted admitted inside.le (added.then_kept untouched.kept) (untouched.sound held)⟩
  · intro kind e τ run
    by_cases some : ids.length = 0
    · have ends : Ends (addBatch k ids rows upsert pool) ⟨s, w⟩ (fun _ _ => True) fun _ τ => Kept s τ.state := by
        refine ends_state (ends_lift (fun _ _ => ?_) fun _ _ => .refl s)
        dsimp only
        rw [if_pos some]
        exact Ends.pure True.intro
      exact .inl (ends.2 e τ run)
    · cases opens : openSections k ids rows upsert pool ⟨s, w⟩ with
      | mk result start =>
        cases result with
        | ok b => exact .inr ⟨b, start, rfl⟩
        | error e' =>
          have ended := (addBatch_sections kind some).trans (bind_of_error opens)
          cases run.symm.trans ended
          exact .inl ((openSections_ends sound.toCoupled some).2 _ _ opens)
  · intro kind b start opens done σ sections more
    have some : ids.length ≠ 0 := by omega
    obtain ⟨data, rfl, admitted, kept, coupled⟩ := (openSections_ends sound.toCoupled some).1 _ _ opens
    obtain ⟨fits, distinct, _⟩ := admitted.batch pool sound.toCoupled
    obtain ⟨h, backend⟩ := hnsw_of_config coupled (kept.config ▸ kind.1)
    have held := kept.sound sound coupled
    have fits' := fits.of_config sound.toCoupled coupled kept.config
    have begins : addBatch k ids rows upsert pool ⟨s, w⟩ =
        batchSections k (batchOf s.config ids data upsert pool) ids.length 0 0 start :=
      (addBatch_sections kind some).trans (bind_of_ok opens)
    rw [begins]
    refine ⟨fun stop τ throws => ?_, fun grown σ₁ grows ends => ?_⟩
    · obtain ⟨reported, up⟩ := sections.thrown distinct held backend fits' more throws
      exact ⟨reported, lost, sound, up.of_kept kept⟩
    · exact sections.grownAreLinked_iff distinct sound kept held backend fits' more grows ends

section Midway

def stopIds : List ExternalId := [7, 8, 9]

def stopRows : List F32 := List.replicate 3 F32.zero

/-- Memory for two rows, none for the third, and then none for `parallel_for` or enough for it. -/
def stopWorld (shared : Bool) : World := {
  memory := List.replicate 14 true ++ [false, shared]
  schedules := [(List.replicate 20 [0, 1]).flatten] }

def stopBatch : Batch := batchOf stepConfig stopIds stopRows false (some { size := 1 })

theorem stop_grows (shared : Bool) {s : CollectionState} (created : create (.ok ()) 0 stepConfig = .ok s) :
    ∃ start grown σ, openSections zeroKernels stopIds stopRows false (some { size := 1 }) ⟨s, stopWorld shared⟩ =
        (.ok stopBatch, start) ∧
      growSection stopBatch 0 start = (.ok grown, σ) ∧ grown.rows.length = 2 ∧ grown.stop = some .threw ∧
      σ.world.memory = [shared] ∧ stopIds.map σ.state.ids.find = [some 0, some 1, none] ∧
      σ.state.backend.graph?.map (·.entry.valid) = some false ∧
      (linkSection zeroKernels stopBatch grown σ).1.toOption = if shared then some [true, true] else none := by
  have evaluated : (inFresh stepConfig 3 { stopWorld shared with memory := (stopWorld shared).memory.tail } (do
      allocate
      growSection stopBatch 0 : Op Grown)).any (fun first => first.1.toOption.any fun grown =>
        grown.rows.length == 2 && grown.stop == some .threw && first.2.world.memory == [shared] &&
          stopIds.map first.2.state.ids.find == [some 0, some 1, none] &&
          first.2.state.backend.graph?.map (·.entry.valid) == some false &&
          (linkSection zeroKernels stopBatch grown first.2).1.toOption == if shared then some [true, true]
          else none) = true := by
    cases shared <;> decide +kernel
  obtain ⟨⟨result, σ⟩, run, values⟩ := (Option.any_eq_true _ _).mp evaluated
  obtain ⟨opened, opens, run⟩ := inFresh_opens stopIds stopRows (stopWorld shared) created
    (checkKeys_of_ascending (by decide) (by decide)) rfl rfl (by decide) rfl run
  cases result with
  | error e => cases values
  | ok grown =>
    obtain ⟨_, start, allocated, grows⟩ := ok_of_bind run
    simp only [Except.toOption, Option.any_some, Bool.and_eq_true, beq_iff_eq] at values
    obtain ⟨⟨⟨⟨⟨rows, stop⟩, memory⟩, found⟩, entry⟩, links⟩ := values
    exact ⟨start, grown, σ, (bind_of_ok opens).trans (bind_of_ok allocated), grows, rows, stop, memory,
      found, entry, links⟩

/-- The batch stops after two of its three rows, which have been added as by `add`. -/
def StopsMidway (s : CollectionState) (w : World) : Prop :=
  ∃ τ j, addBatch zeroKernels stopIds stopRows false none ⟨s, w⟩ = (.error .threw, τ) ∧
    τ.state.vectors.size = 2 ∧ j < 3 ∧
    ∀ settings, SameIndex (follow zeroKernels (addCalls false (givenRows s.config stopIds stopRows j))
      settings s).2 τ.state

/-- A batch of three rows that stops at the last one, in a Flat, a Coarse and a Concurrent collection. -/
theorem add_batch_inserts_in_order_midway : ∃ flat coarse concurrent : CollectionState,
    create (.ok ()) 0 smallConfig = .ok flat ∧ StopsMidway flat { memory := List.replicate 11 true ++ [false] } ∧
    create (.ok ()) 0 { stepConfig with concurrency := .coarse } = .ok coarse ∧
      StopsMidway coarse { memory := List.replicate 19 true ++ [false] } ∧
    create (.ok ()) 0 stepConfig = .ok concurrent ∧ ∃ τ lost,
      addBatch zeroKernels stopIds stopRows false (some { size := 1 }) ⟨concurrent, stopWorld true⟩ =
        (.error .threw, τ) ∧
      LinkedUpTo lost stopBatch 0 concurrent 2 τ.state := by
  obtain ⟨flat, created⟩ := create_ok 0 (show smallConfig.validate = .ok () by decide)
  obtain ⟨coarse, created'⟩ :=
    create_ok 0 (show ({ stepConfig with concurrency := .coarse } : CollectionConfig).validate = .ok () by decide)
  obtain ⟨concurrent, created''⟩ := create_ok 0 (show stepConfig.validate = .ok () by decide)
  have plain {c : CollectionConfig} {s : CollectionState} {w : World} (created : create (.ok ()) 0 c = .ok s)
      (kind : ¬c.Sectioned) (valid : validateBatch stopRows stopIds.length c.dim.toNat = .ok ())
      (plain : c.effectiveNormalize = false) (enough : w.memory.headD true = true)
      (evaluated : (inFresh c 3 { w with memory := w.memory.tail }
        (addSlices zeroKernels (batchOf c stopIds stopRows false none) 3 0)).any (fun ended =>
          decide (ended.1 = .error .threw) && ended.2.state.vectors.size == 2) = true) : StopsMidway s w := by
    obtain ⟨⟨result, τ⟩, run, values⟩ := (Option.any_eq_true _ _).mp evaluated
    rw [Bool.and_eq_true, decide_eq_true_eq, beq_iff_eq] at values
    obtain ⟨rfl, size⟩ := values
    obtain ⟨start, opens, run⟩ := inFresh_opens stopIds stopRows w created
      (checkKeys_of_ascending (by decide) (by decide)) valid plain (by decide) enough run
    have config : s.config = c := (create_sound created).2.1
    have kind' : ¬s.config.Sectioned := by rw [config]; exact kind
    have stopped : addBatch zeroKernels stopIds stopRows false none ⟨s, w⟩ = (.error .threw, τ) := by
      rw [addBatch_opens (by decide), bind_of_ok opens]
      exact (congrFun (if_neg kind') start).trans run
    obtain ⟨j, inside, added⟩ :=
      (add_batch_inserts_in_order (.created created) stopIds stopRows false none w).2.2.1 kind' _ _ stopped
    have below : j < 3 := inside.elim (fun none => by omega) fun low => low
    exact ⟨τ, j, stopped, size, below, fun settings => (added settings).2⟩
  refine ⟨flat, coarse, concurrent, created, plain created (by decide) rfl rfl rfl (by decide +kernel), created',
    plain created' (by decide) rfl rfl rfl (by decide +kernel), created'', ?_⟩
  obtain ⟨start, grown, σ, opens, grows, rows, stop, memory, _, _, links⟩ := stop_grows true created''
  have kind : concurrent.config.Sectioned := by rw [(create_sound created'').2.1]; decide
  have linked : ∃ υ, linkSection zeroKernels stopBatch grown σ = (.ok [true, true], υ) := by
    generalize linkSection zeroKernels stopBatch grown σ = ended at links
    obtain ⟨_ | linked, υ⟩ := ended
    · cases links
    · cases links
      exact ⟨υ, rfl⟩
  obtain ⟨υ, linked⟩ := linked
  have reached : Reachable zeroKernels concurrent := .created created''
  have order := ((add_batch_inserts_in_order reached stopIds stopRows false (some { size := 1 })
    (stopWorld true)).2.2.2.2
    kind stopBatch start opens 0 start (.refl 0 start) (by decide)).2 grown σ grows
    fun _ stuck => by cases linked.symm.trans stuck
  obtain ⟨_, τ, lost, _, _, up, reported⟩ := order.mpr (fun _ => by rw [memory]; rfl) fun all τ run => by
    cases linked.symm.trans run
    decide
  rw [rows] at up
  exact ⟨τ, lost, reported _ stop, up⟩

/-- Memory runs out at the third row and then in `parallel_for`: the first two rows can be found by their ids, and
no search can reach them. -/
theorem unlinked_rows_stay_inserted : ∃ s start grown σ τ, create (.ok ()) 0 stepConfig = .ok s ∧
    openSections zeroKernels stopIds stopRows false (some { size := 1 }) ⟨s, stopWorld false⟩ =
      (.ok stopBatch, start) ∧
    growSection stopBatch 0 start = (.ok grown, σ) ∧ grown.stop = some .threw ∧ grown.rows.length = 2 ∧
    addBatch zeroKernels stopIds stopRows false (some { size := 1 }) ⟨s, stopWorld false⟩ = (.error .threw, τ) ∧
    ¬GrownAreLinked zeroKernels s stopBatch (.error .threw, τ) 0 grown σ ∧
    stopIds.map τ.state.ids.find = [some 0, some 1, none] ∧
    τ.state.backend.graph?.map (·.entry.valid) = some false := by
  obtain ⟨s, created⟩ := create_ok 0 (show stepConfig.validate = .ok () by decide)
  obtain ⟨start, grown, ⟨t, w⟩, opens, grows, rows, stop, memory, found, entry, _⟩ := stop_grows false created
  have kind : s.config.Sectioned := by rw [(create_sound created).2.1]; decide
  dsimp only at memory found entry
  obtain ⟨h, backend⟩ : ∃ h, t.backend = .hnsw h := by
    cases known : t.backend with
    | flat =>
      rw [known] at entry
      cases entry
    | hnsw h => exact ⟨h, rfl⟩
  have none : linkSection zeroKernels stopBatch grown ⟨t, w⟩ =
      (.error .threw, ⟨t, { w with memory := w.memory.tail }⟩) :=
    linkSection_lacks backend (by rw [rows]; rfl) (by rw [memory]; rfl)
  refine ⟨s, start, grown, ⟨t, w⟩, ⟨t, { w with memory := w.memory.tail }⟩, created, opens,
    grows, stop, rows, ?_, ?_,
    found, entry⟩
  · rw [addBatch_sections kind (by decide), bind_of_ok opens]
    change batchSections zeroKernels stopBatch (2 + 1) 0 0 start = _
    rw [batchSections, if_pos (by decide)]
    exact bind_of_error ((bind_of_ok grows).trans (bind_of_error none))
  · intro linked
    obtain ⟨_, _, _, links, _⟩ := linked fun _ _ links => by cases none.symm.trans links
    cases none.symm.trans links

end Midway

end Guarantees
end VectorForge
