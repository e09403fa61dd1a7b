import VectorForge.Collection.Mutations
import VectorForge.Collection.ReaderSafety

/-! Whole runs of mutations. Each may fail or throw wherever it can. -/

namespace VectorForge
open Effect

/-- Whether batches are linked in sections, with the lock released in between. -/
abbrev CollectionConfig.Sectioned (config : CollectionConfig) : Prop :=
  config.index = .hnsw ∧ config.concurrency = .concurrent

namespace Collection
open Op CollectionState
variable {k : KernelTable} {s t : CollectionState} {lost : Nat → Prop} {b : Batch} {w : World}

section Batch

/-- The batch that `add_batch` inserts. -/
def batchOf (config : CollectionConfig) (ids : List ExternalId) (data : List F32) (upsert : Bool)
    (pool : Option ThreadPool) : Batch :=
  { ids, data, dim := config.dim.toNat, upsert, pool }

/-- The arguments of `add_batch` are valid, and `data` is what will be stored. -/
structure Admitted (k : KernelTable) (s : CollectionState) (ids : List ExternalId) (rows : List F32) (upsert : Bool)
    (data : List F32) : Prop where
  allowed : batchRefusal k s ids rows upsert = none
  valid : validateBatch rows ids.length s.config.dim.toNat = .ok ()
  stored : batchData k s.config ids rows = .ok data

/-- All rows of the batch have been inserted. -/
structure BatchAdded (k : KernelTable) (lost : Nat → Prop) (s : CollectionState) (b : Batch)
    (t : CollectionState) : Prop where
  sectioned : s.config.Sectioned → LinkedUpTo lost b 0 s b.ids.length t
  plain : ¬s.config.Sectioned → RowsAdded k lost b.upsert s (b.between 0 b.ids.length) t

/-- How an admitted batch ends early. -/
inductive BatchStopped (k : KernelTable) (lost : Nat → Prop) (w : World) (s : CollectionState) (b : Batch)
    (e : Exit) (τ : Session) : Prop
  | plain (kind : ¬s.config.Sectioned) (j : Nat)
      (stopped : Stopped k lost b w s 0 j e τ) : BatchStopped k lost w s b e τ
  | sectioned (kind : s.config.Sectioned) (exit : BatchExit lost b w s e τ) : BatchStopped k lost w s b e τ

theorem SectionDone.of_kept {done count : Nat} {linked : List Bool} {u : CollectionState}
    (finished : SectionDone lost b done t count linked u) (kept : Kept s t) :
    SectionDone lost b done s count linked u where
  inside := finished.inside
  size := finished.size
  sound := kept.size ▸ finished.sound
  config := finished.config.trans kept.config
  creator := finished.creator.trans kept.creator
  createdUnixMs := finished.createdUnixMs.trans kept.createdUnixMs
  rows := by rw [finished.rows, kept.rows]
  labels := by rw [finished.labels, kept.ids]
  inserted := by
    intro j here
    rw [finished.inserted j here, kept.size]
  reverted := by
    intro j here
    rw [finished.reverted j here, kept.ids]
  others := by
    intro id other
    rw [finished.others id other, kept.ids]
  graph := by
    intro h kind
    obtain ⟨g, at_, levels⟩ := finished.graph h (kept.backend.trans kind)
    exact ⟨g, at_, by rw [levels, kept.size]⟩

theorem LinkedUpTo.of_kept {done m : Nat} {u : CollectionState}
    (linked : LinkedUpTo lost b done t m u) (kept : Kept s t) : LinkedUpTo lost b done s m u :=
  ⟨linked.1, linked.2.of_kept kept⟩

theorem BatchExit.of_kept {w' : World} {e : Exit} {τ : Session} (exit : BatchExit lost b w' t e τ) (kept : Kept s t)
    (later : w.Later w') : BatchExit lost b w s e τ := by
  rcases exit with untouched | ⟨m, u, v, inside, more, linked, last⟩
  · exact .inl ((untouched.of_kept kept).of_later later)
  · exact .inr ⟨m, u, v, inside, later.trans more, linked.of_kept kept, last⟩

theorem hnsw_of_config (coupled : s.Coupled) (kind : s.config.index = .hnsw) : ∃ h, s.backend = .hnsw h := by
  have fits := coupled.backend
  cases known : s.backend with
  | flat =>
    rw [known] at fits
    exact absurd (fits.symm.trans kind) (by decide)
  | hnsw h => exact ⟨h, rfl⟩

theorem flat_of_config (coupled : s.Coupled) (kind : s.config.index = .flat) : s.backend = .flat := by
  have fits := coupled.backend
  cases known : s.backend with
  | flat => rfl
  | hnsw h =>
    rw [known] at fits
    exact absurd (kind.symm.trans fits.1) (by decide)

/-- The batch of valid arguments, as the loops over its rows need it. -/
theorem Admitted.batch {ids : List ExternalId} {rows data : List F32} {upsert : Bool}
    (admitted : Admitted k s ids rows upsert data) (pool : Option ThreadPool) (coupled : s.Coupled) :
    Batch.Fits (batchOf s.config ids data upsert pool) s ∧ ids.Nodup ∧ kInvalidExternalId ∉ ids ∧
    ∀ j, j < ids.length →
      storedVector k s.config ((rows.drop (j * s.config.dim.toNat)).take s.config.dim.toNat) =
        .ok ((batchOf s.config ids data upsert pool).entry j).2 := by
  obtain ⟨distinct, real, length, each⟩ := batchData_ok admitted.valid admitted.stored
  exact ⟨⟨length, coupled.dim.symm⟩, distinct, real, each⟩

/-- `add_batch` up to the first row of an admitted batch. -/
theorem addBatch_admits {ids : List ExternalId} {rows : List F32} {upsert : Bool} {pool : Option ThreadPool}
    {post : Nat → Session → Prop} {exits : Exit → Session → Prop} (coupled : s.Coupled)
    (refused : ∀ e τ, Untouched w (batchRefusal k s ids rows upsert) s e τ → exits e τ)
    (empty : Admitted k s ids rows upsert [] → ids.length = 0 → post 0 ⟨s, w⟩)
    (rest : ∀ data t w', Admitted k s ids rows upsert data → w.Later w' → Kept s t → t.Coupled →
      Ends (if s.config.Sectioned then addBatchConcurrent k (batchOf s.config ids data upsert pool)
        else addSlices k (batchOf s.config ids data upsert pool) ids.length 0) ⟨t, w'⟩ post exits) :
    Ends (addBatch k ids rows upsert pool) ⟨s, w⟩ post exits := by
  refine addBatch_prepares coupled refused ?_ ?_
  · intro valid none
    refine empty ⟨?_, valid, ?_⟩ none
    · simp only [batchRefusal, valid, if_pos none]
    · obtain rfl : ids = [] := List.length_eq_zero_iff.mp none
      obtain rfl : rows = [] := List.length_eq_zero_iff.mp ((validateBatch_ok valid).1.trans (Nat.zero_mul _))
      have keys : checkKeys [] = .ok () := by simp [checkKeys, adjacentFind]
      rw [batchData, keys]
      cases s.config.effectiveNormalize <;> rfl
  · intro data t w' valid allowed stored later kept held
    exact rest data t w' ⟨allowed, valid, stored⟩ later kept held

theorem addBatch_ends {ids : List ExternalId} {rows : List F32} {upsert : Bool} {pool : Option ThreadPool}
    (sound : s.Sound lost) : Ends (addBatch k ids rows upsert pool) ⟨s, w⟩
      (fun n τ => n = ids.length ∧ w.Later τ.world ∧ τ.state.Sound lost ∧
        ∃ data, Admitted k s ids rows upsert data ∧
        BatchAdded k lost s (batchOf s.config ids data upsert pool) τ.state)
      (fun e τ => Untouched w (batchRefusal k s ids rows upsert) s e τ ∨ ∃ data, Admitted k s ids rows upsert data ∧
        BatchStopped k lost w s (batchOf s.config ids data upsert pool) e τ) := by
  refine addBatch_admits sound.toCoupled (fun e τ untouched => .inl untouched) ?_ ?_
  · intro admitted empty
    refine ⟨empty.symm, .refl w, sound, [], admitted, fun _ => ?_, fun _ => ?_⟩
    · rw [show (batchOf s.config ids [] upsert pool).ids.length = 0 from empty]
      exact .refl sound (Nat.zero_le _)
    · rw [show (batchOf s.config ids [] upsert pool).ids.length = 0 from empty, Batch.between_self]
      exact .nil (.refl s)
  · intro data t w' admitted later kept coupled
    obtain ⟨fits, distinct, _⟩ := admitted.batch pool sound.toCoupled
    have held := kept.sound sound coupled
    have fits' := fits.of_config sound.toCoupled coupled kept.config
    split
    next kind =>
      obtain ⟨h, backend⟩ := hnsw_of_config coupled (kept.config ▸ kind.1)
      refine (addBatchConcurrent_ends distinct held backend fits').mono ?_ ?_
      · rintro n τ ⟨count, more, linked⟩
        exact ⟨count, later.trans more, linked.sound held, data, admitted, fun _ => linked.of_kept kept,
          fun plain => absurd kind plain⟩
      · exact fun e τ exit => .inr ⟨data, admitted, .sectioned kind (exit.of_kept kept later)⟩
    next kind =>
      have start : RowsAdded k lost upsert s ((batchOf s.config ids data upsert pool).between 0 0) t := by
        rw [Batch.between_self]
        exact .nil kept
      refine (addSlices_ends held fits' (Nat.zero_le _) (Nat.le_add_left _ _)).mono ?_ ?_
      · rintro n τ ⟨count, more, last, added⟩
        refine ⟨count, later.trans more, last, data, admitted, fun sectioned => absurd sectioned kind, fun _ => ?_⟩
        exact start.append sound coupled added
      · rintro e τ ⟨j, stopped⟩
        exact .inr ⟨data, admitted, .plain kind j (stopped.after start sound coupled (Nat.le_refl 0) later)⟩

end Batch

/-- The mutations. -/
inductive Command where
  | add (id : ExternalId) (vector : List F32) (upsert : Bool)
  | addBatch (ids : List ExternalId) (rows : List F32) (upsert : Bool) (pool : Option ThreadPool)
  | remove (id : ExternalId)
  | compact

/-- What they return. -/
inductive Reply where
  | done
  | inserted (rows : Nat)
  | compacted (stats : CompactStats)
  deriving DecidableEq, Repr

def Command.run (k : KernelTable) : Command → Op Reply
  | .add id vector upsert => do
    Collection.add k id vector upsert
    return .done
  | .addBatch ids rows upsert pool => do
    let rows ← Collection.addBatch k ids rows upsert pool
    return .inserted rows
  | .remove id => do
    Collection.remove id
    return .done
  | .compact => do
    let stats ← Collection.compact k
    return .compacted stats

/-- A created or loaded collection after some mutations, in any environment. Each of them has come
to an end, with a result, a status or an exception. -/
inductive Reachable (k : KernelTable) : CollectionState → Prop
  | created {simd : Result Unit} {now : UInt64} {config : CollectionConfig} {s : CollectionState}
      (run : create simd now config = .ok s) : Reachable k s
  | loaded {simd : Result Unit} {file : List Byte} {options : IndexReader.ReadOptions} {s : CollectionState}
      (resolved : options.verify ≠ .auto) (run : IndexReader.readIndex simd file options = .ok s) : Reachable k s
  | step {s : CollectionState} {w : World} {c : Command} {result : Except Exit Reply} {τ : Session}
      (before : Reachable k s)
      (run : c.run k ⟨s, w⟩ = (result, τ)) (ended : result ≠ .error .stuck) : Reachable k τ.state

theorem RepInv.sound (inv : s.RepInv) : s.Sound fun _ => False where
  toCoupled := inv.toCoupled
  bounded := fun _ => False.elim
  rests := by
    intro b kind
    have fits := inv.backend
    rw [kind] at fits
    obtain ⟨_, fits⟩ := fits
    have room : b.graph.nodeCount ≤ kMaxVectorsPerCollection := by
      rw [fits.nodes]
      exact inv.rows_le
    exact Resting.of_invariants (HnswValidator.checkInvariants_ok_iff.mp (inv.graph b kind))
      (by rw [fits.m, fits.params])
      (by rw [fits.maxLevel, fits.params]) fits.laid room

theorem Untouched.sound {refusal : Option Status} {e : Exit} {τ : Session} (untouched : Untouched w refusal s e τ)
    (sound : s.Sound lost) : τ.state.Sound lost :=
  untouched.kept.sound sound untouched.coupled

/-- What every mutation keeps, however it ends. -/
structure Continues (s t : CollectionState) : Prop where
  sound : ∃ lost, t.Sound lost
  config : t.config = s.config
  creator : t.creator = s.creator

theorem Continues.refl (sound : s.Sound lost) : Continues s s := ⟨⟨lost, sound⟩, rfl, rfl⟩

theorem Continues.trans {u : CollectionState} (first : Continues s t) (second : Continues t u) : Continues s u :=
  ⟨second.sound, second.config.trans first.config, second.creator.trans first.creator⟩

theorem Untouched.continues {refusal : Option Status} {e : Exit} {τ : Session}
    (untouched : Untouched w refusal s e τ) (sound : s.Sound lost) : Continues s τ.state :=
  ⟨⟨lost, untouched.sound sound⟩, untouched.kept.config, untouched.kept.creator⟩

theorem RowsAdded.creator {upsert : Bool} {xs : List (ExternalId × List F32)}
    (added : RowsAdded k lost upsert s xs t) : t.creator = s.creator := by
  induction added with
  | nil kept => exact kept.creator
  | cons added _ ih =>
    obtain ⟨_, _, _, _, _, inserted⟩ := added.inserted
    exact ih.trans inserted.creator

theorem RowsReserved.header {upsert : Bool} {xs : List (ExternalId × List F32)} {rs : List IdMap.Reservation}
    (chain : RowsReserved upsert s xs rs t) : t.config = s.config ∧ t.creator = s.creator := by
  induction chain with
  | nil kept => exact ⟨kept.config, kept.creator⟩
  | snoc _ _ last ih =>
    obtain ⟨_, _, _, _, inserted⟩ := last.inserted
    exact ⟨inserted.config.trans ih.1, inserted.creator.trans ih.2⟩

/-- Rows that were grown but not linked count as lost. -/
theorem SectionExit.continues {done : Nat} {e : Exit} {τ : Session} (exit : SectionExit lost b done w s e τ)
    (sound : s.Sound lost) (kind : s.config.index = .hnsw) : Continues s τ.state := by
  cases exit with
  | untouched untouched => exact untouched.continues sound
  | @notLinked σ _ rows _ grown state _ _ =>
    obtain ⟨h, backend⟩ := hnsw_of_config sound.toCoupled kind
    obtain ⟨g, at_, reserved, nodes, _⟩ := grown.chain.graph sound backend
    obtain ⟨config, creator⟩ := RowsReserved.header grown.chain
    rw [state]
    refine ⟨⟨fun x => (lost x ∨ s.vectors.size ≤ x) ∧ x < σ.state.vectors.size, { grown.coupled with
      bounded := fun x gone => gone.2
      rests := ?_ }⟩, config, creator⟩
    intro c same
    cases at_.symm.trans same
    exact reserved.rest.congr fun x node => ⟨fun gone => gone.1, fun gone => ⟨gone, nodes ▸ node⟩⟩
  | ended _ _ finished _ _ => exact ⟨⟨_, finished.sound⟩, finished.config, finished.creator⟩

theorem LinkedUpTo.continues {done m : Nat} (linked : LinkedUpTo lost b done s m t)
    (sound : s.Sound lost) : Continues s t :=
  ⟨⟨lost, linked.sound sound⟩, linked.2.config, linked.2.creator⟩

theorem BatchStopped.continues {e : Exit} {τ : Session} (stopped : BatchStopped k lost w s b e τ)
    (sound : s.Sound lost) : Continues s τ.state := by
  cases stopped with
  | plain _ j stopped =>
    obtain ⟨_, _, t, held, added, untouched⟩ := stopped
    have first : Continues s t := ⟨⟨lost, held⟩, added.config, RowsAdded.creator added⟩
    exact first.trans (untouched.continues held)
  | sectioned kind exit =>
    rcases exit with untouched | ⟨m, t, w', _, _, linked, last⟩
    · exact untouched.continues sound
    · exact (linked.continues sound).trans
        (last.continues (linked.sound sound) (by rw [linked.2.config]; exact kind.1))

/-- One mutation, however it ends, leaves a sound collection. -/
theorem Command.run_continues (c : Command) (sound : s.Sound lost) :
    Ends (c.run k) ⟨s, w⟩ (fun _ τ => Continues s τ.state) fun _ τ => Continues s τ.state := by
  cases c with
  | add id vector upsert =>
    refine Ends.bind ((add_ends sound).mono ?_ fun e τ untouched => untouched.continues sound)
    rintro _ τ ⟨_, _, _, _, added⟩
    have one := RowsAdded.single added
    exact Ends.pure ⟨⟨lost, added.sound⟩, one.config, RowsAdded.creator one⟩
  | addBatch ids rows upsert pool =>
    refine Ends.bind ((addBatch_ends sound).mono ?_ ?_)
    · rintro _ τ ⟨_, _, held, _, _, added⟩
      refine Ends.pure ?_
      by_cases kind : s.config.Sectioned
      · exact (added.sectioned kind).continues sound
      · exact ⟨⟨lost, held⟩, (added.plain kind).config, RowsAdded.creator (added.plain kind)⟩
    · rintro e τ (untouched | ⟨_, _, stopped⟩)
      · exact untouched.continues sound
      · exact stopped.continues sound
  | remove id =>
    refine Ends.bind ((remove_ends sound).mono ?_ fun e τ untouched => untouched.continues sound)
    rintro _ τ ⟨_, _, removed, held⟩
    exact Ends.pure ⟨⟨lost, held⟩, by rw [removed.frame], by rw [removed.frame]⟩
  | compact =>
    refine Ends.bind ((compact_ends sound).mono ?_ ?_)
    · rintro _ τ ⟨_, ⟨_, same, _⟩ | ⟨_, _, held, start, emptied, added⟩⟩
      · exact Ends.pure (by rw [same]; exact .refl sound)
      · exact Ends.pure ⟨⟨_, held⟩, added.config.trans emptied.config,
          (RowsAdded.creator added).trans emptied.creator⟩
    · rintro e τ ⟨same, _⟩
      rw [same]
      exact .refl sound

theorem Reachable.sound (reached : Reachable k s) :
    (∃ lost, s.Sound lost) ∧ s.creator.length ≤ Format.kMaxCreatorLength := by
  induction reached with
  | created run =>
    refine ⟨⟨_, (create_sound run).1⟩, ?_⟩
    rw [(create_sound run).2.2.2.2]
    decide
  | @loaded simd file options s resolved run =>
    have loaded := (IndexReader.readIndex_sat simd file resolved).value run
    exact ⟨⟨_, RepInv.sound loaded.inv⟩, loaded.creator⟩
  | @step s w c result τ _ run _ ih =>
    obtain ⟨⟨lost, sound⟩, short⟩ := ih
    obtain ⟨values, exits⟩ := Command.run_continues (k := k) (w := w) c sound
    have next : Continues s τ.state := by
      cases result with
      | ok reply => exact values reply τ run
      | error e => exact exits e τ run
    exact ⟨next.sound, next.creator ▸ short⟩

end Collection
end VectorForge
