import VectorForge.Collection.Sections

/-! `remove` and `compact`, and the states that a collection starts from. -/

namespace VectorForge
open Effect
open IndexReader (SameState)

namespace Collection
open Op CollectionState
variable {k : KernelTable} {s t : CollectionState} {lost : Nat → Prop} {b : Batch} {w : World} {id : ExternalId}

section Remove

/-- The status with which `remove` refuses an id. -/
def removeRefusal (s : CollectionState) (id : ExternalId) : Option Status :=
  match s.ids.erase id with
  | .error e => some e
  | .ok _ => none

/-- The row of the id is marked and the id is gone. -/
structure Removed (s : CollectionState) (id : ExternalId) (t : CollectionState) : Prop where
  frame : t = { s with ids := t.ids, deleted := t.deleted }
  erased : ∃ row, s.ids.erase id = .ok (t.ids, row) ∧
    (∀ i, t.deleted.test i = (s.deleted.test i || decide (i = row))) ∧
    t.deleted.count = s.deleted.count + 1

theorem remove_ends (sound : s.Sound lost) : Ends (remove id) ⟨s, w⟩
    (fun _ τ => τ.world = w ∧ removeRefusal s id = none ∧ Removed s id τ.state ∧ τ.state.Sound lost)
    (Untouched w (removeRefusal s id) s) := by
  refine ends_state (ends_lift ?_ ?_)
  · rintro ⟨ids, row⟩ run
    -- the bit of the row, which is not marked yet
    have known : ∃ entry, s.ids.map.lookup id = some entry ∧ entry.current = row := by
      unfold IdMap.erase at run
      split at run
      · cases run
      next entry found =>
        split at run
        · cases run
        split at run
        · cases run
        cases run
        exact ⟨entry, found, rfl⟩
    obtain ⟨entry, found, rfl⟩ := known
    obtain ⟨_, label, unmarked⟩ := sound.settled.entry found
    have inside : entry.current < s.vectors.size := sound.labels ▸ (List.getElem?_eq_some_iff.mp label).1
    have marks (i : Nat) : (s.deleted.set entry.current).test i =
        (s.deleted.test i || decide (i = entry.current)) := by
      rw [TombstoneSet.test_set (TombstoneSet.inside_of_covers sound.tracks.covers inside), Bool.or_comm]
    obtain ⟨tracks, count⟩ := sound.tracks.set inside unmarked
    obtain ⟨labels, _, _, settled⟩ := sound.settled.erase run marks
    refine ends_checked (mark_ok sound.tracks inside) (ends_set ⟨rfl, by rw [removeRefusal, run], ?_, ?_⟩)
    · exact ⟨rfl, entry.current, run, marks, count⟩
    · exact { sound with labels := (by rw [labels]; exact sound.labels), settled, tracks }
  · intro e run
    exact untouched_refused sound.toCoupled (by rw [removeRefusal, run])

end Remove

section Compact

/-- A collection without rows, configured like `s`. -/
structure Emptied (s t : CollectionState) : Prop where
  sound : t.Sound fun _ => False
  config : t.config = s.config
  creator : t.creator = s.creator
  createdUnixMs : t.createdUnixMs = s.createdUnixMs
  rows : t.vectors.rows = []
  ids : t.ids = {}
  deleted : t.deleted = {}
  backend : attachBackend s.config = .ok t.backend

/-- The live rows with their ids, in their order. -/
def liveRows (s : CollectionState) : List (ExternalId × List F32) :=
  ((List.range s.vectors.size).filter fun r => !s.deleted.test r).map fun r =>
    (s.ids.labels.getD r kInvalidExternalId, s.vectors.row r)

/-- A state without rows as `create` and `compact` set it up. -/
theorem fresh_sound (creator : List Byte) (now : UInt64) {config : CollectionConfig} {vectors : VectorStore}
    {backend : IndexBackend}
    (valid : config.validate = .ok ()) (store : VectorStore.create { dim := config.dim.toNat } = .ok vectors)
    (attached : attachBackend config = .ok backend) :
    ({ config, vectors, backend, creator, createdUnixMs := now } : CollectionState).Sound (fun _ => False) ∧
    vectors.rows = [] := by
  obtain ⟨dimRange, params⟩ := CollectionConfig.validate_ok_iff.mp valid
  obtain ⟨wf, shape⟩ := VectorStore.create_spec store
  have size : vectors.size = 0 := by rw [shape]
  have fits : backend.Fits config 0 ∧ ∀ b, backend = .hnsw b →
      Resting b.params (fun _ => False) { graph := b.graph } := by
    rw [attachBackend] at attached
    split at attached
    next flat =>
      cases attached
      exact ⟨flat, nofun⟩
    next hnsw =>
      rw [HnswBackend.create_eq (params hnsw)] at attached
      cases attached
      obtain ⟨made, ok⟩ := HnswBackend.create_fits (HnswBackend.create_eq (params hnsw))
      refine ⟨⟨hnsw, made⟩, ?_⟩
      rintro b same
      cases same
      exact Resting.of_invariants ok made.m made.maxLevel made.laid (made.nodes.trans_le (Nat.zero_le _))
  refine ⟨{
    store := wf
    dim := by rw [shape]
    limit := by rw [shape]
    dimRange := dimRange
    normalized := rfl
    labels := size.symm
    settled := ⟨by simp, by simp, by simp, by simp⟩
    tracks := by
      rw [size]
      exact TombstoneSet.Tracks.nil
    backend := by
      rw [size]
      exact fits.1
    bounded := fun _ => False.elim
    rests := fits.2 }, ?_⟩
  rw [VectorStore.rows, size]
  rfl

/-- What `create` sets up. -/
theorem create_made {simd : Result Unit} {now : UInt64} {config : CollectionConfig}
    (run : create simd now config = .ok s) :
    config.validate = .ok () ∧ ∃ vectors backend, VectorStore.create { dim := config.dim.toNat } = .ok vectors ∧
      attachBackend config = .ok backend ∧
      s = { config, vectors, backend, creator := asBytes ("vectorforge ".toList ++ kVersion)
            createdUnixMs := now } := by
  unfold create at run
  cases valid : config.validate with
  | error e => rw [valid] at run; cases run
  | ok u =>
    cases simd with
    | error e => rw [valid] at run; cases run
    | ok u' =>
      cases store : VectorStore.create { dim := config.dim.toNat } with
      | error e => simp only [valid, store] at run; cases run
      | ok vectors =>
        cases attached : attachBackend config with
        | error e => simp only [valid, store, attached] at run; cases run
        | ok backend =>
          simp only [valid, store, attached] at run
          cases run
          exact ⟨rfl, vectors, backend, rfl, rfl, rfl⟩

theorem create_sound {simd : Result Unit} {now : UInt64} {config : CollectionConfig}
    (run : create simd now config = .ok s) :
    s.Sound (fun _ => False) ∧ s.config = config ∧ config.validate = .ok () ∧ s.vectors.rows = [] ∧
      s.creator = asBytes ("vectorforge ".toList ++ kVersion) := by
  obtain ⟨valid, vectors, backend, store, attached, rfl⟩ := create_made run
  obtain ⟨sound, none⟩ := fresh_sound (asBytes ("vectorforge ".toList ++ kVersion)) now valid store attached
  exact ⟨sound, rfl, valid, none, rfl⟩

theorem valid_of_coupled (coupled : s.Coupled) : s.config.validate = .ok () := by
  refine CollectionConfig.validate_ok_iff.mpr ⟨coupled.dimRange, ?_⟩
  intro hnsw
  have fits := coupled.backend
  cases kind : s.backend with
  | flat =>
    rw [kind] at fits
    exact absurd (fits.symm.trans hnsw) (by decide)
  | hnsw b =>
    rw [kind] at fits
    exact fits.2.valid

theorem attachBackend_ok {config : CollectionConfig} (valid : config.validate = .ok ()) :
    ∃ backend, attachBackend config = .ok backend := by
  obtain ⟨_, params⟩ := CollectionConfig.validate_ok_iff.mp valid
  rw [attachBackend]
  split
  · exact ⟨_, rfl⟩
  next hnsw =>
    rw [HnswBackend.create_eq (params hnsw)]
    exact ⟨_, rfl⟩

theorem apart_ends {α β : Type} {start : CollectionState} {p : Op α} {f : α × CollectionState → Op β}
    {post : β → Session → Prop} {exits : Exit → Session → Prop}
    (ends : Ends p ⟨start, w⟩ (fun a τ => Ends (f (a, τ.state)) ⟨s, τ.world⟩ post exits) fun e τ =>
      exits e ⟨s, τ.world⟩) :
    Ends (apart start p >>= f) ⟨s, w⟩ post exits := by
  cases known : p ⟨start, w⟩ with
  | mk result τ =>
    cases result with
    | ok a =>
      have run : apart start p ⟨s, w⟩ = (.ok (a, τ.state), ⟨s, τ.world⟩) := by simp only [apart, known]
      exact Ends.of_ok run (ends.1 a τ known)
    | error e =>
      have run : apart start p ⟨s, w⟩ = (.error e, ⟨s, τ.world⟩) := by simp only [apart, known]
      exact Ends.of_error run (ends.2 e τ known)

/-- The live rows from row `r` on. -/
def liveFrom (s : CollectionState) (left r : Nat) : List (ExternalId × List F32) :=
  ((List.range' r left).filter fun r => !s.deleted.test r).map fun r =>
    (s.ids.labels.getD r kInvalidExternalId, s.vectors.row r)

theorem liveFrom_all (s : CollectionState) : liveFrom s s.vectors.size 0 = liveRows s := by
  rw [liveFrom, liveRows, List.range_eq_range']

theorem liveFrom_succ (s : CollectionState) (left r : Nat) : liveFrom s (left + 1) r =
    (if s.deleted.test r then [] else [(s.ids.labels.getD r kInvalidExternalId, s.vectors.row r)]) ++
      liveFrom s left (r + 1) := by
  rw [liveFrom, List.range'_succ, List.filter_cons]
  cases s.deleted.test r <;> rfl

/-- Rows inserted again, up to one that was refused. -/
structure Refilled (k : KernelTable) (w : World) (start : CollectionState) (xs : List (ExternalId × List F32))
    (e : Exit) (τ : Session) : Prop where
  later : w.Later τ.world
  stopped : ∃ done x rest t, xs = done ++ x :: rest ∧ t.Sound (fun _ => False) ∧
    RowsAdded k (fun _ => False) false start done t ∧
    Reason w (t.keyRefusal x.1 false) e

theorem reinsertRows_ends {old : CollectionState} (coupled : old.Coupled) :
    ∀ {left r : Nat} {t : CollectionState} {w : World},
    r + left ≤ old.vectors.size → t.Sound (fun _ => False) → t.config.dim = old.config.dim →
    Ends (reinsertRows k old left r) ⟨t, w⟩
      (fun _ τ => w.Later τ.world ∧ τ.state.Sound (fun _ => False) ∧
        RowsAdded k (fun _ => False) false t (liveFrom old left r) τ.state)
      (Refilled k w t (liveFrom old left r)) := by
  intro left
  induction left with
  | zero => exact fun _ sound _ => Ends.pure ⟨.refl _, sound, .nil (.refl _)⟩
  | succ left ih =>
    intro r t w inside sound dim
    rw [liveFrom_succ, reinsertRows]
    cases dead : old.deleted.test r with
    | true => exact ih (by omega) sound dim
    | false =>
      have labelled : r < old.ids.labels.length := coupled.labels ▸ (by omega)
      have label : Outcome.index old.ids.labels r =
          (.ok (old.ids.labels.getD r kInvalidExternalId) : Checked ExternalId) := by
        rw [Outcome.index_ok labelled, List.getD_eq_getElem _ _ labelled]
      have fits := coupled.store.fits
      have length : (old.vectors.row r).length = t.vectors.dim := by
        rw [coupled.store.length_row (by omega), coupled.dim, sound.dim, dim]
      refine ends_checked label (Ends.assoc (Ends.bind ((linkedRow_ends sound length).mono ?_ ?_)))
      · rintro _ ⟨u, w₁⟩ ⟨later, added⟩
        dsimp only at later added
        have config : u.config = t.config := by
          obtain ⟨_, _, _, _, _, inserted⟩ := added.inserted
          exact inserted.config
        refine (ih (by omega) added.sound (by rw [config, dim])).mono ?_ ?_
        · rintro _ τ ⟨more, held, rest⟩
          exact ⟨later.trans more, held, .cons added rest⟩
        · rintro e τ ⟨more, done, x, rest, v, all, held, before, reason⟩
          refine ⟨later.trans more, (old.ids.labels.getD r kInvalidExternalId, old.vectors.row r) :: done,
            x, rest, v, ?_, held,
            .cons added before, reason.later later⟩
          rw [if_neg Bool.false_ne_true, all]
          rfl
      · rintro e τ untouched
        refine ⟨untouched.later, [], (old.ids.labels.getD r kInvalidExternalId, old.vectors.row r),
          liveFrom old left (r + 1), t,
          ?_, sound, .nil (.refl t), untouched.reason⟩
        rw [if_neg Bool.false_ne_true]
        rfl

/-- `compact` starts from nothing and adds the live rows, or leaves everything as it was. -/
theorem compact_ends (sound : s.Sound lost) : Ends (compact k) ⟨s, w⟩
    (fun stats τ => w.Later τ.world ∧
      ((s.deleted.count = 0 ∧ τ.state = s ∧ stats = ⟨s.vectors.size, s.deleted.count, s.vectors.size⟩) ∨
        (s.deleted.count ≠ 0 ∧ stats = ⟨s.vectors.size, s.deleted.count, τ.state.vectors.size⟩ ∧
          τ.state.Sound (fun _ => False) ∧
          ∃ start, Emptied s start ∧ RowsAdded k (fun _ => False) false start (liveRows s) τ.state)))
    fun e τ => τ.state = s ∧ s.deleted.count ≠ 0 ∧ w.Later τ.world ∧
      ((e = .threw ∧ ¬w.Ample) ∨ ∃ start τ', Emptied s start ∧ Refilled k w start (liveRows s) e τ') := by
  have valid := valid_of_coupled sound.toCoupled
  obtain ⟨vectors, store⟩ := VectorStore.create_default sound.dimRange.1 sound.dimRange.2
  obtain ⟨backend, attached⟩ := attachBackend_ok valid
  have live : s.ids.size ≤ kMaxVectorsPerCollection := by
    have count := sound.toCoupled.live_add_count
    have rows := sound.toCoupled.rows_le
    rw [IdMap.size]
    omega
  refine ends_state ?_
  dsimp only
  split
  next none => exact Ends.pure ⟨.refl w, .inl ⟨none, rfl, rfl⟩⟩
  next some =>
    rw [store]
    refine ends_allocate (fun w' lacked => ⟨rfl, some, lacked.1.later, .inl ⟨rfl, lacked.2⟩⟩) fun w₁ spent => ?_
    rw [attached]
    obtain ⟨fresh, rows⟩ := fresh_sound s.creator s.createdUnixMs valid store attached
    have emptied : Emptied s
        { config := s.config, vectors, backend, creator := s.creator, createdUnixMs := s.createdUnixMs } :=
      ⟨fresh, rfl, rfl, rfl, rows, rfl, rfl, attached⟩
    refine apart_ends (reserveAll_ends fresh.toCoupled (by rw [fresh.limit]; exact live) ?_ ?_)
    · intro t w₂ later kept coupled _
      have held := kept.sound fresh coupled
      have dim : t.config.dim = s.config.dim := by rw [kept.config]
      refine (reinsertRows_ends sound.toCoupled (by omega) held dim).mono ?_ ?_
      · rintro _ τ ⟨more, last, added⟩
        rw [liveFrom_all] at added
        refine ends_setState (Ends.pure ⟨(spent.later.trans later).trans more,
          .inr ⟨some, rfl, last, _, emptied, ?_⟩⟩)
        exact (RowsAdded.nil kept).append fresh coupled added
      · rintro e τ ⟨more, done, x, rest, u, all, held', before, reason⟩
        rw [liveFrom_all] at all
        refine ⟨rfl, some, (spent.later.trans later).trans more,
          .inr ⟨_, τ, emptied, (spent.later.trans later).trans more, done, x, rest,
          u, all, held', ?_, reason.later (spent.later.trans later)⟩⟩
        exact (RowsAdded.nil kept).append fresh coupled before
    · intro e τ untouched
      refine ⟨rfl, some, spent.later.trans untouched.later, .inl ?_⟩
      rcases untouched.reason with threw | ⟨status, _, none⟩
      · exact ⟨threw.1, fun ample => threw.2 (spent.later.ample ample)⟩
      · cases none

end Compact
end Collection
end VectorForge
