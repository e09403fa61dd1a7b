import VectorForge.Collection.GraphRuns

/-! Inserting one row: what it does when it works, and that it leaves no trace otherwise. -/

namespace VectorForge
open Effect

namespace Op
variable {α β : Type} {σ : Session} {post : α → Session → Prop} {exits : Exit → Session → Prop}

theorem ends_state {f : CollectionState → Op α} (rest : Ends (f σ.state) σ post exits) :
    Ends (state >>= f) σ post exits := rest

theorem ends_setState {s : CollectionState} {f : Unit → Op α}
    (rest : Ends (f ()) { σ with state := s } post exits) : Ends (setState s >>= f) σ post exits := rest

theorem ends_set {s : CollectionState} {after : Unit → Session → Prop} (holds : after () { σ with state := s }) :
    Ends (setState s) σ after exits := Ends.pure (ε := Exit) (s := { σ with state := s }) holds

theorem ends_checked {r : Checked β} {b : β} {f : β → Op α} (run : r = .ok b) (rest : Ends (f b) σ post exits) :
    Ends (checked r >>= f) σ post exits := by
  subst run
  exact rest

theorem ends_check {condition : Bool} {message : String} {f : Unit → Op α} (holds : condition = true)
    (rest : Ends (f ()) σ post exits) : Ends (checked (Outcome.check condition message) >>= f) σ post exits :=
  ends_checked (if_pos holds) rest

theorem ends_lift {r : Result β} {f : β → Op α} (rest : ∀ b, r = .ok b → Ends (f b) σ post exits)
    (refused : ∀ e, r = .error e → exits (.status e) σ) : Ends (lift r >>= f) σ post exits := by
  cases r with
  | ok b => exact rest b rfl
  | error e => exact Ends.bind (Ends.leave (refused e rfl))

theorem ends_allocate {f : Unit → Op α} (lacks : ∀ w, σ.world.Lacked w → exits .threw { σ with world := w })
    (rest : ∀ w, σ.world.Spent w → Ends (f ()) { σ with world := w } post exits) :
    Ends (allocate >>= f) σ post exits := by
  cases enough : σ.world.memory.headD true with
  | true => exact Ends.of_ok (if_pos enough) (rest _ σ.world.spent_tail)
  | false =>
    exact Ends.of_error (if_neg (by rw [enough]; exact Bool.false_ne_true)) (lacks _ (World.lacked_tail enough))

end Op

/-- Why an operation left that may be refused with a status: for this reason, or because an allocation failed. -/
def Reason (w : World) (refusal : Option Status) (e : Exit) : Prop :=
  (e = .threw ∧ ¬w.Ample) ∨ ∃ status, e = .status status ∧ refusal = some status

namespace Reason
variable {w w₁ : World} {refusal : Option Status} {e : Exit}

theorem later (reason : Reason w₁ refusal e) (later : w.Later w₁) : Reason w refusal e :=
  reason.imp_left fun ⟨threw, lacks⟩ => ⟨threw, fun ample => lacks (later.ample ample)⟩

theorem caught (reason : Reason w refusal e) : e.caught = true := by
  rcases reason with ⟨rfl, _⟩ | ⟨status, rfl, _⟩ <;> rfl

end Reason

namespace CollectionState

/-- The same content: only the memory set aside for rows and bits may differ. -/
structure Kept (s t : CollectionState) : Prop where
  config : t.config = s.config
  normalized : t.normalized = s.normalized
  creator : t.creator = s.creator
  createdUnixMs : t.createdUnixMs = s.createdUnixMs
  rows : t.vectors.rows = s.vectors.rows
  ids : t.ids = s.ids
  marks : ∀ i, t.deleted.test i = s.deleted.test i
  count : t.deleted.count = s.deleted.count
  backend : t.backend = s.backend

theorem Kept.refl (s : CollectionState) : Kept s s := ⟨rfl, rfl, rfl, rfl, rfl, rfl, fun _ => rfl, rfl, rfl⟩

theorem Kept.trans {s t u : CollectionState} (first : Kept s t) (second : Kept t u) : Kept s u where
  config := second.config.trans first.config
  normalized := second.normalized.trans first.normalized
  creator := second.creator.trans first.creator
  createdUnixMs := second.createdUnixMs.trans first.createdUnixMs
  rows := second.rows.trans first.rows
  ids := second.ids.trans first.ids
  marks := fun i => (second.marks i).trans (first.marks i)
  count := second.count.trans first.count
  backend := second.backend.trans first.backend

theorem Kept.size {s t : CollectionState} (kept : Kept s t) : t.vectors.size = s.vectors.size := by
  rw [← VectorStore.length_rows, kept.rows, VectorStore.length_rows]

/-- The status with which the backend refuses the next row. -/
def indexRefusal (s : CollectionState) : Option Status :=
  match s.backend with
  | .flat => none
  | .hnsw b => match b.graph.addNode (b.params.levels.levelFor s.vectors.size) with
    | .ok _ => none
    | .error e => some e

/-- The status with which the next row is refused. -/
def rowRefusal (s : CollectionState) : Option Status :=
  if s.vectors.size ≥ s.vectors.maxRows then
    some (.resourceExhausted ("VectorStore: capacity limit of " ++ toString s.vectors.maxRows ++ " rows reached"))
  else s.indexRefusal

/-- The row is at the end of the store, and nothing knows of it yet but the reservation. -/
structure Appended (s : CollectionState) (ids : IdMap) (row : List F32) (t : CollectionState) : Prop where
  frame : t = { s with vectors := t.vectors, ids, deleted := t.deleted }
  store : t.vectors.Wf
  dim : t.vectors.dim = s.vectors.dim
  maxRows : t.vectors.maxRows = s.vectors.maxRows
  mappedRows : t.vectors.mappedRows = s.vectors.mappedRows
  size : t.vectors.size = s.vectors.size + 1
  rows : t.vectors.rows = s.vectors.rows ++ [row]
  covers : TombstoneSet.wordsFor (s.vectors.size + 1) ≤ t.deleted.words.length
  marks : ∀ i, t.deleted.test i = s.deleted.test i
  count : t.deleted.count = s.deleted.count

/-- The row has been inserted under its reservation, and the backend is `backend` now. -/
structure Inserted (s : CollectionState) (reservation : IdMap.Reservation) (row : List F32) (backend : IndexBackend)
    (t : CollectionState) : Prop where
  config : t.config = s.config
  normalized : t.normalized = s.normalized
  creator : t.creator = s.creator
  createdUnixMs : t.createdUnixMs = s.createdUnixMs
  rows : t.vectors.rows = s.vectors.rows ++ [row]
  ids : t.ids = s.ids.committed reservation
  marks : ∀ i, t.deleted.test i = (s.deleted.test i || decide (i = reservation.previous ∧ i < s.vectors.size))
  count : t.deleted.count = s.deleted.count + if reservation.previous = kInvalidInternalId then 0 else 1
  backend : t.backend = backend

variable {s t : CollectionState} {ids : IdMap} {row : List F32} {external : ExternalId} {upsert : Bool}
  {reservation : IdMap.Reservation}

/-- Room for more bits changes nothing. -/
theorem Coupled.widen (coupled : s.Coupled) (rows : Nat) :
    Kept s { s with deleted := s.deleted.ensureSize rows } ∧
      ({ s with deleted := s.deleted.ensureSize rows } : CollectionState).Coupled := by
  have marks := TombstoneSet.test_ensureSize s.deleted rows
  refine ⟨⟨rfl, rfl, rfl, rfl, rfl, rfl, marks, rfl, rfl⟩, { coupled with settled := ?_, tracks := ?_ }⟩
  · exact { coupled.settled with maps := fun id r => by rw [marks]; exact coupled.settled.maps id r }
  · exact coupled.tracks.ensureSize rows

theorem Appended.config (appended : Appended s ids row t) : t.config = s.config := by rw [appended.frame]

theorem Appended.backend (appended : Appended s ids row t) : t.backend = s.backend := by rw [appended.frame]

theorem Appended.ids_eq (appended : Appended s ids row t) : t.ids = ids := by rw [appended.frame]

theorem Appended.tracks (appended : Appended s ids row t) (coupled : s.Coupled) :
    t.deleted.Tracks s.vectors.size := by
  have marked : t.deleted.marked s.vectors.size = s.deleted.marked s.vectors.size := by
    ext i
    rw [TombstoneSet.mem_marked, TombstoneSet.mem_marked, appended.marks]
  have wide := appended.covers
  refine ⟨by unfold TombstoneSet.wordsFor at *; omega, fun i bit => coupled.tracks.below i ?_, ?_⟩
  · rwa [appended.marks] at bit
  · rw [appended.count, coupled.tracks.exact, marked]

/-- Taking the row off again and forgetting the reservation brings everything back. -/
theorem Appended.undo (appended : Appended s ids row t) (coupled : s.Coupled) :
    Kept s { t with vectors := t.vectors.popBack, ids := s.ids } ∧
      ({ t with vectors := t.vectors.popBack, ids := s.ids } : CollectionState).Coupled := by
  have base : s.vectors.mappedRows ≤ s.vectors.size := coupled.store.fromBase
  obtain ⟨store, rows⟩ := appended.store.popBack (by rw [appended.mappedRows, appended.size]; omega)
  have same : t.vectors.popBack.rows = s.vectors.rows := by rw [rows, appended.rows, List.dropLast_concat]
  have size : t.vectors.popBack.size = s.vectors.size := by
    rw [← VectorStore.length_rows, same, VectorStore.length_rows]
  refine ⟨⟨appended.config, by rw [appended.frame], by rw [appended.frame], by rw [appended.frame], same, rfl,
    appended.marks, appended.count, appended.backend⟩, ?_⟩
  exact {
    store := store
    dim := (appended.dim.trans coupled.dim).trans (by rw [appended.config])
    limit := appended.maxRows.trans coupled.limit
    dimRange := by rw [appended.config]; exact coupled.dimRange
    normalized := by rw [appended.frame]; exact coupled.normalized
    labels := coupled.labels.trans size.symm
    settled := { coupled.settled with maps := fun id r => by rw [appended.marks]; exact coupled.settled.maps id r }
    tracks := by rw [size]; exact appended.tracks coupled
    backend := by rw [appended.config, appended.backend, size]; exact coupled.backend }

/-- The row that a reservation replaces. -/
theorem Coupled.previous (coupled : s.Coupled) (reserves : s.ids.reserve external upsert = .ok (ids, reservation)) :
    (reservation.previous = kInvalidInternalId ∧ ¬reservation.previous < s.vectors.size) ∨
      (reservation.previous ≠ kInvalidInternalId ∧ reservation.previous < s.vectors.size ∧
        s.deleted.test reservation.previous = false) := by
  have few := coupled.rows_le
  obtain ⟨_, _, _, _, _, ⟨_, none⟩ | ⟨_, found⟩⟩ := IdMap.reserve_spec reserves
  · refine .inl ⟨none, ?_⟩
    have limit : kMaxVectorsPerCollection ≤ kInvalidInternalId := by decide
    omega
  · have real := coupled.settled.previous_real coupled.labels_le found
    obtain ⟨label, unmarked⟩ := (coupled.settled.maps _ _).mp found
    exact .inr ⟨real, coupled.labels ▸ (List.getElem?_eq_some_iff.mp label).1, unmarked⟩

/-- The bits after a row has been inserted: the row it replaces is marked. -/
def bitsAfter (deleted : TombstoneSet) (reservation : IdMap.Reservation) : TombstoneSet :=
  if reservation.previous ≠ kInvalidInternalId then deleted.set reservation.previous else deleted

theorem Appended.insert (appended : Appended s ids row t) (coupled : s.Coupled)
    (reserves : s.ids.reserve external upsert = .ok (ids, reservation)) {backend : IndexBackend}
    (fits : backend.Fits s.config (s.vectors.size + 1)) :
    Inserted s reservation row backend
        { t with backend, ids := s.ids.committed reservation, deleted := bitsAfter t.deleted reservation } ∧
      ({ t with backend, ids := s.ids.committed reservation, deleted := bitsAfter t.deleted reservation } :
        CollectionState).Coupled := by
  have grown := (appended.tracks coupled).grow appended.covers
  have bits : (∀ i, (bitsAfter t.deleted reservation).test i =
        (s.deleted.test i || decide (i = reservation.previous ∧ i < s.vectors.size))) ∧
      (bitsAfter t.deleted reservation).count =
        s.deleted.count + (if reservation.previous = kInvalidInternalId then 0 else 1) ∧
      (bitsAfter t.deleted reservation).Tracks (s.vectors.size + 1) := by
    rcases coupled.previous reserves with ⟨none, beyond⟩ | ⟨real, inside, unmarked⟩
    · rw [bitsAfter, if_neg (by simpa using none), if_pos none]
      refine ⟨?_, appended.count, grown⟩
      intro i
      have away : ¬(i = reservation.previous ∧ i < s.vectors.size) := by
        rintro ⟨rfl, below⟩
        exact beyond below
      rw [appended.marks, decide_eq_false away, Bool.or_false]
    · have free : t.deleted.test reservation.previous = false := (appended.marks _).trans unmarked
      obtain ⟨tracks, count⟩ := grown.set (by omega : reservation.previous < s.vectors.size + 1) free
      rw [bitsAfter, if_pos real, if_neg real]
      refine ⟨?_, count.trans (congrArg (· + 1) appended.count), tracks⟩
      intro i
      rw [TombstoneSet.test_set (TombstoneSet.inside_of_covers grown.covers (by omega)),
        appended.marks, Bool.or_comm]
      congr 1
      refine decide_eq_decide.mpr ⟨?_, And.left⟩
      rintro rfl
      exact ⟨rfl, inside⟩
  obtain ⟨marks, count, tracks⟩ := bits
  have labels := coupled.labels
  have settled : (s.ids.committed reservation).Settled (bitsAfter t.deleted reservation) := by
    refine coupled.settled.commit coupled.labels_le reserves (coupled.tracks.fresh labels.ge) ?_
    rw [labels]
    exact marks
  refine ⟨⟨appended.config, by
    rw [appended.frame], by rw [appended.frame], by rw [appended.frame], appended.rows, rfl,
    marks, count, rfl⟩, ?_⟩
  exact {
    store := appended.store
    dim := (appended.dim.trans coupled.dim).trans (by rw [appended.config])
    limit := appended.maxRows.trans coupled.limit
    dimRange := by rw [appended.config]; exact coupled.dimRange
    normalized := by rw [appended.frame]; exact coupled.normalized
    labels := by
      rw [appended.size, ← labels]
      exact List.length_append
    settled := settled
    tracks := by rw [appended.size]; exact tracks
    backend := by rw [appended.config, appended.size]; exact fits }

end CollectionState

namespace Collection
open Op CollectionState
variable {s t : CollectionState} {ids : IdMap} {reservation : IdMap.Reservation} {row : List F32}
  {external : ExternalId} {upsert : Bool} {w : World}

theorem rollback_ends {exits : Exit → Session → Prop} {post : Unit → Session → Prop} {σ : Session} {back : IdMap}
    (run : σ.state.ids.rollback reservation = .ok back)
    (holds : post () { σ with state := { σ.state with ids := back } }) : Ends (rollback reservation) σ post exits :=
  ends_state (ends_checked run (ends_set holds))

theorem popBack_ends {exits : Exit → Session → Prop} {post : Unit → Session → Prop} {σ : Session}
    (heap : σ.state.vectors.mappedRows < σ.state.vectors.size)
    (holds : post () { σ with state := { σ.state with vectors := σ.state.vectors.popBack } }) :
    Ends popBack σ post exits :=
  ends_state (ends_check (decide_eq_true heap) (ends_set holds))

/-- The row is appended, or the state stays what it is. -/
theorem append_ends (coupled : s.Coupled) (start : t = { s with ids, deleted := t.deleted })
    (covers : TombstoneSet.wordsFor (s.vectors.size + 1) ≤ t.deleted.words.length)
    (marks : ∀ i, t.deleted.test i = s.deleted.test i) (count : t.deleted.count = s.deleted.count)
    (length : row.length = s.vectors.dim) :
    Ends (append row) ⟨t, w⟩
      (fun internal τ => internal = s.vectors.size ∧ ¬s.vectors.size ≥ s.vectors.maxRows ∧ w.Later τ.world ∧
        Appended s ids row τ.state)
      fun e τ => τ.state = t ∧ w.Later τ.world ∧ Reason w s.rowRefusal e := by
  have vectors : t.vectors = s.vectors := by rw [start]
  refine ends_state ?_
  change Ends (checked (t.vectors.append row) >>= _) _ _ _
  by_cases full : s.vectors.size ≥ s.vectors.maxRows
  · have refused : s.vectors.append row = Outcome.fail (.resourceExhausted ("VectorStore: capacity limit of " ++
        toString s.vectors.maxRows ++ " rows reached")) := (if_neg (by simpa using length)).trans (if_pos full)
    rw [vectors, refused]
    exact Ends.bind (Ends.leave ⟨rfl, .refl w, .inr ⟨_, rfl, if_pos full⟩⟩)
  · obtain ⟨v, run, store, rows, size, dim, maxRows, mappedRows⟩ := coupled.store.append length (Nat.not_le.mp full)
    refine ends_checked (by rw [vectors]; exact run) ?_
    have done (w' : World) (later : w.Later w') :
        Ends (setState { t with vectors := v } >>= fun _ => pure s.vectors.size) ⟨t, w'⟩
        (fun internal τ => internal = s.vectors.size ∧ ¬s.vectors.size ≥ s.vectors.maxRows ∧ w.Later τ.world ∧
          Appended s ids row τ.state)
        fun e τ => τ.state = t ∧ w.Later τ.world ∧ Reason w s.rowRefusal e := by
      refine ends_setState (Ends.pure ⟨rfl, full, later, ?_⟩)
      exact ⟨by rw [start], store, dim, maxRows, mappedRows, size, rows, covers, marks, count⟩
    dsimp only
    split
    · exact ends_allocate (fun w' lacked => ⟨rfl, lacked.1.later, .inl ⟨rfl, lacked.2⟩⟩)
        fun w' spent => done w' spent.later
    · exact done w (.refl w)

/-- Indexing the appended row: the backend changes, or nothing does. -/
def Indexes (index : Nat → Op Unit) (s : CollectionState) (grown : IndexBackend → Prop)
    (t : CollectionState) : Prop :=
  ∀ w, Ends (index s.vectors.size) ⟨t, w⟩
    (fun _ τ => w.Later τ.world ∧ s.indexRefusal = none ∧ ∃ backend, grown backend ∧ τ.state = { t with backend })
    fun e τ => τ.state = t ∧ w.Later τ.world ∧ Reason w s.indexRefusal e

/-- An operation whose exits are all caught, with its cleanup. -/
theorem undone_ends {α : Type} {p : Op α} {cleanup : Op Unit} {σ : Session} {post : α → Session → Prop}
    {broken exits : Exit → Session → Prop} (ends : Ends p σ post broken)
    (clean : ∀ e τ, broken e τ → e.caught = true ∧ Ends cleanup τ (fun _ => exits e) exits) :
    Ends (Effect.undo Exit.caught cleanup p) σ post exits := by
  refine Ends.undo ends (fun e τ holds _ => (clean e τ holds).2) ?_
  intro e τ holds other
  rw [(clean e τ holds).1] at other
  cases other

theorem insertReserved_ends {index : Nat → Op Unit} {grown : IndexBackend → Prop} (coupled : s.Coupled)
    (reserves : s.ids.reserve external upsert = .ok (ids, reservation)) (length : row.length = s.vectors.dim)
    (indexes : ∀ t, Appended s ids row t → Indexes index s grown t)
    (fits : ∀ backend, grown backend → backend.Fits s.config (s.vectors.size + 1)) :
    Ends (insertReserved reservation row index) ⟨{ s with ids }, w⟩
      (fun _ τ => w.Later τ.world ∧ s.rowRefusal = none ∧ τ.state.Coupled ∧
        ∃ backend, grown backend ∧ Inserted s reservation row backend τ.state)
      fun e τ => w.Later τ.world ∧ Reason w s.rowRefusal e ∧ Kept s τ.state ∧ τ.state.Coupled := by
  have back : ids.rollback reservation = .ok s.ids := coupled.settled.rollback coupled.labels_le reserves
  obtain ⟨kept, widened⟩ := coupled.widen (s.vectors.size + 1)
  rw [insertReserved]
  -- room for the bit
  have first : Ends (do allocate; let s ← state; ensureSize (s.vectors.size + 1)) ⟨{ s with ids }, w⟩
      (fun _ τ => w.Later τ.world ∧ τ.state = { s with ids, deleted := s.deleted.ensureSize (s.vectors.size + 1) })
      fun e τ => w.Later τ.world ∧ Reason w s.rowRefusal e ∧ τ.state = { s with ids } := by
    refine ends_allocate (fun w' lacked => ⟨lacked.1.later, .inl ⟨rfl, lacked.2⟩, rfl⟩)
      fun w₁ spent => ends_state ?_
    refine ends_allocate (fun w' lacked =>
      ⟨(spent.lacked lacked).1.later, .inl ⟨rfl, (spent.lacked lacked).2⟩, rfl⟩) ?_
    exact fun w₂ more => ends_state (ends_set ⟨(spent.trans more).later, rfl⟩)
  refine Ends.bind (undone_ends (first.mono ?_ fun _ _ holds => holds) ?_)
  swap
  · rintro e τ ⟨later, reason, at_⟩
    refine ⟨reason.caught, rollback_ends (by rw [at_]; exact back) ?_⟩
    rw [at_]
    exact ⟨later, reason, .refl s, coupled⟩
  rintro _ ⟨t, w₁⟩ ⟨later₁, at₁⟩
  dsimp only at later₁ at₁
  -- the row itself
  have covers : TombstoneSet.wordsFor (s.vectors.size + 1) ≤ t.deleted.words.length := by
    rw [at₁]
    simp only [TombstoneSet.ensureSize, List.length_append, List.length_replicate]
    omega
  have second := append_ends (w := w₁) coupled (by rw [at₁] : t = { s with ids, deleted := t.deleted }) covers
    (by rw [at₁]; exact kept.marks) (by rw [at₁]; rfl) length
  refine Ends.bind (undone_ends (second.mono ?_ fun _ _ holds => holds) ?_)
  swap
  · rintro e τ ⟨at_, later, reason⟩
    refine ⟨reason.caught, rollback_ends (by rw [at_, at₁]; exact back) ?_⟩
    rw [at_, at₁]
    exact ⟨later₁.trans later, reason.later later₁, kept, widened⟩
  rintro internal ⟨u, w₂⟩ ⟨rfl, below, later₂, appended⟩
  dsimp only at later₂ appended
  have later := later₁.trans later₂
  -- the index
  refine Ends.bind (undone_ends ((indexes u appended w₂).mono ?_ fun _ _ holds => holds) ?_)
  swap
  · rintro e τ ⟨at_, later₃, reason⟩
    obtain ⟨same, coupled'⟩ := appended.undo coupled
    have base : s.vectors.mappedRows ≤ s.vectors.size := coupled.store.fromBase
    have refusal : s.rowRefusal = s.indexRefusal := if_neg below
    have undone : τ.state.ids.rollback reservation = .ok s.ids := by rw [at_, appended.ids_eq, back]
    refine ⟨reason.caught, Ends.bind (popBack_ends ?_ (rollback_ends undone ?_))⟩
    · rw [at_, appended.mappedRows, appended.size]
      omega
    · rw [at_, refusal]
      exact ⟨later.trans later₃, reason.later later, same, coupled'⟩
  rintro _ ⟨_, w₃⟩ ⟨later₃, allowed, backend, holds, rfl⟩
  -- the commit
  have committed : u.ids.commit reservation s.vectors.size =
      .ok (s.ids.committed reservation, reservation.previous) := by
    rw [appended.ids_eq, ← coupled.labels]
    exact IdMap.commit_spec reserves
  obtain ⟨inserted, coupled'⟩ := appended.insert coupled reserves (fits backend holds)
  have done : w.Later w₃ ∧ s.rowRefusal = none ∧
      ({ u with backend, ids := s.ids.committed reservation, deleted := bitsAfter u.deleted reservation } :
        CollectionState).Coupled ∧
      ∃ backend', grown backend' ∧ Inserted s reservation row backend'
        { u with backend, ids := s.ids.committed reservation, deleted := bitsAfter u.deleted reservation } :=
    ⟨later.trans later₃, (if_neg below).trans allowed, coupled', backend, holds, inserted⟩
  refine ends_state (ends_checked committed ?_)
  dsimp only
  rw [bitsAfter] at done
  split
  next real =>
    rw [if_pos real] at done
    have inside : reservation.previous / 64 < u.deleted.words.length := by
      rcases coupled.previous reserves with ⟨none, _⟩ | ⟨_, bound, _⟩
      · exact absurd none real
      · exact TombstoneSet.inside_of_covers appended.covers (by omega)
    have marked : mark u.deleted reservation.previous = .ok (u.deleted.set reservation.previous) := by
      rw [mark, Outcome.check, if_pos (decide_eq_true inside)]
      rfl
    exact ends_checked marked (ends_set done)
  next none =>
    rw [if_neg none] at done
    exact ends_set done

end Collection
end VectorForge
