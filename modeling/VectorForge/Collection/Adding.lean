import VectorForge.Collection.Indexing
import VectorForge.Collection.RoundTrip

/-! `add`, and that its outcome depends on the content of the collection alone. -/

namespace VectorForge
open Effect
open HnswIo (SameGraph)
open IndexReader (SameState SameBackend)

namespace CollectionState
variable {k : KernelTable} {lost : Nat → Prop} {s s' t t' : CollectionState} {row : List F32}
  {external : ExternalId} {upsert : Bool}

theorem Kept.sound (kept : Kept s t) (sound : s.Sound lost) (coupled : t.Coupled) : t.Sound lost :=
  { coupled with
    bounded := fun x gone => (sound.bounded x gone).trans_eq kept.size.symm
    rests := fun b kind => sound.rests b (kept.backend.symm.trans kind) }

/-- The backend after the row has been linked. -/
def LinksRow (k : KernelTable) (lost : Nat → Prop) (s : CollectionState) (row : List F32)
    (backend : IndexBackend) : Prop :=
  match s.backend with
  | .flat => backend = .flat
  | .hnsw b => ∃ c, backend = .hnsw c ∧ Linked k s.mode lost (s.vectors.rows ++ [row]) b c

theorem LinksRow.fits (sound : s.Sound lost) {backend : IndexBackend} (links : LinksRow k lost s row backend) :
    backend.Fits s.config (s.vectors.size + 1) := by
  have fits := sound.backend
  cases kind : s.backend with
  | flat =>
    rw [LinksRow, kind] at links
    rw [kind] at fits
    rw [links]
    exact fits
  | hnsw b =>
    rw [LinksRow, kind] at links
    rw [kind] at fits
    obtain ⟨c, rfl, linked⟩ := links
    exact ⟨fits.1, linked.fits fits.2⟩

/-- The status with which a row under this id is refused. -/
def keyRefusal (s : CollectionState) (external : ExternalId) (upsert : Bool) : Option Status :=
  match s.ids.reserve external upsert with
  | .error e => some e
  | .ok _ => s.rowRefusal

/-- `t` is `s` with one more row. -/
structure RowAdded (k : KernelTable) (lost : Nat → Prop) (upsert : Bool) (s : CollectionState)
    (external : ExternalId) (row : List F32) (t : CollectionState) : Prop where
  sound : t.Sound lost
  allowed : s.keyRefusal external upsert = none
  inserted : ∃ ids reservation backend, s.ids.reserve external upsert = .ok (ids, reservation) ∧
    LinksRow k lost s row backend ∧ Inserted s reservation row backend t

theorem RowAdded.of (sound : s.Sound lost) {ids : IdMap} {reservation : IdMap.Reservation} {backend : IndexBackend}
    (reserves : s.ids.reserve external upsert = .ok (ids, reservation)) (links : LinksRow k lost s row backend)
    (inserted : Inserted s reservation row backend t) (coupled : t.Coupled)
    (allowed : s.keyRefusal external upsert = none) : RowAdded k lost upsert s external row t where
  allowed := allowed
  inserted := ⟨ids, reservation, backend, reserves, links, inserted⟩
  sound := by
    have size : t.vectors.size = s.vectors.size + 1 := by
      rw [← VectorStore.length_rows, inserted.rows, List.length_append, VectorStore.length_rows]
      rfl
    refine { coupled with bounded := fun x gone => ?_, rests := fun c kind => ?_ }
    · have := sound.bounded x gone
      omega
    · rw [inserted.backend] at kind
      cases before : s.backend with
      | flat =>
        rw [LinksRow, before] at links
        rw [links] at kind
        cases kind
      | hnsw b =>
        rw [LinksRow, before] at links
        obtain ⟨d, rfl, linked⟩ := links
        cases kind
        rw [linked.params]
        exact linked.rests

end CollectionState

namespace IndexReader
open CollectionState
variable {k : KernelTable} {lost lost' : Nat → Prop} {s s' t t' : CollectionState} {row : List F32}
  {external : ExternalId} {upsert : Bool}

namespace SameBackend

theorem refl : ∀ a : IndexBackend, SameBackend a a
  | .flat => trivial
  | .hnsw _ => ⟨rfl, rfl, .refl _⟩

theorem symm : ∀ {a b : IndexBackend}, SameBackend a b → SameBackend b a
  | .flat, .flat, _ => trivial
  | .hnsw _, .hnsw _, ⟨params, options, graph⟩ => ⟨params.symm, options.symm, graph.symm⟩

theorem trans : ∀ {a b c : IndexBackend}, SameBackend a b → SameBackend b c → SameBackend a c
  | .flat, .flat, .flat, _, _ => trivial
  | .hnsw _, .hnsw _, .hnsw _, ⟨params, options, graph⟩, ⟨params', options', graph'⟩ =>
    ⟨params.trans params', options.trans options', graph.trans graph'⟩

theorem hnsw_left {a : IndexBackend} {b : HnswBackend} (same : SameBackend a (.hnsw b)) :
    ∃ c, a = .hnsw c ∧ c.params = b.params ∧ c.options = b.options ∧ SameGraph c.graph b.graph := by
  cases a with
  | flat => cases same
  | hnsw c => exact ⟨c, rfl, same⟩

theorem flat_left {a : IndexBackend} (same : SameBackend a .flat) : a = .flat := by
  cases a with
  | flat => rfl
  | hnsw c => cases same

end SameBackend

namespace SameState

theorem refl (s : CollectionState) : SameState s s := ⟨rfl, rfl, rfl, fun _ => rfl, rfl, .refl _, rfl, rfl⟩

theorem symm (same : SameState s t) : SameState t s where
  config := by rw [same.config]
  rows := same.rows.symm
  ids := same.ids.symm
  marks := fun i => (same.marks i).symm
  count := same.count.symm
  backend := same.backend.symm
  creator := same.creator.symm
  createdUnixMs := same.createdUnixMs.symm

theorem trans {u : CollectionState} (first : SameState s t) (second : SameState t u) : SameState s u where
  config := first.config.trans (by rw [second.config])
  rows := first.rows.trans second.rows
  ids := first.ids.trans second.ids
  marks := fun i => (first.marks i).trans (second.marks i)
  count := first.count.trans second.count
  backend := first.backend.trans second.backend
  creator := first.creator.trans second.creator
  createdUnixMs := first.createdUnixMs.trans second.createdUnixMs

theorem of_kept (kept : Kept s t) : SameState t s where
  config := by rw [kept.config]
  rows := kept.rows
  ids := kept.ids
  marks := kept.marks
  count := kept.count
  backend := by rw [kept.backend]; exact .refl _
  creator := kept.creator
  createdUnixMs := kept.createdUnixMs

theorem size (same : SameState s s') : s.vectors.size = s'.vectors.size := by
  rw [← VectorStore.length_rows, same.rows, VectorStore.length_rows]

theorem mode (same : SameState s s') (coupled : s.Coupled) (coupled' : s'.Coupled) : s.mode = s'.mode := by
  rw [CollectionState.mode, CollectionState.mode, coupled.normalized, coupled'.normalized, same.config]
  rfl

theorem rowRefusal (same : SameState s s') (coupled : s.Coupled) (coupled' : s'.Coupled) :
    s.rowRefusal = s'.rowRefusal := by
  have backend : s.indexRefusal = s'.indexRefusal := by
    have held := same.backend
    rw [indexRefusal, indexRefusal, same.size]
    cases kind : s'.backend with
    | flat =>
      rw [kind] at held
      rw [held.flat_left]
    | hnsw b =>
      rw [kind] at held
      obtain ⟨c, at_, params, _, graph⟩ := held.hnsw_left
      rw [at_]
      dsimp only
      rw [params]
      rcases HnswGraph.addNode_congr graph.shape (b.params.levels.levelFor s'.vectors.size) with
        ⟨e, left, right⟩ | ⟨g, h, left, right, _⟩
      · rw [left, right]
      · rw [left, right]
  rw [CollectionState.rowRefusal, CollectionState.rowRefusal, coupled.limit, coupled'.limit, same.size, backend]

theorem keyRefusal (same : SameState s s') (coupled : s.Coupled) (coupled' : s'.Coupled) :
    s.keyRefusal external upsert = s'.keyRefusal external upsert := by
  rw [CollectionState.keyRefusal, CollectionState.keyRefusal, same.ids, same.rowRefusal coupled coupled']

/-- The same row added to the same content gives the same content. -/
theorem rowAdded (same : SameState s s') (sound : s.Sound lost) (sound' : s'.Sound lost')
    (added : RowAdded k lost upsert s external row t) (added' : RowAdded k lost' upsert s' external row t') :
    SameState t t' := by
  obtain ⟨_, reservation, backend, reserves, links, inserted⟩ := added.inserted
  obtain ⟨_, _, backend', reserves', links', inserted'⟩ := added'.inserted
  rw [same.ids, reserves'] at reserves
  cases reserves
  refine ⟨?_, ?_, ?_, ?_, ?_, ?_, ?_, ?_⟩
  · rw [inserted.config, inserted'.config, same.config]
  · rw [inserted.rows, inserted'.rows, same.rows]
  · rw [inserted.ids, inserted'.ids, same.ids]
  · intro i
    rw [inserted.marks, inserted'.marks, same.marks, same.size]
  · rw [inserted.count, inserted'.count, same.count]
  · rw [inserted.backend, inserted'.backend]
    have held := same.backend
    cases kind : s'.backend with
    | flat =>
      rw [kind] at held
      rw [LinksRow, kind] at links'
      rw [LinksRow, held.flat_left] at links
      rw [links, links']
      trivial
    | hnsw b =>
      rw [kind] at held
      obtain ⟨c, at_, params, options, graph⟩ := held.hnsw_left
      rw [LinksRow, kind] at links'
      rw [LinksRow, at_, same.rows, same.mode sound.toCoupled sound'.toCoupled] at links
      obtain ⟨d, rfl, linked⟩ := links
      obtain ⟨d', rfl, linked'⟩ := links'
      refine ⟨?_, ?_, ?_⟩
      · rw [linked.params, linked'.params, params]
      · rw [linked.options, linked'.options, options]
      · obtain ⟨h, left, graph₁⟩ := linked.graph
        obtain ⟨h', right, graph₂⟩ := linked'.graph
        have rest := sound.rests c at_
        have wide : 1 ≤ c.params.efConstruction.toNat := by
          rw [(sound.fits at_).2.params]
          exact (sound.fits at_).2.valid.wide
        exact (graph₁.trans (addedGraph_same rest wide params options graph left right)).trans graph₂.symm
  · rw [inserted.creator, inserted'.creator, same.creator]
  · rw [inserted.createdUnixMs, inserted'.createdUnixMs, same.createdUnixMs]

end SameState
end IndexReader

namespace Collection
open Op CollectionState
variable {k : KernelTable} {s t : CollectionState} {row vector : List F32} {lost : Nat → Prop}
  {external : ExternalId} {upsert : Bool} {w : World}

/-- A failed operation that left no trace. -/
structure Untouched (w : World) (refusal : Option Status) (s : CollectionState) (e : Exit)
    (τ : Session) : Prop where
  later : w.Later τ.world
  reason : Reason w refusal e
  kept : Kept s τ.state
  coupled : τ.state.Coupled

theorem Untouched.of_later {w₁ : World} {refusal : Option Status} {e : Exit} {τ : Session}
    (untouched : Untouched w₁ refusal s e τ) (later : w.Later w₁) : Untouched w refusal s e τ :=
  ⟨later.trans untouched.later, untouched.reason.later later, untouched.kept, untouched.coupled⟩

theorem untouched_lacked {refusal : Option Status} {w' : World} (coupled : s.Coupled) (lacked : w.Lacked w') :
    Untouched w refusal s .threw ⟨s, w'⟩ :=
  ⟨lacked.1.later, .inl ⟨rfl, lacked.2⟩, .refl s, coupled⟩

theorem untouched_refused {refusal : Option Status} {e : Status} (coupled : s.Coupled)
    (refused : refusal = some e) : Untouched w refusal s (.status e) ⟨s, w⟩ :=
  ⟨.refl w, .inr ⟨e, rfl, refused⟩, .refl s, coupled⟩

theorem reserveId_ends {α : Type} {f : IdMap.Reservation → Op α} {post : α → Session → Prop} (coupled : s.Coupled)
    (rest : ∀ ids reservation w', s.ids.reserve external upsert = .ok (ids, reservation) → w.Later w' →
      Ends (f reservation) ⟨{ s with ids }, w'⟩ post (Untouched w (s.keyRefusal external upsert) s)) :
    Ends (reserveId external upsert >>= f) ⟨s, w⟩ post (Untouched w (s.keyRefusal external upsert) s) := by
  refine Ends.bind (ends_state (ends_lift ?_ ?_))
  · rintro ⟨ids, reservation⟩ run
    refine ends_allocate (fun w' lacked => untouched_lacked coupled lacked) fun w' spent => ?_
    exact ends_setState (Ends.pure (rest ids reservation w' run spent.later))
  · exact fun e run => untouched_refused coupled (by rw [keyRefusal, run])

/-- What a row that was inserted under its id leaves behind. -/
def RowInserted (w : World) (s : CollectionState) (external : ExternalId) (upsert : Bool) (row : List F32)
    (grown : IndexBackend → Prop) (reservation : IdMap.Reservation) (τ : Session) : Prop :=
  w.Later τ.world ∧ s.keyRefusal external upsert = none ∧ τ.state.Coupled ∧
    (∃ ids, s.ids.reserve external upsert = .ok (ids, reservation)) ∧
    ∃ backend, grown backend ∧ Inserted s reservation row backend τ.state

theorem reserved_ends {index : Nat → Op Unit} {grown : IndexBackend → Prop} {ids : IdMap}
    {reservation : IdMap.Reservation} {w' : World} (coupled : s.Coupled) (length : row.length = s.vectors.dim)
    (indexes : ∀ t, Appended s ids row t → Indexes index s grown t)
    (fits : ∀ backend, grown backend → backend.Fits s.config (s.vectors.size + 1))
    (run : s.ids.reserve external upsert = .ok (ids, reservation)) (later : w.Later w') :
    Ends (insertReserved reservation row index) ⟨{ s with ids }, w'⟩
      (fun _ => RowInserted w s external upsert row grown reservation)
        (Untouched w (s.keyRefusal external upsert) s) := by
  have refusal : s.keyRefusal external upsert = s.rowRefusal := by rw [keyRefusal, run]
  refine (insertReserved_ends coupled run length indexes fits).mono ?_ ?_
  · rintro _ τ ⟨more, allowed, after, inserted⟩
    exact ⟨later.trans more, refusal.trans allowed, after, ⟨ids, run⟩, inserted⟩
  · rintro e τ ⟨more, reason, kept, after⟩
    exact ⟨later.trans more, refusal ▸ reason.later later, kept, after⟩

/-- The vector as it is stored. -/
def storedVector (k : KernelTable) (config : CollectionConfig) (vector : List F32) : Result (List F32) := do
  validateVector vector config.dim.toNat
  if config.effectiveNormalize then normalizeInplace k vector else pure vector

/-- The status with which `add` refuses its arguments. -/
def addRefusal (k : KernelTable) (s : CollectionState) (external : ExternalId) (vector : List F32)
    (upsert : Bool) : Option Status :=
  match storedVector k s.config vector with
  | .error e => some e
  | .ok _ => s.keyRefusal external upsert

theorem length_storedVector {config : CollectionConfig} (run : storedVector k config vector = .ok row) :
    row.length = config.dim.toNat := by
  unfold storedVector at run
  cases valid : validateVector vector config.dim.toNat with
  | error e => rw [valid] at run; cases run
  | ok u =>
    rw [valid] at run
    have length := (validateVector_ok valid).1
    change (if config.effectiveNormalize = true then normalizeInplace k vector else pure vector) = .ok row at run
    split at run
    · exact (length_normalizeInplace k run).trans length
    · cases run
      exact length

/-- A row that is linked at once. -/
theorem linkedRow_ends (sound : s.Sound lost) (length : row.length = s.vectors.dim) :
    Ends (do let reservation ← reserveId external upsert; insertReserved reservation row (backendAdd k)) ⟨s, w⟩
      (fun _ τ => w.Later τ.world ∧ RowAdded k lost upsert s external row τ.state)
      (Untouched w (s.keyRefusal external upsert) s) := by
  refine reserveId_ends sound.toCoupled fun ids reservation w' run later => ?_
  refine (reserved_ends sound.toCoupled length (fun t => backendAdd_indexes sound)
    (fun _ => LinksRow.fits sound) run later).mono
    ?_ fun _ _ holds => holds
  rintro _ τ ⟨more, allowed, coupled, ⟨_, reserves⟩, backend, links, inserted⟩
  exact ⟨more, .of sound reserves links inserted coupled allowed⟩

/-- `add` inserts the row, or leaves everything as it was. -/
theorem add_ends (sound : s.Sound lost) :
    Ends (add k external vector upsert) ⟨s, w⟩
      (fun _ τ => w.Later τ.world ∧ addRefusal k s external vector upsert = none ∧
        ∃ row, storedVector k s.config vector = .ok row ∧ RowAdded k lost upsert s external row τ.state)
      (Untouched w (addRefusal k s external vector upsert) s) := by
  have coupled := sound.toCoupled
  have insert (row : List F32) (w' : World) (later : w.Later w')
      (stored : storedVector k s.config vector = .ok row) :
      Ends (do let reservation ← reserveId external upsert; insertReserved reservation row (backendAdd k)) ⟨s, w'⟩
        (fun _ τ => w.Later τ.world ∧ addRefusal k s external vector upsert = none ∧
          ∃ row, storedVector k s.config vector = .ok row ∧ RowAdded k lost upsert s external row τ.state)
        (Untouched w (addRefusal k s external vector upsert) s) := by
    have refusal : addRefusal k s external vector upsert = s.keyRefusal external upsert := by
      rw [addRefusal, stored]
    have length : row.length = s.vectors.dim := (length_storedVector stored).trans sound.dim.symm
    rw [refusal]
    refine (linkedRow_ends sound length).mono ?_ fun _ _ untouched => untouched.of_later later
    rintro _ τ ⟨more, added⟩
    exact ⟨later.trans more, added.allowed, row, stored, added⟩
  refine ends_state (ends_lift ?_ ?_)
  · intro _ valid
    split
    next normalizes =>
      have stored : storedVector k s.config vector = normalizeInplace k vector := by
        rw [storedVector, valid]
        exact if_pos normalizes
      refine ends_allocate (fun w' lacked => untouched_lacked coupled lacked) fun w' spent => ends_lift ?_ ?_
      · exact fun row unit => insert row w' spent.later (stored.trans unit)
      · intro e unit
        have refused : addRefusal k s external vector upsert = some e := by rw [addRefusal, stored.trans unit]
        exact (untouched_refused coupled refused).of_later spent.later
    next plain =>
      have stored : storedVector k s.config vector = .ok vector := by
        rw [storedVector, valid]
        exact if_neg plain
      exact insert vector w (.refl w) stored
  · intro e invalid
    refine untouched_refused coupled ?_
    have refused : storedVector k s.config vector = .error e := by
      rw [storedVector, invalid]
      rfl
    rw [addRefusal, refused]

end Collection
end VectorForge
