import VectorForge.Collection.Transparent
import VectorForge.Collection.QueryBatch

/-! Queries, too, see nothing but the content; so two collections with the same content cannot be
told apart by any sequence of operations. -/

namespace VectorForge
open Effect
open IndexReader (SameState)

namespace Collection
open Op CollectionState
variable {k : KernelTable} {α β : Type} {s t : CollectionState} {w v : World} {leased leased' : VisitedSet}

theorem allocate_ample (ample : w.Ample) : allocate ⟨s, w⟩ = (.ok (), ⟨s, w⟩) := by
  have enough : w.memory = [] := ample
  have step : allocate ⟨s, w⟩ = if w.memory.headD true then (.ok (), ⟨s, { w with memory := w.memory.tail }⟩)
      else (.error .threw, ⟨s, { w with memory := w.memory.tail }⟩) := rfl
  rw [step, ample.tail, enough]
  rfl

theorem agree_reads {p q : Op α} {r : Except Exit α} (alike : Alike s t) (left : p ⟨s, w⟩ = (r, ⟨s, w⟩))
    (right : q ⟨t, v⟩ = (r, ⟨t, v⟩)) (ends : (∃ a, r = .ok a) ∨ ∃ e, r = .error (.status e)) : Agree p q s t w v :=
  ⟨r, ⟨s, w⟩, ⟨t, v⟩, left, right, ⟨alike, fun entry => entry⟩, ends⟩

/-- Two operations that change nothing end in the same way. -/
def ReadAlike (p q : Op α) (s t : CollectionState) (w v : World) : Prop :=
  ∃ r : Result α, p ⟨s, w⟩ = (r.mapError .status, ⟨s, w⟩) ∧ q ⟨t, v⟩ = (r.mapError .status, ⟨t, v⟩)

namespace ReadAlike
variable {p q : Op α} {f g : α → Op β}

theorem agree (reads : ReadAlike p q s t w v) (alike : Alike s t) : Agree p q s t w v := by
  obtain ⟨r, left, right⟩ := reads
  refine agree_reads alike left right ?_
  cases r with
  | ok a => exact .inl ⟨a, rfl⟩
  | error e => exact .inr ⟨e, rfl⟩

theorem pure (a : α) : ReadAlike (Pure.pure a) (Pure.pure a) s t w v := ⟨.ok a, rfl, rfl⟩

theorem lift (r : Result α) : ReadAlike (Op.lift r) (Op.lift r) s t w v := by
  refine ⟨r, ?_, ?_⟩ <;> cases r <;> rfl

theorem allocate (ample : w.Ample) (ample' : v.Ample) : ReadAlike Op.allocate Op.allocate s t w v :=
  ⟨.ok (), allocate_ample ample, allocate_ample ample'⟩

/-- What the first operation has returned is known to the second. -/
theorem bind (first : ReadAlike p q s t w v)
    (rest : ∀ a, p ⟨s, w⟩ = (.ok a, ⟨s, w⟩) → ReadAlike (f a) (g a) s t w v) :
    ReadAlike (p >>= f) (q >>= g) s t w v := by
  obtain ⟨r, left, right⟩ := first
  cases r with
  | error e => exact ⟨.error e, bind_of_error left, bind_of_error right⟩
  | ok a =>
    obtain ⟨r, left', right'⟩ := rest a left
    exact ⟨r, (bind_of_ok left).trans left', (bind_of_ok right).trans right'⟩

theorem state {f g : CollectionState → Op β} (rest : ReadAlike (f s) (g t) s t w v) :
    ReadAlike (Op.state >>= f) (Op.state >>= g) s t w v := rest

/-- A check that lets the rest go on. -/
theorem lifted {r : Result α} (rest : ∀ a, r = .ok a → ReadAlike (f a) (g a) s t w v) :
    ReadAlike (Op.lift r >>= f) (Op.lift r >>= g) s t w v := by
  refine (lift r).bind fun a run => rest a ?_
  cases r with
  | ok b =>
    cases run
    rfl
  | error e => cases run

end ReadAlike

section Search
variable {view : QueryView} {knobs : SearchKnobs}

theorem relabel_ok {labels : List ExternalId} : ∀ {found : List ScoredId}, (∀ c ∈ found, c.id < labels.length) →
    ∃ neighbors, relabel labels found = .ok neighbors
  | [], _ => ⟨[], rfl⟩
  | c :: rest, inside => by
    obtain ⟨others, run⟩ := relabel_ok fun d member => inside d (List.mem_cons_of_mem c member)
    obtain ⟨id, first⟩ : ∃ id, (Outcome.index labels c.id : Checked ExternalId) = .ok id :=
      ⟨_, Outcome.index_ok (inside c List.mem_cons_self)⟩
    refine ⟨{ id, distance := c.distance } :: others, ?_⟩
    rw [relabel, first, run]
    rfl

theorem hnswSearch_run {b : HnswBackend} {found : List ScoredId} {shared : SharedGraph} (ample : w.Ample)
    (run : ((queryContext k s b view).searchWith (hiddenRows s) leased 0 b.graph.nodeCount knobs).run (answerIn 0)
      ({ graph := b.graph }, w) = some (some found, shared, w)) :
    hnswSearch k leased b view knobs ⟨s, w⟩ = (.ok found, ⟨s, w⟩) := by
  refine (bind_of_ok (allocate_ample ample)).trans ?_
  have read : (Effect.get : Op Session) ⟨s, w⟩ = (.ok ⟨s, w⟩, ⟨s, w⟩) := rfl
  refine (bind_of_ok read).trans ?_
  rw [run]
  rfl

theorem backendSearch_flat (flat : s.backend = .flat) (some : 1 ≤ knobs.k) :
    backendSearch k leased view knobs ⟨s, w⟩ =
    (.ok (FlatBackend.search k s.config.metric s.normalized view s.vectors s.deleted knobs), ⟨s, w⟩) := by
  have ok : Outcome.check (decide (1 ≤ knobs.k)) "IndexBackend::search: output too small" =
      (.ok () : Checked Unit) :=
    if_pos (decide_eq_true some)
  refine (bind_of_ok (p := state) rfl).trans ?_
  rw [ok, show ({ state := s, world := w } : Session).state.backend = .flat from flat]
  rfl

theorem backendSearch_hnsw {b : HnswBackend} (hnsw : s.backend = .hnsw b) (some : 1 ≤ knobs.k) :
    backendSearch k leased view knobs ⟨s, w⟩ = hnswSearch k leased b view knobs ⟨s, w⟩ := by
  have ok : Outcome.check (decide (1 ≤ knobs.k)) "IndexBackend::search: output too small" =
      (.ok () : Checked Unit) :=
    if_pos (decide_eq_true some)
  refine (bind_of_ok (p := state) rfl).trans ?_
  rw [ok, show ({ state := s, world := w } : Session).state.backend = .hnsw b from hnsw]
  rfl

/-- What a backend finds does not depend on how the rows, the bits and the scratch memory are kept. -/
theorem backendSearch_agree (batched : k.Batched) (alike : Alike s t) (ample : w.Ample) (ample' : v.Ample)
    (settled : leased.Settled)
    (settled' : leased'.Settled) (some : 1 ≤ knobs.k) : ∃ found, backendSearch k leased view knobs ⟨s, w⟩ =
      (.ok found, ⟨s, w⟩) ∧
      backendSearch k leased' view knobs ⟨t, v⟩ = (.ok found, ⟨t, v⟩) ∧ ∀ c ∈ found, c.id < s.vectors.size := by
  obtain ⟨lost, sound⟩ := alike.left
  obtain ⟨lost', sound'⟩ := alike.right
  have same := alike.same
  have size := same.size
  have rows (id : Nat) (inside : id < s.vectors.size) : s.vectors.row id = t.vectors.row id := by
    rw [row_eq_getD s inside, row_eq_getD t (size ▸ inside), same.rows]
  have metric : s.config.metric = t.config.metric := by rw [same.config]
  have normalized : s.normalized = t.normalized := by
    rw [sound.normalized, sound'.normalized, same.config]
    rfl
  have held := same.backend
  cases kind : t.backend with
  | flat =>
    rw [kind] at held
    rw [backendSearch_flat held.flat_left some, backendSearch_flat kind some]
    refine ⟨_, rfl, ?_, fun c member => FlatBackend.mem_search batched sound.store member⟩
    rw [FlatBackend.search_congr batched sound.store sound'.store size rows same.count same.marks, metric,
      normalized]
  | hnsw b =>
    rw [kind] at held
    obtain ⟨c, at_, params, options, graph⟩ := held.hnsw_left
    rw [backendSearch_hnsw at_ some, backendSearch_hnsw kind some]
    have nodes : c.graph.nodeCount = s.vectors.size := (sound.fits at_).2.nodes
    have hidden : hiddenRows s = hiddenRows t := by
      funext id
      rw [hiddenRows, hiddenRows, TombstoneSet.any, TombstoneSet.any, same.count, same.marks]
    have scores : (queryContext k s c view).Scores c.graph.nodeCount 0 (queryContext k t b view) := by
      refine ⟨params, rfl, fun y below => ?_⟩
      simp only [queryContext, metric, normalized, rows y (nodes ▸ below)]
    have mirror : Mirror c.graph.nodeCount c.graph b.graph := (sound.rests c at_).mirror graph
    obtain ⟨a, ⟨s', w'⟩, left, outcome⟩ :=
      HnswContext.searchWith_rereads (s := { graph := c.graph }) (t := { graph := b.graph })
      (i := 0) (j := 0) (w := w) (v := v) (hiddenRows s) mirror scores ample' settled settled' some
    rcases outcome with ⟨_, _, lacked⟩ | ⟨a', ⟨t', v'⟩, right, ⟨found, rfl, rfl, inside⟩, _, spent, here⟩
    · exact absurd ample lacked.2
    · cases here
      rw [show w' = w from spent.ample ample] at left
      rw [graph.shape.nodeCount_eq, hidden] at right
      exact ⟨found, hnswSearch_run ample left, hnswSearch_run ample' right, fun c member => nodes ▸ inside c member⟩

theorem prepareQuery_congr (alike : Alike s t) (query : List F32) :
    prepareQuery k s query = prepareQuery k t query := by
  obtain ⟨_, sound⟩ := alike.left
  obtain ⟨_, sound'⟩ := alike.right
  have normalized : s.normalized = t.normalized := by
    rw [sound.normalized, sound'.normalized, alike.same.config]
    rfl
  have dim : s.config.dim = t.config.dim := by rw [alike.same.config]
  rw [prepareQuery, prepareQuery, normalized, dim]

theorem SearchParams.validate_ok {params : SearchParams} (valid : params.validate = .ok ()) :
    1 ≤ params.k.toNat := by
  unfold SearchParams.validate at valid
  split at valid
  · cases valid
  next range => omega

theorem knobsFor_some {params : SearchParams} (valid : params.validate = .ok ()) (rows : Nat) :
    1 ≤ (knobsFor params rows).k :=
  le_min (SearchParams.validate_ok valid) (le_max_right _ _)

theorem relabel_agree {found : List ScoredId} (alike : Alike s t) (inside : ∀ c ∈ found, c.id < s.vectors.size) :
    ReadAlike (checked (relabel s.ids.labels found)) (checked (relabel t.ids.labels found)) s t w v := by
  obtain ⟨_, sound⟩ := alike.left
  obtain ⟨neighbors, labelled⟩ := relabel_ok fun c member => (inside c member).trans_eq sound.labels.symm
  rw [← alike.same.ids, labelled]
  exact .pure neighbors

theorem search_agree (batched : k.Batched) (alike : Alike s t) (ample : w.Ample) (ample' : v.Ample)
    (settled : leased.Settled) (settled' : leased'.Settled) (query : List F32) (params : SearchParams) :
    ReadAlike (search k leased query params) (search k leased' query params) s t w v := by
  refine ReadAlike.lifted fun _ valid => ReadAlike.state ?_
  rw [← prepareQuery_congr alike query, ← alike.same.size]
  refine ReadAlike.lifted fun view _ => (ReadAlike.allocate ample ample').bind fun _ _ => ?_
  obtain ⟨found, left, right, inside⟩ := backendSearch_agree batched alike ample ample' settled settled'
    (knobsFor_some valid s.vectors.size)
  have finds : ReadAlike (backendSearch k leased view (knobsFor params s.vectors.size))
      (backendSearch k leased' view (knobsFor params s.vectors.size)) s t w v := ⟨.ok found, left, right⟩
  refine finds.bind fun other run => ?_
  cases left.symm.trans run
  exact relabel_agree alike inside

theorem runQuery_agree (batched : k.Batched) (alike : Alike s t) (ample : w.Ample) (ample' : v.Ample)
    (settled : leased.Settled) (settled' : leased'.Settled) (some : 1 ≤ knobs.k) :
    ReadAlike (runQuery k leased view knobs) (runQuery k leased' view knobs) s t w v := by
  obtain ⟨found, left, right, inside⟩ := backendSearch_agree batched alike ample ample' settled settled' some
  have finds : ReadAlike (backendSearch k leased view knobs) (backendSearch k leased' view knobs) s t w v :=
    ⟨.ok found, left, right⟩
  refine finds.bind fun other run => ReadAlike.state ?_
  cases left.symm.trans run
  exact relabel_agree alike inside

theorem searchInto_agree (batched : k.Batched) (alike : Alike s t) (ample : w.Ample) (ample' : v.Ample)
    (settled : leased.Settled)
    (settled' : leased'.Settled) (query : List F32) (params : SearchParams) (out : List Neighbor) :
    ReadAlike (searchInto k leased query params out) (searchInto k leased' query params out) s t w v := by
  refine ReadAlike.lifted fun _ valid => ?_
  split
  · exact ⟨.error _, rfl, rfl⟩
  · refine ReadAlike.state ?_
    rw [← prepareQuery_congr alike query, ← alike.same.size]
    refine ReadAlike.lifted fun view _ => ?_
    exact (runQuery_agree batched alike ample ample' settled settled' (knobsFor_some valid _)).bind
      fun found _ => .pure _

theorem viewsFrom_congr (alike : Alike s t) (q : BatchQuery) :
    ∀ (left i : Nat), q.viewsFrom k s left i = q.viewsFrom k t left i
  | 0, _ => rfl
  | left + 1, i => by
    rw [BatchQuery.viewsFrom, BatchQuery.viewsFrom, prepareQuery_congr alike,
      viewsFrom_congr alike q left (i + 1), alike.same.config]

theorem runQueries_agree (batched : k.Batched) (alike : Alike s t) (ample : w.Ample) (ample' : v.Ample)
    {leased leased' : Nat → VisitedSet}
    (settled : ∀ i, (leased i).Settled) (settled' : ∀ i, (leased' i).Settled) {params : SearchParams}
    (valid : params.validate = .ok ()) (rows : Nat) : ∀ (views : List QueryView) (i : Nat) (out : OutputSpans),
    ReadAlike (runQueries k leased params rows views i out) (runQueries k leased' params rows views i out) s t w v
  | [], _, out => .pure out
  | view :: rest, i, out => by
    refine (runQuery_agree batched alike ample ample' (settled i) (settled' i)
      (knobsFor_some valid rows)).bind fun found _ => ?_
    exact runQueries_agree batched alike ample ample' settled settled' valid rows rest (i + 1) _

theorem searchBatch_agree (batched : k.Batched) (alike : Alike s t) (ample : w.Ample) (ample' : v.Ample)
    {leased leased' : Nat → VisitedSet}
    (settled : ∀ i, (leased i).Settled) (settled' : ∀ i, (leased' i).Settled) (q : BatchQuery) :
    ReadAlike (searchBatch k leased q) (searchBatch k leased' q) s t w v := by
  have prepares : ReadAlike (q.prepare k) (q.prepare k) s t w v := by
    refine ReadAlike.lifted fun _ _ => ReadAlike.state ?_
    have dim : s.config.dim = t.config.dim := by rw [alike.same.config]
    rw [← viewsFrom_congr alike q, ← dim]
    refine ReadAlike.lifted fun _ _ => ReadAlike.lifted fun _ _ =>
      (ReadAlike.allocate ample ample').bind fun _ _ => ?_
    exact .lift _
  refine prepares.bind fun views run => ReadAlike.state ?_
  have valid : q.params.validate = .ok () := by
    cases checks : q.params.validate with
    | ok u => rfl
    | error e =>
      rw [BatchQuery.prepare, checks] at run
      cases run
  rw [← alike.same.size]
  refine (ReadAlike.allocate ample ample').bind fun _ _ => ?_
  exact runQueries_agree batched alike ample ample' settled settled' valid _ views 0 q.out

end Search

theorem get_agree (alike : Alike s t) (ample : w.Ample) (ample' : v.Ample) (id : ExternalId) :
    Agree (get id) (get id) s t w v := by
  have missing (x : CollectionState) (u : World) (absent : x.ids.find id = none) :
      get id ⟨x, u⟩ = (.error (.status (.notFound ("id " ++ toString id ++ " not found"))), ⟨x, u⟩) := by
    refine (bind_of_ok (rfl : state ⟨x, u⟩ = (.ok x, ⟨x, u⟩))).trans ?_
    rw [absent]
    rfl
  have present (x : CollectionState) (u : World) (r : Nat) (known : x.ids.find id = some r) (ample : u.Ample) :
      get id ⟨x, u⟩ = (.ok (x.vectors.row r), ⟨x, u⟩) := by
    refine (bind_of_ok (rfl : state ⟨x, u⟩ = (.ok x, ⟨x, u⟩))).trans ?_
    rw [known]
    exact bind_of_ok (allocate_ample ample)
  obtain ⟨_, sound⟩ := alike.left
  have same := alike.same
  cases found : s.ids.find id with
  | none =>
    exact agree_reads alike (missing s w found) (missing t v (same.ids ▸ found)) (.inr ⟨_, rfl⟩)
  | some r =>
    have inside : r < s.vectors.size := by
      obtain ⟨label, _⟩ := (sound.settled.find_eq_some sound.labels_le).mp found
      rw [← sound.labels]
      exact (List.getElem?_eq_some_iff.mp label).1
    refine agree_reads alike (present s w r found ample) ?_ (.inl ⟨_, rfl⟩)
    rw [present t v r (same.ids ▸ found) ample', row_eq_getD s inside, same.rows,
      ← row_eq_getD t (same.size ▸ inside)]

theorem contains_agree (alike : Alike s t) (id : ExternalId) : Agree (contains id) (contains id) s t w v := by
  refine agree_reads alike (r := .ok (s.ids.contains id)) rfl ?_ (.inl ⟨_, rfl⟩)
  rw [alike.same.ids]
  rfl

theorem size_agree (alike : Alike s t) : Agree size size s t w v := by
  refine agree_reads alike (r := .ok s.ids.size) rfl ?_ (.inl ⟨_, rfl⟩)
  rw [alike.same.ids]
  rfl

theorem stats_agree (alike : Alike s t) : Agree stats stats s t w v := by
  obtain ⟨_, sound⟩ := alike.left
  obtain ⟨_, sound'⟩ := alike.right
  have same := alike.same
  have normalized : s.normalized = t.normalized := by
    rw [sound.normalized, sound'.normalized, same.config]
    rfl
  refine (ReadAlike.state ?_).agree alike
  rw [same.ids, same.count, same.size, same.config, normalized]
  exact .pure _

theorem Sound.savable {lost : Nat → Prop} (sound : s.Sound lost) : s.Savable :=
  { sound.toCoupled with
    graph := by
      intro g graph
      cases kind : s.backend with
      | flat =>
        rw [kind] at graph
        cases graph
      | hnsw b =>
        rw [kind] at graph
        cases graph
        have rest := sound.rests b kind
        have valid := (sound.fits kind).2.valid
        rw [← (sound.fits kind).2.params] at valid
        refine ⟨fun id l inside level => rest.counts id l (decide_eq_true ⟨inside, level⟩),
          rest.tops, ?_, ?_, rest.room⟩
        · rw [rest.m]
          exact valid.maxM
        · rw [rest.maxLevel]
          exact valid.maxLevel }

/-- The bytes of a collection. -/
def fileBytes (s : CollectionState) : List Byte :=
  IndexWriter.fileOf (IndexWriter.headerFlags s) (IndexWriter.partsOf s)

theorem save_run {lost : Nat → Prop} (sound : s.Sound lost)
    (creator : s.creator.length ≤ Format.kMaxCreatorLength) : save ⟨s, w⟩ = (.ok (fileBytes s), ⟨s, w⟩) := by
  refine (bind_of_ok (p := state) rfl).trans ?_
  rw [IndexWriter.writeIndex_partsOf (Sound.savable sound) creator]
  rfl

theorem save_agree (alike : Alike s t) : Agree save save s t w v := by
  obtain ⟨_, sound⟩ := alike.left
  obtain ⟨_, sound'⟩ := alike.right
  refine agree_reads alike (save_run sound alike.creator) ?_ (.inl ⟨_, rfl⟩)
  rw [fileBytes, IndexReader.file_congr sound.toCoupled sound'.toCoupled alike.same]
  exact save_run sound' (alike.same.creator ▸ alike.creator)

/-- Everything a collection can be asked for. -/
inductive Operation where
  | mutate (c : Command)
  | get (id : ExternalId)
  | contains (id : ExternalId)
  | size
  | stats
  | search (query : List F32) (params : SearchParams)
  | searchInto (query : List F32) (params : SearchParams) (out : List Neighbor)
  /-- Without a thread pool. -/
  | searchBatch (q : BatchQuery)
  | save

inductive Answer where
  | reply (r : Reply)
  | vector (row : List F32)
  | flag (present : Bool)
  | count (live : Nat)
  | stats (values : CollectionStats)
  | neighbors (found : List Neighbor)
  | written (count : Nat) (out : List Neighbor)
  | spans (out : OutputSpans)
  | file (bytes : List Byte)
  deriving DecidableEq, Repr

/-- An operation; its query number `i` gets the context `leased i`. -/
def Operation.run (k : KernelTable) (leased : Nat → VisitedSet) : Operation → Op Answer
  | .mutate c => do
    let r ← c.run k
    return .reply r
  | .get id => do
    let row ← Collection.get id
    return .vector row
  | .contains id => do
    let present ← Collection.contains id
    return .flag present
  | .size => do
    let live ← Collection.size
    return .count live
  | .stats => do
    let values ← Collection.stats
    return .stats values
  | .search query params => do
    let found ← Collection.search k (leased 0) query params
    return .neighbors found
  | .searchInto query params out => do
    let written ← Collection.searchInto k (leased 0) query params out
    return .written written.1 written.2
  | .searchBatch q => do
    let out ← Collection.searchBatch k leased q
    return .spans out
  | .save => do
    let bytes ← Collection.save
    return .file bytes

/-- Without a thread pool. -/
def Operation.Serial : Operation → Prop
  | .mutate (.addBatch _ _ _ pool) => pool = none
  | _ => True

/-- Looks for neighbours. -/
def Operation.Searches : Operation → Prop
  | .search _ _ | .searchInto _ _ _ | .searchBatch _ => True
  | _ => False

/-- What decides how an operation goes on besides the collection, without allocation failures. -/
structure Setting where
  world : World := {}
  leased : Nat → VisitedSet := fun _ => {}
  ample : world.Ample := by rfl
  settled : ∀ i, (leased i).Settled := by exact fun _ => VisitedSet.settled_empty

/-- The results of operations one after the other, and the state in the end. -/
def follow (k : KernelTable) : List Operation → (Nat → Setting) → CollectionState →
    List (Except Exit Answer) × CollectionState
  | [], _, s => ([], s)
  | o :: rest, settings, s =>
    let (answer, τ) := o.run k (settings 0).leased ⟨s, (settings 0).world⟩
    let (answers, u) := follow k rest (fun i => settings (i + 1)) τ.state
    (answer :: answers, u)

theorem Command.agree {c : Command} (serial : (Operation.mutate c).Serial) (alike : Alike s t) (ample : w.Ample)
    (ample' : v.Ample) : Agree (c.run k) (c.run k) s t w v := by
  cases c with
  | add id vector upsert => exact Agree.map (add_agree alike ample ample')
  | addBatch ids rows upsert pool =>
    exact Agree.map (addBatch_agree ids rows upsert alike (.inr serial) (.inr serial) ample ample')
  | remove id => exact Agree.map (remove_agree alike ample ample')
  | compact => exact Agree.map (compact_agree alike ample ample')

theorem Operation.agree {o : Operation} (batched : o.Searches → k.Batched) (serial : o.Serial)
    (alike : Alike s t) (here there : Setting) :
    Agree (o.run k here.leased) (o.run k there.leased) s t here.world there.world := by
  cases o with
  | mutate c => exact Agree.map (Command.agree serial alike here.ample there.ample)
  | get id => exact Agree.map (get_agree alike here.ample there.ample id)
  | contains id => exact Agree.map (contains_agree alike id)
  | size => exact Agree.map (size_agree alike)
  | stats => exact Agree.map (stats_agree alike)
  | search query params =>
    have reads := search_agree (batched trivial) alike here.ample there.ample (here.settled 0)
      (there.settled 0) query params
    exact Agree.map (reads.agree alike)
  | searchInto query params out =>
    have reads := searchInto_agree (batched trivial) alike here.ample there.ample (here.settled 0)
      (there.settled 0) query params out
    exact Agree.map (reads.agree alike)
  | searchBatch q =>
    have reads := searchBatch_agree (batched trivial) alike here.ample there.ample here.settled there.settled q
    exact Agree.map (reads.agree alike)
  | save => exact Agree.map (save_agree alike)

/-- Collections with the same content answer alike forever. -/
theorem follow_alike : ∀ (operations : List Operation), (∀ o ∈ operations, o.Searches → k.Batched) →
    (∀ o ∈ operations, o.Serial) → ∀ (here there : Nat → Setting) {s t : CollectionState}, Alike s t →
    (follow k operations here s).1 = (follow k operations there t).1 ∧
      Alike (follow k operations here s).2 (follow k operations there t).2 ∧
      (SameEntry s t → SameEntry (follow k operations here s).2 (follow k operations there t).2)
  | [], _, _, _, _, _, _, alike => ⟨rfl, alike, fun entry => entry⟩
  | o :: rest, batched, serial, here, there, s, t, alike => by
    obtain ⟨r, σ, τ, left, right, ⟨after, entry⟩, _⟩ :=
      Operation.agree (batched o List.mem_cons_self) (serial o List.mem_cons_self) alike (here 0) (there 0)
    obtain ⟨answers, final, last⟩ := follow_alike rest (fun p member => batched p (List.mem_cons_of_mem o member))
      (fun p member => serial p (List.mem_cons_of_mem o member)) (fun i => here (i + 1))
      (fun i => there (i + 1)) after
    simp only [follow, left, right]
    exact ⟨congrArg (r :: ·) answers, final, fun same => last (entry same)⟩

end Collection
end VectorForge
