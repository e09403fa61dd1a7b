import VectorForge.Collection.Batches

/-! One section of a concurrent batch: rows are committed with reserved nodes, the nodes are
linked, and rows whose node could not be linked are taken back. -/

namespace VectorForge
open Effect

namespace CollectionState
variable {lost : Nat → Prop} {upsert : Bool} {s t u : CollectionState} {x : ExternalId × List F32}
  {r : IdMap.Reservation} {xs : List (ExternalId × List F32)} {rs : List IdMap.Reservation}

/-- `t` is `s` with one more row, whose node has no links. -/
structure RowReserved (upsert : Bool) (s : CollectionState) (x : ExternalId × List F32) (r : IdMap.Reservation)
    (t : CollectionState) : Prop where
  coupled : t.Coupled
  allowed : s.keyRefusal x.1 upsert = none
  reserves : ∃ ids, s.ids.reserve x.1 upsert = .ok (ids, r)
  inserted : ∃ b g, s.backend = .hnsw b ∧ b.graph.addNode (b.params.levels.levelFor b.graph.nodeCount) = .ok g ∧
    Inserted s r x.2 (.hnsw { b with graph := g }) t

/-- Rows committed one after the other, with their reservations. -/
inductive RowsReserved (upsert : Bool) (s : CollectionState) :
    List (ExternalId × List F32) → List IdMap.Reservation → CollectionState → Prop
  | nil {t : CollectionState} (kept : Kept s t) : RowsReserved upsert s [] [] t
  | snoc {xs : List (ExternalId × List F32)} {rs : List IdMap.Reservation} {x : ExternalId × List F32}
      {r : IdMap.Reservation} {t u : CollectionState} (first : RowsReserved upsert s xs rs t) (coupled : t.Coupled)
      (last : RowReserved upsert t x r u) : RowsReserved upsert s (xs ++ [x]) (rs ++ [r]) u

/-- What undoing a reservation needs: the id is mapped to the new row, and the row it replaced is
still there. -/
structure Held (t : CollectionState) (r : IdMap.Reservation) (internal : Nat) : Prop where
  maps : t.ids.map.lookup r.external = some ⟨internal, false⟩
  old : r.previous = kInvalidInternalId ∨
    t.ids.labels[r.previous]? = some r.external ∧ t.deleted.test r.previous = true

theorem Inserted.then_kept {backend : IndexBackend} {row : List F32}
    (inserted : Inserted s r row backend t) (kept : Kept t u) : Inserted s r row backend u where
  config := kept.config.trans inserted.config
  normalized := kept.normalized.trans inserted.normalized
  creator := kept.creator.trans inserted.creator
  createdUnixMs := kept.createdUnixMs.trans inserted.createdUnixMs
  rows := kept.rows.trans inserted.rows
  ids := kept.ids.trans inserted.ids
  marks := fun i => (kept.marks i).trans (inserted.marks i)
  count := kept.count.trans inserted.count
  backend := kept.backend.trans inserted.backend

theorem Inserted.size {backend : IndexBackend} {row : List F32} (inserted : Inserted s r row backend t) :
    t.vectors.size = s.vectors.size + 1 := by
  rw [← VectorStore.length_rows, inserted.rows, List.length_append, VectorStore.length_rows]
  rfl

namespace RowReserved

theorem key (one : RowReserved upsert s x r t) : r.external = x.1 := by
  obtain ⟨_, reserves⟩ := one.reserves
  exact (IdMap.reserve_spec reserves).2.1

theorem lookup_other (one : RowReserved upsert s x r t) {id : ExternalId} (other : id ≠ x.1) :
    t.ids.map.lookup id = s.ids.map.lookup id := by
  obtain ⟨_, _, _, _, inserted⟩ := one.inserted
  rw [inserted.ids, IdMap.committed, Finmap.lookup_insert_of_ne _ (by rw [one.key]; exact other)]

theorem held (one : RowReserved upsert s x r t) (coupled : s.Coupled) : Held t r s.vectors.size := by
  obtain ⟨_, reserves⟩ := one.reserves
  obtain ⟨_, _, _, _, inserted⟩ := one.inserted
  refine ⟨?_, ?_⟩
  · rw [inserted.ids, IdMap.committed, Finmap.lookup_insert, coupled.labels]
  · obtain ⟨_, _, _, _, _, ⟨_, none⟩ | ⟨_, found⟩⟩ := IdMap.reserve_spec reserves
    · exact .inl none
    · obtain ⟨label, _⟩ := (coupled.settled.maps _ _).mp found
      have inside : r.previous < s.ids.labels.length := (List.getElem?_eq_some_iff.mp label).1
      refine .inr ⟨?_, ?_⟩
      · rw [inserted.ids, IdMap.committed, List.getElem?_append_left inside, label, one.key]
      · rw [inserted.marks, decide_eq_true ⟨rfl, coupled.labels ▸ inside⟩, Bool.or_true]

theorem held_other (one : RowReserved upsert s x r t) {r' : IdMap.Reservation} {internal : Nat}
    (held : Held s r' internal) (other : r'.external ≠ x.1) : Held t r' internal := by
  obtain ⟨_, _, _, _, inserted⟩ := one.inserted
  refine ⟨(one.lookup_other other).trans held.maps, held.old.imp_right ?_⟩
  rintro ⟨label, marked⟩
  refine ⟨?_, by rw [inserted.marks, marked, Bool.true_or]⟩
  rw [inserted.ids, IdMap.committed, List.getElem?_append_left (List.getElem?_eq_some_iff.mp label).1, label]

/-- What the id was mapped to before. -/
theorem origin (one : RowReserved upsert s x r t) (coupled : s.Coupled) : s.ids.map.lookup r.external =
    if r.previous = kInvalidInternalId then none else some ⟨r.previous, false⟩ := by
  obtain ⟨_, reserves⟩ := one.reserves
  obtain ⟨_, key, _, _, _, ⟨absent, none⟩ | ⟨_, found⟩⟩ := IdMap.reserve_spec reserves
  · rw [key, absent, if_pos none]
  · rw [key, found, if_neg (coupled.settled.previous_real coupled.labels_le found)]

end RowReserved

namespace RowsReserved

theorem then_kept (chain : RowsReserved upsert s xs rs t) (kept : Kept t u) (coupled : u.Coupled) :
    RowsReserved upsert s xs rs u := by
  cases chain with
  | nil before => exact .nil (before.trans kept)
  | snoc first held last =>
    obtain ⟨b, g, kind, grows, inserted⟩ := last.inserted
    exact .snoc first held ⟨coupled, last.allowed, last.reserves, b, g, kind, grows, inserted.then_kept kept⟩

theorem kept (chain : RowsReserved upsert s xs rs t) (none : xs = []) : Kept s t := by
  cases chain with
  | nil kept => exact kept
  | snoc _ _ _ => exact absurd none (List.append_ne_nil_of_right_ne_nil _ (List.cons_ne_nil _ _))

theorem length_eq (chain : RowsReserved upsert s xs rs t) : rs.length = xs.length := by
  induction chain with
  | nil _ => rfl
  | snoc _ _ _ ih => rw [List.length_append, List.length_append, ih]; rfl

theorem keys (chain : RowsReserved upsert s xs rs t) : rs.map (·.external) = xs.map Prod.fst := by
  induction chain with
  | nil _ => rfl
  | snoc _ _ last ih => rw [List.map_append, List.map_append, ih, List.map_singleton, List.map_singleton, last.key]

theorem rows (chain : RowsReserved upsert s xs rs t) : t.vectors.rows = s.vectors.rows ++ xs.map Prod.snd := by
  induction chain with
  | nil kept => rw [kept.rows, List.map_nil, List.append_nil]
  | snoc _ _ last ih =>
    obtain ⟨_, _, _, _, inserted⟩ := last.inserted
    rw [inserted.rows, ih, List.map_append, List.append_assoc]
    rfl

theorem labels (chain : RowsReserved upsert s xs rs t) : t.ids.labels = s.ids.labels ++ xs.map Prod.fst := by
  induction chain with
  | nil kept => rw [kept.ids, List.map_nil, List.append_nil]
  | snoc _ _ last ih =>
    obtain ⟨_, _, _, _, inserted⟩ := last.inserted
    rw [inserted.ids, IdMap.committed, last.key, ih, List.map_append, List.append_assoc]
    rfl

theorem size (chain : RowsReserved upsert s xs rs t) : t.vectors.size = s.vectors.size + xs.length := by
  rw [← VectorStore.length_rows, chain.rows, List.length_append, List.length_map, VectorStore.length_rows]

theorem frame (chain : RowsReserved upsert s xs rs t) : t.config = s.config ∧ t.normalized = s.normalized ∧
    t.creator = s.creator ∧ t.createdUnixMs = s.createdUnixMs := by
  induction chain with
  | nil kept => exact ⟨kept.config, kept.normalized, kept.creator, kept.createdUnixMs⟩
  | snoc _ _ last ih =>
    obtain ⟨_, _, _, _, inserted⟩ := last.inserted
    exact ⟨inserted.config.trans ih.1, inserted.normalized.trans ih.2.1, inserted.creator.trans ih.2.2.1,
      inserted.createdUnixMs.trans ih.2.2.2⟩

theorem lookup_other (chain : RowsReserved upsert s xs rs t) {id : ExternalId} (other : id ∉ xs.map Prod.fst) :
    t.ids.map.lookup id = s.ids.map.lookup id := by
  induction chain with
  | nil kept => rw [kept.ids]
  | snoc _ _ last ih =>
    rw [List.map_append, List.mem_append, not_or] at other
    rw [last.lookup_other (by simpa using other.2), ih other.1]

/-- Every row of the section can be taken back. -/
theorem held (chain : RowsReserved upsert s xs rs t) (distinct : (xs.map Prod.fst).Nodup) {i : Nat}
    {r : IdMap.Reservation} (at_ : rs[i]? = some r) : Held t r (s.vectors.size + i) := by
  induction chain generalizing i r with
  | nil kept => cases at_
  | @snoc xs rs x r' t u first coupled last ih =>
    rw [List.map_append, List.nodup_append] at distinct
    rcases Nat.lt_or_ge i rs.length with old | new
    · rw [List.getElem?_append_left old] at at_
      refine last.held_other (ih distinct.1 at_) ?_
      have member : r.external ∈ xs.map Prod.fst := by
        rw [← first.keys]
        exact List.mem_map_of_mem (List.mem_of_getElem? at_)
      exact distinct.2.2 _ member _ (List.mem_singleton_self _)
    · rw [List.getElem?_append_right new] at at_
      obtain ⟨rfl, rfl⟩ : i = rs.length ∧ r = r' := by
        rcases Nat.eq_zero_or_pos (i - rs.length) with zero | more
        · rw [zero] at at_
          exact ⟨by omega, (Option.some.inj at_).symm⟩
        · rw [List.getElem?_eq_none (by rw [List.length_singleton]; omega)] at at_
          cases at_
      rw [first.length_eq, ← first.size]
      exact last.held coupled

/-- What the ids of the section were mapped to before it. -/
theorem origin (chain : RowsReserved upsert s xs rs t) (distinct : (xs.map Prod.fst).Nodup) {r : IdMap.Reservation}
    (member : r ∈ rs) : s.ids.map.lookup r.external =
      if r.previous = kInvalidInternalId then none else some ⟨r.previous, false⟩ := by
  induction chain generalizing r with
  | nil kept => cases member
  | @snoc xs rs x r' t u first coupled last ih =>
    rw [List.map_append, List.nodup_append] at distinct
    rcases List.mem_append.mp member with old | new
    · exact ih distinct.1 old
    · obtain rfl := List.mem_singleton.mp new
      rw [← last.origin coupled, first.lookup_other]
      rw [last.key]
      exact fun repeated => distinct.2.2 _ repeated _ (List.mem_singleton_self _) rfl

/-- The graph has a node without links for each row of the section. -/
theorem graph (chain : RowsReserved upsert s xs rs t) {b : HnswBackend} (sound : s.Sound lost)
    (kind : s.backend = .hnsw b) :
    ∃ g, t.backend = .hnsw { b with graph := g } ∧ Reserved b.params s.vectors.size lost { graph := g } ∧
      g.nodeCount = t.vectors.size ∧
      g.levels = b.graph.levels ++ (List.range' s.vectors.size xs.length).map b.params.levels.levelFor := by
  induction chain with
  | nil kept =>
    obtain ⟨_, fits⟩ := sound.fits kind
    refine ⟨b.graph, kept.backend.trans kind, ?_, fits.nodes.trans kept.size.symm, (List.append_nil _).symm⟩
    rw [← fits.nodes]
    exact Reserved.start (sound.rests b kind)
  | snoc first _ last ih =>
    obtain ⟨g, at_, reserved, nodes, levels⟩ := ih
    obtain ⟨c, g', kind', grows, inserted⟩ := last.inserted
    cases at_.symm.trans kind'
    refine ⟨g', inserted.backend, reserved.addNode grows, ?_, ?_⟩
    · rw [HnswGraph.addNode_nodeCount grows, inserted.size, nodes]
    · obtain ⟨_, _, grown, _⟩ := HnswGraph.addNode_spec grows
      rw [grown, levels, List.length_append, List.length_singleton, List.range'_1_concat, List.map_append,
        ← List.append_assoc,
        nodes, first.size]
      rfl

end RowsReserved
end CollectionState

namespace Collection
open Op CollectionState
variable {k : KernelTable} {s t : CollectionState} {lost : Nat → Prop} {b : Batch} {h : HnswBackend} {w : World}

theorem reserveRow_ends {i : Nat} (coupled : t.Coupled) (kind : t.backend = .hnsw h)
    (nodes : h.graph.nodeCount = t.vectors.size) (fits : Batch.Fits b t) (inside : i < b.ids.length) :
    Ends (insertRow b i reserveNode) ⟨t, w⟩ (fun r τ => w.Later τ.world ∧
      RowReserved b.upsert t (b.entry i) r τ.state)
      (Untouched w (t.keyRefusal (b.entry i).1 b.upsert) t) := by
  have length : (b.entry i).2.length = t.vectors.dim := (Batch.length_entry fits.size inside).trans fits.dim
  have backend := coupled.backend
  rw [kind] at backend
  refine ends_checked (Batch.row_ok fits.size inside)
    (reserveId_ends coupled fun ids reservation w' run later => ?_)
  refine Ends.bind ((reserved_ends coupled length (fun u => reserveNode_indexes nodes kind) ?_ run later).mono ?_
    fun _ _ holds => holds)
  · rintro _ ⟨g, rfl, grows⟩
    obtain ⟨_, _, _, m, maxLevel, _, _⟩ := HnswGraph.addNode_spec grows
    refine ⟨backend.1, backend.2.params, backend.2.valid, backend.2.options, m.trans backend.2.m,
      maxLevel.trans backend.2.maxLevel, ?_, backend.2.laid.addNode grows⟩
    exact (HnswGraph.addNode_nodeCount grows).trans (by rw [nodes])
  · rintro _ τ ⟨more, allowed, held, ⟨_, reserves⟩, _, ⟨g, rfl, grows⟩, inserted⟩
    exact Ends.pure ⟨more, held, allowed, ⟨_, reserves⟩, h, g, kind, grows, inserted⟩

/-- A grow section from row `done` on, in a state that `s` has become. -/
structure GrownRows (b : Batch) (done : Nat) (w : World) (s : CollectionState) (rows : List IdMap.Reservation)
    (stop : Option Exit) (τ : Session) : Prop where
  later : w.Later τ.world
  coupled : τ.state.Coupled
  inside : done + rows.length ≤ b.ids.length
  chain : RowsReserved b.upsert s (b.between done (done + rows.length)) rows τ.state
  stop : ∀ e, stop = some e → done + rows.length < b.ids.length ∧
    Reason w (τ.state.keyRefusal (b.entry (done + rows.length)).1 b.upsert) e

theorem GrownRows.after {done : Nat} {w₁ : World} {rows : List IdMap.Reservation} {stop : Option Exit} {τ : Session}
    (grown : GrownRows b done w₁ s rows stop τ) (later : w.Later w₁) : GrownRows b done w s rows stop τ :=
  { grown with
    later := later.trans grown.later
    stop := fun e known => ⟨(grown.stop e known).1, (grown.stop e known).2.later later⟩ }

/-- Growing never leaves: whatever stops it is reported with the rows so far. -/
theorem growRows_ends (sound : s.Sound lost) (kind : s.backend = .hnsw h) (fits : Batch.Fits b s) {done : Nat} :
    ∀ {left : Nat} {rows : List IdMap.Reservation} {t : CollectionState} {w : World},
      done + rows.length + left ≤ b.ids.length → t.Coupled →
      RowsReserved b.upsert s (b.between done (done + rows.length)) rows t →
      Ends (growRows b done left rows) ⟨t, w⟩
        (fun result τ => GrownRows b done w s result.1 result.2 τ ∧ rows.length ≤ result.1.length ∧
          (result.2 = none → 0 < left → rows.length < result.1.length) ∧ result.1.length ≤ rows.length + left)
        fun _ _ => False := by
  intro left
  induction left with
  | zero =>
    intro rows t w inside coupled chain
    exact Ends.pure ⟨⟨.refl w, coupled, inside, chain, nofun⟩, Nat.le_refl _,
      fun _ none => absurd none (Nat.lt_irrefl 0), Nat.le_refl _⟩
  | succ left ih =>
    intro rows t w inside coupled chain
    obtain ⟨g, at_, _, nodes, _⟩ := chain.graph sound kind
    have mine : Batch.Fits b t := fits.of_config sound.toCoupled coupled chain.frame.1
    refine Ends.bind (Ends.attempt ((reserveRow_ends coupled at_ nodes mine (by omega)).mono ?_ ?_))
    · rintro r ⟨u, w₁⟩ ⟨later₁, last⟩
      dsimp only at later₁ last
      have more : RowsReserved b.upsert s (b.between done (done + (rows ++ [r]).length)) (rows ++ [r]) u := by
        rw [List.length_append, List.length_singleton, ← Nat.add_assoc,
          ← Batch.between_append (Nat.le_add_right done rows.length) (Nat.le_succ _), Batch.between_succ]
        exact .snoc chain coupled last
      have longer : (rows ++ [r]).length = rows.length + 1 := by rw [List.length_append, List.length_singleton]
      refine sliceOver_ends fun ended w₂ later₂ => ?_
      split
      · refine Ends.pure ⟨⟨later₁.trans later₂, last.coupled, (by dsimp only; omega), more, nofun⟩, ?_, ?_, ?_⟩ <;>
          dsimp only <;> omega
      · refine (ih (by omega) last.coupled more).mono ?_ fun _ _ none => none
        rintro ⟨rows', stop⟩ τ ⟨grown, low, progress, high⟩
        dsimp only at low progress high ⊢
        exact ⟨grown.after (later₁.trans later₂), by omega, by omega, by omega⟩
    · rintro e τ untouched
      rw [if_pos untouched.reason.caught]
      refine Ends.pure ⟨⟨untouched.later, untouched.coupled, by
        dsimp only; omega, chain.then_kept untouched.kept untouched.coupled, ?_⟩,
        Nat.le_refl _, nofun, by dsimp only; omega⟩
      rintro e' same
      cases same
      refine ⟨by dsimp only; omega, ?_⟩
      rw [untouched.kept.keyRefusal coupled untouched.coupled]
      exact untouched.reason

theorem growSection_ends (sound : s.Sound lost) (kind : s.backend = .hnsw h) (fits : Batch.Fits b s) {done : Nat}
    (more : done < b.ids.length) : Ends (growSection b done) ⟨s, w⟩
      (fun grown τ => grown.first = s.vectors.size ∧ GrownRows b done w s grown.rows grown.stop τ ∧
        τ.state.vectors.size ≤ grown.prepared ∧ (grown.stop = none → 0 < grown.rows.length))
      (Untouched w none s) := by
  have workers : 0 < Batch.workers b := by
    rw [Batch.workers]
    split <;> omega
  have want : 0 < min (kLinkRowsPerWorker * Batch.workers b) (b.ids.length - done) := by
    rw [kLinkRowsPerWorker]
    omega
  refine hnswBackend_ends kind (ends_state
    (ends_allocate (fun w' lacked => untouched_lacked sound.toCoupled lacked) ?_))
  intro w₁ spent
  have start : RowsReserved b.upsert s (b.between done (done + ([] : List IdMap.Reservation).length)) [] s := by
    rw [List.length_nil, Nat.add_zero, Batch.between_self]
    exact .nil (.refl s)
  refine Ends.bind ((growRows_ends sound kind fits (by rw [List.length_nil]; omega) sound.toCoupled start).mono ?_
    fun _ _ none => none.elim)
  rintro ⟨rows, stop⟩ τ ⟨grown, _, progress, high⟩
  dsimp only at grown progress high
  rw [List.length_nil, Nat.zero_add] at high
  refine Ends.pure ⟨rfl, grown.after spent.later, ?_, fun none => progress none want⟩
  rw [grown.chain.size, ← grown.chain.length_eq]
  dsimp only
  omega

/-- What the links of a section leave behind, in a state that had become `t` by growing. -/
structure LinkedRows (lost : Nat → Prop) (first : Nat) (w : World) (h : HnswBackend)
    (t : CollectionState) (count : Nat) (linked : List Bool) (τ : Session) : Prop where
  later : w.Later τ.world
  size : linked.length = count
  ample : w.Ample → ∀ l ∈ linked, l = true
  graph : ∃ g, τ.state = { t with backend := .hnsw { h with graph := g } } ∧ g.levels = h.graph.levels ∧
    Resting h.params (lostAfter lost first fun x => linked.getD (x - first) true) { graph := g }

/-- Why the links of a section did not come to an end. -/
inductive NotLinked (b : Batch) (count : Nat) (w : World) : Exit → Prop
  | lacked (parallel : Batch.parallel b count = true)
      (fails : w.memory.headD true = false) : NotLinked b count w .threw
  | stuck : NotLinked b count w .stuck

/-- The links of a section that came to an end. -/
theorem linkedRows_of_end {first : Nat} {w' : World} {linked : List Bool} {shared : SharedGraph}
    {count : Nat} {world : World}
    (kind : t.backend = .hnsw h) (later : w.Later w') (nodes : h.graph.nodeCount = first + count)
    (ended : SectionEnd h.params lost first h.graph w' linked shared world) :
    LinkedRows lost first w h t count linked ⟨t.setGraph shared.graph, world⟩ where
  later := later.trans ended.later
  size := ended.size.trans (by omega)
  ample := fun ample => ended.linked (later.ample ample)
  graph := ⟨shared.graph, setGraph_eq kind, ended.levels, ended.rests⟩

theorem linkSection_ends {first : Nat} {grown : Grown} (kind : t.backend = .hnsw h)
    (reserved : Reserved h.params first lost { graph := h.graph })
    (valid : h.params.Valid) (begins : grown.first = first) (count : h.graph.nodeCount = first + grown.rows.length)
    (prepared : h.graph.nodeCount ≤ grown.prepared) :
    Ends (linkSection k b grown) ⟨t, w⟩ (LinkedRows lost first w h t grown.rows.length)
      fun e τ => τ.state = t ∧ w.Later τ.world ∧ NotLinked b grown.rows.length w e := by
  have wide := valid.wide
  have covers (v : World) (i : Nat) :
      h.graph.nodeCount ≤ ((v.scratch i).ensureCapacity grown.prepared).marks.length :=
    prepared.trans (VisitedSet.length_ensureCapacity _ _)
  have rest : h.graph.nodeCount - first = grown.rows.length := by omega
  rw [linkSection]
  dsimp only
  split
  next none =>
    refine Ends.pure ⟨.refl w, none.symm, fun _ => nofun, h.graph, by rw [← kind], rfl, reserved.rest.congr ?_⟩
    intro x node
    have low : x < first := by
      have inside : x < h.graph.nodeCount := node
      omega
    simp only [lostAfter, low, true_and]
    exact ⟨fun gone => gone.elim .inl fun high => absurd high.1 (by omega), fun gone => gone.imp_right fun high =>
      absurd high (by omega)⟩
  next several =>
    refine hnswBackend_ends kind ?_
    rw [begins]
    cases parallel : Batch.parallel b grown.rows.length with
    | false =>
      refine Ends.get ?_
      dsimp only
      rw [if_neg Bool.false_ne_true]
      split
      next => exact Ends.leave ⟨rfl, .refl w, .stuck⟩
      next linked shared world run =>
        rw [← rest] at run
        exact Ends.modify (Ends.pure (linkedRows_of_end kind (.refl w) count
          (linkRange_end reserved rfl wide (covers w) run)))
    | true =>
      cases enough : w.memory.headD true with
      | false => exact Ends.of_error (if_neg (by rw [enough]; exact Bool.false_ne_true)) ⟨rfl, w.later_tail,
        .lacked parallel enough⟩
      | true =>
        refine Ends.of_ok (if_pos enough) (Ends.get ?_)
        dsimp only
        split
        next => exact Ends.leave ⟨rfl, w.later_tail, .stuck⟩
        next linked shared world run =>
          rw [if_pos rfl, ← rest] at run
          exact Ends.modify (Ends.pure (linkedRows_of_end kind w.later_tail count
            (linkScheduled_end reserved rfl wide (covers _) run)))

/-- The row `internal` has been taken back. -/
structure TakenBack (t : CollectionState) (r : IdMap.Reservation) (internal : Nat)
    (u : CollectionState) : Prop where
  frame : u = { t with ids := u.ids, deleted := u.deleted }
  coupled : u.Coupled
  labels : u.ids.labels = t.ids.labels
  others : ∀ id, id ≠ r.external → u.ids.map.lookup id = t.ids.map.lookup id
  back : u.ids.map.lookup r.external = if r.previous = kInvalidInternalId then none else some ⟨r.previous, false⟩
  marks : ∀ i, u.deleted.test i = ((t.deleted.test i || decide (i = internal)) &&
    !decide (i = r.previous ∧ r.previous ≠ kInvalidInternalId))

theorem mark_ok {deleted : TombstoneSet} {rows i : Nat} (tracks : deleted.Tracks rows) (inside : i < rows) :
    mark deleted i = .ok (deleted.set i) := by
  rw [mark, Outcome.check, if_pos (decide_eq_true (TombstoneSet.inside_of_covers tracks.covers inside))]
  rfl

theorem unmark_ok {deleted : TombstoneSet} {rows i : Nat} (tracks : deleted.Tracks rows) (inside : i < rows) :
    unmark deleted i = .ok (deleted.clear i) := by
  rw [unmark, Outcome.check, if_pos (decide_eq_true (TombstoneSet.inside_of_covers tracks.covers inside))]
  rfl

theorem abandonRow_ends {r : IdMap.Reservation} {internal : Nat} (coupled : t.Coupled) (held : Held t r internal) :
    Ends (abandonRow r internal) ⟨t, w⟩ (fun _ τ => τ.world = w ∧ TakenBack t r internal τ.state)
      fun _ _ => False := by
  obtain ⟨label, unmarked⟩ := (coupled.settled.maps _ _).mp held.maps
  have inside : internal < t.vectors.size := coupled.labels ▸ (List.getElem?_eq_some_iff.mp label).1
  obtain ⟨tracks, _⟩ := coupled.tracks.set inside unmarked
  have marked (i : Nat) : (t.deleted.set internal).test i = (t.deleted.test i || decide (i = internal)) := by
    rw [TombstoneSet.test_set (TombstoneSet.inside_of_covers coupled.tracks.covers inside), Bool.or_comm]
  -- the bits and the map change together
  have done (deleted : TombstoneSet) (covers : deleted.Tracks t.vectors.size)
      (marks : ∀ i, deleted.test i = ((t.deleted.test i || decide (i = internal)) &&
        !decide (i = r.previous ∧ r.previous ≠ kInvalidInternalId))) :
      ∃ ids, t.ids.revert r internal = .ok ids ∧ TakenBack t r internal { t with ids, deleted } := by
    obtain ⟨ids, run, labels, settled, others, back⟩ :=
      coupled.settled.revert coupled.labels_le held.maps held.old marks
    exact ⟨ids, run, rfl,
      { coupled with labels := (by rw [labels]; exact coupled.labels), settled, tracks := covers }, labels,
      others, back, marks⟩
  refine ends_state ?_
  by_cases none : r.previous = kInvalidInternalId
  · obtain ⟨ids, run, taken⟩ := done (t.deleted.set internal) tracks fun i => by simp [marked, none]
    refine ends_checked run (ends_checked (mark_ok coupled.tracks inside) ?_)
    rw [if_neg (by simpa using none)]
    exact ends_set ⟨rfl, taken⟩
  · obtain ⟨atOld, dead⟩ := held.old.resolve_left none
    have old : r.previous < t.vectors.size := coupled.labels ▸ (List.getElem?_eq_some_iff.mp atOld).1
    have still : (t.deleted.set internal).test r.previous = true := by rw [marked, dead, Bool.true_or]
    obtain ⟨cleared, _⟩ := tracks.clear still
    obtain ⟨ids, run, taken⟩ := done ((t.deleted.set internal).clear r.previous) cleared fun i => by
      rw [TombstoneSet.test_clear (TombstoneSet.inside_of_covers tracks.covers old), marked, Bool.and_comm]
      simp [none]
    refine ends_checked run (ends_checked (mark_ok coupled.tracks inside) ?_)
    rw [if_pos none]
    exact ends_checked (unmark_ok tracks old) (ends_set ⟨rfl, taken⟩)

/-- Row `j` of a section is one whose link threw. -/
def Failing (rows : List IdMap.Reservation) (linked : List Bool) (j : Nat) (r : IdMap.Reservation) : Prop :=
  rows[j]? = some r ∧ linked[j]? = some false

/-- All rows whose link threw have been taken back. -/
structure AllTakenBack (t : CollectionState) (rows : List IdMap.Reservation) (linked : List Bool)
    (u : CollectionState) : Prop where
  frame : u = { t with ids := u.ids, deleted := u.deleted }
  coupled : u.Coupled
  labels : u.ids.labels = t.ids.labels
  others : ∀ id, (∀ j r, Failing rows linked j r → id ≠ r.external) → u.ids.map.lookup id = t.ids.map.lookup id
  back : ∀ j r, Failing rows linked j r →
    u.ids.map.lookup r.external = if r.previous = kInvalidInternalId then none else some ⟨r.previous, false⟩

theorem held_of_takenBack {r r' : IdMap.Reservation} {internal other : Nat} {u : CollectionState}
    (held : Held t r internal)
    (taken : TakenBack t r' other u) (held' : Held t r' other) (different : r.external ≠ r'.external) :
    Held u r internal := by
  refine ⟨(taken.others _ different).trans held.maps, held.old.imp_right ?_⟩
  rintro ⟨label, dead⟩
  refine ⟨by rw [taken.labels, label], ?_⟩
  have away : ¬(r.previous = r'.previous ∧ r'.previous ≠ kInvalidInternalId) := by
    rintro ⟨same, real⟩
    have other := (held'.old.resolve_left real).1
    rw [← same, label] at other
    exact different (Option.some.inj other)
  rw [taken.marks, dead, decide_eq_false away]
  rfl

theorem abandonRows_ends : ∀ {rows : List IdMap.Reservation} {linked : List Bool} {internal : Nat}
    {t : CollectionState},
    t.Coupled → (rows.map (·.external)).Nodup → (∀ j r, Failing rows linked j r → Held t r (internal + j)) →
    Ends (abandonRows internal rows linked) ⟨t, w⟩ (fun _ τ => τ.world = w ∧ AllTakenBack t rows linked τ.state)
      fun _ _ => False := by
  intro rows
  induction rows with
  | nil =>
    intro linked internal t coupled _ _
    have done : Ends (pure () : Op Unit) ⟨t, w⟩ (fun _ τ => τ.world = w ∧
        AllTakenBack t [] linked τ.state) fun _ _ => False :=
      Ends.pure ⟨rfl, rfl, coupled, rfl, fun _ _ => rfl, fun _ _ none => by cases none.1⟩
    cases linked with
    | nil => exact done
    | cons l rest => exact done
  | cons r rows ih =>
    intro linked internal t coupled distinct held
    cases linked with
    | nil => exact Ends.pure ⟨rfl, rfl, coupled, rfl, fun _ _ => rfl, fun _ _ none => by cases none.2⟩
    | cons l rest =>
      rw [List.map_cons, List.nodup_cons] at distinct
      have later (j : Nat) (r' : IdMap.Reservation) (fails : Failing rows rest j r') :
          r'.external ≠ r.external := by
        intro same
        exact distinct.1 (same ▸ List.mem_map_of_mem (List.mem_of_getElem? fails.1))
      have shift (j : Nat) (r' : IdMap.Reservation) (fails : Failing rows rest j r') :
          Held t r' (internal + 1 + j) := by
        have here := held (j + 1) r' fails
        rwa [show internal + (j + 1) = internal + 1 + j by omega] at here
      rw [abandonRows]
      cases l with
      | true =>
        refine (ih coupled distinct.2 shift).mono ?_ fun _ _ none => none
        rintro _ τ ⟨same, all⟩
        refine ⟨same, all.frame, all.coupled, all.labels, ?_, ?_⟩
        · intro id away
          exact all.others id fun j r' fails => away (j + 1) r' fails
        · intro j r' fails
          cases j with
          | zero => cases fails.2
          | succ j => exact all.back j r' fails
      | false =>
        have first : Held t r internal := held 0 r ⟨rfl, rfl⟩
        refine Ends.bind ((abandonRow_ends coupled first).mono ?_ fun _ _ none => none)
        rintro _ ⟨u, w'⟩ ⟨same, taken⟩
        dsimp only at same taken
        subst same
        refine (ih taken.coupled distinct.2 fun j r' fails => held_of_takenBack (shift j r' fails) taken first
          (later j r' fails)).mono ?_
          fun _ _ none => none
        rintro _ τ ⟨same, all⟩
        refine ⟨same, ?_, all.coupled, all.labels.trans taken.labels, ?_, ?_⟩
        · rw [all.frame, taken.frame]
        · intro id away
          rw [all.others id fun j r' fails => away (j + 1) r' fails, taken.others id (away 0 r ⟨rfl, rfl⟩)]
        · intro j r' fails
          cases j with
          | zero =>
            obtain rfl := Option.some.inj fails.1
            rw [all.others _ fun j r' fails => (later j r' fails).symm, taken.back]
          | succ j => exact all.back j r' fails

/-- The state after a section: what the ids of its rows are mapped to depends on whether the link
of the row threw. -/
structure SectionDone (lost : Nat → Prop) (b : Batch) (done : Nat) (s : CollectionState) (count : Nat)
    (linked : List Bool) (u : CollectionState) : Prop where
  inside : done + count ≤ b.ids.length
  size : linked.length = count
  sound : u.Sound (lostAfter lost s.vectors.size fun x => linked.getD (x - s.vectors.size) true)
  config : u.config = s.config
  creator : u.creator = s.creator
  createdUnixMs : u.createdUnixMs = s.createdUnixMs
  rows : u.vectors.rows = s.vectors.rows ++ (b.between done (done + count)).map Prod.snd
  labels : u.ids.labels = s.ids.labels ++ (b.between done (done + count)).map Prod.fst
  inserted : ∀ j, linked[j]? = some true →
    u.ids.map.lookup (b.entry (done + j)).1 = some ⟨s.vectors.size + j, false⟩
  reverted : ∀ j, linked[j]? = some false →
    u.ids.map.lookup (b.entry (done + j)).1 = s.ids.map.lookup (b.entry (done + j)).1
  others : ∀ id, id ∉ (b.between done (done + count)).map Prod.fst → u.ids.map.lookup id = s.ids.map.lookup id
  graph : ∀ h, s.backend = .hnsw h → ∃ g, u.backend = .hnsw { h with graph := g } ∧
    g.levels = h.graph.levels ++ (List.range' s.vectors.size count).map h.params.levels.levelFor

/-- How a section ends without going on. -/
inductive SectionExit (lost : Nat → Prop) (b : Batch) (done : Nat) (w : World) (s : CollectionState) :
    Exit → Session → Prop
  | untouched {e : Exit} {τ : Session} (untouched : Untouched w none s e τ) : SectionExit lost b done w s e τ
  | notLinked {e : Exit} {σ τ : Session} {rows : List IdMap.Reservation} {stop : Option Exit}
      (grown : GrownRows b done w s rows stop σ) (state : τ.state = σ.state) (later : σ.world.Later τ.world)
      (why : NotLinked b rows.length σ.world e) : SectionExit lost b done w s e τ
  | ended {e : Exit} {σ τ : Session} {rows : List IdMap.Reservation} {stop : Option Exit} {linked : List Bool}
      (grown : GrownRows b done w s rows stop σ) (later : σ.world.Later τ.world)
      (finished : SectionDone lost b done s rows.length linked τ.state) (ample : w.Ample → ∀ l ∈ linked, l = true)
      (why : (e = .threw ∧ (stop = some .threw ∨ false ∈ linked)) ∨ (stop = some e ∧ false ∉ linked)) :
      SectionExit lost b done w s e τ

theorem entry_of_between {done count j : Nat} (inside : j < count) :
    (b.between done (done + count))[j]? = some (b.entry (done + j)) := by
  rw [Batch.between, Nat.add_sub_cancel_left, List.getElem?_map, List.getElem?_range' (by omega)]
  simp

theorem keys_between {done count : Nat} (inside : done + count ≤ b.ids.length) :
    (b.between done (done + count)).map Prod.fst = (b.ids.drop done).take count := by
  refine List.ext_getElem? fun j => ?_
  rcases Nat.lt_or_ge j count with below | beyond
  · rw [List.getElem?_map, entry_of_between below, List.getElem?_take_of_lt below, List.getElem?_drop,
      List.getElem?_eq_getElem (by omega), Option.map_some, Batch.entry, List.getD_eq_getElem _ _ (by omega)]
  · rw [List.getElem?_eq_none (by rw [List.length_map, Batch.between, List.length_map, List.length_range']; omega),
      List.getElem?_eq_none (by rw [List.length_take]; omega)]

theorem GrownRows.key {done j : Nat} {rows : List IdMap.Reservation} {stop : Option Exit} {σ : Session}
    {r : IdMap.Reservation}
    (grown : GrownRows b done w s rows stop σ) (at_ : rows[j]? = some r) : r.external = (b.entry (done + j)).1 := by
  have inside : j < rows.length := (List.getElem?_eq_some_iff.mp at_).1
  have keys : (rows.map (·.external))[j]? = ((b.between done (done + rows.length)).map Prod.fst)[j]? := by
    rw [grown.chain.keys]
  rw [List.getElem?_map, List.getElem?_map, at_, entry_of_between inside] at keys
  exact Option.some.inj keys

/-- Growing, linking and taking back together. -/
theorem sectionDone_of {done : Nat} {rows : List IdMap.Reservation} {stop : Option Exit} {σ : Session}
    {linked : List Bool} {u v : CollectionState} {g g' : HnswGraph} (grown : GrownRows b done w s rows stop σ)
    (distinct : ((b.between done (done + rows.length)).map Prod.fst).Nodup) (size : linked.length = rows.length)
    (kind : s.backend = .hnsw h)
    (linkedState : u = { σ.state with backend := .hnsw { h with graph := g' } })
    (levels : g.levels = h.graph.levels ++ (List.range' s.vectors.size rows.length).map h.params.levels.levelFor)
    (same : g'.levels = g.levels)
    (rests : Resting h.params (lostAfter lost s.vectors.size fun x =>
      linked.getD (x - s.vectors.size) true) { graph := g' })
    (taken : AllTakenBack u rows linked v) : SectionDone lost b done s rows.length linked v := by
  have ids : u.ids = σ.state.ids := by rw [linkedState]
  have vectors : v.vectors = σ.state.vectors := by rw [taken.frame, linkedState]
  have backend : v.backend = .hnsw { h with graph := g' } := by rw [taken.frame, linkedState]
  have length := grown.chain.length_eq
  have failingKey {j : Nat} {r : IdMap.Reservation} (fails : Failing rows linked j r) :
      r.external ∈ (b.between done (done + rows.length)).map Prod.fst := by
    rw [← grown.chain.keys]
    exact List.mem_map_of_mem (List.mem_of_getElem? fails.1)
  have rowAt {j : Nat} {l : Bool} (result : linked[j]? = some l) : ∃ r, rows[j]? = some r := by
    have inside := (List.getElem?_eq_some_iff.mp result).1
    exact ⟨rows[j], List.getElem?_eq_getElem (by omega)⟩
  exact {
    inside := grown.inside
    size := size
    sound := {
      taken.coupled with
      bounded := by
        rintro x (⟨low, _⟩ | ⟨high, failed⟩)
        · rw [vectors, grown.chain.size]
          omega
        · rw [vectors, grown.chain.size, ← length]
          by_contra beyond
          dsimp only at failed
          rw [List.getD_eq_default _ _ (by omega)] at failed
          cases failed
      rests := by
        intro c kind'
        rw [backend] at kind'
        cases kind'
        exact rests }
    config := by rw [taken.frame, linkedState]; exact grown.chain.frame.1
    creator := by rw [taken.frame, linkedState]; exact grown.chain.frame.2.2.1
    createdUnixMs := by rw [taken.frame, linkedState]; exact grown.chain.frame.2.2.2
    rows := by rw [vectors, grown.chain.rows]
    labels := by rw [taken.labels, ids, grown.chain.labels]
    inserted := by
      intro j result
      obtain ⟨r, at_⟩ := rowAt result
      rw [← grown.key at_, taken.others, ids, (grown.chain.held distinct at_).maps]
      intro j' r' fails same
      have keys : (rows.map (·.external)).Nodup := by rw [grown.chain.keys]; exact distinct
      have first : (rows.map (·.external))[j]? = some r.external := by rw [List.getElem?_map, at_]; rfl
      have second : (rows.map (·.external))[j']? = some r.external := by rw [List.getElem?_map, fails.1, same]; rfl
      have one : j = j' := (List.getElem?_inj (List.getElem?_eq_some_iff.mp first).1 keys).mp
        (first.trans second.symm)
      rw [one, fails.2] at result
      cases result
    reverted := by
      intro j result
      obtain ⟨r, at_⟩ := rowAt result
      rw [← grown.key at_, taken.back j r ⟨at_, result⟩, grown.chain.origin distinct (List.mem_of_getElem? at_)]
    others := by
      intro id other
      rw [taken.others, ids, grown.chain.lookup_other other]
      rintro j r fails rfl
      exact other (failingKey fails)
    graph := by
      intro c kind'
      cases kind.symm.trans kind'
      exact ⟨g', backend, same.trans levels⟩ }

theorem allTakenBack_none {rows : List IdMap.Reservation} {linked : List Bool} (coupled : t.Coupled)
    (none : false ∉ linked) : AllTakenBack t rows linked t :=
  ⟨rfl, coupled, rfl, fun _ _ => rfl, fun _ _ fails => absurd (List.mem_of_getElem? fails.2) none⟩

/-- Links are no part of the couplings. -/
theorem coupled_relinked {g g' : HnswGraph} (coupled : t.Coupled) (kind : t.backend = .hnsw { h with graph := g })
    (nodes : g.nodeCount = t.vectors.size) (same : g'.levels = g.levels)
    (rests : Resting h.params lost { graph := g' }) :
    ({ t with backend := .hnsw { h with graph := g' } } : CollectionState).Coupled := by
  have before := coupled.backend
  rw [kind] at before
  have count : g'.nodeCount = t.vectors.size := by
    rw [HnswGraph.nodeCount, same]
    exact nodes
  exact { coupled with
    backend := ⟨before.1, before.2.params, before.2.valid, before.2.options,
      rests.m.trans (by rw [before.2.params]),
      rests.maxLevel.trans (by rw [before.2.params]), count, rests.laid⟩ }

/-- What a section reports once its links have come to an end. -/
def sectionResult (grown : Grown) (linked : List Bool) : Except Exit (Nat × Nat) :=
  if false ∈ linked then .error .threw
  else match grown.stop with
    | some stop => .error stop
    | none => .ok (grown.rows.length, linked.count true)

/-- A section whose links have come to an end, each with a node that is linked or not. -/
theorem batchSection_finished {done : Nat} {grown : Grown} {σ τ : Session} {linked : List Bool}
    (sound : s.Sound lost)
    (kind : s.backend = .hnsw h) (fits : Batch.Fits b s) (distinct : b.ids.Nodup) (more : done < b.ids.length)
    (grows : growSection b done ⟨s, w⟩ = (.ok grown, σ)) (links : linkSection k b grown σ = (.ok linked, τ)) :
    ∃ υ, batchSection k b done ⟨s, w⟩ = (sectionResult grown linked, υ) ∧
    SectionDone lost b done s grown.rows.length linked υ.state ∧
      (false ∉ linked → υ = τ) ∧ σ.world.Later υ.world ∧ (w.Ample → ∀ l ∈ linked, l = true) := by
  obtain ⟨t, w₁⟩ := σ
  obtain ⟨u, w₂⟩ := τ
  obtain ⟨first, grownRows, prepared, _⟩ := (growSection_ends sound kind fits more).1 grown _ grows
  dsimp only at prepared
  obtain ⟨g, at_, reserved, nodes, levels⟩ := grownRows.chain.graph sound kind
  have length := grownRows.chain.length_eq
  have params : h.params.Valid := by
    rw [(sound.fits kind).2.params]
    exact (sound.fits kind).2.valid
  have keys : ((b.between done (done + grown.rows.length)).map Prod.fst).Nodup := by
    rw [keys_between grownRows.inside]
    exact distinct.sublist ((List.take_sublist _ _).trans (List.drop_sublist _ _))
  obtain ⟨later, size, ample, g', state, same, rests⟩ := (linkSection_ends at_ reserved params first
    (nodes.trans (grownRows.chain.size.trans (by rw [← length]))) (nodes.trans_le prepared)).1 linked _ links
  dsimp only at state later
  have enough : w.Ample → ∀ l ∈ linked, l = true := fun enough => ample (grownRows.later.ample enough)
  have linkedCoupled : u.Coupled := by
    rw [state]
    exact coupled_relinked grownRows.coupled at_ nodes same rests
  have finished (v : CollectionState) (taken : AllTakenBack u grown.rows linked v) :
      SectionDone lost b done s grown.rows.length linked v :=
    sectionDone_of grownRows keys size kind state (levels.trans (by rw [← length])) same rests taken
  have start : batchSection k b done ⟨s, w⟩ = (do
      if linked.contains false then abandonRows grown.first grown.rows linked
      if grown.stop = some .threw then Effect.leave .threw
      else if linked.contains false then Effect.leave .threw
      else match grown.stop with
        | some stop => Effect.leave stop
        | none => return (grown.rows.length, linked.count true) : Op (Nat × Nat)) ⟨u, w₂⟩ :=
    (bind_of_ok grows).trans (bind_of_ok links)
  rw [start]
  by_cases failed : false ∈ linked
  · have contains : linked.contains false = true := by simpa using failed
    have held (j : Nat) (r : IdMap.Reservation) (fails : Failing grown.rows linked j r) :
        Held u r (grown.first + j) := by
      have here := grownRows.chain.held keys fails.1
      rw [state, first]
      exact ⟨here.maps, here.old⟩
    have distinctRows : (grown.rows.map (·.external)).Nodup := by rw [grownRows.chain.keys]; exact keys
    obtain ⟨_, υ, run, same₃, taken⟩ :=
      (abandonRows_ends (w := w₂) linkedCoupled distinctRows held).returns fun _ _ none => none
    refine ⟨υ, ?_, finished υ.state taken, fun none => absurd failed none, same₃ ▸ later, enough⟩
    rw [contains, sectionResult, if_pos failed]
    refine (bind_of_ok run).trans ?_
    dsimp only
    split <;> rfl
  · have contains : linked.contains false = false := by simpa using failed
    refine ⟨⟨u, w₂⟩, ?_, finished u (allTakenBack_none linkedCoupled failed), fun _ => rfl, later, enough⟩
    rw [contains, sectionResult, if_neg failed, if_neg Bool.false_ne_true, if_neg Bool.false_ne_true]
    cases grown.stop with
    | none => rfl
    | some e =>
      dsimp only
      split
      next threw =>
        cases threw
        rfl
      next => rfl

/-- One section: either all its rows are inserted and linked, or the batch ends here. -/
theorem batchSection_ends {done : Nat} (sound : s.Sound lost) (kind : s.backend = .hnsw h) (fits : Batch.Fits b s)
    (distinct : b.ids.Nodup) (more : done < b.ids.length) :
    Ends (batchSection k b done) ⟨s, w⟩
      (fun result τ => w.Later τ.world ∧ 0 < result.1 ∧ result.2 = result.1 ∧
        SectionDone lost b done s result.1 (List.replicate result.1 true) τ.state)
      (SectionExit lost b done w s) := by
  have growing := growSection_ends (w := w) sound kind fits more
  cases grows : growSection b done ⟨s, w⟩ with
  | mk grew σ =>
    cases grew with
    | error e => exact Ends.of_error grows (.untouched (growing.2 e σ grows))
    | ok grown =>
      obtain ⟨first, grownRows, prepared, progress⟩ := growing.1 grown σ grows
      cases links : linkSection k b grown σ with
      | mk linking τ =>
        cases linking with
        | error e =>
          obtain ⟨g, at_, reserved, nodes, _⟩ := grownRows.chain.graph sound kind
          have params : h.params.Valid := by
            rw [(sound.fits kind).2.params]
            exact (sound.fits kind).2.valid
          obtain ⟨state, later, why⟩ := (linkSection_ends at_ reserved params first
            (nodes.trans (grownRows.chain.size.trans (by rw [← grownRows.chain.length_eq])))
            (nodes.trans_le prepared)).2 e τ links
          exact Ends.of_ok grows (Ends.of_error links (.notLinked grownRows state later why))
        | ok linked =>
          obtain ⟨υ, run, finished, _, later, enough⟩ :=
            batchSection_finished sound kind fits distinct more grows links
          rw [sectionResult] at run
          constructor
          · intro result τ' ran
            rw [run] at ran
            obtain ⟨same, rfl⟩ := Prod.mk.inj ran
            split at same
            · cases same
            next failed =>
              cases stop : grown.stop with
              | some e =>
                rw [stop] at same
                cases same
              | none =>
                rw [stop] at same
                cases same
                have all : linked = List.replicate grown.rows.length true :=
                  List.eq_replicate_iff.mpr ⟨finished.size, fun l member => by
                    cases l with
                    | true => rfl
                    | false => exact absurd member failed⟩
                refine ⟨grownRows.later.trans later, progress stop, ?_, ?_⟩
                · dsimp only
                  rw [all, List.count_replicate_self]
                · dsimp only
                  rw [← all]
                  exact finished
          · intro e τ' ran
            rw [run] at ran
            obtain ⟨same, rfl⟩ := Prod.mk.inj ran
            refine .ended grownRows later finished enough ?_
            split at same
            next failed =>
              cases same
              exact .inl ⟨rfl, .inr failed⟩
            next failed =>
              cases stop : grown.stop with
              | none =>
                rw [stop] at same
                cases same
              | some e' =>
                rw [stop] at same
                cases same
                exact .inr ⟨rfl, failed⟩

theorem Sound.congr {lost' : Nat → Prop} (sound : s.Sound lost) (same : ∀ x, lost' x ↔ lost x) : s.Sound lost' := by
  obtain rfl : lost' = lost := funext fun x => propext (same x)
  exact sound

/-- All rows of the batch from row `done` up to row `m` have been inserted and linked. -/
def LinkedUpTo (lost : Nat → Prop) (b : Batch) (done : Nat) (s : CollectionState) (m : Nat)
    (u : CollectionState) : Prop :=
  done ≤ m ∧ SectionDone lost b done s (m - done) (List.replicate (m - done) true) u

theorem getD_replicate (n i : Nat) : (List.replicate n true).getD i true = true := by
  rw [List.getD_eq_getElem?_getD, List.getElem?_replicate]
  split <;> rfl

theorem SectionDone.size_eq {done count : Nat} {linked : List Bool} {u : CollectionState}
    (finished : SectionDone lost b done s count linked u) : u.vectors.size = s.vectors.size + count := by
  rw [← VectorStore.length_rows, finished.rows, List.length_append, List.length_map,
    VectorStore.length_rows, Batch.between,
    List.length_map, List.length_range', Nat.add_sub_cancel_left]

/-- When nothing failed, nothing is lost. -/
theorem LinkedUpTo.sound {done m : Nat} {u : CollectionState} (linked : LinkedUpTo lost b done s m u)
    (sound : s.Sound lost) : u.Sound lost := by
  refine Sound.congr linked.2.sound fun x => ⟨fun gone => .inl ⟨sound.bounded x gone, gone⟩, ?_⟩
  rintro (⟨_, gone⟩ | ⟨_, failed⟩)
  · exact gone
  · dsimp only at failed
    rw [getD_replicate] at failed
    cases failed

theorem LinkedUpTo.refl {done : Nat} (sound : s.Sound lost) (inside : done ≤ b.ids.length) :
    LinkedUpTo lost b done s done s := by
  refine ⟨Nat.le_refl done, ?_⟩
  rw [Nat.sub_self]
  exact {
    inside := inside
    size := rfl
    sound := by
      refine Sound.congr sound fun x => ⟨?_, fun gone => .inl ⟨sound.bounded x gone, gone⟩⟩
      rintro (⟨_, gone⟩ | ⟨_, failed⟩)
      · exact gone
      · cases failed
    config := rfl
    creator := rfl
    createdUnixMs := rfl
    rows := by rw [Nat.add_zero, Batch.between_self, List.map_nil, List.append_nil]
    labels := by rw [Nat.add_zero, Batch.between_self, List.map_nil, List.append_nil]
    inserted := fun j none => by cases none
    reverted := fun j none => by cases none
    others := fun _ _ => rfl
    graph := fun h kind => ⟨h.graph, kind, (List.append_nil _).symm⟩ }

/-- A section after sections in which nothing failed. -/
theorem SectionDone.after {done m count : Nat} {linked : List Bool} {t u : CollectionState} (sound : s.Sound lost)
    (distinct : b.ids.Nodup) (first : LinkedUpTo lost b done s m t)
    (second : SectionDone lost b m t count linked u) :
    SectionDone lost b done s (m - done + count) (List.replicate (m - done) true ++ linked) u := by
  obtain ⟨low, first⟩ := first
  have inside := second.inside
  have size := first.size_eq
  have shape : b.between done (done + (m - done + count)) = b.between done m ++ b.between m (m + count) := by
    rw [Batch.between_append low (Nat.le_add_right _ _), show done + (m - done + count) = m + count by omega]
  have before : done + (m - done) = m := by omega
  -- the keys of the two parts differ
  have apart {i j : Nat} (low : i < m) (high : m ≤ j) (bound : j < b.ids.length) :
      (b.entry i).1 ≠ (b.entry j).1 := by
    intro same
    simp only [Batch.entry, List.getD_eq_getElem b.ids _ bound,
      List.getD_eq_getElem b.ids _ (low.trans_le high |>.trans bound)] at same
    have one := (List.Nodup.getElem_inj_iff distinct).mp same
    omega
  have member {i j : Nat} {id : ExternalId} (known : id ∈ (b.between i j).map Prod.fst) : ∃ l, i ≤ l ∧ l < j ∧
      id = (b.entry l).1 := by
    obtain ⟨x, in_, rfl⟩ := List.mem_map.mp known
    obtain ⟨l, range, rfl⟩ := List.mem_map.mp in_
    have := List.mem_range'_1.mp range
    exact ⟨l, this.1, by omega, rfl⟩
  have tail {j : Nat} {l : Bool} (at_ : (List.replicate (m - done) true ++ linked)[j]? = some l)
      (high : m - done ≤ j) : linked[j - (m - done)]? = some l ∧ j - (m - done) < count := by
    rw [List.getElem?_append_right (by rw [List.length_replicate]; exact high), List.length_replicate] at at_
    exact ⟨at_, second.size ▸ (List.getElem?_eq_some_iff.mp at_).1⟩
  exact {
    inside := by omega
    size := by rw [List.length_append, List.length_replicate, second.size]
    sound := by
      refine Sound.congr second.sound fun x => ?_
      rw [size]
      constructor
      · rintro (⟨low', gone⟩ | ⟨high, failed⟩)
        · exact .inl ⟨by omega, gone⟩
        · dsimp only at failed
          rcases Nat.lt_or_ge (x - s.vectors.size) (m - done) with early | late
          · rw [List.getD_append _ _ _ _ (by rw [List.length_replicate]; exact early), getD_replicate] at failed
            cases failed
          · rw [List.getD_append_right _ _ _ _ (by rw [List.length_replicate]; exact late),
              List.length_replicate] at failed
            refine .inr ⟨by omega, ?_⟩
            dsimp only
            rwa [show x - (s.vectors.size + (m - done)) = x - s.vectors.size - (m - done) by omega]
      · rintro (⟨low', gone⟩ | ⟨high, failed⟩)
        · exact .inl ⟨sound.bounded x gone, gone⟩
        · dsimp only at failed
          refine .inr ⟨by omega, ?_⟩
          dsimp only
          rw [List.getD_append_right _ _ _ _ (by rw [List.length_replicate]; omega), List.length_replicate,
            show x - s.vectors.size - (m - done) = x - (s.vectors.size + (m - done)) by omega]
          exact failed
    config := second.config.trans first.config
    creator := second.creator.trans first.creator
    createdUnixMs := second.createdUnixMs.trans first.createdUnixMs
    rows := by rw [second.rows, first.rows, before, shape, List.map_append, List.append_assoc]
    labels := by rw [second.labels, first.labels, before, shape, List.map_append, List.append_assoc]
    inserted := by
      intro j at_
      rcases Nat.lt_or_ge j (m - done) with early | late
      · rw [second.others, first.inserted j (by rw [List.getElem?_replicate, if_pos early])]
        intro known
        obtain ⟨l, high, bound, same⟩ := member known
        exact apart (by omega : done + j < m) high (by omega) same
      · obtain ⟨here, _⟩ := tail at_ late
        have found := second.inserted _ here
        rwa [size, show m + (j - (m - done)) = done + j by omega,
          show s.vectors.size + (m - done) + (j - (m - done)) = s.vectors.size + j by omega] at found
    reverted := by
      intro j at_
      rcases Nat.lt_or_ge j (m - done) with early | late
      · rw [List.getElem?_append_left (by rw [List.length_replicate]; exact early), List.getElem?_replicate,
          if_pos early] at at_
        cases at_
      · obtain ⟨here, small⟩ := tail at_ late
        have back := second.reverted _ here
        rw [show m + (j - (m - done)) = done + j by omega] at back
        rw [back, first.others]
        intro known
        obtain ⟨l, _, high, same⟩ := member known
        rw [before] at high
        exact apart high (by omega : m ≤ done + j) (by omega) same.symm
    others := by
      intro id other
      rw [shape, List.map_append, List.mem_append, not_or] at other
      rw [second.others id other.2, first.others id (by rw [before]; exact other.1)]
    graph := by
      intro h kind
      obtain ⟨g, at_, levels⟩ := first.graph h kind
      obtain ⟨g', at', levels'⟩ := second.graph _ at_
      refine ⟨g', at', ?_⟩
      rw [levels', levels, List.append_assoc, ← List.map_append, size, List.range'_append_1] }

theorem LinkedUpTo.trans {done m n : Nat} {t u : CollectionState} (first : LinkedUpTo lost b done s m t)
    (second : LinkedUpTo lost b m t n u) (sound : s.Sound lost) (distinct : b.ids.Nodup) :
    LinkedUpTo lost b done s n u := by
  have both := second.2.after sound distinct first
  have low := first.1
  have high := second.1
  rw [List.replicate_append_replicate, show m - done + (n - m) = n - done by omega] at both
  exact ⟨low.trans high, both⟩

theorem LinkedUpTo.backend {done m : Nat} {u : CollectionState} (linked : LinkedUpTo lost b done s m u)
    (kind : s.backend = .hnsw h) : ∃ g, u.backend = .hnsw { h with graph := g } := by
  obtain ⟨g, at_, _⟩ := linked.2.graph h kind
  exact ⟨g, at_⟩

/-- A batch ends after its last row, or at a section before which nothing failed. -/
theorem batchSections_ends (distinct : b.ids.Nodup) : ∀ {fuel done inserted : Nat} {s : CollectionState} {w : World}
    {h : HnswBackend}, s.Sound lost → s.backend = .hnsw h → Batch.Fits b s → done ≤ b.ids.length →
    b.ids.length ≤ done + fuel →
    Ends (batchSections k b fuel done inserted) ⟨s, w⟩
      (fun n τ => n = inserted + (b.ids.length - done) ∧ w.Later τ.world ∧
        LinkedUpTo lost b done s b.ids.length τ.state)
      fun e τ => ∃ m t w', m < b.ids.length ∧ w.Later w' ∧ LinkedUpTo lost b done s m t ∧
      SectionExit lost b m w' t e τ := by
  intro fuel
  induction fuel with
  | zero =>
    intro done inserted s w h sound kind fits low high
    obtain rfl : done = b.ids.length := by omega
    rw [batchSections, if_neg (Nat.lt_irrefl _)]
    exact Ends.pure ⟨by omega, .refl w, .refl sound low⟩
  | succ fuel ih =>
    intro done inserted s w h sound kind fits low high
    rw [batchSections]
    split
    next more =>
      refine Ends.bind ((batchSection_ends sound kind fits distinct more).mono ?_ ?_)
      · rintro ⟨handled, linked⟩ ⟨t, w₁⟩ ⟨later, progress, same, finished⟩
        dsimp only at later progress same finished ⊢
        have inside := finished.inside
        have up : LinkedUpTo lost b done s (done + handled) t := by
          refine ⟨Nat.le_add_right _ _, ?_⟩
          rw [Nat.add_sub_cancel_left]
          exact finished
        have held := up.sound sound
        obtain ⟨g, kind'⟩ := up.backend kind
        refine (ih held kind' (fits.of_config sound.toCoupled held.toCoupled finished.config) inside
          (by omega)).mono ?_ ?_
        · rintro n τ ⟨count, more', rest⟩
          exact ⟨by omega, later.trans more', up.trans rest sound distinct⟩
        · rintro e τ ⟨m, u, w₂, before, more', rest, exit⟩
          exact ⟨m, u, w₂, before, later.trans more', up.trans rest sound distinct, exit⟩
      · exact fun e τ exit => ⟨done, s, w, more, .refl w, .refl sound low, exit⟩
    next =>
      obtain rfl : done = b.ids.length := by omega
      exact Ends.pure ⟨by omega, .refl w, .refl sound low⟩

/-- How a concurrent batch ends early. -/
def BatchExit (lost : Nat → Prop) (b : Batch) (w : World) (s : CollectionState) (e : Exit) (τ : Session) : Prop :=
  Untouched w none s e τ ∨
    ∃ m t w', m < b.ids.length ∧ w.Later w' ∧ LinkedUpTo lost b 0 s m t ∧ SectionExit lost b m w' t e τ

theorem addBatchConcurrent_ends (distinct : b.ids.Nodup) (sound : s.Sound lost) (kind : s.backend = .hnsw h)
    (fits : Batch.Fits b s) : Ends (addBatchConcurrent k b) ⟨s, w⟩
      (fun n τ => n = b.ids.length ∧ w.Later τ.world ∧ LinkedUpTo lost b 0 s b.ids.length τ.state)
        (BatchExit lost b w s) := by
  refine ends_allocate (fun w' lacked => .inl (untouched_lacked sound.toCoupled lacked)) fun w' spent => ?_
  refine (batchSections_ends distinct sound kind fits (Nat.zero_le _) (by omega)).mono ?_ ?_
  · rintro n τ ⟨count, later, linked⟩
    exact ⟨by omega, spent.later.trans later, linked⟩
  · rintro e τ ⟨m, t, w₁, before, later, linked, exit⟩
    exact .inr ⟨m, t, w₁, before, spent.later.trans later, linked, exit⟩

end Collection
end VectorForge
