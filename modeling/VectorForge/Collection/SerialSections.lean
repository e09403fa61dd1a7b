import VectorForge.Collection.Runs

/-! A section whose nodes are linked one after the other leaves what adding its rows would have
left: `link` of a reserved node does what `add` does on a graph that ends before it. -/

namespace VectorForge
open Effect
open HnswIo (SameGraph)
open IndexReader (SameState)

/-- A graph may be replaced by one that holds the same. -/
theorem Mirror.of_same {n : Nat} {g h k : HnswGraph} (mirror : Mirror n g h)
    (same : SameGraph k h) : Mirror n g k where
  m := mirror.m.trans same.shape.m.symm
  left := mirror.left
  right := mirror.right.trans same.shape.nodeCount_eq.ge
  levels := fun c node => (mirror.levels c node).trans (same.shape.level_eq c).symm
  links := by
    intro c l node high
    rw [mirror.links c l node high, same.links c l (node.trans_le mirror.right)
      (high.trans (mirror.levels c node).le)]
  counts := mirror.counts
  closed := mirror.closed
  valid := mirror.valid.trans same.valid.symm
  entry := by
    intro valid
    obtain ⟨equal, inside, level⟩ := mirror.entry valid
    exact ⟨equal.trans (same.entry (mirror.valid ▸ valid)).symm, inside, level⟩

/-- New nodes behind the mirrored ones do not matter. -/
theorem Mirror.addNode {n level : Nat} {g g' h : HnswGraph} (mirror : Mirror n g h)
    (run : g.addNode level = .ok g') : Mirror n g' h := by
  have grown := extends_addNode run
  have bound := mirror.left
  exact {
    m := grown.m.trans mirror.m
    left := by
      have := grown.count
      omega
    right := mirror.right
    levels := fun c node => (grown.old c (node.trans_le bound)).trans (mirror.levels c node)
    links := by
      intro c l node high
      rw [grown.links c l (node.trans_le bound)]
      exact mirror.links c l node (high.trans (grown.old c (node.trans_le bound)).le)
    counts := by
      intro c l node high
      rw [grown.links c l (node.trans_le bound), HnswGraph.capacity, grown.m]
      exact mirror.counts c l node (high.trans (grown.old c (node.trans_le bound)).le)
    closed := by
      intro c l v node high member
      rw [grown.links c l (node.trans_le bound)] at member
      obtain ⟨inside, below⟩ := mirror.closed c l v node (high.trans (grown.old c (node.trans_le bound)).le) member
      exact ⟨inside, below.trans (grown.old v (inside.trans_le bound)).ge⟩
    valid := (congrArg HnswGraph.Entry.valid grown.entry).trans mirror.valid
    entry := by
      intro valid
      rw [grown.entry] at valid ⊢
      obtain ⟨same, inside, level⟩ := mirror.entry valid
      exact ⟨same, inside, level.trans (grown.old _ (inside.trans_le bound)).ge⟩ }

namespace CollectionState
variable {k : KernelTable} {lost : Nat → Prop} {upsert : Bool} {s t u a : CollectionState}
  {x : ExternalId × List F32}
  {xs : List (ExternalId × List F32)} {rs : List IdMap.Reservation} {b c h : HnswBackend}

/-- Two states that differ in nothing but the links between their nodes. -/
structure Twin (t a : CollectionState) : Prop where
  config : t.config = a.config
  normalized : t.normalized = a.normalized
  creator : t.creator = a.creator
  createdUnixMs : t.createdUnixMs = a.createdUnixMs
  rows : t.vectors.rows = a.vectors.rows
  ids : t.ids = a.ids
  marks : ∀ i, t.deleted.test i = a.deleted.test i
  count : t.deleted.count = a.deleted.count
  backend : ∃ b c, t.backend = .hnsw b ∧ a.backend = .hnsw c ∧ b.params = c.params ∧ b.options = c.options ∧
    HnswGraph.SameShape b.graph c.graph

theorem Twin.size (twin : Twin t a) : t.vectors.size = a.vectors.size := by
  rw [← VectorStore.length_rows, twin.rows, VectorStore.length_rows]

theorem Twin.keyRefusal (twin : Twin t a) (coupled : t.Coupled) (coupled' : a.Coupled) {external : ExternalId} :
    t.keyRefusal external upsert = a.keyRefusal external upsert := by
  obtain ⟨b, c, kind, kind', params, _, shape⟩ := twin.backend
  have backend : t.indexRefusal = a.indexRefusal := by
    simp only [indexRefusal, kind, kind', params, twin.size]
    rcases HnswGraph.addNode_congr shape (c.params.levels.levelFor a.vectors.size) with
      ⟨e, left, right⟩ | ⟨g, g', left, right, _⟩
    · rw [left, right]
    · rw [left, right]
  rw [CollectionState.keyRefusal, CollectionState.keyRefusal, rowRefusal, rowRefusal, coupled.limit,
    coupled'.limit, twin.size,
    backend, twin.ids]

/-- A row that is not refused can be added. -/
theorem RowAdded.exists_of (sound : s.Sound lost) (allowed : s.keyRefusal x.1 upsert = none)
    (length : x.2.length = s.vectors.dim) : ∃ t, RowAdded k lost upsert s x.1 x.2 t := by
  have ample : ({} : World).Ample := rfl
  obtain ⟨_, τ, _, _, added⟩ := (Collection.linkedRow_ends (k := k) (w := {}) sound length).returns (by
    rintro e τ untouched
    rcases untouched.reason with ⟨_, lacks⟩ | ⟨status, _, refused⟩
    · exact lacks ample
    · rw [allowed] at refused
      cases refused)
  exact ⟨τ.state, added⟩

/-- The rows of a grown section can be added instead. -/
theorem RowsReserved.added (chain : RowsReserved upsert s xs rs t) (sound : s.Sound lost)
    (kind : s.backend = .hnsw h) (lengths : ∀ x ∈ xs, x.2.length = s.vectors.dim) :
    ∃ a, a.Sound lost ∧ RowsAdded k lost upsert s xs a ∧ Twin t a := by
  induction chain with
  | nil kept =>
    refine ⟨s, sound, .nil (.refl s), ?_⟩
    exact ⟨kept.config, kept.normalized, kept.creator, kept.createdUnixMs, kept.rows, kept.ids,
      kept.marks, kept.count, h, h,
      kept.backend.trans kind, kind, rfl, rfl, .refl _⟩
  | @snoc xs rs x r t u first coupled last ih =>
    obtain ⟨a, held, added, twin⟩ := ih fun y member => lengths y (List.mem_append_left _ member)
    have dim : a.vectors.dim = s.vectors.dim := by rw [held.dim, added.config, sound.dim]
    have allowed : a.keyRefusal x.1 upsert = none :=
      (twin.keyRefusal coupled held.toCoupled).symm.trans last.allowed
    have length : x.2.length = a.vectors.dim :=
      (lengths x (List.mem_append_right _ (List.mem_singleton_self x))).trans dim.symm
    obtain ⟨a', one⟩ := RowAdded.exists_of (k := k) held allowed length
    refine ⟨a', one.sound, added.append sound held.toCoupled (.single one), ?_⟩
    obtain ⟨_, reserves⟩ := last.reserves
    obtain ⟨b, g, backend, grows, inserted⟩ := last.inserted
    obtain ⟨_, r', backend', reserves', links, inserted'⟩ := one.inserted
    rw [← twin.ids, reserves] at reserves'
    cases reserves'
    obtain ⟨b₀, c, kindT, kindA, params, options, shape⟩ := twin.backend
    cases backend.symm.trans kindT
    rw [LinksRow, kindA] at links
    obtain ⟨c', rfl, linked⟩ := links
    refine ⟨?_, ?_, ?_, ?_, ?_, ?_, ?_, ?_, { b with graph := g }, c', inserted.backend,
      inserted'.backend, ?_, ?_, ?_⟩
    · rw [inserted.config, inserted'.config, twin.config]
    · rw [inserted.normalized, inserted'.normalized, twin.normalized]
    · rw [inserted.creator, inserted'.creator, twin.creator]
    · rw [inserted.createdUnixMs, inserted'.createdUnixMs, twin.createdUnixMs]
    · rw [inserted.rows, inserted'.rows, twin.rows]
    · rw [inserted.ids, inserted'.ids, twin.ids]
    · intro i
      rw [inserted.marks, inserted'.marks, twin.marks, twin.size]
    · rw [inserted.count, inserted'.count, twin.count]
    · exact params.trans linked.params.symm
    · exact options.trans linked.options.symm
    · obtain ⟨g', grows', shape'⟩ := linked.shape
      rw [← params, ← shape.nodeCount_eq] at grows'
      rcases HnswGraph.addNode_congr shape (b.params.levels.levelFor b.graph.nodeCount) with
        ⟨e, failed, _⟩ | ⟨g₁, g₂, left, right, after⟩
      · rw [grows] at failed
        cases failed
      · cases grows.symm.trans left
        cases grows'.symm.trans right
        exact after.trans shape'.symm

/-- The grown graph mirrors the graph before. -/
theorem RowsReserved.mirror (chain : RowsReserved upsert s xs rs t) (sound : s.Sound lost)
    (kind : s.backend = .hnsw h) :
    ∃ g, t.backend = .hnsw { h with graph := g } ∧ Mirror s.vectors.size g h.graph := by
  induction chain with
  | nil kept =>
    refine ⟨h.graph, kept.backend.trans kind, ?_⟩
    rw [← (sound.fits kind).2.nodes]
    exact (sound.rests h kind).mirror (.refl _)
  | snoc _ _ last ih =>
    obtain ⟨g, at_, mirror⟩ := ih
    obtain ⟨b, g', kind', grows, inserted⟩ := last.inserted
    cases at_.symm.trans kind'
    exact ⟨g', inserted.backend, mirror.addNode grows⟩

/-- How a section is linked: what is read besides the graph agrees with what adding the rows one by
one reads. -/
structure Reads (k : KernelTable) (mode : ScoreMode) (rows : List (List F32)) (ctx : HnswContext) : Prop where
  wide : 1 ≤ ctx.params.efConstruction.toNat
  agrees : ∀ (b : HnswBackend) (n : Nat) (earlier : List (List F32)), b.params = ctx.params →
    b.options = ctx.options →
    n < rows.length → (∀ i, i ≤ n → rows.getD i [] = earlier.getD i []) → ctx.Agrees n (rowContext k mode b earlier)

/-- A graph that is about to be linked from node `n` on. -/
structure Unlinked (params : HnswParams) (n count : Nat) (shared : SharedGraph) : Prop where
  free : ∀ k, shared.stripes k = none
  top : shared.top = none
  m : shared.graph.m = params.M.toNat
  nodes : shared.graph.nodeCount = n + count
  levels : ∀ x, n ≤ x → x < n + count → shared.graph.level x = params.levels.levelFor x
  empty : ∀ x l, n ≤ x → x < n + count → shared.graph.links x l = []

theorem linkRange_serial {ctx : HnswContext} {mode : ScoreMode} {visited : Nat → VisitedSet}
    {w : World} (ample : w.Ample)
    (added : RowsAdded k lost upsert a xs u) : ∀ {shared : SharedGraph} {b : HnswBackend}, a.Sound lost →
    a.backend = .hnsw b →
    b.params = ctx.params → b.options = ctx.options → a.mode = mode → Reads k mode u.vectors.rows ctx →
    Unlinked ctx.params a.vectors.size xs.length shared → Mirror a.vectors.size shared.graph b.graph →
    (∀ i, HnswContext.Covers shared.graph.nodeCount (visited i)) →
    ∃ shared' c, Collection.linkRange ctx visited xs.length a.vectors.size (shared, w) =
        some (List.replicate xs.length true, shared', w) ∧
      u.backend = .hnsw c ∧ Mirror (a.vectors.size + xs.length) shared'.graph c.graph ∧
      HnswGraph.SameShape shared'.graph shared.graph := by
  induction added with
  | nil kept =>
    intro shared b sound kind params options scores reads unlinked mirror covers
    exact ⟨shared, b, rfl, kept.backend.trans kind, mirror, .refl _⟩
  | @cons a t u x xs one rest ih =>
    intro shared b sound kind params options scores reads unlinked mirror covers
    have nodes : b.graph.nodeCount = a.vectors.size := (sound.fits kind).2.nodes
    obtain ⟨_, _, backend, _, links, inserted⟩ := one.inserted
    rw [LinksRow, kind] at links
    obtain ⟨c, rfl, linked⟩ := links
    obtain ⟨g, known, same⟩ := linked.graph
    obtain ⟨_, s', w', runAdd, rfl⟩ := addedGraph_some known
    obtain ⟨g', grows, _⟩ := linked.shape
    have size : t.vectors.size = a.vectors.size + 1 := inserted.size
    have rows : u.vectors.rows = (a.vectors.rows ++ [x.2]) ++ xs.map Prod.snd := by rw [rest.rows, inserted.rows]
    have length : (a.vectors.rows ++ [x.2]).length = a.vectors.size + 1 := by
      rw [List.length_append, VectorStore.length_rows]
      rfl
    have agrees : ctx.Agrees a.vectors.size (rowContext k mode b (a.vectors.rows ++ [x.2])) := by
      refine reads.agrees b _ _ params options ?_ ?_
      · rw [rows, List.length_append, length]
        omega
      · intro i low
        rw [rows, List.getD_append _ _ _ _ (by omega)]
    have peers : HnswContext.Peers a.vectors.size ctx (rowContext k mode b (a.vectors.rows ++ [x.2])) shared
        { graph := b.graph } :=
      ⟨mirror, agrees, unlinked.m, reads.wide, unlinked.free, fun _ => rfl⟩
    rw [nodes, scores] at runAdd
    rw [nodes, params] at grows
    have total := unlinked.nodes
    rw [List.length_cons] at total
    have left : HnswContext.Covers a.vectors.size (visited a.vectors.size) :=
      ⟨(covers a.vectors.size).size.trans' (by omega), (covers a.vectors.size).settled⟩
    have right := covers_scratch a.vectors.size VisitedSet.settled_empty
    have enough : ({} : World).Ample := rfl
    obtain ⟨r, ⟨shared₁, w₁⟩, runLink, outcome⟩ :=
      HnswContext.link_follows (i := a.vectors.size) (j := a.vectors.size) (w := w)
      peers unlinked.top (unlinked.levels _ (Nat.le_refl _) (by rw [List.length_cons]; omega))
      (fun l => unlinked.empty _ l (Nat.le_refl _)
        (by rw [List.length_cons]; omega)) (by omega) nodes grows left right enough
    rcases outcome with ⟨_, lacked⟩ | ⟨_, ⟨s₁, v₁⟩, runAdd', rfl, rfl, mirror₁, calm, _, spent, rfl⟩
    · exact absurd ample lacked.2
    cases runAdd.symm.trans runAdd'
    obtain rfl := spent.ample ample
    have next : Unlinked ctx.params t.vectors.size xs.length shared₁ := by
      rw [size]
      refine ⟨fun i => ?_, ?_, ?_, ?_, ?_, ?_⟩
      · rw [calm.stripes]
        exact unlinked.free i
      · exact calm.top.trans unlinked.top
      · exact calm.shape.m.trans unlinked.m
      · rw [calm.shape.nodeCount_eq, total]
        omega
      · intro y low high
        rw [calm.shape.level_eq]
        exact unlinked.levels y (by omega) (by rw [List.length_cons]; omega)
      · intro y l low high
        rw [calm.beyond y l low]
        exact unlinked.empty y l (by omega) (by rw [List.length_cons]; omega)
    have still : t.mode = mode := by
      rw [CollectionState.mode, inserted.config, inserted.normalized]
      exact scores
    have grown : Mirror t.vectors.size shared₁.graph c.graph := by
      rw [size]
      exact mirror₁.of_same same
    obtain ⟨shared', c', run, at_, mirror', shape⟩ := ih one.sound inserted.backend (linked.params.trans params)
      (linked.options.trans options) still reads next grown fun i => calm.shape.nodeCount_eq ▸ covers i
    refine ⟨shared', c', ?_, at_, ?_, shape.trans calm.shape⟩
    · rw [List.length_cons, Collection.linkRange, runLink, Option.bind_eq_bind, Option.bind_some, ← size]
      simp only [run, Option.bind_eq_bind, Option.bind_some]
      rfl
    · rw [List.length_cons, ← Nat.add_assoc, Nat.add_right_comm, ← size]
      exact mirror'

theorem Twin.of_kept (twin : Twin u a) (kept : Kept t a) : Twin u t where
  config := twin.config.trans kept.config
  normalized := twin.normalized.trans kept.normalized
  creator := twin.creator.trans kept.creator
  createdUnixMs := twin.createdUnixMs.trans kept.createdUnixMs
  rows := twin.rows.trans kept.rows
  ids := twin.ids.trans kept.ids
  marks := fun i => (twin.marks i).trans (kept.marks i)
  count := twin.count.trans kept.count
  backend := by
    obtain ⟨b, c, left, right, rest⟩ := twin.backend
    exact ⟨b, c, left, kept.backend.symm.trans right, rest⟩

/-- The graphs of the two states hold the same. -/
def GraphsAlike (u a : CollectionState) : Prop := ∀ b c, u.backend = .hnsw b → a.backend = .hnsw c →
    SameGraph b.graph c.graph

/-- The state after a row may be replaced by one that holds the same. -/
theorem RowAdded.swap (one : RowAdded k lost upsert s x.1 x.2 t) (twin : Twin u t) (alike : GraphsAlike u t)
    (sound : u.Sound lost) : RowAdded k lost upsert s x.1 x.2 u where
  sound := sound
  allowed := one.allowed
  inserted := by
    obtain ⟨ids, r, backend, reserves, links, inserted⟩ := one.inserted
    obtain ⟨b, c, left, right, params, options, shape⟩ := twin.backend
    obtain rfl : backend = .hnsw c := inserted.backend.symm.trans right
    refine ⟨ids, r, .hnsw b, reserves, ?_, ?_⟩
    · cases kind : s.backend with
      | flat =>
        rw [LinksRow, kind] at links
        cases links
      | hnsw b₀ =>
        rw [LinksRow, kind] at links ⊢
        obtain ⟨c', same, linked⟩ := links
        cases same
        obtain ⟨g, known, held⟩ := linked.graph
        obtain ⟨g', grows, shape'⟩ := linked.shape
        refine ⟨b, rfl, params.trans linked.params, options.trans linked.options,
          ⟨g, known, (alike b c left right).trans held⟩,
          ⟨g', grows, shape.trans shape'⟩, ?_⟩
        rw [← linked.params, ← params]
        exact sound.rests b left
    · exact ⟨twin.config.trans inserted.config, twin.normalized.trans inserted.normalized,
        twin.creator.trans inserted.creator,
        twin.createdUnixMs.trans inserted.createdUnixMs, twin.rows.trans inserted.rows, twin.ids.trans inserted.ids,
        fun i => (twin.marks i).trans (inserted.marks i), twin.count.trans inserted.count, left⟩

theorem RowsAdded.swap (added : RowsAdded k lost upsert s xs a) (some : xs ≠ []) (twin : Twin u a)
    (alike : GraphsAlike u a) (sound : u.Sound lost) : RowsAdded k lost upsert s xs u := by
  induction added with
  | nil => exact absurd rfl some
  | @cons s t a x xs one rest ih =>
    cases rest with
    | nil kept =>
      have same : GraphsAlike u t := fun b c left right => alike b c left (kept.backend.trans right)
      exact .single (one.swap (twin.of_kept kept) same sound)
    | cons two more => exact .cons one (ih (List.cons_ne_nil _ _) twin alike)

end CollectionState

namespace Collection
open Op CollectionState
variable {k : KernelTable} {s t : CollectionState} {lost : Nat → Prop} {b : Batch} {h : HnswBackend} {w : World}

theorem context_reads {rows : List (List F32)} (coupled : t.Coupled) (kind : t.backend = .hnsw h)
    (same : t.vectors.rows = rows) : Reads k t.mode rows (t.context k h) where
  wide := by
    have fits := coupled.backend
    rw [kind] at fits
    change 1 ≤ h.params.efConstruction.toNat
    rw [fits.2.params]
    exact fits.2.valid.wide
  agrees := by
    intro c n earlier params options inside agree
    rw [← same] at agree
    rw [← same, VectorStore.length_rows] at inside
    exact context_agrees params.symm options.symm rfl inside agree

/-- A section whose nodes are linked by the calling thread, with enough memory. -/
theorem linkSection_serial {done : Nat} {grown : Grown} {w₀ : World} (ample : w.Ample)
    (serial : Batch.parallel b grown.rows.length = false)
    (sound : s.Sound lost) (kind : s.backend = .hnsw h) (fits : Batch.Fits b s) (some : grown.rows.length ≠ 0)
    (begins : grown.first = s.vectors.size) (section_ : GrownRows b done w₀ s grown.rows grown.stop ⟨t, w⟩)
    (prepared : t.vectors.size ≤ grown.prepared) :
    ∃ u, linkSection k b grown ⟨t, w⟩ = (.ok (List.replicate grown.rows.length true), ⟨u, w⟩) ∧ u.Sound lost ∧
      RowsAdded k lost b.upsert s (b.between done (done + grown.rows.length)) u ∧ Twin t u := by
  have length := section_.chain.length_eq
  have inside := section_.inside
  have lengths (x : ExternalId × List F32) (member : x ∈ b.between done (done + grown.rows.length)) :
      x.2.length = s.vectors.dim := by
    obtain ⟨i, range, rfl⟩ := List.mem_map.mp member
    have bound := List.mem_range'_1.mp range
    rw [Batch.length_entry fits.size (by omega), fits.dim]
  obtain ⟨a, heldA, added, twin⟩ := section_.chain.added (k := k) sound kind lengths
  obtain ⟨g, at_, mirror⟩ := section_.chain.mirror sound kind
  obtain ⟨g', at', reserved, nodes, levels⟩ := section_.chain.graph sound kind
  cases at_.symm.trans at'
  have before : h.graph.levels.length = s.vectors.size := (sound.fits kind).2.nodes
  have nodes' : g.nodeCount = s.vectors.size + (b.between done (done + grown.rows.length)).length :=
    nodes.trans section_.chain.size
  have unlinked : Unlinked h.params s.vectors.size (b.between done (done + grown.rows.length)).length
      { graph := g } := by
    refine ⟨fun _ => rfl, rfl, reserved.rest.m, nodes', ?_, ?_⟩
    · intro x low high
      rw [HnswGraph.level, levels, List.getD_append_right _ _ _ _ (by omega), before,
        List.getD_eq_getElem?_getD, List.getElem?_map,
        List.getElem?_range' (by omega), Option.map_some, Option.getD_some, show s.vectors.size + 1 *
        (x - s.vectors.size) = x by omega]
    · intro x l low high
      have none := reserved.empty x l low (nodes'.symm ▸ high)
      exact List.length_eq_zero_iff.mp (HnswGraph.length_links.trans none)
  have covers (i : Nat) : HnswContext.Covers g.nodeCount ((w.scratch i).ensureCapacity grown.prepared) :=
    ⟨(nodes.trans_le prepared).trans (VisitedSet.length_ensureCapacity _ _), (w.settled i).ensureCapacity _⟩
  have mode : s.mode = t.mode := by
    obtain ⟨config, normalized, _⟩ := section_.chain.frame
    rw [CollectionState.mode, CollectionState.mode, config, normalized]
  obtain ⟨shared, c, run, atA, mirror', shape⟩ := linkRange_serial ample added sound kind rfl rfl mode
    (context_reads section_.coupled at_ twin.rows) unlinked mirror covers
  have ran : linkSection k b grown ⟨t, w⟩ =
      (.ok (List.replicate grown.rows.length true), ⟨t.setGraph shared.graph, w⟩) := by
    rw [← length] at run
    rw [linkSection]
    dsimp only
    rw [if_neg some, Effect.bind_of_ok (hnswBackend_run at_), serial, begins, if_neg Bool.false_ne_true,
      Effect.bind_of_ok (show Effect.get _ = (.ok _, _) from rfl)]
    dsimp only
    rw [if_neg Bool.false_ne_true, run]
    rfl
  have params : h.params.Valid := by
    rw [(sound.fits kind).2.params]
    exact (sound.fits kind).2.valid
  obtain ⟨_, _, _, g', state, same, rests⟩ :=
    (linkSection_ends at_ reserved params begins (nodes'.trans (by rw [← length]))
    (nodes.trans_le prepared)).1 _ _ ran
  -- nothing is lost, as all links have succeeded
  have held : Resting h.params lost { graph := g' } := by
    refine rests.congr fun x _ => ⟨fun gone => .inl ⟨sound.bounded x gone, gone⟩, ?_⟩
    rintro (⟨_, gone⟩ | ⟨_, failed⟩)
    · exact gone
    · dsimp only at failed
      rw [getD_replicate] at failed
      cases failed
  dsimp only at state
  rw [setGraph_eq at_] at state ran
  cases state
  have coupled := coupled_relinked section_.coupled at_ nodes same held
  have after : ({ t with backend := .hnsw { h with graph := shared.graph } } : CollectionState).Sound lost :=
    { coupled with
      bounded := by
        intro x gone
        have old := sound.bounded x gone
        change x < t.vectors.size
        rw [section_.chain.size]
        omega
      rests := by
        intro c' same
        cases same
        exact held }
  obtain ⟨b₀, c₀, left, right, params', options', shape₀⟩ := twin.backend
  cases at_.symm.trans left
  cases atA.symm.trans right
  have shape' : HnswGraph.SameShape shared.graph c.graph := shape.trans shape₀
  have twin' : Twin { t with backend := .hnsw { h with graph := shared.graph } } a :=
    { twin with backend := ⟨_, c, rfl, atA, params', options', shape'⟩ }
  refine ⟨_, ran, after, added.swap ?_ twin' ?_ after, ?_⟩
  · exact List.ne_nil_of_length_pos (by omega)
  · intro b' c' first second
    cases first
    cases atA.symm.trans second
    exact mirror'.same shape' ((shape.nodeCount_eq.trans nodes').le)
  · exact ⟨rfl, rfl, rfl, rfl, rfl, rfl, fun _ => rfl, rfl, _, _, at_, rfl, rfl, rfl, shape.symm⟩

theorem Untouched.ample_none {e : Exit} {τ : Session} (untouched : Untouched w none s e τ)
    (ample : w.Ample) : False := by
  rcases untouched.reason with ⟨_, lacks⟩ | ⟨_, _, refused⟩
  · exact lacks ample
  · cases refused

/-- A section without a pool, with enough memory: its rows are added, up to one that is refused. -/
theorem batchSection_serial {done : Nat} (ample : w.Ample) (serial : ∀ count, Batch.parallel b count = false)
    (sound : s.Sound lost) (kind : s.backend = .hnsw h) (fits : Batch.Fits b s) (more : done < b.ids.length) :
    Ends (batchSection k b done) ⟨s, w⟩
      (fun result τ => w.Later τ.world ∧ 0 < result.1 ∧ result.2 = result.1 ∧ done + result.1 ≤ b.ids.length ∧
        τ.state.Sound lost ∧ RowsAdded k lost b.upsert s (b.between done (done + result.1)) τ.state)
      (fun e τ => ∃ j, Stopped k lost b w s done j e τ) := by
  refine Ends.bind ((growSection_ends sound kind fits more).mono ?_ fun _ _ untouched =>
    (untouched.ample_none ample).elim)
  rintro grown ⟨t, w₁⟩ ⟨first, section_, prepared, progress⟩
  dsimp only at prepared
  have enough := section_.later.ample ample
  -- the rows that were grown are added, and the one after them is refused as it was
  obtain ⟨u, ran, held, added, refusal⟩ : ∃ u, linkSection k b grown ⟨t, w₁⟩ =
    (.ok (List.replicate grown.rows.length true), ⟨u, w₁⟩) ∧
      u.Sound lost ∧ RowsAdded k lost b.upsert s (b.between done (done + grown.rows.length)) u ∧
      ∀ external, t.keyRefusal external b.upsert = u.keyRefusal external b.upsert := by
    by_cases some : grown.rows.length = 0
    · have kept : Kept s t := section_.chain.kept (by rw [some, Nat.add_zero, Batch.between_self])
      refine ⟨t, ?_, kept.sound sound section_.coupled, ?_, fun _ => rfl⟩
      · rw [linkSection]
        dsimp only
        rw [if_pos some, some]
        rfl
      · rw [some, Nat.add_zero, Batch.between_self]
        exact .nil kept
    · obtain ⟨u, ran, held, added, twin⟩ :=
        linkSection_serial (k := k) enough (serial _) sound kind fits some first section_ prepared
      exact ⟨u, ran, held, added, fun external => twin.keyRefusal section_.coupled held.toCoupled⟩
  have none : (List.replicate grown.rows.length true).contains false = false := by simp
  have stopped (e : Exit) (stops : grown.stop = some e) : ∃ j, Stopped k lost b w s done j e ⟨u, w₁⟩ := by
    obtain ⟨inside, reason⟩ := section_.stop e stops
    refine ⟨done + grown.rows.length, Nat.le_add_right _ _, inside, u, held, added, section_.later, ?_,
      .refl u, held.toCoupled⟩
    rw [← refusal]
    exact reason
  refine Ends.of_ok ran ?_
  rw [none, if_neg Bool.false_ne_true]
  dsimp only
  split
  next threw => exact Ends.leave (stopped _ threw)
  next =>
    rw [if_neg Bool.false_ne_true]
    cases stop : grown.stop with
    | some e => exact Ends.leave (stopped e stop)
    | none =>
      exact Ends.pure ⟨section_.later, progress stop, List.count_replicate_self, section_.inside, held, added⟩

/-- Sections of any length: all rows from row `done` on are added, or all up to one that is refused. -/
theorem batchSections_serial (serial : ∀ count, Batch.parallel b count = false) :
    ∀ {fuel done inserted : Nat} {s : CollectionState}
    {w : World} {h : HnswBackend}, w.Ample → s.Sound lost → s.backend = .hnsw h → Batch.Fits b s →
    done ≤ b.ids.length →
    b.ids.length ≤ done + fuel → Ends (batchSections k b fuel done inserted) ⟨s, w⟩
      (fun n τ => n = inserted + (b.ids.length - done) ∧ w.Later τ.world ∧ τ.state.Sound lost ∧
        RowsAdded k lost b.upsert s (b.between done b.ids.length) τ.state)
      fun e τ => ∃ j, Stopped k lost b w s done j e τ := by
  intro fuel
  induction fuel with
  | zero =>
    intro done inserted s w h ample sound kind fits low high
    obtain rfl : done = b.ids.length := by omega
    rw [batchSections, if_neg (Nat.lt_irrefl _)]
    refine Ends.pure ⟨by omega, .refl w, sound, ?_⟩
    rw [Batch.between_self]
    exact .nil (.refl s)
  | succ fuel ih =>
    intro done inserted s w h ample sound kind fits low high
    rw [batchSections]
    split
    next more =>
      refine Ends.bind ((batchSection_serial ample serial sound kind fits more).mono ?_ fun _ _ holds => holds)
      rintro ⟨handled, linked⟩ ⟨t, w₁⟩ ⟨later, progress, same, inside, held, added⟩
      dsimp only at later progress same inside held added ⊢
      obtain ⟨h', kind'⟩ := hnsw_of_config held.toCoupled (by rw [added.config]; exact (sound.fits kind).1)
      refine (ih (later.ample ample) held kind' (fits.of_config sound.toCoupled held.toCoupled added.config) inside
        (by omega)).mono ?_ ?_
      · rintro n τ ⟨count, more', last, rest⟩
        refine ⟨by omega, later.trans more', last, ?_⟩
        rw [← Batch.between_append (Nat.le_add_right done handled) inside]
        exact added.append sound held.toCoupled rest
      · rintro e τ ⟨j, stopped⟩
        exact ⟨j, stopped.after added sound held.toCoupled (Nat.le_add_right _ _) later⟩
    next =>
      obtain rfl : done = b.ids.length := by omega
      refine Ends.pure ⟨by omega, .refl w, sound, ?_⟩
      rw [Batch.between_self]
      exact .nil (.refl s)

/-- A batch whose rows are inserted one after the other, in whatever mode. -/
def InOrder (s : CollectionState) (pool : Option ThreadPool) (w : World) : Prop :=
  ¬s.config.Sectioned ∨ (pool = none ∧ w.Ample)

/-- `add_batch` without a pool: its rows are added, up to one that is refused. -/
theorem addBatch_rows (ids : List ExternalId) (rows : List F32) (upsert : Bool) {pool : Option ThreadPool}
    (sound : s.Sound lost) (order : InOrder s pool w) : Ends (addBatch k ids rows upsert pool) ⟨s, w⟩
      (fun n τ => n = ids.length ∧ w.Later τ.world ∧ τ.state.Sound lost ∧
        ∃ data, Admitted k s ids rows upsert data ∧
        RowsAdded k lost upsert s ((batchOf s.config ids data upsert pool).between 0 ids.length) τ.state)
      (fun e τ => Untouched w (batchRefusal k s ids rows upsert) s e τ ∨ ∃ data, Admitted k s ids rows upsert data ∧
        ∃ j, Stopped k lost (batchOf s.config ids data upsert pool) w s 0 j e τ) := by
  refine addBatch_admits sound.toCoupled (fun e τ untouched => .inl untouched) ?_ ?_
  · intro admitted empty
    refine ⟨empty.symm, .refl w, sound, [], admitted, ?_⟩
    rw [empty, Batch.between_self]
    exact .nil (.refl s)
  · intro data t w' admitted later kept coupled
    obtain ⟨fits, _⟩ := admitted.batch pool sound.toCoupled
    have held := kept.sound sound coupled
    have fits' := fits.of_config sound.toCoupled coupled kept.config
    have start : RowsAdded k lost upsert s ((batchOf s.config ids data upsert pool).between 0 0) t := by
      rw [Batch.between_self]
      exact .nil kept
    have inserts : Ends (if s.config.Sectioned then addBatchConcurrent k (batchOf s.config ids data upsert pool)
        else addSlices k (batchOf s.config ids data upsert pool) ids.length 0) ⟨t, w'⟩
        (fun n τ => n = ids.length ∧ w'.Later τ.world ∧ τ.state.Sound lost ∧
          RowsAdded k lost upsert t ((batchOf s.config ids data upsert pool).between 0 ids.length) τ.state)
        (fun e τ => ∃ j, Stopped k lost (batchOf s.config ids data upsert pool) w' t 0 j e τ) := by
      split
      next kind =>
        obtain ⟨rfl, ample⟩ := order.resolve_left (not_not_intro kind)
        have enough := later.ample ample
        obtain ⟨h, backend⟩ := hnsw_of_config coupled (kept.config ▸ kind.1)
        refine ends_allocate (fun w₁ lacked => absurd enough lacked.2) fun w₁ spent => ?_
        refine (batchSections_serial (fun _ => rfl) (spent.later.ample enough) held backend fits' (Nat.zero_le _)
          (by omega)).mono ?_ ?_
        · rintro n τ ⟨count, more, last, added⟩
          exact ⟨count.trans (by rw [Nat.zero_add]; rfl), spent.later.trans more, last, added⟩
        · rintro e τ ⟨j, stopped⟩
          exact ⟨j, stopped.after (by rw [Batch.between_self]; exact .nil (.refl t)) held coupled
            (Nat.le_refl 0) spent.later⟩
      next => exact addSlices_ends held fits' (Nat.zero_le _) (Nat.le_add_left _ _)
    refine inserts.mono ?_ ?_
    · rintro n τ ⟨count, more, last, added⟩
      exact ⟨count, later.trans more, last, data, admitted, start.append sound coupled added⟩
    · rintro e τ ⟨j, stopped⟩
      exact .inr ⟨data, admitted, j, stopped.after start sound coupled (Nat.le_refl 0) later⟩

end Collection
end VectorForge
