import VectorForge.Collection.LinkFailures
import VectorForge.Collection.Queries
import VectorForge.Hnsw.ConcurrentQuery

/-! Queries of a collection while a concurrent batch links its rows. -/

namespace VectorForge
open Effect

namespace Collection
open Op CollectionState
variable {k : KernelTable} {s : CollectionState} {lost : Nat → Prop} {grown : Grown} {τ : Session} {h : HnswBackend}

/-- A batch on `s` has grown the rows of a section and is about to link them. -/
inductive SectionStart (k : KernelTable) (s : CollectionState) : Grown → Session → Prop where
  | grown {ids : List ExternalId} {rows data : List F32} {upsert : Bool} {pool : Option ThreadPool}
      {t : CollectionState} {w w' : World}
      {done : Nat} {σ τ : Session} {grown : Grown} (sectioned : s.config.Sectioned)
      (admitted : Admitted k s ids rows upsert data) (kept : Kept s t) (coupled : t.Coupled)
      (begins : addBatch k ids rows upsert pool ⟨s, w⟩ =
        batchSections k (batchOf s.config ids data upsert pool) ids.length 0 0 ⟨t, w'⟩)
      (sections : SectionsRun k (batchOf s.config ids data upsert pool) 0 ⟨t, w'⟩ done σ) (more : done < ids.length)
      (grows : growSection (batchOf s.config ids data upsert pool) done σ = (.ok grown, τ)) :
      SectionStart k s grown τ

/-- The graph at the start of a section. -/
structure ReadyToLink (lost : Nat → Prop) (grown : Grown) (t : CollectionState) (h : HnswBackend) : Prop where
  coupled : t.Coupled
  backend : t.backend = .hnsw h
  valid : h.params.Valid
  reserved : Reserved h.params grown.first lost { graph := h.graph }
  nodes : h.graph.nodeCount = t.vectors.size
  prepared : t.vectors.size ≤ grown.prepared

theorem SectionStart.ready (start : SectionStart k s grown τ) (sound : s.Sound lost) :
    ∃ h, ReadyToLink lost grown τ.state h := by
  cases start with
  | @grown ids rows data upsert pool t w w' done σ _ _ sectioned admitted kept coupled begins sections more grows =>
    obtain ⟨before, kind⟩ := hnsw_of_config sound.toCoupled sectioned.1
    obtain ⟨fits, distinct, _⟩ := admitted.batch pool sound.toCoupled
    have held := kept.sound sound coupled
    obtain ⟨up, _⟩ := sections.linked distinct held (kept.backend.trans kind)
      (fits.of_config sound.toCoupled coupled kept.config) (Nat.zero_le _)
    have later := up.sound held
    obtain ⟨g, between⟩ := up.backend (kept.backend.trans kind)
    have fits' := fits.of_config sound.toCoupled later.toCoupled (up.2.config.trans kept.config)
    obtain ⟨first, rowsGrown, prepared, _⟩ := (growSection_ends later between fits' more).1 grown τ grows
    obtain ⟨g', backend, reserved, nodes, _⟩ := rowsGrown.chain.graph later between
    refine ⟨_, rowsGrown.coupled, backend, ?_, ?_, nodes, prepared⟩
    · rw [(sound.fits kind).2.params]
      exact (sound.fits kind).2.valid
    · rw [first]
      exact reserved

/-- A row is hidden exactly when its tombstone is set. -/
theorem hiddenRows_eq {rows : Nat} (tracks : s.deleted.Tracks rows) : hiddenRows s = s.deleted.test := by
  funext id
  rw [hiddenRows]
  cases marked : s.deleted.test id with
  | false => exact Bool.and_false _
  | true =>
    have member : id ∈ s.deleted.marked rows := TombstoneSet.mem_marked.mpr ⟨tracks.below id marked, marked⟩
    have some : s.deleted.count ≠ 0 := by
      rw [tracks.exact]
      exact Finset.card_ne_zero_of_mem member
    rw [TombstoneSet.any, decide_eq_true some]
    rfl

/-- A query with the shared lock, from any context of the pool. -/
structure RunningQuery where
  view : QueryView
  knobs : SearchKnobs
  leased : VisitedSet := {}
  prefetch : Bool := true
  positive : 1 ≤ knobs.k

/-- What `search_with` works with. -/
def RunningQuery.inSection (k : KernelTable) (t : CollectionState) (h : HnswBackend)
    (q : RunningQuery) : SectionQuery where
  ctx := { queryContext k t h q.view with prefetch := q.prefetch }
  hidden := hiddenRows t
  knobs := q.knobs
  leased := q.leased
  positive := q.positive

/-- The links of the section, each on a thread of its own, and all the queries. -/
def sectionThreads (k : KernelTable) (grown : Grown) (τ : Session) (h : HnswBackend)
    (queries : Nat → RunningQuery) :
    SharedGraph × (Nat → GraphProg ThreadResult) :=
  ({ graph := h.graph }, servingPool (τ.state.context k h)
    (fun i => (τ.world.scratch i).ensureCapacity grown.prepared) grown.first
    τ.state.vectors.size fun j => (queries j).inSection k τ.state h)

end Collection

namespace Guarantees
open Collection

/-- While the rows of a section are linked, in whatever order the threads take their steps and whichever of them
run out of memory: queries read only lists that exist and find only nodes there, they never wait and come to an
end, and what they return are distinct live rows in ascending order, each with its own distance. -/
theorem searches_are_sound_while_linking {k : KernelTable} {s : CollectionState} {grown : Grown} {τ : Session}
    (reach : Reachable k s)
    (start : SectionStart k s grown τ) {h : HnswBackend} (kind : τ.state.backend = .hnsw h) (mayFail : Nat → Prop)
    (queries : Nat → RunningQuery) :
    (∀ shared pool, (linkDiscipline h.params mayFail none).Runs (sectionThreads k grown τ h queries)
      (shared, pool) → ∀ j,
      (∀ o next, pool (τ.state.vectors.size + j) = .call o next →
        shared.SoundRead o ∧ ∃ r, shared.Does mayFail (τ.state.vectors.size + j) o r shared) ∧
      ∀ r, pool (τ.state.vectors.size + j) = .done r → ∃ found, r = .found found ∧
        (found = none → mayFail (τ.state.vectors.size + j)) ∧ ∀ results ∈ found,
          HnswContext.SoundAnswers (queryContext k τ.state h (queries j).view) τ.state.deleted.test 0
            τ.state.vectors.size
            (queries j).knobs.k results) ∧
    ∀ c : Nat → SharedGraph × (Nat → GraphProg ThreadResult), c 0 = sectionThreads k grown τ h queries →
      (∀ m, (linkDiscipline h.params mayFail none).Step (c m) (c (m + 1))) →
      ∀ i, ∃ last, ∀ m, last ≤ m → (c m).2 i = (c last).2 i := by
  obtain ⟨⟨lost, sound⟩, _⟩ := reach.sound
  obtain ⟨_, ready⟩ := start.ready sound
  cases ready.backend.symm.trans kind
  have nodes : ({ graph := h.graph } : SharedGraph).graph.nodeCount = τ.state.vectors.size := ready.nodes
  have covers (i : Nat) : h.graph.nodeCount ≤ ((τ.world.scratch i).ensureCapacity grown.prepared).marks.length :=
    (ready.nodes.trans_le ready.prepared).trans (VisitedSet.length_ensureCapacity _ _)
  have all (i : Nat) : WalkOk (SharedGraph.Serves _) h.params mayFail none i
      (servingPool (τ.state.context k h) _ _ _ _ i) _ _ _ :=
    servingPool_ok ready.reserved rfl ready.valid.wide covers
    (fun j => (queries j).inSection k τ.state h) i
  rw [nodes] at all
  have inv := ready.reserved.rest.inv none
  refine ⟨fun shared pool runs j => ?_, fun c begins steps i => Discipline.settles steps i⟩
  obtain ⟨γ, invNow, each⟩ := Discipline.Ok.runs inv all runs.allowing
  have past : ¬τ.state.vectors.size + j < τ.state.vectors.size := by omega
  refine ⟨fun o next at_ => ?_, fun r at_ => ?_⟩
  · have now := each (τ.state.vectors.size + j)
    rw [at_] at now
    have may := now.next_allowed invNow
    have read : shared.SoundRead o :=
      (if_neg past : SharedGraph.Serves _ (τ.state.vectors.size + j) o shared = _) ▸ may
    exact ⟨read, read.enabled⟩
  · have now := each (τ.state.vectors.size + j)
    rw [at_] at now
    obtain ⟨found, same, fails, answers⟩ := now.finished invNow (Nat.le_add_right _ _)
    rw [Nat.add_sub_cancel_left] at answers
    refine ⟨found, same, fails, fun results known => ?_⟩
    have answer := answers results known
    have hidden : ((queries j).inSection k τ.state h).hidden = τ.state.deleted.test :=
      hiddenRows_eq ready.coupled.tracks
    rw [hidden] at answer
    exact ⟨answer.few, answer.shown, answer.scores, answer.distinct, answer.ascending⟩

/-- A query for one row, while the two rows of the first batch are linked. -/
theorem searches_are_sound_while_linking_step : ∃ s grown τ h, SectionStart zeroKernels s grown τ ∧
    τ.state.backend = .hnsw h ∧
    ∀ shared pool, (linkDiscipline h.params (fun _ => False) none).Runs
      (sectionThreads zeroKernels grown τ h fun _ =>
        { view := { data := [F32.zero] }, knobs := { k := 1 }, positive := Nat.le_refl 1 }) (shared, pool) →
      ∀ results, pool (τ.state.vectors.size + 0) = .done (.found (some results)) → results.length ≤ 1 := by
  obtain ⟨s, created⟩ := create_ok 0 (show stepConfig.validate = .ok () by decide)
  have fails := step_links_fail created
  have reach : Reachable zeroKernels s := .created created
  obtain ⟨t, w', done, σ, grown, τ, linked, υ, kept, coupled, more, begins, sections, grows, _, _⟩ := fails.sections
  have start : SectionStart zeroKernels s grown τ :=
    .grown fails.sectioned fails.admitted kept coupled begins sections more grows
  obtain ⟨h, ready⟩ := start.ready (create_sound created).1
  have kind := ready.backend
  refine ⟨s, grown, τ, h, start, kind, fun shared pool runs results at_ => ?_⟩
  have sound := searches_are_sound_while_linking reach start kind (fun _ => False) fun _ =>
    { view := { data := [F32.zero] }, knobs := { k := 1 }, positive := Nat.le_refl 1 }
  obtain ⟨found, same, _, answers⟩ := (sound.1 shared pool runs 0).2 _ at_
  cases same
  exact (answers results rfl).few

end Guarantees
end VectorForge
