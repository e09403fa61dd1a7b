import VectorForge.Collection.FlatQueries
import VectorForge.Collection.QueryBatch
import VectorForge.Hnsw.QueryBeam

/-! What a query replies, whatever its scratch memory was used for and however much memory is left, and
that it makes no difference how many more results than rows it asks for. -/

namespace VectorForge
open Effect

namespace Collection
open Op CollectionState
variable {k : KernelTable} {α β : Type} {s : CollectionState} {lost : Nat → Prop} {p : Op α} {f : α → Op β}
  {a : α} {e : Status}
  {leased : VisitedSet} {view : QueryView} {knobs : SearchKnobs} {query : List F32} {params : SearchParams}

/-- Unless memory runs out, the operation replies `r`; and it changes nothing. -/
def Replies (p : Op α) (s : CollectionState) (r : Result α) : Prop := ∀ w : World, ∃ w',
  p ⟨s, w⟩ = (r.mapError .status, ⟨s, w'⟩) ∧ w.Spent w' ∨ p ⟨s, w⟩ = (.error .threw, ⟨s, w'⟩) ∧ w.Lacked w'

namespace Replies

theorem lift (r : Result α) : Replies (Op.lift r) s r := by
  intro w
  refine ⟨w, .inl ⟨?_, .refl w⟩⟩
  cases r <;> rfl

theorem pure (a : α) : Replies (Pure.pure a : Op α) s (.ok a) := fun w => ⟨w, .inl ⟨rfl, .refl w⟩⟩

theorem state : Replies Op.state s (.ok s) := fun w => ⟨w, .inl ⟨rfl, .refl w⟩⟩

theorem allocate : Replies Op.allocate s (.ok ()) := by
  intro w
  cases enough : w.memory.headD true with
  | true => exact ⟨_, .inl ⟨if_pos enough, w.spent_tail⟩⟩
  | false => exact ⟨_, .inr ⟨if_neg (by rw [enough]; exact Bool.false_ne_true), World.lacked_tail enough⟩⟩

theorem bind {r : Result β} (first : Replies p s (.ok a)) (rest : Replies (f a) s r) : Replies (p >>= f) s r := by
  intro w
  obtain ⟨w₁, ⟨run, spent⟩ | ⟨run, lacked⟩⟩ := first w
  · obtain ⟨w₂, ⟨run', spent'⟩ | ⟨run', lacked⟩⟩ := rest w₁
    · exact ⟨w₂, .inl ⟨(bind_of_ok run).trans run', spent.trans spent'⟩⟩
    · exact ⟨w₂, .inr ⟨(bind_of_ok run).trans run', spent.lacked lacked⟩⟩
  · exact ⟨w₁, .inr ⟨bind_of_error run, lacked⟩⟩

theorem refuses (first : Replies p s (.error e)) : Replies (p >>= f) s (.error e) := by
  intro w
  obtain ⟨w₁, ⟨run, spent⟩ | ⟨run, lacked⟩⟩ := first w
  · exact ⟨w₁, .inl ⟨bind_of_error run, spent⟩⟩
  · exact ⟨w₁, .inr ⟨bind_of_error run, lacked⟩⟩

/-- Going on after a reply that may be an error. -/
theorem andThen {r : Result α} {g : α → Result β} (first : Replies p s r)
    (rest : ∀ a, r = .ok a → Replies (f a) s (g a)) : Replies (p >>= f) s (r >>= g) := by
  cases r with
  | error e => exact first.refuses
  | ok a => exact first.bind (rest a rfl)

theorem of_eq {q : Op α} {r : Result α} (replies : Replies p s r)
    (same : ∀ w, q ⟨s, w⟩ = p ⟨s, w⟩) : Replies q s r :=
  fun w => by rw [same w]; exact replies w

/-- What is returned is what is replied. -/
theorem returned {r : Result α} (replies : Replies p s r) {w : World} {τ : Session}
    (run : p ⟨s, w⟩ = (.ok a, τ)) : r = .ok a := by
  obtain ⟨w', ⟨run', _⟩ | ⟨run', _⟩⟩ := replies w
  · rw [run] at run'
    cases r with
    | error e => cases run'
    | ok b => cases run'; rfl
  · cases run.symm.trans run'

theorem ample {r : Result α} (replies : Replies p s r) {w : World} (ample : w.Ample) :
    p ⟨s, w⟩ = (r.mapError .status, ⟨s, w⟩) := by
  obtain ⟨w', ⟨run, spent⟩ | ⟨_, lacked⟩⟩ := replies w
  · rw [run, spent.ample ample]
  · exact absurd ample lacked.2

end Replies

section Backend

/-- What the index finds. -/
def found (k : KernelTable) (s : CollectionState) (view : QueryView) (knobs : SearchKnobs) : List ScoredId :=
  match s.backend with
  | .flat => FlatBackend.search k s.config.metric s.normalized view s.vectors s.deleted knobs
  | .hnsw b => ((GraphProg.value b.graph
    ((queryContext k s b view).searchWith (hiddenRows s) {} 0 b.graph.nodeCount knobs)).getD none).getD []

theorem self_scores (ctx : HnswContext) (n : Nat) : ctx.Scores n 0 ctx := ⟨rfl, rfl, fun _ _ => rfl⟩

variable (k) in
theorem value_found {b : HnswBackend} (kind : s.backend = .hnsw b) (sound : s.Sound lost) (some : 1 ≤ knobs.k)
    (view : QueryView) :
    GraphProg.value b.graph ((queryContext k s b view).searchWith (hiddenRows s) {} 0 b.graph.nodeCount knobs) =
      .some (.some (found k s view knobs)) ∧ (found k s view knobs).length ≤ knobs.k := by
  have mirror : Mirror b.graph.nodeCount b.graph b.graph := (sound.rests b kind).mirror (.refl _)
  rw [found, kind]
  dsimp only
  cases entry : b.graph.entry.valid with
  | false =>
    rw [HnswContext.value_searchWith_empty entry]
    exact ⟨rfl, Nat.zero_le _⟩
  | true =>
    obtain ⟨_, last, _, _, _, value⟩ :=
      HnswContext.value_searchWith (queryContext k s b view) (hiddenRows s) 0 knobs mirror entry
      VisitedSet.settled_empty some
    rw [value]
    exact ⟨rfl, List.length_take_le _ _⟩

variable (view) in
theorem backendSearch_replies (batched : k.Batched) (sound : s.Sound lost) (settled : leased.Settled)
    (some : 1 ≤ knobs.k) : Replies (backendSearch k leased view knobs) s (.ok (found k s view knobs)) ∧
      ∀ c ∈ found k s view knobs, c.id < s.vectors.size := by
  cases kind : s.backend with
  | flat =>
    rw [found, kind]
    exact ⟨(Replies.pure _).of_eq fun _ => backendSearch_flat kind some,
      fun c member => FlatBackend.mem_search batched sound.store member⟩
  | hnsw b =>
    have mirror : Mirror b.graph.nodeCount b.graph b.graph := (sound.rests b kind).mirror (.refl _)
    have nodes : b.graph.nodeCount = s.vectors.size := (sound.fits kind).2.nodes
    have reference := HnswContext.run_of_value (i := 0) (value_found k kind sound some view).1
      (show ({} : World).Ample from rfl)
    have search (w : World) : ∃ outcome τ,
        ((queryContext k s b view).searchWith (hiddenRows s) leased 0 b.graph.nodeCount knobs).run (answerIn 0)
        ({ graph := b.graph }, w) = .some (outcome, τ) ∧ (outcome = none ∧ w.Lacked τ.2 ∨
          outcome = .some (found k s view knobs) ∧ w.Spent τ.2 ∧ ∀ c ∈ found k s view knobs,
          c.id < b.graph.nodeCount) := by
      obtain ⟨outcome, τ, run, ending⟩ :=
        HnswContext.searchWith_rereads (s := { graph := b.graph }) (t := { graph := b.graph })
        (i := 0) (j := 0) (w := w) (v := {}) (hiddenRows s) mirror (self_scores _ _) rfl settled
        VisitedSet.settled_empty some
      refine ⟨outcome, τ, run, ?_⟩
      rcases ending with ⟨failed, _, lacked⟩ | ⟨other, υ, again, ⟨results, rfl, rfl, inside⟩, _, spent, _⟩
      · exact .inl ⟨failed, lacked⟩
      · cases reference.symm.trans again
        exact .inr ⟨rfl, spent, inside⟩
    constructor
    · refine Replies.of_eq (p := hnswSearch k leased b view knobs) ?_ fun _ => backendSearch_hnsw kind some
      refine Replies.allocate.bind fun w => ?_
      obtain ⟨outcome, ⟨shared, w'⟩, run, ending⟩ := search w
      rcases ending with ⟨rfl, lacked⟩ | ⟨rfl, spent, _⟩
      · refine ⟨w', .inr ⟨?_, lacked⟩⟩
        refine (bind_of_ok (p := (Effect.get : Op Session)) rfl).trans ?_
        rw [run]
        rfl
      · refine ⟨w', .inl ⟨?_, spent⟩⟩
        refine (bind_of_ok (p := (Effect.get : Op Session)) rfl).trans ?_
        rw [run]
        rfl
    · obtain ⟨outcome, τ, run, ending⟩ := search {}
      rcases ending with ⟨_, lacked⟩ | ⟨_, _, inside⟩
      · exact absurd rfl lacked.2
      · exact fun c member => nodes ▸ inside c member

/-- The clamp of `knobs_for` is not seen. -/
theorem found_clamped (batched : k.Batched) (sound : s.Sound lost) (view : QueryView) (some : 1 ≤ params.k.toNat) :
    found k s view (knobsFor params s.vectors.size) =
      found k s view { k := params.k.toNat, ef := (params.efSearch.getD 0).toNat } := by
  cases kind : s.backend with
  | flat =>
    rw [found, found, kind]
    exact flat_clamped batched sound view { k := params.k.toNat, ef := (params.efSearch.getD 0).toNat }
  | hnsw b =>
    have mirror : Mirror b.graph.nodeCount b.graph b.graph := (sound.rests b kind).mirror (.refl _)
    have nodes : b.graph.nodeCount = s.vectors.size := (sound.fits kind).2.nodes
    have clamped := HnswContext.value_searchWith_clamped (queryContext k s b view) (hiddenRows s) 0
      { k := params.k.toNat, ef := (params.efSearch.getD 0).toNat } mirror VisitedSet.settled_empty some
    rw [nodes] at clamped
    rw [found, found, kind]
    dsimp only
    rw [nodes]
    exact congrArg (fun value => (Option.getD value none).getD []) clamped

theorem length_found (batched : k.Batched) (sound : s.Sound lost) (some : 1 ≤ knobs.k) :
    (found k s view knobs).length ≤ knobs.k := by
  cases kind : s.backend with
  | flat =>
    rw [found, kind]
    exact FlatBackend.length_search batched sound.store
  | hnsw b => exact (value_found k kind sound some view).2

/-- The neighbours that a validated query has. -/
def neighbors (k : KernelTable) (s : CollectionState) (view : QueryView) (knobs : SearchKnobs) : List Neighbor :=
  labelled s (found k s view knobs)

theorem length_neighbors (batched : k.Batched) (sound : s.Sound lost) (some : 1 ≤ knobs.k) :
    (neighbors k s view knobs).length ≤ knobs.k := by
  rw [neighbors, labelled, List.length_map]
  exact length_found batched sound some

theorem runQuery_replies (batched : k.Batched) (sound : s.Sound lost) (settled : leased.Settled)
    (some : 1 ≤ knobs.k) : Replies (runQuery k leased view knobs) s (.ok (neighbors k s view knobs)) := by
  obtain ⟨replies, inside⟩ := backendSearch_replies view batched sound settled some
  have labels : relabel s.ids.labels (found k s view knobs) = .ok (neighbors k s view knobs) :=
    relabel_eq fun c member => sound.labels ▸ inside c member
  refine replies.bind (Replies.state.bind ?_)
  rw [labels]
  exact Replies.pure _

end Backend

section Entries

/-- What `search` replies. -/
def answer (k : KernelTable) (s : CollectionState) (query : List F32) (params : SearchParams) :
    Result (List Neighbor) := do
  params.validate
  let view ← prepareQuery k s query
  return neighbors k s view (knobsFor params s.vectors.size)

variable (query params) in
theorem search_replies (batched : k.Batched) (sound : s.Sound lost) (settled : leased.Settled) :
    Replies (search k leased query params) s (answer k s query params) := by
  refine (Replies.lift params.validate).andThen fun _ valid => Replies.state.bind ?_
  refine (Replies.lift (prepareQuery k s query)).andThen fun view _ => Replies.allocate.bind ?_
  refine (runQuery_replies batched sound settled (knobsFor_some valid s.vectors.size)).of_eq fun w => ?_
  -- the state that the labels are read from is the one that was searched
  obtain ⟨found, _⟩ := backendSearch_replies view batched sound settled (knobsFor_some valid s.vectors.size)
  obtain ⟨w', ⟨run, _⟩ | ⟨run, _⟩⟩ := found w
  · rw [runQuery]
    refine (bind_of_ok run).trans (Eq.trans ?_ (bind_of_ok run).symm)
    rfl
  · rw [runQuery]
    refine (bind_of_error run).trans ?_
    exact (bind_of_error run).symm

theorem searchInto_replies (batched : k.Batched) (sound : s.Sound lost) (settled : leased.Settled)
    {out : List Neighbor} (room : params.k.toNat ≤ out.length) : Replies (searchInto k leased query params out) s
      ((answer k s query params).map fun found => (found.length, found ++ out.drop found.length)) := by
  have same : (answer k s query params).map (fun found => (found.length, found ++ out.drop found.length)) = (do
      params.validate
      let view ← prepareQuery k s query
      return ((neighbors k s view (knobsFor params s.vectors.size)).length,
        neighbors k s view (knobsFor params s.vectors.size) ++
        out.drop (neighbors k s view (knobsFor params s.vectors.size)).length)) := by
    rw [answer]
    cases params.validate with
    | error e => rfl
    | ok u =>
      cases prepareQuery k s query with
      | error e => rfl
      | ok view => rfl
  rw [same]
  refine (Replies.lift params.validate).andThen fun _ valid => ?_
  rw [if_neg (by omega)]
  refine Replies.state.bind ((Replies.lift (prepareQuery k s query)).andThen fun view _ => ?_)
  exact (runQuery_replies batched sound settled (knobsFor_some valid s.vectors.size)).bind (Replies.pure _)

end Entries
end Collection
end VectorForge
