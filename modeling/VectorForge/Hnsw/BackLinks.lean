import VectorForge.Hnsw.Relink
import VectorForge.Hnsw.SelectionSpec
import VectorForge.Search.HeapContents

/-! What the back-links of an insertion into a quiet graph make of the lists of one level. -/

namespace VectorForge
namespace HnswContext
variable {ctx : HnswContext} {i id l : Nat} {w : World}

section Sorting

/-- A new key finds its place among ascending candidates. -/
theorem insertKey_ascending {sorted : List ScoredId} {key : ScoredId}
    (ascending : sorted.Pairwise fun a b => candidateLess a b = true)
    (real : Scored (sorted ++ [key])) (distinct : ((sorted ++ [key]).map (·.id)).Nodup) :
    (insertKey sorted key).Pairwise fun a b => candidateLess a b = true := by
  have whole : sorted.rdropWhile (candidateLess key) ++ sorted.rtakeWhile (candidateLess key) = sorted :=
    List.rdropWhile_append_rtakeWhile
  have number (a : ScoredId) (member : a ∈ sorted) : a.distance.isNan = false :=
    real a (List.mem_append_left _ member)
  have keyNumber : key.distance.isNan = false := real key (List.mem_append_right _ List.mem_cons_self)
  rw [← whole, List.pairwise_append] at ascending
  obtain ⟨left, right, across⟩ := ascending
  have beyond (b : ScoredId) (member : b ∈ sorted.rtakeWhile (candidateLess key)) : candidateLess key b = true :=
    List.mem_rtakeWhile_imp member
  -- the last one that stays in front of the key is not above it
  have before (a : ScoredId) (member : a ∈ sorted.rdropWhile (candidateLess key)) : candidateLess a key = true := by
    have some : sorted.rdropWhile (candidateLess key) ≠ [] := List.ne_nil_of_mem member
    have last := List.rdropWhile_last_not (candidateLess key) sorted some
    have inLast : (sorted.rdropWhile (candidateLess key)).getLast some ∈ sorted.rdropWhile (candidateLess key) :=
      List.getLast_mem some
    have below : a.key ≤ ((sorted.rdropWhile (candidateLess key)).getLast some).key :=
      (left.imp fun less => (key_lt_of_candidateLess less).le).rel_getLast_of_rel_getLast_getLast member (le_refl _)
    generalize (sorted.rdropWhile (candidateLess key)).getLast some = greatest at last inLast below
    have inSorted (c : ScoredId) (inside : c ∈ sorted.rdropWhile (candidateLess key)) : c ∈ sorted := by
      rw [← whole]
      exact List.mem_append_left _ inside
    have least : greatest.key ≤ key.key :=
      (candidateLess_eq_false keyNumber (number _ (inSorted _ inLast))).mp (Bool.not_eq_true _ ▸ last)
    rw [candidateLess_iff (number a (inSorted a member)) keyNumber]
    refine lt_of_le_of_ne (below.trans least) fun same => ?_
    rw [List.map_append, List.map_singleton, List.nodup_append] at distinct
    exact distinct.2.2 _ (List.mem_map_of_mem (inSorted a member)) _ List.mem_cons_self (ScoredId.key_inj same)
  rw [insertKey, List.pairwise_append, List.pairwise_cons]
  refine ⟨left, ⟨beyond, right⟩, fun a inA b inB => ?_⟩
  rcases List.mem_cons.mp inB with rfl | late
  · exact before a inA
  · exact across a inA b late

/-- The insertion sort puts distinct candidates in ascending order. -/
theorem insertionSort_ascending {candidates : List ScoredId} (real : Scored candidates)
    (distinct : (candidates.map (·.id)).Nodup) :
    (insertionSort candidates).Pairwise fun a b => candidateLess a b = true := by
  have general : ∀ (rest sorted : List ScoredId), sorted.Pairwise (fun a b => candidateLess a b = true) →
      Scored (sorted ++ rest) →
      ((sorted ++ rest).map (·.id)).Nodup → (rest.foldl insertKey sorted).Pairwise fun a b =>
      candidateLess a b = true := by
    intro rest
    induction rest with
    | nil => exact fun _ ascending _ _ => ascending
    | cons key rest ih =>
      intro sorted ascending real distinct
      have first : sorted ++ key :: rest = (sorted ++ [key]) ++ rest := by
        rw [List.append_assoc, List.singleton_append]
      rw [first] at real distinct
      have moved : (insertKey sorted key ++ rest).Perm ((sorted ++ [key]) ++ rest) :=
        (insertKey_perm sorted key).append_right rest
      have here : ((sorted ++ [key]).map (·.id)).Nodup := distinct.sublist ((List.sublist_append_left _ rest).map _)
      refine ih (insertKey sorted key) (insertKey_ascending ascending
        (fun c member => real c (List.mem_append_left _ member)) here) ?_ ?_
      · exact fun c member => real c (moved.mem_iff.mp member)
      · exact (moved.map _).nodup_iff.mpr distinct
  exact general candidates [] .nil real distinct

end Sorting

section Lists

/-- A list of ids as `shrink_with` rewrites it: the neighbours of `c` are selected anew. -/
def reselected (ctx : HnswContext) (c l : Nat) (ids : List Nat) : List Nat :=
  (NeighborSelect.selectNeighbors (insertionSort (ids.map (ctx.scored c))) (ctx.capacity l) ctx.options.selection
    ctx.options.keepPruned
    ctx.distance).map (·.id)

/-- The list of `c` with one more link: appended where there is room, or else selected anew. -/
def withLink (ctx : HnswContext) (c l : Nat) (list : List Nat) (id : Nat) : List Nat :=
  if list.length < ctx.capacity l then list ++ [id] else ctx.reselected c l (list ++ [id])

/-- Distances do not depend on the direction, as the source relies on. -/
theorem backLinked_eq {c : ScoredId} (scored : c = ctx.scored id c.id)
    (symmetric : ctx.distance c.id id = ctx.distance id c.id)
    (list : List Nat) : (ctx.backLinked c.id l list (seen id c)).1 = ctx.withLink c.id l list id ∧
      ((ctx.backLinked c.id l list (seen id c)).2 = true ↔ id ∈ ctx.withLink c.id l list id) := by
  have same : seen id c = ctx.scored c.id id := by
    rw [seen, HnswContext.scored, symmetric]
    exact congrArg (fun d : ScoredId => ({ distance := d.distance, id } : ScoredId)) scored
  rw [backLinked, withLink, same]
  split
  · exact ⟨rfl, fun _ => List.mem_append_right _ List.mem_cons_self, fun _ => rfl⟩
  · rw [shrunk, reselected, List.map_append, List.map_singleton]
    refine ⟨rfl, ?_⟩
    rw [List.any_eq_true, List.mem_map]
    constructor
    · rintro ⟨x, member, here⟩
      exact ⟨x, member, of_decide_eq_true here⟩
    · rintro ⟨x, member, here⟩
      exact ⟨x, member, decide_eq_true here⟩

/-- A full list stays full. -/
theorem length_reselected {c : Nat} {list : List Nat} (kept : ctx.options.keepPruned = true)
    (full : ctx.capacity l ≤ list.length)
    (real : ∀ x ∈ list ++ [id], (ctx.distance c x).isNan = false) (distinct : (list ++ [id]).Nodup) :
    (ctx.reselected c l (list ++ [id])).length = ctx.capacity l := by
  have perm := insertionSort_perm ((list ++ [id]).map (ctx.scored c))
  have ids : ((list ++ [id]).map (ctx.scored c)).map (·.id) = list ++ [id] := by
    rw [List.map_map]
    exact List.map_id _
  have numbers : Scored ((list ++ [id]).map (ctx.scored c)) := by
    intro x member
    obtain ⟨y, inside, rfl⟩ := List.mem_map.mp member
    exact real y inside
  have nodup : (((list ++ [id]).map (ctx.scored c)).map (·.id)).Nodup := by
    rw [ids]
    exact distinct
  have spec := NeighborSelect.selection_meets_specification
    (insertionSort ((list ++ [id]).map (ctx.scored c))) (ctx.capacity l)
    ctx.options.selection ctx.options.keepPruned ctx.distance (insertionSort_ascending numbers nodup)
    ((perm.map _).nodup_iff.mpr nodup)
  obtain ⟨_, _, _, _, _, length⟩ := spec
  rw [reselected, List.length_map, length (.inl kept), perm.length_eq, List.length_map, List.length_append,
    List.length_singleton]
  omega

end Lists

section Level
variable {s : SharedGraph}

/-- The back-links of one level to nodes that are all different. -/
structure LinkedBack (ctx : HnswContext) (id l : Nat) (chosen : List ScoredId) (a b : HnswGraph)
    (inLinks : Nat) : Prop where
  shape : HnswGraph.SameShape b a
  entry : b.entry = a.entry
  rewritten : ∀ c ∈ chosen, b.links c.id l = (ctx.backLinked c.id l (a.links c.id l) (seen id c)).1
  other : ∀ x k, ¬(k = l ∧ x ∈ chosen.map (·.id)) → b.links x k = a.links x k
  count : inLinks = chosen.countP fun c => (ctx.backLinked c.id l (a.links c.id l) (seen id c)).2

variable (ctx id l) in
theorem backLinks_reaches : ∀ {chosen : List ScoredId} {inLinks : Nat} {s : SharedGraph},
    (chosen.map (·.id)).Nodup →
    (∀ k, s.stripes k = none) → (ctx.backLinks id l chosen inLinks).Reaches (answerIn i) (s, w) fun total s' =>
      s'.2 = w ∧ s'.1.stripes = s.stripes ∧ s'.1.top = s.top ∧ ∃ more, total = inLinks + more ∧
        LinkedBack ctx id l chosen s.graph s'.1.graph more := by
  intro chosen
  induction chosen with
  | nil =>
    intro inLinks s _ _
    exact Prog.Reaches.done ⟨rfl, rfl, rfl, 0, rfl, .refl _, rfl, nofun, fun _ _ _ => rfl, rfl⟩
  | cons c rest ih =>
    intro inLinks s distinct free
    rw [List.map_cons, List.nodup_cons] at distinct
    obtain ⟨apart, distinct⟩ := distinct
    refine Prog.Reaches.bind (backLink_sets id c (free _)) ?_
    rintro kept ⟨s₁, w₁⟩ ⟨rfl, rfl, stripes, top, relinked⟩
    dsimp only at stripes top relinked
    refine (ih distinct (by rw [stripes]; exact free)).mono ?_
    rintro total s₂ ⟨world, stripes₂, top₂, more, rfl, linked⟩
    have away {d : ScoredId} (member : d ∈ rest) : s₁.graph.links d.id l = s.graph.links d.id l :=
      relinked.other d.id l fun same => apart (same.1 ▸ List.mem_map_of_mem member)
    refine ⟨world, stripes₂.trans stripes, top₂.trans top,
      (if (ctx.backLinked c.id l (s.graph.links c.id l) (seen id c)).2 then 1 else 0) + more, ?_,
      linked.shape.trans relinked.shape,
      linked.entry.trans relinked.entry, ?_, ?_, ?_⟩
    · split <;> omega
    · intro d member
      rcases List.mem_cons.mp member with rfl | later
      · rw [linked.other d.id l fun inRest => apart inRest.2, relinked.here]
      · rw [linked.rewritten d later, away later]
    · intro x k outside
      rw [linked.other x k fun inRest => outside ⟨inRest.1, List.mem_cons_of_mem _ inRest.2⟩]
      refine relinked.other x k fun here => outside ⟨here.2, ?_⟩
      rw [here.1]
      exact List.mem_cons_self
    · rw [List.countP_cons, linked.count, Nat.add_comm]
      congr 1
      refine List.countP_congr fun d member => ?_
      rw [away member]

/-- The first candidate with room takes the link, if there is one. -/
structure Repaired (ctx : HnswContext) (id l : Nat) (candidates : List ScoredId) (a b : HnswGraph)
    (found : Bool) : Prop where
  shape : HnswGraph.SameShape b a
  entry : b.entry = a.entry
  took : found = true → ∃ c ∈ candidates, (a.links c.id l).length < ctx.capacity l ∧
    b.links c.id l = a.links c.id l ++ [id] ∧
    ∀ x k, ¬(x = c.id ∧ k = l) → b.links x k = a.links x k
  full : found = false → ∀ x k, b.links x k = a.links x k

variable (ctx id l) in
theorem repairOrphan_reaches : ∀ {candidates : List ScoredId} {s : SharedGraph}, (∀ k, s.stripes k = none) →
    (ctx.repairOrphan id l candidates).Reaches (answerIn i) (s, w) fun found s' =>
      s'.2 = w ∧ s'.1.stripes = s.stripes ∧ s'.1.top = s.top ∧
      Repaired ctx id l candidates s.graph s'.1.graph found := by
  intro candidates
  induction candidates with
  | nil => exact fun _ => Prog.Reaches.done ⟨rfl, rfl, rfl, .refl _, rfl,
    fun took => absurd took Bool.false_ne_true, fun _ _ _ => rfl⟩
  | cons c rest ih =>
    intro s free
    obtain ⟨s₁, stripes, top, relinked, run⟩ := repairStep_run (i := i) (w := w) ctx c.id l
      (fun appended => if appended then .done true else ctx.repairOrphan id l rest) id (free _)
    by_cases room : (s.graph.links c.id l).length < ctx.capacity l
    · rw [decide_eq_true room] at run
      rw [if_pos room] at relinked
      exact ⟨true, (s₁, w), run, rfl, stripes, top, relinked.shape, relinked.entry,
        fun _ => ⟨c, List.mem_cons_self, room, relinked.here, relinked.other⟩, fun none =>
        absurd none.symm Bool.false_ne_true⟩
    · rw [decide_eq_false room] at run
      rw [if_neg room] at relinked
      have same (x k : Nat) : s₁.graph.links x k = s.graph.links x k := by
        by_cases here : x = c.id ∧ k = l
        · rw [here.1, here.2, relinked.here]
        · exact relinked.other x k here
      obtain ⟨found, s₂, run₂, world, stripes₂, top₂, repaired⟩ := ih (by rw [stripes]; exact free)
      refine ⟨found, s₂, run.trans run₂, world, stripes₂.trans stripes, top₂.trans top,
        repaired.shape.trans relinked.shape,
        repaired.entry.trans relinked.entry, fun took => ?_, fun none x k =>
        (repaired.full none x k).trans (same x k)⟩
      obtain ⟨d, member, roomy, appended, others⟩ := repaired.took took
      rw [same] at roomy appended
      exact ⟨d, List.mem_cons_of_mem c member, roomy, appended, fun x k away => (others x k away).trans (same x k)⟩

/-- Among the nodes up to `n` every distance is a number and does not depend on the direction. -/
structure Measures (ctx : HnswContext) (n : Nat) : Prop where
  real : ∀ x y, x ≤ n → y ≤ n → (ctx.distance x y).isNan = false
  symmetric : ∀ x y, x ≤ n → y ≤ n → ctx.distance x y = ctx.distance y x

/-- The candidates of one level, whose lists do not know the new node yet. -/
structure Awaits (ctx : HnswContext) (id : Nat) (layer : Layer) (lists : Nat → List Nat) : Prop where
  chosen : layer.selected ⊆ layer.candidates
  distinct : (layer.selected.map (·.id)).Nodup
  scored : ∀ c ∈ layer.candidates, c = ctx.scored id c.id
  older : ∀ c ∈ layer.candidates, c.id < id ∧ (lists c.id).Nodup ∧ ∀ x ∈ lists c.id, x < id

/-- The lists of one level after the back-links: the chosen neighbours and perhaps one more candidate took the new
link, and `orphaned` says that the new node is on none of them. -/
structure LevelLinked (ctx : HnswContext) (id l : Nat) (layer : Layer) (before after : Nat → List Nat)
    (repair : Option Nat) (orphaned : Bool) : Prop where
  repaired : ∀ x, repair = some x → x ∈ layer.candidates.map (·.id) ∧ x ∉ layer.selected.map (·.id)
  linked : ∀ x, x ∈ layer.selected.map (·.id) ∨ repair = some x → after x = ctx.withLink x l (before x) id
  kept : ∀ x, ¬(x ∈ layer.selected.map (·.id) ∨ repair = some x) → after x = before x
  counted : orphaned = true ↔ ∀ c ∈ layer.candidates, id ∉ after c.id

section Chosen
variable {layer : Layer} {a b : HnswGraph} {inLinks : Nat} (measures : Measures ctx id)
  (awaits : Awaits ctx id layer fun x => a.links x l) (linked : LinkedBack ctx id l layer.selected a b inLinks)

include linked in
theorem LinkedBack.kept {x : Nat} (other : x ∉ layer.selected.map (·.id)) : b.links x l = a.links x l :=
  linked.other x l fun here => other here.2

include measures awaits linked

/-- A chosen neighbour is linked to the new node or not, as its selection says. -/
theorem LinkedBack.withLink {c : ScoredId} (member : c ∈ layer.selected) :
    b.links c.id l = ctx.withLink c.id l (a.links c.id l) id ∧
    ((ctx.backLinked c.id l (a.links c.id l) (seen id c)).2 = true ↔ id ∈ b.links c.id l) := by
  have candidate := awaits.chosen member
  have symmetric := measures.symmetric c.id id (awaits.older c candidate).1.le (le_refl id)
  obtain ⟨list, kept⟩ := backLinked_eq (l := l) (awaits.scored c candidate) symmetric (a.links c.id l)
  rw [linked.rewritten c member, list]
  exact ⟨rfl, kept⟩

/-- Without an in-link every chosen neighbour is full. -/
theorem LinkedBack.full (default : ctx.options.keepPruned = true) (none : inLinks = 0) {c : ScoredId}
    (member : c ∈ layer.selected) : id ∉ b.links c.id l ∧ (b.links c.id l).length = ctx.capacity l := by
  obtain ⟨list, kept⟩ := LinkedBack.withLink measures awaits linked member
  obtain ⟨below, distinct, older⟩ := awaits.older c (awaits.chosen member)
  have missing : id ∉ b.links c.id l := by
    rw [← kept]
    exact List.countP_eq_zero.mp (linked.count.symm.trans none) c member
  refine ⟨missing, ?_⟩
  rw [list, HnswContext.withLink] at missing ⊢
  split at missing
  next => exact absurd (List.mem_append_right _ List.mem_cons_self) missing
  next full =>
    rw [if_neg full]
    have inside (x : Nat) (inList : x ∈ a.links c.id l ++ [id]) : x ≤ id := by
      rcases List.mem_append.mp inList with old | new
      · exact (older x old).le
      · exact (List.mem_singleton.mp new).le
    refine length_reselected default (Nat.le_of_not_lt full)
      (fun x inList => measures.real c.id x below.le (inside x inList)) ?_
    rw [List.nodup_append]
    refine ⟨distinct, List.nodup_singleton id, fun x old y new same => ?_⟩
    have small := older x old
    rw [same, List.mem_singleton.mp new] at small
    exact lt_irrefl _ small

/-- With an in-link nothing has to be repaired. -/
theorem LinkedBack.levelLinked (some : inLinks ≠ 0) :
    LevelLinked ctx id l layer (fun x => a.links x l) (fun x => b.links x l) none false := by
  refine ⟨nofun, ?_, ?_, nofun, fun missing => ?_⟩
  · rintro x (chosen | repair)
    · obtain ⟨c, member, rfl⟩ := List.mem_map.mp chosen
      exact (LinkedBack.withLink measures awaits linked member).1
    · cases repair
  · exact fun x other => linked.kept fun chosen => other (.inl chosen)
  · refine absurd (List.countP_eq_zero.mpr fun c member kept => ?_) (linked.count ▸ some)
    exact missing c (awaits.chosen member) ((LinkedBack.withLink measures awaits linked member).2.mp kept)

/-- A repair appends the link to one more candidate, or finds no room anywhere. -/
theorem LinkedBack.repaired {found : Bool} {g : HnswGraph} (default : ctx.options.keepPruned = true)
    (none : inLinks = 0) (repaired : Repaired ctx id l layer.candidates b g found) :
    ∃ repair, LevelLinked ctx id l layer (fun x => a.links x l) (fun x => g.links x l) repair !found := by
  have fresh (c : ScoredId) (member : c ∈ layer.candidates) : id ∉ b.links c.id l := by
    by_cases chosen : c.id ∈ layer.selected.map (·.id)
    · obtain ⟨d, inside, same⟩ := List.mem_map.mp chosen
      rw [← same]
      exact (LinkedBack.full measures awaits linked default none inside).1
    · rw [linked.kept chosen]
      exact fun old => lt_irrefl id ((awaits.older c member).2.2 id old)
  cases found with
  | false =>
    refine ⟨.none, nofun, ?_, ?_, fun _ c member => ?_, fun _ => rfl⟩
    · rintro x (chosen | repair)
      · obtain ⟨c, member, rfl⟩ := List.mem_map.mp chosen
        exact (repaired.full rfl c.id l).trans (LinkedBack.withLink measures awaits linked member).1
      · cases repair
    · exact fun x other => (repaired.full rfl x l).trans (linked.kept fun chosen => other (.inl chosen))
    · rw [repaired.full rfl]
      exact fresh c member
  | true =>
    obtain ⟨c, member, room, appended, others⟩ := repaired.took rfl
    -- a chosen neighbour has no room left
    have outside : c.id ∉ layer.selected.map (·.id) := by
      intro chosen
      obtain ⟨d, inside, same⟩ := List.mem_map.mp chosen
      have full := (LinkedBack.full measures awaits linked default none inside).2
      rw [same] at full
      exact absurd full room.ne
    refine ⟨.some c.id, ?_, ?_, ?_, nofun, fun missing => ?_⟩
    · rintro x same
      cases same
      exact ⟨List.mem_map_of_mem member, outside⟩
    · rintro x (chosen | repair)
      · have away : x ≠ c.id := fun same => outside (same ▸ chosen)
        obtain ⟨d, inside, rfl⟩ := List.mem_map.mp chosen
        exact (others d.id l fun here => away here.1).trans (LinkedBack.withLink measures awaits linked inside).1
      · cases repair
        have old := linked.kept outside
        rw [old] at room
        rw [appended, old, HnswContext.withLink, if_pos room]
    · intro x other
      have away : x ≠ c.id := fun same => other (.inr (congrArg Option.some same.symm))
      exact (others x l fun here => away here.1).trans (linked.kept fun chosen => other (.inl chosen))
    · refine absurd ?_ (missing c member)
      rw [appended]
      exact List.mem_append_right _ List.mem_cons_self

end Chosen
end Level

end HnswContext
end VectorForge
