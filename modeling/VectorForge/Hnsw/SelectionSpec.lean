import VectorForge.Hnsw.NeighborSelect

/-! What neighbour selection selects. -/

namespace VectorForge.NeighborSelect
variable {m : Nat} {keepPruned : Bool} {distance : Nat → Nat → F32}
  {seen out discarded : List ScoredId} {c : ScoredId}

/-- A candidate is closer to a selected node than to the base. -/
def Closer (distance : Nat → Nat → F32) (c selected : ScoredId) : Prop :=
  (distance c.id selected.id).lt c.distance = true

/-- The candidates that were examined and not accepted, in the order in which they were examined. -/
def prunedOf (examined accepted : List ScoredId) : List ScoredId := examined.filter fun c => decide (c ∉ accepted)

/-- Where the heuristic pass stands after some candidates. -/
structure Selecting (m : Nat) (keepPruned : Bool) (distance : Nat → Nat → F32)
    (examined accepted discarded : List ScoredId) : Prop where
  sublist : accepted.Sublist examined
  room : accepted.length ≤ m
  /-- The pass ends with the candidate that fills the last place. -/
  last : accepted.length = m → accepted.getLast? = examined.getLast?
  apart : accepted.Pairwise fun a b => ¬Closer distance b a
  covered : ∀ c ∈ examined, c ∉ accepted → ∃ a ∈ accepted, Closer distance c a
  pruned : discarded = if keepPruned then prunedOf examined accepted else []
  nearest : ∀ c rest, examined = c :: rest → 0 < m → ∃ others, accepted = c :: others

theorem Selecting.start (m : Nat) (keepPruned : Bool) (distance : Nat → Nat → F32) :
    Selecting m keepPruned distance [] [] [] := by
  refine ⟨.slnil, Nat.zero_le m, fun _ => rfl, .nil, fun c member => (by cases member), ?_,
    fun c rest wrong => by cases wrong⟩
  cases keepPruned <;> rfl

theorem Selecting.accept (selecting : Selecting m keepPruned distance seen out discarded) (fresh : c ∉ seen)
    (more : out.length ≠ m) (good : (out.all fun selected => !(distance c.id selected.id).lt c.distance) = true) :
    Selecting m keepPruned distance (seen ++ [c]) (out ++ [c]) discarded := by
  obtain ⟨sublist, room, -, apart, covered, pruned, nearest⟩ := selecting
  have far : ∀ a ∈ out, ¬Closer distance c a := by
    intro a member closer
    have kept := List.all_eq_true.mp good a member
    rw [show (distance c.id a.id).lt c.distance = true from closer] at kept
    cases kept
  refine ⟨sublist.append_right [c], ?_, fun _ => ?_, ?_, ?_, ?_, ?_⟩
  · rw [List.length_append, List.length_singleton]
    omega
  · rw [List.getLast?_concat, List.getLast?_concat]
  · rw [List.pairwise_append]
    refine ⟨apart, List.pairwise_singleton _ _, fun a inOut b inC => ?_⟩
    rw [List.mem_singleton.mp inC]
    exact far a inOut
  · intro x member absent
    rw [List.mem_append, not_or] at absent
    rcases List.mem_append.mp member with old | new
    · obtain ⟨a, inOut, closer⟩ := covered x old absent.1
      exact ⟨a, List.mem_append_left _ inOut, closer⟩
    · exact absurd new absent.2
  · rw [pruned]
    congr 1
    rw [prunedOf, prunedOf, List.filter_append]
    have here : [c].filter (fun x => decide (x ∉ out ++ [c])) = [] := by
      rw [List.filter_eq_nil_iff]
      intro x member
      simp only [List.mem_append, member, or_true, not_true_eq_false, decide_false,
        Bool.false_eq_true, not_false_eq_true]
    rw [here, List.append_nil]
    refine List.filter_congr fun x member => ?_
    have other : x ≠ c := fun same => fresh (same ▸ member)
    simp only [List.mem_append, List.mem_singleton, other, or_false]
  · intro first rest whole positive
    cases known : seen with
    | nil =>
      rw [known] at whole sublist
      rw [List.sublist_nil.mp sublist]
      cases whole
      exact ⟨[], rfl⟩
    | cons x others =>
      rw [known, List.cons_append] at whole
      cases whole
      obtain ⟨behind, same⟩ := nearest first others known positive
      exact ⟨behind ++ [c], by rw [same, List.cons_append]⟩

theorem Selecting.prune (selecting : Selecting m keepPruned distance seen out discarded) (fresh : c ∉ seen)
    (more : out.length ≠ m) (bad : ¬(out.all fun selected => !(distance c.id selected.id).lt c.distance) = true) :
    Selecting m keepPruned distance (seen ++ [c]) out (if keepPruned then discarded ++ [c] else discarded) := by
  obtain ⟨sublist, room, -, apart, covered, pruned, nearest⟩ := selecting
  have absent : c ∉ out := fun member => fresh (sublist.subset member)
  obtain ⟨near, inOut, closer⟩ : ∃ a ∈ out, Closer distance c a := by
    by_contra none
    refine bad (List.all_eq_true.mpr fun a member => ?_)
    cases value : (distance c.id a.id).lt c.distance with
    | false => rfl
    | true => exact absurd ⟨a, member, value⟩ none
  refine ⟨sublist.trans (List.sublist_append_left _ _), room, fun full => absurd full more, apart, ?_, ?_, ?_⟩
  · intro x member other
    rcases List.mem_append.mp member with old | new
    · exact covered x old other
    · rw [List.mem_singleton.mp new]
      exact ⟨near, inOut, closer⟩
  · rw [pruned]
    cases keepPruned with
    | false => rfl
    | true =>
      simp only [if_true]
      rw [prunedOf, prunedOf, List.filter_append, List.filter_singleton, decide_eq_true absent]
      rfl
  · intro first rest whole positive
    cases known : seen with
    | nil =>
      rw [known] at sublist
      rw [List.sublist_nil.mp sublist] at inOut
      cases inOut
    | cons x others =>
      rw [known, List.cons_append] at whole
      cases whole
      exact nearest first others known positive

/-- The whole pass: it examines a prefix of the candidates, and all of them unless it fills every place. -/
theorem heuristicPass_selects : ∀ {sorted seen out discarded : List ScoredId}, (seen ++ sorted).Nodup →
    Selecting m keepPruned distance seen out discarded → ∃ examined rest, seen ++ sorted = examined ++ rest ∧
      Selecting m keepPruned distance examined (heuristicPass m keepPruned distance sorted out discarded).1
        (heuristicPass m keepPruned distance sorted out discarded).2 ∧
      (rest = [] ∨ (heuristicPass m keepPruned distance sorted out discarded).1.length = m)
  | [], seen, _, _, _, selecting => ⟨seen, [], rfl, selecting, .inl rfl⟩
  | c :: sorted, seen, out, discarded, distinct, selecting => by
    have fresh : c ∉ seen := fun member => (List.nodup_append.mp distinct).2.2 c member c List.mem_cons_self rfl
    have shifted : seen ++ c :: sorted = (seen ++ [c]) ++ sorted := by rw [List.append_assoc, List.singleton_append]
    rw [heuristicPass]
    split
    next full => exact ⟨seen, c :: sorted, rfl, selecting, .inr full⟩
    next more =>
    rw [shifted] at distinct ⊢
    split
    next good => exact heuristicPass_selects distinct (selecting.accept fresh more good)
    next bad => exact heuristicPass_selects distinct (selecting.prune fresh more bad)

/-- The refill takes the first of the pruned candidates. -/
theorem refill_eq : ∀ {discarded out : List ScoredId}, out.length ≤ m →
    refill m discarded out = out ++ discarded.take (m - out.length)
  | [], out, _ => by rw [refill, List.take_nil, List.append_nil]
  | c :: discarded, out, room => by
    rw [refill]
    split
    next full => rw [full, Nat.sub_self, List.take_zero, List.append_nil]
    next more =>
      have less : (out ++ [c]).length = out.length + 1 := by rw [List.length_append, List.length_singleton]
      rw [refill_eq (by omega), less, List.append_assoc, List.singleton_append,
        show m - out.length = (m - (out.length + 1)) + 1 by omega, List.take_succ_cons]

/-- What was examined is accepted or pruned. -/
theorem length_prunedOf {examined accepted : List ScoredId} (distinct : examined.Nodup)
    (sublist : accepted.Sublist examined) :
    (prunedOf examined accepted).length + accepted.length = examined.length := by
  have kept : (examined.filter fun c => decide (c ∈ accepted)).Perm accepted := by
    refine (List.perm_ext_iff_of_nodup (distinct.filter _) (sublist.nodup distinct)).mpr fun x => ?_
    simp only [List.mem_filter, decide_eq_true_eq, and_iff_right_iff_imp]
    exact fun member => sublist.subset member
  have parts := List.length_eq_length_filter_add (l := examined) fun c => decide (c ∈ accepted)
  have others : (examined.filter fun c => !decide (c ∈ accepted)) = prunedOf examined accepted :=
    List.filter_congr fun x _ => by rw [decide_not]
  rw [kept.length_eq, others] at parts
  omega

/-- What the heuristic does with candidates in ascending order. -/
structure Heuristic (sorted : List ScoredId) (m : Nat) (keepPruned : Bool) (distance : Nat → Nat → F32)
    (out accepted examined rest : List ScoredId) : Prop where
  whole : sorted = examined ++ rest
  /-- The pass looks at everything, or stops right behind the candidate that fills the last place. -/
  stops : rest = [] ∨ accepted.length = m ∧ accepted.getLast? = examined.getLast?
  accepted_sublist : accepted.Sublist examined
  ascending : accepted.Pairwise fun a b => candidateLess a b = true
  apart : accepted.Pairwise fun a b => ¬Closer distance b a
  covered : ∀ c ∈ examined, c ∉ accepted → ∃ a ∈ accepted, Closer distance c a
  out_eq : out = accepted ++ if keepPruned then (prunedOf examined accepted).take (m - accepted.length) else []
  pruned_ascending : (prunedOf examined accepted).Pairwise fun a b => candidateLess a b = true

theorem heuristic_of_pass (m : Nat) (keepPruned : Bool) (distance : Nat → Nat → F32) {sorted : List ScoredId}
    (ascending : sorted.Pairwise fun a b => candidateLess a b = true) (distinct : sorted.Nodup) :
    ∃ accepted examined rest, Heuristic sorted m keepPruned distance
      (selectNeighbors sorted m .heuristic keepPruned distance)
      accepted examined rest ∧ (∀ c others, sorted = c :: others → 0 < m → ∃ more, accepted = c :: more) ∧
      accepted.length ≤ m := by
  obtain ⟨examined, rest, whole, selecting, stops⟩ :=
    heuristicPass_selects (distinct : ([] ++ sorted).Nodup) (Selecting.start m keepPruned distance)
  rw [List.nil_append] at whole
  have out_eq : selectNeighbors sorted m .heuristic keepPruned distance =
      (heuristicPass m keepPruned distance sorted [] []).1 ++
      if keepPruned then (prunedOf examined (heuristicPass m keepPruned distance sorted [] []).1).take
        (m - (heuristicPass m keepPruned distance sorted [] []).1.length) else [] := by
    have pruned := selecting.pruned
    simp only [selectNeighbors]
    cases keepPruned with
    | false =>
      simp only [Bool.false_eq_true, if_false, List.append_nil]
    | true =>
      simp only [if_true] at pruned ⊢
      rw [refill_eq selecting.room, pruned]
  generalize (heuristicPass m keepPruned distance sorted [] []).1 = accepted at *
  generalize (heuristicPass m keepPruned distance sorted [] []).2 = discarded at *
  have sub : examined.Sublist sorted := whole ▸ List.sublist_append_left _ _
  refine ⟨accepted, examined, rest, ⟨whole, ?_, selecting.sublist, ?_, selecting.apart, selecting.covered, out_eq,
    ?_⟩, ?_, selecting.room⟩
  · exact stops.imp_right fun full => ⟨full, selecting.last full⟩
  · exact ascending.sublist (selecting.sublist.trans sub)
  · exact ascending.sublist (List.filter_sublist.trans sub)
  · intro c others first positive
    cases known : examined with
    | nil =>
      have none := List.sublist_nil.mp (known ▸ selecting.sublist)
      rcases stops with nothing | full
      · rw [known, nothing, first] at whole
        cases whole
      · rw [none, List.length_nil] at full
        omega
    | cons x more =>
      rw [known, first, List.cons_append] at whole
      cases whole
      exact selecting.nearest c more known positive

/-- Neighbour selection, in both modes. -/
theorem selection_meets_specification (sorted : List ScoredId) (m : Nat)
    (selection : NeighborSelection) (keepPruned : Bool)
    (distance : Nat → Nat → F32) (ascending : sorted.Pairwise fun a b => candidateLess a b = true)
    (ids : (sorted.map (·.id)).Nodup) : let out := selectNeighbors sorted m selection keepPruned distance
    ((out.map (·.id)).Nodup ∧ ∀ c ∈ out, c ∈ sorted) ∧ out.length ≤ m ∧
      (∀ nearest others, sorted = nearest :: others → 0 < m → nearest ∈ out) ∧
      (selection = .heuristic → ∃ accepted examined rest,
        Heuristic sorted m keepPruned distance out accepted examined rest) ∧
      (selection = .simple → out = sorted.take m) ∧
      (keepPruned = true ∨ selection = .simple → out.length = min m sorted.length) := by
  have distinct : sorted.Nodup := ids.of_map _
  have members := (selectNeighbors_subperm sorted m selection keepPruned distance).subset
  obtain ⟨part, perm, sublist⟩ := selectNeighbors_subperm sorted m selection keepPruned distance
  refine ⟨⟨(perm.map _).nodup_iff.mp ((sublist.map _).nodup ids), fun c member => members member⟩,
    length_selectNeighbors .., ?_⟩
  cases selection with
  | simple =>
    refine ⟨fun nearest others whole positive => ?_, fun no => (by cases no), fun _ => rfl,
      fun _ => List.length_take⟩
    obtain ⟨n, rfl⟩ := Nat.exists_eq_succ_of_ne_zero (by omega : m ≠ 0)
    rw [selectNeighbors, whole, List.take_succ_cons]
    exact List.mem_cons_self
  | heuristic =>
    obtain ⟨accepted, examined, rest, heuristic, nearest, room⟩ :=
      heuristic_of_pass m keepPruned distance ascending distinct
    have out_eq := heuristic.out_eq
    refine ⟨fun c others whole positive => ?_, fun _ => ⟨accepted, examined, rest, heuristic⟩,
      fun no => (by cases no), fun kept => ?_⟩
    · obtain ⟨more, same⟩ := nearest c others whole positive
      rw [out_eq, same, List.cons_append]
      exact List.mem_cons_self
    · have keep : keepPruned = true := kept.resolve_right (by decide)
      have whole := congrArg List.length heuristic.whole
      have parts := length_prunedOf (heuristic.whole ▸ distinct |>.of_append_left) heuristic.accepted_sublist
      rw [List.length_append] at whole
      rw [out_eq, if_pos keep, List.length_append, List.length_take]
      rcases heuristic.stops with none | ⟨full, -⟩
      · rw [none, List.length_nil] at whole
        omega
      · omega

/-- Three candidates on a line: the second one is behind the first, and comes back as a refill. -/
theorem selection_meets_specification_line :
    (selectNeighbors [⟨⟨0x3F800000⟩, 1⟩, ⟨⟨0x40000000⟩, 2⟩, ⟨⟨0x40400000⟩, 3⟩] 2 .heuristic true fun _ _ =>
      ⟨0x3F800000⟩).length = 2 :=
  (selection_meets_specification [⟨⟨0x3F800000⟩, 1⟩, ⟨⟨0x40000000⟩, 2⟩, ⟨⟨0x40400000⟩, 3⟩] 2 .heuristic true
    (fun _ _ => ⟨0x3F800000⟩)
    (by decide) (by decide)).2.2.2.2.2 (.inl rfl)

end VectorForge.NeighborSelect
