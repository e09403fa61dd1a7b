import VectorForge.Hnsw.Graph

namespace VectorForge.HnswValidator

def whereText (id level : Nat) : String := "node " ++ toString id ++ " level " ++ toString level ++ ": "

/-- `std::adjacent_find`: the first element that equals its successor. -/
def adjacentFind : List Nat → Option Nat
  | a :: b :: rest => if a = b then some a else adjacentFind (b :: rest)
  | _ => none

variable (g : HnswGraph)

/-- The loop over the copied ids of one list. -/
def checkNeighbors (id l : Nat) : List Nat → Result Unit
  | [] => .ok ()
  | neighbor :: rest =>
    if neighbor ≥ g.nodeCount then
      .error (.internal (whereText id l ++ "link to nonexistent node " ++ toString neighbor))
    else if neighbor = id then .error (.internal (whereText id l ++ "self-link"))
    else if g.level neighbor < l then
      .error (.internal (whereText id l ++ "link to node " ++ toString neighbor ++ " whose level is " ++
        toString (g.level neighbor)))
    else checkNeighbors id l rest

def checkList (id l : Nat) : Result Unit :=
  let links := g.links id l
  if links.length > g.capacity l then
    .error (.internal (whereText id l ++ "count " ++ toString links.length ++ " exceeds capacity " ++
      toString (g.capacity l)))
  else do
    checkNeighbors g id l links
    match adjacentFind (links.mergeSort (· ≤ ·)) with
    | some dup => .error (.internal (whereText id l ++ "duplicate link to " ++ toString dup))
    | none => .ok ()

/-- Levels `l, l + 1, …` of one node. -/
def checkLevels (id : Nat) : Nat → Nat → Result Unit
  | 0, _ => .ok ()
  | count + 1, l => do
    checkList g id l
    checkLevels id count (l + 1)

/-- Nodes `id, id + 1, …`; the result is the highest level seen. -/
def checkNodes : Nat → Nat → Nat → Result Nat
  | 0, _, top => .ok top
  | count + 1, id, top =>
    if g.level id > g.maxLevel then .error (.internal (whereText id (g.level id) ++ "level exceeds max_level"))
    else do
      checkLevels g id (g.level id + 1) 0
      checkNodes count (id + 1) (max top (g.level id))

def checkInvariants : Result Unit :=
  if g.nodeCount = 0 then
    if g.entry.valid then .error (.internal "empty graph has an entry point") else .ok ()
  else if !g.entry.valid ∨ g.entry.id ≥ g.nodeCount then
    .error (.internal "non-empty graph has no valid entry point")
  else if g.level g.entry.id ≠ g.entry.level then
    .error (.internal ("entry level " ++ toString g.entry.level ++ " != level of node " ++ toString g.entry.id))
  else do
    let top ← checkNodes g g.nodeCount 0 0
    if g.entry.level ≠ top then
      .error (.internal ("entry level " ++ toString g.entry.level ++ " != highest node level " ++ toString top))
    else .ok ()

/-- What `checkInvariants` asks of one list. -/
structure ListOk (id l : Nat) : Prop where
  count : (g.links id l).length ≤ g.capacity l
  exists_ : ∀ x ∈ g.links id l, x < g.nodeCount
  other : ∀ x ∈ g.links id l, x ≠ id
  high : ∀ x ∈ g.links id l, l ≤ g.level x
  distinct : (g.links id l).Nodup

/-- The graph invariants as one statement. -/
structure Invariants : Prop where
  empty : g.nodeCount = 0 → g.entry.valid = false
  entry : g.nodeCount ≠ 0 → g.entry.valid = true ∧ g.entry.id < g.nodeCount ∧ g.level g.entry.id = g.entry.level
  levels : ∀ id, id < g.nodeCount → g.level id ≤ g.maxLevel ∧ g.level id ≤ g.entry.level
  lists : ∀ id l, id < g.nodeCount → l ≤ g.level id → ListOk g id l

section Sorted

theorem adjacentFind_eq_none {l : List Nat} (sorted : l.Pairwise (· ≤ ·)) : adjacentFind l = none ↔ l.Nodup := by
  induction l with
  | nil => simp [adjacentFind]
  | cons a rest ih =>
    have tail := (List.pairwise_cons.mp sorted).2
    have head := (List.pairwise_cons.mp sorted).1
    cases rest with
    | nil => simp [adjacentFind]
    | cons b rest =>
      rw [adjacentFind, List.nodup_cons]
      by_cases same : a = b
      · simp [same]
      · rw [if_neg same, ih tail]
        have least : a ∉ b :: rest := by
          intro member
          rcases List.mem_cons.mp member with equal | later
          · exact same equal
          · have low := head b (List.mem_cons_self ..)
            have high := (List.pairwise_cons.mp tail).1 a later
            omega
        simp [least]

theorem adjacentFind_mergeSort {l : List Nat} : adjacentFind (l.mergeSort (· ≤ ·)) = none ↔ l.Nodup := by
  have sorted : (l.mergeSort (fun a b => decide (a ≤ b))).Pairwise (· ≤ ·) := by
    have transitive (a b c : Nat) : decide (a ≤ b) = true → decide (b ≤ c) = true → decide (a ≤ c) = true := by
      simp only [decide_eq_true_eq]
      omega
    have total (a b : Nat) : (decide (a ≤ b) || decide (b ≤ a)) = true := by
      simp only [Bool.or_eq_true, decide_eq_true_eq]
      omega
    have pairs := List.pairwise_mergeSort transitive total l
    exact pairs.imp fun h => by simpa using h
  rw [adjacentFind_eq_none sorted]
  exact (List.mergeSort_perm l _).nodup_iff

end Sorted

section Equivalence
variable {g} {id l : Nat}

theorem checkNeighbors_ok_iff {links : List Nat} : checkNeighbors g id l links = .ok () ↔
    ∀ x ∈ links, x < g.nodeCount ∧ x ≠ id ∧ l ≤ g.level x := by
  induction links with
  | nil => simp [checkNeighbors]
  | cons x rest ih =>
    rw [List.forall_mem_cons, checkNeighbors]
    split
    · next missing => simp [Nat.not_lt.mpr missing]
    split
    · next self => simp [self]
    split
    · next low => simp [Nat.not_le.mpr low]
    · next present other high =>
      rw [ih]
      have first : x < g.nodeCount ∧ x ≠ id ∧ l ≤ g.level x := ⟨by omega, other, by omega⟩
      simp only [first, true_and, ne_eq, not_false_eq_true]

theorem unit_bind_ok_iff {first : Result Unit} {rest : Result Unit} :
    (do first; rest) = .ok () ↔ first = .ok () ∧ rest = .ok () := by
  cases first with
  | error e =>
    constructor
    · intro run
      cases run
    · rintro ⟨run, _⟩
      cases run
  | ok u =>
    constructor
    · intro run
      exact ⟨rfl, run⟩
    · rintro ⟨_, run⟩
      exact run

theorem checkList_ok_iff : checkList g id l = .ok () ↔ ListOk g id l := by
  unfold checkList
  simp only
  split
  · next long =>
    constructor
    · intro run
      cases run
    · intro ok
      have count := ok.count
      omega
  · next fits =>
    rw [unit_bind_ok_iff, checkNeighbors_ok_iff]
    have dup : (match adjacentFind ((g.links id l).mergeSort (· ≤ ·)) with
        | some dup => (.error (.internal (whereText id l ++ "duplicate link to " ++ toString dup)) : Result Unit)
        | none => .ok ()) = .ok () ↔ (g.links id l).Nodup := by
      rw [← adjacentFind_mergeSort]
      split
      · next found => simp [found]
      · next none => simp [none]
    rw [dup]
    constructor
    · rintro ⟨each, distinct⟩
      exact ⟨by omega, fun x h => (each x h).1, fun x h => (each x h).2.1, fun x h => (each x h).2.2, distinct⟩
    · intro ok
      exact ⟨fun x h => ⟨ok.exists_ x h, ok.other x h, ok.high x h⟩, ok.distinct⟩

theorem checkLevels_ok_iff : ∀ {count l : Nat}, checkLevels g id count l = .ok () ↔
    ∀ k, l ≤ k → k < l + count → ListOk g id k
  | 0, l => by
    simp only [checkLevels, true_iff]
    intro k low high
    omega
  | count + 1, l => by
    rw [checkLevels, unit_bind_ok_iff, checkList_ok_iff, checkLevels_ok_iff]
    constructor
    · rintro ⟨first, rest⟩ k low high
      by_cases same : k = l
      · exact same ▸ first
      · exact rest k (by omega) (by omega)
    · intro each
      exact ⟨each l le_rfl (by omega), fun k low high => each k (by omega) (by omega)⟩

/-- The node loop returns the highest level, and only if every node is fine. -/
theorem checkNodes_ok : ∀ {count id top result : Nat}, checkNodes g count id top = .ok result →
    (∀ i, id ≤ i → i < id + count →
      g.level i ≤ g.maxLevel ∧ g.level i ≤ result ∧ ∀ l, l ≤ g.level i → ListOk g i l) ∧
      top ≤ result ∧ (result = top ∨ ∃ i, id ≤ i ∧ i < id + count ∧ g.level i = result)
  | 0, id, top, result, run => by
    cases run
    exact ⟨fun i low high => by omega, le_rfl, Or.inl rfl⟩
  | count + 1, id, top, result, run => by
    unfold checkNodes at run
    split at run
    · cases run
    next fits =>
    have levelsRun : checkLevels g id (g.level id + 1) 0 = .ok () := by
      cases h : checkLevels g id (g.level id + 1) 0 with
      | ok u => rfl
      | error e => rw [h] at run; cases run
    rw [levelsRun] at run
    obtain ⟨each, above, reached⟩ := checkNodes_ok run
    have here := checkLevels_ok_iff.mp levelsRun
    refine ⟨?_, by omega, ?_⟩
    · intro i low high
      by_cases same : i = id
      · subst same
        exact ⟨by omega, by omega, fun l bound => here l (by omega) (by omega)⟩
      · exact each i (by omega) (by omega)
    · rcases reached with top' | ⟨i, low, high, level⟩
      · rcases Nat.le_total top (g.level id) with up | down
        · exact Or.inr ⟨id, le_rfl, by omega, by omega⟩
        · exact Or.inl (by omega)
      · exact Or.inr ⟨i, by omega, by omega, level⟩

theorem checkNodes_total : ∀ (count id top : Nat),
    (∀ i, id ≤ i → i < id + count → g.level i ≤ g.maxLevel ∧ ∀ l, l ≤ g.level i → ListOk g i l) →
    ∃ result, checkNodes g count id top = .ok result
  | 0, id, top, _ => ⟨top, rfl⟩
  | count + 1, id, top, each => by
    obtain ⟨fits, lists⟩ := each id le_rfl (by omega)
    obtain ⟨result, rest⟩ := checkNodes_total count (id + 1) (max top (g.level id))
      (fun i low high => each i (by omega) (by omega))
    have levelsRun : checkLevels g id (g.level id + 1) 0 = .ok () :=
      checkLevels_ok_iff.mpr fun k low high => lists k (by omega)
    refine ⟨result, ?_⟩
    rw [checkNodes, if_neg (by omega), levelsRun]
    exact rest

/-- `check_invariants` succeeds exactly on the graphs with the invariants. -/
theorem checkInvariants_ok_iff : checkInvariants g = .ok () ↔ Invariants g := by
  unfold checkInvariants
  by_cases none : g.nodeCount = 0
  · rw [if_pos none]
    constructor
    · intro run
      split at run
      · cases run
      · next invalid =>
        refine ⟨fun _ => by simpa using invalid, fun some => absurd none some, ?_, ?_⟩
        · intro id bound
          omega
        · intro id l bound
          omega
    · intro inv
      rw [if_neg (by simp [inv.empty none])]
  · rw [if_neg none]
    constructor
    · intro run
      split at run
      · cases run
      next entryOk =>
      split at run
      · cases run
      next levelOk =>
      cases nodes : checkNodes g g.nodeCount 0 0 with
      | error e => rw [nodes] at run; cases run
      | ok top =>
        rw [nodes] at run
        have same : g.entry.level = top := by
          by_contra different
          simp only [bind, Except.bind, ne_eq, different, not_false_eq_true, if_true] at run
          cases run
        obtain ⟨each, _, _⟩ := checkNodes_ok nodes
        simp only [Bool.not_eq_true', not_or, Bool.not_eq_false, ge_iff_le, not_le] at entryOk
        refine ⟨fun zero => absurd zero none, fun _ => ⟨entryOk.1, entryOk.2, by simpa using levelOk⟩, ?_, ?_⟩
        · intro id bound
          obtain ⟨fits, below, _⟩ := each id (Nat.zero_le _) (by omega)
          exact ⟨fits, by omega⟩
        · intro id l bound low
          exact (each id (Nat.zero_le _) (by omega)).2.2 l low
    · intro inv
      obtain ⟨valid, inside, level⟩ := inv.entry none
      rw [if_neg (by simp [valid]; omega), if_neg (by simpa using level)]
      obtain ⟨top, run⟩ := checkNodes_total (g := g) g.nodeCount 0 0
        (fun i _ high => ⟨(inv.levels i (by omega)).1, fun l low => inv.lists i l (by omega) low⟩)
      obtain ⟨each, _, reached⟩ := checkNodes_ok run
      have low : g.entry.level ≤ top := level ▸ (each g.entry.id (Nat.zero_le _) (by omega)).2.1
      have high : top ≤ g.entry.level := by
        rcases reached with zero | ⟨i, _, bound, atI⟩
        · omega
        · exact atI ▸ (inv.levels i (by omega)).2
      rw [run]
      simp only [bind, Except.bind]
      rw [if_neg (by omega)]

end Equivalence
end VectorForge.HnswValidator
