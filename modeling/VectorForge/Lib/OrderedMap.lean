import Mathlib

/-! Finite maps that know in which order their entries were put, and the entries with the least score. -/

namespace VectorForge

structure OrderedMap.Entry (κ ν : Type) where
  key : κ
  value : ν
  seq : Nat

/-- A finite map from keys to values. The entries are in the order in which they were put, and each knows
the number of its insertion. -/
structure OrderedMap (κ ν : Type) where
  entries : List (OrderedMap.Entry κ ν) := []
  /-- The number of the next insertion. -/
  next : Nat := 0
  distinct : (entries.map OrderedMap.Entry.key).Nodup := by exact List.nodup_nil
  ordered : entries.Pairwise fun a b => a.seq < b.seq := by exact List.Pairwise.nil
  fresh : ∀ e ∈ entries, e.seq < next := by exact nofun

namespace OrderedMap
variable {κ ν ρ : Type} [DecidableEq κ] {m : OrderedMap κ ν} {key : κ} {e : Entry κ ν}

def find (m : OrderedMap κ ν) (key : κ) : Option (Entry κ ν) := m.entries.find? fun e => decide (e.key = key)

def contains (m : OrderedMap κ ν) (key : κ) : Bool := (m.find key).isSome

omit [DecidableEq κ] in
def size (m : OrderedMap κ ν) : Nat := m.entries.length

def erase (m : OrderedMap κ ν) (key : κ) : OrderedMap κ ν where
  entries := m.entries.filter fun e => decide (e.key ≠ key)
  next := m.next
  distinct := m.distinct.sublist (List.filter_sublist.map _)
  ordered := m.ordered.filter _
  fresh := fun e member => m.fresh e (List.mem_filter.mp member).1

/-- The value of the key, in place of the one it may have had; as an insertion it is the last one. -/
def put (m : OrderedMap κ ν) (key : κ) (value : ν) : OrderedMap κ ν where
  entries := (m.erase key).entries ++ [{ key, value, seq := m.next }]
  next := m.next + 1
  distinct := by
    rw [List.map_append, List.map_singleton]
    refine List.Nodup.append (m.erase key).distinct (List.nodup_singleton key) ?_
    intro other old new
    obtain ⟨e, member, rfl⟩ := List.mem_map.mp old
    have away : e.key ≠ key := of_decide_eq_true (List.mem_filter.mp member).2
    exact away (List.mem_singleton.mp new)
  ordered := by
    refine List.pairwise_append.mpr ⟨(m.erase key).ordered, List.pairwise_singleton _ _, ?_⟩
    intro e member last same
    rw [List.mem_singleton.mp same]
    exact (m.erase key).fresh e member
  fresh := by
    intro e member
    rcases List.mem_append.mp member with old | new
    · exact ((m.erase key).fresh e old).trans (Nat.lt_succ_self _)
    · rw [List.mem_singleton.mp new]
      exact Nat.lt_succ_self _

def putAll (m : OrderedMap κ ν) (xs : List (κ × ν)) : OrderedMap κ ν := xs.foldl (fun m x => m.put x.1 x.2) m

/-- The keys with their values, in the order of their insertion. -/
def pairs (m : OrderedMap κ ν) : List (κ × ν) := m.entries.map fun e => (e.key, e.value)

theorem find_eq_some : m.find key = some e ↔ e ∈ m.entries ∧ e.key = key := by
  constructor
  · intro found
    have same := List.find?_some found
    exact ⟨List.mem_of_find?_eq_some found, of_decide_eq_true same⟩
  · rintro ⟨member, rfl⟩
    cases found : m.find e.key with
    | none => exact absurd rfl (of_decide_eq_false (Bool.eq_false_iff.mpr (List.find?_eq_none.mp found e member)))
    | some other =>
      have listed := List.mem_of_find?_eq_some found
      have same := List.find?_some found
      have same : other.key = e.key := of_decide_eq_true same
      rw [List.inj_on_of_nodup_map m.distinct listed member same]

theorem contains_iff : m.contains key = true ↔ key ∈ m.pairs.map Prod.fst := by
  rw [contains, Option.isSome_iff_exists]
  simp only [find_eq_some, pairs, List.map_map, List.mem_map, Function.comp_apply]

theorem find_map_value {value : ν} : (m.find key).map Entry.value = some value ↔ (key, value) ∈ m.pairs := by
  rw [Option.map_eq_some_iff, pairs, List.mem_map]
  simp only [find_eq_some, Prod.mk.injEq]
  constructor
  · rintro ⟨e, ⟨member, named⟩, same⟩
    exact ⟨e, member, named, same⟩
  · rintro ⟨e, member, named, same⟩
    exact ⟨e, ⟨member, named⟩, same⟩

omit [DecidableEq κ] in
theorem length_pairs : m.pairs.length = m.size := List.length_map _

theorem pairs_erase : (m.erase key).pairs = m.pairs.filter fun x => decide (x.1 ≠ key) := by
  rw [pairs, pairs, List.filter_map]
  rfl

theorem pairs_put {value : ν} : (m.put key value).pairs = (m.pairs.filter fun x => decide (x.1 ≠ key)) ++
    [(key, value)] := by
  rw [← pairs_erase, pairs, put, List.map_append]
  rfl

theorem contains_put {other : κ} {value : ν} (different : other ≠ key) :
    (m.put key value).contains other = m.contains other := by
  refine Bool.eq_iff_iff.mpr ?_
  rw [contains_iff, contains_iff, pairs_put, List.map_append, List.mem_append]
  constructor
  · rintro (old | last)
    · obtain ⟨x, member, rfl⟩ := List.mem_map.mp old
      exact List.mem_map_of_mem (List.mem_filter.mp member).1
    · exact absurd (List.mem_singleton.mp last) different
  · intro known
    obtain ⟨x, member, rfl⟩ := List.mem_map.mp known
    exact .inl (List.mem_map_of_mem (List.mem_filter.mpr ⟨member, decide_eq_true different⟩))

theorem mem_pairs_put {value : ν} {x : κ × ν} (member : x ∈ (m.put key value).pairs) : x ∈ m.pairs ∨
    x = (key, value) := by
  rw [pairs_put] at member
  rcases List.mem_append.mp member with old | new
  · exact .inl (List.mem_filter.mp old).1
  · exact .inr (List.mem_singleton.mp new)

theorem mem_pairs_putAll {xs : List (κ × ν)} : ∀ {m : OrderedMap κ ν} {x : κ × ν}, x ∈ (m.putAll xs).pairs →
    x ∈ m.pairs ∨ x ∈ xs := by
  induction xs with
  | nil => exact fun member => .inl member
  | cons y xs ih =>
    intro m x member
    have member : x ∈ ((m.put y.1 y.2).putAll xs).pairs := member
    rcases ih member with early | late
    · rcases mem_pairs_put early with old | rfl
      · exact .inl old
      · exact .inr List.mem_cons_self
    · exact .inr (List.mem_cons_of_mem y late)

/-- Entries under new keys come after the others. -/
theorem pairs_putAll {xs : List (κ × ν)} : ∀ {m : OrderedMap κ ν}, (xs.map Prod.fst).Nodup →
    (∀ x ∈ xs, x.1 ∉ m.pairs.map Prod.fst) →
    (m.putAll xs).pairs = m.pairs ++ xs := by
  induction xs with
  | nil => exact fun _ _ => (List.append_nil _).symm
  | cons x xs ih =>
    intro m distinct new
    obtain ⟨first, others⟩ := List.nodup_cons.mp distinct
    have put : (m.put x.1 x.2).pairs = m.pairs ++ [x] := by
      rw [pairs_put, List.filter_eq_self.mpr]
      intro y member
      refine decide_eq_true fun same => new x List.mem_cons_self ?_
      rw [← same]
      exact List.mem_map_of_mem member
    have rest : (m.putAll (x :: xs)).pairs = (m.put x.1 x.2).pairs ++ xs := by
      refine ih others fun y member => ?_
      rw [put, List.map_append, List.mem_append, not_or]
      refine ⟨new y (List.mem_cons_of_mem x member), fun last => first ?_⟩
      rw [← List.mem_singleton.mp last]
      exact List.mem_map_of_mem member
    rw [rest, put, List.append_assoc]
    rfl

section Nearest
variable [LinearOrder ρ]

/-- Smaller scores first, and of equal scores the one that was put first. -/
def closer (score : ν → ρ) (a b : Entry κ ν) : Bool :=
  decide (toLex (score a.value, a.seq) ≤ toLex (score b.value, b.seq))

/-- The first `n` entries in the order of their scores and insertions. -/
def nearest (m : OrderedMap κ ν) (score : ν → ρ) (n : Nat) : List (Entry κ ν) :=
  (m.entries.mergeSort (closer score)).take n

omit [DecidableEq κ] in
/-- Records that go with the entries and are numbered in the same order: sorted by score and number, they
still go with the sorted entries. -/
theorem mergeSort_aligned {τ : Type} {records : List τ} (rank : τ → ρ) (number : τ → Nat) (score : ν → ρ)
    (numbered : records.Pairwise fun a b => number a < number b)
    (aligned : List.Forall₂ (fun (e : Entry κ ν) r => score e.value = rank r) m.entries records) :
    ∃ sorted : List (Entry κ ν × τ), (∀ z ∈ sorted, z ∈ m.entries.zip records) ∧
      m.entries.mergeSort (closer score) = sorted.map Prod.fst ∧
      records.mergeSort (fun a b => decide (toLex (rank a, number a) ≤ toLex (rank b, number b))) =
        sorted.map Prod.snd ∧
      (sorted.map Prod.snd).Pairwise fun a b => toLex (rank a, number a) < toLex (rank b, number b) := by
  have lengths := aligned.length_eq
  have firsts : (m.entries.zip records).map Prod.fst = m.entries := List.map_fst_zip lengths.le
  have seconds : (m.entries.zip records).map Prod.snd = records := List.map_snd_zip lengths.ge
  have scores : ∀ z ∈ m.entries.zip records, score z.1.value = rank z.2 :=
    fun z member => (List.forall₂_iff_zip.mp aligned).2 member
  have order : (m.entries.zip records).Pairwise fun a b => a.1.seq < b.1.seq ∧ number a.2 < number b.2 := by
    have left : (m.entries.zip records).Pairwise fun a b => a.1.seq < b.1.seq := by
      rw [← List.pairwise_map (f := Prod.fst) (R := fun a b : Entry κ ν => a.seq < b.seq), firsts]
      exact m.ordered
    have right : (m.entries.zip records).Pairwise fun a b => number a.2 < number b.2 := by
      rw [← List.pairwise_map (f := Prod.snd) (R := fun a b => number a < number b), seconds]
      exact numbered
    exact left.and right
  -- of two of them the same one comes first on both sides
  have alike : ∀ a ∈ m.entries.zip records, ∀ b ∈ m.entries.zip records, a.1.seq ≤ b.1.seq ↔
      number a.2 ≤ number b.2 := by
    refine List.Pairwise.forall_of_forall_of_flip (fun _ _ => by simp) (order.imp ?_) (order.imp ?_)
    · exact fun before => ⟨fun _ => before.2.le, fun _ => before.1.le⟩
    · exact fun before => ⟨fun le => absurd before.1 (by omega), fun le => absurd before.2 (by omega)⟩
  have same : ∀ a ∈ m.entries.zip records, ∀ b ∈ m.entries.zip records, closer score a.1 b.1 =
      decide (toLex (rank a.2, number a.2) ≤ toLex (rank b.2, number b.2)) := by
    intro a left b right
    rw [closer, scores a left, scores b right]
    refine decide_eq_decide.mpr ?_
    simp only [Prod.Lex.toLex_le_toLex, alike a left b right]
  have right : ((m.entries.zip records).mergeSort fun a b => closer score a.1 b.1).map Prod.snd =
      records.mergeSort fun a b => decide (toLex (rank a, number a) ≤ toLex (rank b, number b)) := by
    rw [List.map_mergeSort (s := fun a b => decide (toLex (rank a, number a) ≤ toLex (rank b, number b)))
      (f := Prod.snd) same, seconds]
  refine ⟨(m.entries.zip records).mergeSort fun a b => closer score a.1 b.1,
    fun z member => List.mem_mergeSort.mp member, ?_, right.symm, ?_⟩
  · rw [List.map_mergeSort (s := closer score) (f := Prod.fst) fun _ _ _ _ => rfl, firsts]
  · -- equal numbers would be the same record twice
    rw [right]
    have sorted : (records.mergeSort fun a b =>
        decide (toLex (rank a, number a) ≤ toLex (rank b, number b))).Pairwise
        fun a b => decide (toLex (rank a, number a) ≤ toLex (rank b, number b)) = true :=
      List.pairwise_mergeSort (fun _ _ _ le le' =>
        decide_eq_true ((of_decide_eq_true le).trans (of_decide_eq_true le')))
        (fun a b => by simpa using le_total (toLex (rank a, number a)) (toLex (rank b, number b))) records
    have different : (records.mergeSort fun a b =>
        decide (toLex (rank a, number a) ≤ toLex (rank b, number b))).Pairwise
        fun a b => number a ≠ number b :=
      ((List.mergeSort_perm records _).symm.pairwise_iff fun ne same => ne same.symm).mp (numbered.imp Nat.ne_of_lt)
    refine (sorted.and different).imp fun ⟨le, ne⟩ => lt_of_le_of_ne (of_decide_eq_true le) fun equal => ne ?_
    exact congrArg (fun key => (ofLex key).2) equal

end Nearest
end OrderedMap
end VectorForge
