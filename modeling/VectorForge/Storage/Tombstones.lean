import VectorForge.Core.Types

namespace VectorForge

/-- `TombstoneSet`: bit `i % 64` of word `i / 64` marks row `i`; the words may reach
past the last row, and `count` is maintained next to them. -/
structure TombstoneSet where
  words : List (BitVec 64) := []
  count : Nat := 0
  deriving DecidableEq

namespace TombstoneSet

/-- Words that hold `rows` bits. -/
def wordsFor (rows : Nat) : Nat := (rows + 63) / 64

def ensureSize (s : TombstoneSet) (rows : Nat) : TombstoneSet :=
  { s with words := s.words ++ List.replicate (wordsFor rows - s.words.length) 0#64 }

def test (s : TombstoneSet) (id : Nat) : Bool :=
  match s.words[id / 64]? with
  | some word => word.getLsbD (id % 64)
  | none => false

def set (s : TombstoneSet) (id : Nat) : TombstoneSet :=
  if s.test id then s
  else { words := s.words.modify (id / 64) (· ||| 1#64 <<< (id % 64)), count := s.count + 1 }

def clear (s : TombstoneSet) (id : Nat) : TombstoneSet :=
  if s.test id then { words := s.words.modify (id / 64) (· &&& ~~~(1#64 <<< (id % 64))), count := s.count - 1 }
  else s

def any (s : TombstoneSet) : Bool := decide (s.count ≠ 0)

/-- `std::popcount`. -/
def popcount (word : BitVec 64) : Nat := ((Finset.range 64).filter fun i => word.getLsbD i = true).card

/-- A set over `rows` rows from persisted words. -/
def restore (words : List (BitVec 64)) (rows : Nat) : Option TombstoneSet :=
  if words.length ≠ wordsFor rows then none
  else if rows % 64 ≠ 0 ∧ (words.getLastD 0#64) >>> (rows % 64) ≠ 0#64 then none
  else some { words, count := (words.map popcount).sum }

/-- The marked rows below `rows`. -/
def marked (s : TombstoneSet) (rows : Nat) : Finset Nat :=
  (Finset.range rows).filter fun i => s.test i = true

/-- What a collection of `rows` rows relies on: every row has a bit, no bit beyond
the rows is set, and the counter is the number of set bits. -/
structure Tracks (s : TombstoneSet) (rows : Nat) : Prop where
  covers : wordsFor rows ≤ s.words.length
  below : ∀ i, s.test i = true → i < rows
  exact : s.count = (s.marked rows).card

theorem mem_marked {s : TombstoneSet} {rows i : Nat} : i ∈ s.marked rows ↔ i < rows ∧ s.test i = true := by
  simp [marked]

theorem inside_of_covers {s : TombstoneSet} {rows i : Nat} (covers : wordsFor rows ≤ s.words.length)
    (bound : i < rows) : i / 64 < s.words.length := by
  unfold wordsFor at covers
  omega

@[simp] theorem test_ensureSize (s : TombstoneSet) (rows i : Nat) : (s.ensureSize rows).test i = s.test i := by
  unfold test ensureSize
  by_cases inside : i / 64 < s.words.length
  · simp only [List.getElem?_append_left inside]
  · have none : s.words[i / 64]? = none := List.getElem?_eq_none (by omega)
    rw [List.getElem?_append_right (by omega), none, List.getElem?_replicate]
    split
    · next word found =>
      split at found
      · cases found; simp
      · cases found
    · rfl

@[simp] theorem count_ensureSize (s : TombstoneSet) (rows : Nat) : (s.ensureSize rows).count = s.count := rfl

theorem test_modify {s : TombstoneSet} {change : BitVec 64 → BitVec 64} {c : Nat} (id i : Nat) :
    ({ words := s.words.modify (id / 64) change, count := c } : TombstoneSet).test i =
      if i / 64 = id / 64 then
        match s.words[id / 64]? with
        | some word => (change word).getLsbD (i % 64)
        | none => false
      else s.test i := by
  unfold test
  by_cases same : i / 64 = id / 64
  · simp only [same, List.getElem?_modify_eq, if_true]
    cases s.words[id / 64]? <;> rfl
  · have other : ¬ id / 64 = i / 64 := fun h => same h.symm
    simp only [if_neg same, List.getElem?_modify, if_neg other]
    cases s.words[i / 64]? <;> rfl

theorem bit_of_one_shift {k j : Nat} (bound : k < 64) : (1#64 <<< k).getLsbD j = decide (j = k) := by
  rw [BitVec.getLsbD_shiftLeft]
  by_cases same : j = k
  · subst same
    simp [bound]
  · by_cases above : j < k
    · simp [above, same]
    · have positive : j - k ≠ 0 := by omega
      simp [same, above, BitVec.getLsbD_one, positive]

theorem test_set {s : TombstoneSet} {id i : Nat} (inside : id / 64 < s.words.length) :
    (s.set id).test i = (decide (i = id) || s.test i) := by
  unfold set
  split
  · next already =>
    by_cases same : i = id
    · simp [same, already]
    · simp [same]
  · rw [test_modify, List.getElem?_eq_getElem inside]
    by_cases word : i / 64 = id / 64
    · have atI : s.test i = (s.words[id / 64]).getLsbD (i % 64) := by
        simp [test, word, List.getElem?_eq_getElem inside]
      simp only [word, if_true, BitVec.getLsbD_or, bit_of_one_shift (Nat.mod_lt id (by omega : 64 > 0)), atI]
      have same : i % 64 = id % 64 ↔ i = id := by omega
      simp only [same, Bool.or_comm]
    · have different : i ≠ id := fun h => word (by rw [h])
      simp [word, different]

theorem test_clear {s : TombstoneSet} {id i : Nat} (inside : id / 64 < s.words.length) :
    (s.clear id).test i = (!decide (i = id) && s.test i) := by
  unfold clear
  split
  · rw [test_modify, List.getElem?_eq_getElem inside]
    by_cases word : i / 64 = id / 64
    · have atI : s.test i = (s.words[id / 64]).getLsbD (i % 64) := by
        simp [test, word, List.getElem?_eq_getElem inside]
      have bit : i % 64 < 64 := Nat.mod_lt i (by omega)
      simp only [word, if_true, BitVec.getLsbD_and, BitVec.getLsbD_not, bit, decide_true, Bool.true_and,
        bit_of_one_shift (Nat.mod_lt id (by omega : 64 > 0)), atI]
      have same : i % 64 = id % 64 ↔ i = id := by omega
      simp only [same, Bool.and_comm]
    · have different : i ≠ id := fun h => word (by rw [h])
      simp [word, different]
  · next absent =>
    by_cases same : i = id
    · simp [same, absent]
    · simp [same]

@[simp] theorem length_set (s : TombstoneSet) (id : Nat) : (s.set id).words.length = s.words.length := by
  unfold set
  split <;> simp

@[simp] theorem length_clear (s : TombstoneSet) (id : Nat) : (s.clear id).words.length = s.words.length := by
  unfold clear
  split <;> simp

theorem marked_set {s : TombstoneSet} {rows id : Nat} (covers : wordsFor rows ≤ s.words.length)
    (bound : id < rows) : (s.set id).marked rows = insert id (s.marked rows) := by
  ext i
  rw [mem_marked, test_set (inside_of_covers covers bound), Finset.mem_insert, mem_marked]
  simp only [Bool.or_eq_true, decide_eq_true_eq]
  constructor
  · tauto
  · rintro (rfl | h) <;> tauto

theorem marked_clear {s : TombstoneSet} {rows id : Nat} (covers : wordsFor rows ≤ s.words.length)
    (bound : id < rows) : (s.clear id).marked rows = (s.marked rows).erase id := by
  ext i
  rw [mem_marked, test_clear (inside_of_covers covers bound), Finset.mem_erase, mem_marked]
  simp only [Bool.and_eq_true, Bool.not_eq_true', decide_eq_false_iff_not]
  tauto

namespace Tracks
variable {s : TombstoneSet} {rows : Nat}

theorem nil : Tracks {} 0 := by
  refine ⟨by simp [wordsFor], ?_, by simp [marked]⟩
  intro i bit
  simp [test] at bit

theorem ensureSize (t : s.Tracks rows) (more : Nat) : (s.ensureSize more).Tracks rows := by
  refine ⟨?_, ?_, ?_⟩
  · have covers := t.covers
    simp only [TombstoneSet.ensureSize, List.length_append, List.length_replicate]
    omega
  · intro i bit
    rw [test_ensureSize] at bit
    exact t.below i bit
  · rw [count_ensureSize, t.exact]
    congr 1
    ext i
    simp only [mem_marked, test_ensureSize]

/-- Fresh words mark nothing. -/
theorem empty (rows : Nat) : (({} : TombstoneSet).ensureSize rows).Tracks rows := by
  have unmarked (i : Nat) : (({} : TombstoneSet).ensureSize rows).test i = false := by
    rw [test_ensureSize]
    simp [test]
  refine ⟨by simp [TombstoneSet.ensureSize], ?_, ?_⟩
  · intro i bit
    rw [unmarked] at bit
    cases bit
  · simp [marked, unmarked]

/-- A row that was just appended is unmarked as soon as its bit exists. -/
theorem grow (t : s.Tracks rows) (covers : wordsFor (rows + 1) ≤ s.words.length) : s.Tracks (rows + 1) := by
  refine ⟨covers, fun i bit => Nat.lt_succ_of_lt (t.below i bit), ?_⟩
  rw [t.exact]
  congr 1
  ext i
  simp only [mem_marked]
  constructor
  · rintro ⟨bound, bit⟩
    exact ⟨Nat.lt_succ_of_lt bound, bit⟩
  · rintro ⟨_, bit⟩
    exact ⟨t.below i bit, bit⟩

/-- The counter is the number of set bits of all words. -/
theorem count_bits (t : s.Tracks rows) :
    s.count = ((Finset.range (64 * s.words.length)).filter fun i => s.test i = true).card := by
  rw [t.exact]
  congr 1
  ext i
  rw [mem_marked, Finset.mem_filter, Finset.mem_range]
  constructor
  · rintro ⟨inside, bit⟩
    have word := inside_of_covers t.covers inside
    exact ⟨by omega, bit⟩
  · rintro ⟨_, bit⟩
    exact ⟨t.below i bit, bit⟩

theorem fresh (t : s.Tracks rows) {i : Nat} (beyond : rows ≤ i) : s.test i = false := by
  by_contra bit
  have := t.below i (by simpa using bit)
  omega

theorem set (t : s.Tracks rows) {id : Nat} (bound : id < rows) (absent : s.test id = false) :
    (s.set id).Tracks rows ∧ (s.set id).count = s.count + 1 := by
  have inside := inside_of_covers t.covers bound
  have count : (s.set id).count = s.count + 1 := by simp [TombstoneSet.set, absent]
  refine ⟨⟨by simpa using t.covers, ?_, ?_⟩, count⟩
  · intro i bit
    rw [test_set inside] at bit
    simp only [Bool.or_eq_true, decide_eq_true_eq] at bit
    rcases bit with rfl | old
    · exact bound
    · exact t.below i old
  · rw [count, marked_set t.covers bound, Finset.card_insert_of_notMem, t.exact]
    simp [mem_marked, absent]

theorem clear (t : s.Tracks rows) {id : Nat} (bit : s.test id = true) :
    (s.clear id).Tracks rows ∧ (s.clear id).count + 1 = s.count := by
  have bound := t.below id bit
  have member : id ∈ s.marked rows := mem_marked.mpr ⟨bound, bit⟩
  have positive : 0 < s.count := by
    rw [t.exact]
    exact Finset.card_pos.mpr ⟨id, member⟩
  have count : (s.clear id).count = s.count - 1 := by simp [TombstoneSet.clear, bit]
  refine ⟨⟨by simpa using t.covers, ?_, ?_⟩, by omega⟩
  · intro i after
    rw [test_clear (inside_of_covers t.covers bound)] at after
    simp only [Bool.and_eq_true] at after
    exact t.below i after.2
  · rw [count, marked_clear t.covers bound, Finset.card_erase_of_mem member, t.exact]

theorem count_le (t : s.Tracks rows) : s.count ≤ rows := by
  rw [t.exact]
  exact (Finset.card_filter_le _ _).trans (by simp)

end Tracks

/-- The bits of the words, counted over every position they have. -/
theorem sum_popcount (words : List (BitVec 64)) (c : Nat) :
    (words.map popcount).sum =
      (({ words, count := c } : TombstoneSet).marked (64 * words.length)).card := by
  induction words with
  | nil => rfl
  | cons word words ih =>
    have split : ({ words := word :: words, count := c } : TombstoneSet).marked (64 * (words.length + 1)) =
        ((Finset.range 64).filter fun i => word.getLsbD i = true) ∪
          ((({ words, count := c } : TombstoneSet).marked (64 * words.length)).map (addRightEmbedding 64)) := by
      ext i
      simp only [mem_marked, Finset.mem_union, Finset.mem_filter, Finset.mem_range, Finset.mem_map,
        addRightEmbedding_apply, test]
      by_cases first : i < 64
      · have zero : i / 64 = 0 := by omega
        have same : i % 64 = i := Nat.mod_eq_of_lt first
        simp only [zero, List.getElem?_cons_zero, same, first, true_and]
        constructor
        · rintro ⟨_, bit⟩
          exact Or.inl bit
        · rintro (bit | ⟨j, _, sum⟩)
          · exact ⟨by omega, bit⟩
          · omega
      · have next : i / 64 = (i - 64) / 64 + 1 := by omega
        have same : i % 64 = (i - 64) % 64 := by omega
        simp only [next, List.getElem?_cons_succ, same, first, false_and, false_or]
        constructor
        · rintro ⟨bound, bit⟩
          exact ⟨i - 64, ⟨by omega, bit⟩, by omega⟩
        · rintro ⟨j, ⟨bound, bit⟩, sum⟩
          have back : i - 64 = j := by omega
          rw [back]
          exact ⟨by omega, bit⟩
    have apart : Disjoint ((Finset.range 64).filter fun i => word.getLsbD i = true)
        ((({ words, count := c } : TombstoneSet).marked (64 * words.length)).map (addRightEmbedding 64)) := by
      rw [Finset.disjoint_left]
      intro i low high
      simp only [Finset.mem_filter, Finset.mem_range, Finset.mem_map, addRightEmbedding_apply] at low high
      obtain ⟨j, _, sum⟩ := high
      omega
    rw [List.map_cons, List.sum_cons, List.length_cons, split, Finset.card_union_of_disjoint apart,
      Finset.card_map, ← ih]
    rfl

/-- Words whose tail is clear mark only rows. -/
theorem test_lt_of_tail {words : List (BitVec 64)} {c rows i : Nat} (length : words.length = wordsFor rows)
    (tail : ¬(rows % 64 ≠ 0 ∧ (words.getLastD 0#64) >>> (rows % 64) ≠ 0#64))
    (bit : ({ words, count := c } : TombstoneSet).test i = true) : i < rows := by
  by_contra beyond
  unfold test at bit
  unfold wordsFor at length
  by_cases inside : i / 64 < words.length
  · have partialWord : rows % 64 ≠ 0 := by omega
    have last : i / 64 = words.length - 1 := by omega
    have clean : (words.getLastD 0#64) >>> (rows % 64) = 0#64 := by
      by_contra dirty
      exact tail ⟨partialWord, dirty⟩
    have atLast : words.getLastD 0#64 = words[i / 64] := by
      rw [List.getLastD_eq_getLast?, List.getLast?_eq_getElem?, ← last, List.getElem?_eq_getElem inside]
      rfl
    rw [atLast] at clean
    rw [List.getElem?_eq_getElem inside] at bit
    have zero := congrArg (fun v : BitVec 64 => v.getLsbD (i % 64 - rows % 64)) clean
    simp only [BitVec.getLsbD_ushiftRight, BitVec.getLsbD_zero] at zero
    have position : rows % 64 + (i % 64 - rows % 64) = i % 64 := by omega
    rw [position] at zero
    simp only at bit
    rw [bit] at zero
    cases zero
  · have outside : words[i / 64]? = none := List.getElem?_eq_none (by omega)
    simp only [outside] at bit
    cases bit

theorem restore_tracks {words : List (BitVec 64)} {rows : Nat} {s : TombstoneSet}
    (run : restore words rows = some s) : s.words = words ∧ s.Tracks rows := by
  unfold restore at run
  split at run
  · cases run
  split at run
  · cases run
  next size tail =>
  have length : words.length = wordsFor rows := by simpa using size
  cases run
  refine ⟨rfl, by rw [length], fun i bit => test_lt_of_tail length tail bit, ?_⟩
  simp only
  rw [sum_popcount words (words.map popcount).sum]
  congr 1
  ext i
  simp only [mem_marked]
  constructor
  · rintro ⟨_, bit⟩
    exact ⟨test_lt_of_tail length tail bit, bit⟩
  · rintro ⟨bound, bit⟩
    refine ⟨?_, bit⟩
    unfold wordsFor at length
    omega

/-- The words a tracked set writes are accepted, and give back the same set of rows. -/
theorem restore_take {s : TombstoneSet} {rows : Nat} (t : s.Tracks rows) :
    ∃ r, restore (s.words.take (wordsFor rows)) rows = some r ∧ r.words = s.words.take (wordsFor rows) ∧
      (∀ i, r.test i = s.test i) ∧ r.count = s.count ∧ r.Tracks rows := by
  have length : (s.words.take (wordsFor rows)).length = wordsFor rows := by
    rw [List.length_take, min_eq_left t.covers]
  have same (c i : Nat) : ({ words := s.words.take (wordsFor rows), count := c } :
      TombstoneSet).test i = s.test i := by
    unfold test
    simp only
    by_cases inside : i / 64 < wordsFor rows
    · rw [List.getElem?_take_of_lt inside]
    · rw [List.getElem?_eq_none (by rw [length]; omega)]
      have clear := t.fresh (i := i) (by unfold wordsFor at inside; omega)
      exact clear.symm
  have tail : ¬(rows % 64 ≠ 0 ∧ ((s.words.take (wordsFor rows)).getLastD 0#64) >>> (rows % 64) ≠ 0#64) := by
    rintro ⟨partialWord, dirty⟩
    apply dirty
    apply BitVec.eq_of_getLsbD_eq
    intro j bound
    rw [BitVec.getLsbD_ushiftRight, BitVec.getLsbD_zero]
    have inside : wordsFor rows - 1 < (s.words.take (wordsFor rows)).length := by
      rw [length]; unfold wordsFor; omega
    have last : (s.words.take (wordsFor rows)).getLastD 0#64 =
        (s.words.take (wordsFor rows))[wordsFor rows - 1] := by
      rw [List.getLastD_eq_getLast?, List.getLast?_eq_getElem?, length, List.getElem?_eq_getElem inside]
      rfl
    rw [last]
    by_cases high : rows % 64 + j < 64
    · have clear := t.fresh (i := 64 * (wordsFor rows - 1) + (rows % 64 + j)) (by unfold wordsFor; omega)
      rw [← same s.count, test] at clear
      have word : (64 * (wordsFor rows - 1) + (rows % 64 + j)) / 64 = wordsFor rows - 1 := by omega
      have bit : (64 * (wordsFor rows - 1) + (rows % 64 + j)) % 64 = rows % 64 + j := by omega
      simp only [word, bit, List.getElem?_eq_getElem inside] at clear
      exact clear
    · exact BitVec.getLsbD_of_ge _ _ (by omega)
  have run : restore (s.words.take (wordsFor rows)) rows =
      some { words := s.words.take (wordsFor rows)
             count := ((s.words.take (wordsFor rows)).map popcount).sum } := by
    rw [restore, if_neg (by rw [length]; simp), if_neg tail]
  have tracks := (restore_tracks run).2
  refine ⟨_, run, rfl, same _, ?_, tracks⟩
  rw [tracks.exact, t.exact]
  congr 1
  ext i
  rw [mem_marked, mem_marked, same]

/-- The counter says whether there are marks. -/
theorem Tracks.any_and_test {s : TombstoneSet} {rows : Nat} (tracks : s.Tracks rows) (id : Nat) :
    (s.any && s.test id) = s.test id := by
  cases dead : s.test id with
  | false => exact Bool.and_false _
  | true =>
    have some : 0 < (s.marked rows).card := Finset.card_pos.mpr ⟨id, mem_marked.mpr ⟨tracks.below id dead, dead⟩⟩
    have any : s.any = true := by
      rw [TombstoneSet.any, decide_eq_true_eq, tracks.exact]
      omega
    rw [any]
    rfl

end TombstoneSet
end VectorForge
