import VectorForge.Hnsw.Io

namespace VectorForge.HnswIo
open Format LittleEndian

variable {s : GraphSections} {shape : GraphShape}

/-- Level of node `i` as the LEVELS section has it. -/
def levelAt (s : GraphSections) (i : Nat) : Nat := (s.levels.getD i 0).toNat

/-- Words of UPPER_LINKS in front of node `i`. -/
def wordsBefore (s : GraphSections) (m i : Nat) : Nat := ((s.levels.take i).map fun b => b.toNat * (m + 1)).sum

/-- What the size checks of `decode` establish. -/
structure Sized (s : GraphSections) (shape : GraphShape) : Prop where
  levels : s.levels.length = shape.nodeCount
  l0 : s.l0Links.length = shape.nodeCount * (2 * shape.m + 1) * 4
  l0Fits : s.l0Links.length < 2 ^ 64
  index : s.upperIndex.length = shape.nodeCount * 8
  indexFits : s.upperIndex.length < 2 ^ 64
  upper : s.upperLinks.length = wordsBefore s shape.m shape.nodeCount * 4
  upperFits : s.upperLinks.length < 2 ^ 64

section Words

theorem getU32_ok {bytes : List Byte} {word : Nat} (fits : word * 4 + 4 ≤ bytes.length)
    (small : bytes.length < 2 ^ 64) : getU32 bytes word = .ok (leValue ((bytes.drop (word * 4)).take 4)) := by
  rw [getU32, Outcome.mul_ok (by omega), Outcome.ok_bind, Outcome.slice_ok fits, Outcome.ok_bind,
    Outcome.pure_eq_ok]

theorem getU64_ok {bytes : List Byte} {index : Nat} (fits : index * 8 + 8 ≤ bytes.length)
    (small : bytes.length < 2 ^ 64) : getU64 bytes index = .ok (leValue ((bytes.drop (index * 8)).take 8)) := by
  rw [getU64, Outcome.mul_ok (by omega), Outcome.ok_bind, Outcome.slice_ok fits, Outcome.ok_bind,
    Outcome.pure_eq_ok]

theorem levelAt_index {i : Nat} (inside : i < s.levels.length) :
    (Outcome.index s.levels i : Checked Byte) = .ok s.levels[i] ∧ s.levels[i].toNat = levelAt s i := by
  refine ⟨Outcome.index_ok inside, ?_⟩
  rw [levelAt, List.getD_eq_getElem?_getD, List.getElem?_eq_getElem inside]
  rfl

theorem wordsBefore_succ {m i : Nat} (inside : i < s.levels.length) :
    wordsBefore s m (i + 1) = wordsBefore s m i + levelAt s i * (m + 1) := by
  rw [wordsBefore, wordsBefore, ← (levelAt_index inside).2, List.take_add_one, List.getElem?_eq_getElem inside]
  simp only [Option.toList_some, List.map_append, List.map_cons, List.map_nil, List.sum_append, List.sum_singleton]

theorem wordsBefore_mono {m i j : Nat} (order : i ≤ j) (inside : j ≤ s.levels.length) :
    wordsBefore s m i ≤ wordsBefore s m j := by
  induction j, order using Nat.le_induction with
  | base => exact le_rfl
  | succ j _ ih =>
    have step := wordsBefore_succ (s := s) (m := m) (i := j) (by omega)
    have before := ih (by omega)
    omega

theorem upperLinkWordsOf_eq_some {m : Nat} : ∀ {levels : List Byte} {words total : Nat}, words < 2 ^ 64 →
    (upperLinkWordsOf m levels words = some total ↔
      words + (levels.map fun b => b.toNat * (m + 1)).sum < 2 ^ 64 ∧
        total = words + (levels.map fun b => b.toNat * (m + 1)).sum)
  | [], words, total, small => by
    simp only [upperLinkWordsOf, Option.some.injEq, List.map_nil, List.sum_nil, Nat.add_zero, small, true_and]
    exact eq_comm
  | b :: rest, words, total, small => by
    rw [upperLinkWordsOf, List.map_cons, List.sum_cons]
    by_cases product : b.toNat * (m + 1) < 2 ^ 64
    · rw [checkedMul_eq_some.mpr ⟨product, rfl⟩, Option.bind_some]
      by_cases sum : words + b.toNat * (m + 1) < 2 ^ 64
      · rw [(checkedAdd_eq_some product).mpr ⟨sum, rfl⟩, Option.bind_some, upperLinkWordsOf_eq_some sum]
        omega
      · have none : checkedAdd 64 words (b.toNat * (m + 1)) = none := by
          cases h : checkedAdd 64 words (b.toNat * (m + 1)) with
          | none => rfl
          | some v => exact absurd ((checkedAdd_eq_some product).mp h).1 sum
        rw [none]
        simp
        omega
    · have none : checkedMul 64 b.toNat (m + 1) = none := by
        cases h : checkedMul 64 b.toNat (m + 1) with
        | none => rfl
        | some v => exact absurd (checkedMul_eq_some.mp h).1 product
      rw [none]
      simp
      omega

end Words

section Slots

/-- A list that may be stored: existing, different, high enough and distinct ids. -/
structure IdsOk (s : GraphSections) (n node level : Nat) (ids : List Nat) : Prop where
  exists_ : ∀ x ∈ ids, x < n
  other : ∀ x ∈ ids, x ≠ node
  high : ∀ x ∈ ids, level ≤ levelAt s x
  distinct : ids.Nodup

/-- The stamps while list `number` is read: exactly the ids read so far carry it. -/
structure Stamped (n number : Nat) (read : List Nat × List Nat) : Prop where
  length : read.2.length = n
  current : ∀ x, x < n → (read.2.getD x 0 = number ↔ x ∈ read.1)
  bounded : ∀ x, read.2.getD x 0 ≤ number

theorem IdsOk.nil {n node level : Nat} : IdsOk s n node level [] :=
  ⟨by simp, by simp, by simp, List.nodup_nil⟩

theorem IdsOk.snoc {n node level id : Nat} {ids : List Nat} (ok : IdsOk s n node level ids) (inside : id < n)
    (other : id ≠ node) (high : level ≤ levelAt s id) (fresh : id ∉ ids) : IdsOk s n node level (ids ++ [id]) := by
  refine ⟨?_, ?_, ?_, ?_⟩
  · intro x member
    rcases List.mem_append.mp member with old | new
    · exact ok.exists_ x old
    · rw [List.mem_singleton.mp new]; exact inside
  · intro x member
    rcases List.mem_append.mp member with old | new
    · exact ok.other x old
    · rw [List.mem_singleton.mp new]; exact other
  · intro x member
    rcases List.mem_append.mp member with old | new
    · exact ok.high x old
    · rw [List.mem_singleton.mp new]; exact high
  · rw [List.nodup_append]
    refine ⟨ok.distinct, List.nodup_singleton id, ?_⟩
    intro a memberA b memberB same
    rw [List.mem_singleton.mp memberB] at same
    exact fresh (same ▸ memberA)

theorem Stamped.start {n number : Nat} {stamp : List Nat} (length : stamp.length = n)
    (bounded : ∀ x, stamp.getD x 0 ≤ number) : Stamped n (number + 1) ([], stamp) := by
  refine ⟨length, ?_, fun x => Nat.le_succ_of_le (bounded x)⟩
  intro x _
  have below := bounded x
  simp only [List.not_mem_nil, iff_false]
  omega

theorem getD_set {l : List Nat} {i v x : Nat} (inside : i < l.length) :
    (l.set i v).getD x 0 = if x = i then v else l.getD x 0 := by
  simp only [List.getD_eq_getElem?_getD, List.getElem?_set]
  by_cases same : i = x
  · subst same
    simp [inside]
  · simp [same, Ne.symm same]

theorem Stamped.snoc {n number id : Nat} {ids stamp : List Nat} (stamped : Stamped n number (ids, stamp))
    (inside : id < n) : Stamped n number (ids ++ [id], stamp.set id number) := by
  have room : id < stamp.length := stamped.length ▸ inside
  refine ⟨by simpa using stamped.length, ?_, ?_⟩
  · intro x bound
    simp only [getD_set room, List.mem_append, List.mem_singleton]
    by_cases same : x = id
    · simp [same]
    · simp only [same, if_false, or_false]
      exact stamped.current x bound
  · intro x
    simp only [getD_set room]
    split
    · exact le_rfl
    · exact stamped.bounded x

/-- One slot: no access outside the sections, and what is kept may be stored. -/
theorem decodeSlot_sat {p : ListPlace} {n j : Nat} {read : List Nat × List Nat} (levels : s.levels.length = n)
    (fits : (p.first + 1 + j) * 4 + 4 ≤ p.bytes.length) (small : p.bytes.length < 2 ^ 64)
    (ok : IdsOk s n p.node p.level read.1) (count : read.1.length ≤ min j p.count)
    (stamped : Stamped n p.number read) :
    Outcome.Sat (decodeSlot s n p j read) fun next =>
      IdsOk s n p.node p.level next.1 ∧ next.1.length ≤ min (j + 1) p.count ∧ Stamped n p.number next := by
  unfold decodeSlot
  rw [Outcome.add_ok (by omega), Outcome.ok_bind, Outcome.add_ok (by omega), Outcome.ok_bind,
    getU32_ok fits small, Outcome.ok_bind]
  generalize leValue ((p.bytes.drop ((p.first + 1 + j) * 4)).take 4) = id
  split
  · next unused =>
    split
    · exact True.intro
    · exact ⟨ok, by omega, stamped⟩
  next used =>
  split
  · exact True.intro
  next inside =>
  split
  · exact True.intro
  next other =>
  have bound : id < s.levels.length := by omega
  rw [(levelAt_index bound).1, Outcome.ok_bind, (levelAt_index bound).2]
  split
  · exact True.intro
  next high =>
  have room : id < read.2.length := by rw [stamped.length]; omega
  rw [Outcome.index_ok room, Outcome.ok_bind]
  split
  · exact True.intro
  next unseen =>
  have fresh : id ∉ read.1 := by
    intro member
    apply unseen
    have mark := (stamped.current id (by omega)).mpr member
    rwa [List.getD_eq_getElem?_getD, List.getElem?_eq_getElem room] at mark
  refine ⟨ok.snoc (by omega) other (by omega) fresh, ?_, stamped.snoc (by omega)⟩
  rw [List.length_append, List.length_singleton]
  omega

end Slots

section Lists

/-- The graph while it is rebuilt: `count` nodes are there, and the lists that
`done` names are filled in. -/
structure Progress (s : GraphSections) (shape : GraphShape) (count : Nat) (done : Nat → Nat → Prop)
    (g : HnswGraph) : Prop where
  m : g.m = shape.m
  maxLevel : g.maxLevel = shape.maxLevelCap
  levels : g.levels = (s.levels.take count).map (·.toNat)
  entry : g.entry = {}
  laid : g.Laid
  lists : ∀ node l, done node l → (g.links node l).length ≤ g.capacity l ∧
    IdsOk s shape.nodeCount node l (g.links node l)

theorem level_of_prefix {count i : Nat} {g : HnswGraph} (levels : g.levels = (s.levels.take count).map (·.toNat))
    (inside : i < count) : g.level i = levelAt s i := by
  rw [HnswGraph.level, levels, levelAt, List.getD_eq_getElem?_getD, List.getD_eq_getElem?_getD, List.getElem?_map,
    List.getElem?_take_of_lt inside]
  cases s.levels[i]? <;> rfl

theorem Progress.nodeCount {count : Nat} {done : Nat → Nat → Prop} {g : HnswGraph}
    (progress : Progress s shape count done g) (inside : count ≤ s.levels.length) : g.nodeCount = count := by
  rw [HnswGraph.nodeCount, progress.levels, List.length_map, List.length_take, min_eq_left inside]

theorem Progress.weaken {count : Nat} {done fewer : Nat → Nat → Prop} {g : HnswGraph}
    (progress : Progress s shape count done g) (weaker : ∀ node l, fewer node l → done node l) :
    Progress s shape count fewer g :=
  ⟨progress.m, progress.maxLevel, progress.levels, progress.entry, progress.laid,
    fun node l h => progress.lists node l (weaker node l h)⟩

/-- A new node starts with empty lists and disturbs no other. -/
theorem Progress.addNode {i : Nat} {done : Nat → Nat → Prop} {g h : HnswGraph}
    (progress : Progress s shape i done g) (inside : i < s.levels.length) (old : ∀ node l, done node l → node < i)
    (run : g.addNode (levelAt s i) = .ok h) : Progress s shape (i + 1) done h := by
  obtain ⟨_, _, levels, m, maxLevel, entry, words⟩ := HnswGraph.addNode_spec run
  have count := progress.nodeCount inside.le
  refine ⟨m.trans progress.m, maxLevel.trans progress.maxLevel, ?_, entry.trans progress.entry,
    progress.laid.addNode run, ?_⟩
  · rw [levels, progress.levels, List.take_add_one, List.getElem?_eq_getElem inside, ← (levelAt_index inside).2]
    simp only [Option.toList_some, List.map_append, List.map_cons, List.map_nil]
  · intro node l member
    have different : node ≠ g.nodeCount := by
      have bound := old node l member
      omega
    have same : h.links node l = g.links node l := by
      simp only [HnswGraph.links, words, if_neg different]
    have capacity : h.capacity l = g.capacity l := by rw [HnswGraph.capacity, HnswGraph.capacity, m]
    rw [same, capacity]
    exact progress.lists node l member

theorem Progress.storeList {i l : Nat} {ids : List Nat} {done : Nat → Nat → Prop} {g : HnswGraph}
    (progress : Progress s shape (i + 1) done g) (room : ids.length ≤ g.capacity l)
    (ok : IdsOk s shape.nodeCount i l ids) :
    Progress s shape (i + 1) (fun node k => (node = i ∧ k = l) ∨ done node k) (g.storeList i l ids) := by
  have shapes := HnswGraph.storeList_shape g i l ids
  refine ⟨shapes.m.trans progress.m, shapes.maxLevel.trans progress.maxLevel, shapes.levels.trans progress.levels,
    (HnswGraph.storeList_entry ids).trans progress.entry, progress.laid.of_shape shapes.symm, ?_⟩
  intro node k member
  rw [shapes.capacity_eq]
  by_cases here : node = i ∧ k = l
  · obtain ⟨rfl, rfl⟩ := here
    rw [HnswGraph.links_storeList]
    exact ⟨room, ok⟩
  · rw [HnswGraph.links_storeList_of_ne ids here]
    exact progress.lists node k (member.resolve_left here)

/-- The state of the node loop with the lists `done` behind it. -/
structure Decoded (s : GraphSections) (shape : GraphShape) (count offset : Nat) (done : Nat → Nat → Prop)
    (d : Decoding) : Prop where
  graph : Progress s shape count done d.graph
  stamps : d.stamp.length = shape.nodeCount
  bounded : ∀ x, d.stamp.getD x 0 ≤ d.listNumber
  offset : d.expectedOffset = offset

/-- Where a list starts in its section, and that it fits there. -/
theorem Sized.list_fits (sized : Sized s shape) {i l : Nat} (inside : i < shape.nodeCount)
    (level : l ≤ levelAt s i) :
    let bytes := if l = 0 then s.l0Links else s.upperLinks
    let capacity := if l = 0 then 2 * shape.m else shape.m
    let first := if l = 0 then i * (2 * shape.m + 1) else wordsBefore s shape.m i + (l - 1) * (shape.m + 1)
    (first + 1 + capacity) * 4 ≤ bytes.length ∧ bytes.length < 2 ^ 64 := by
  simp only
  by_cases base : l = 0
  · have step := Nat.mul_le_mul_right (2 * shape.m + 1) (Nat.succ_le_of_lt inside)
    rw [Nat.succ_mul] at step
    simp only [base, if_true]
    refine ⟨?_, sized.l0Fits⟩
    rw [sized.l0]
    omega
  · have bound : i < s.levels.length := by rw [sized.levels]; exact inside
    have next := wordsBefore_succ (m := shape.m) bound
    have total := wordsBefore_mono (s := s) (m := shape.m) (show i + 1 ≤ shape.nodeCount from inside)
      (by rw [sized.levels])
    have block := Nat.mul_le_mul_right (shape.m + 1) (show l - 1 + 1 ≤ levelAt s i by omega)
    rw [Nat.succ_mul] at block
    simp only [base, if_false]
    refine ⟨?_, sized.upperFits⟩
    rw [sized.upper]
    omega

theorem decodeList_sat (sized : Sized s shape) {i l : Nat} {done : Nat → Nat → Prop} {d : Decoding}
    (inside : i < shape.nodeCount) (level : l ≤ levelAt s i)
    (before : Decoded s shape (i + 1) (wordsBefore s shape.m i) done d) :
    Outcome.Sat (decodeList s shape i l d)
      (Decoded s shape (i + 1) (wordsBefore s shape.m i) fun node k => (node = i ∧ k = l) ∨ done node k) := by
  obtain ⟨fits, small⟩ := sized.list_fits inside level
  have start : (if l = 0 then (Outcome.mul 64 i (2 * shape.m + 1) : Checked Nat)
      else do
        let block ← Outcome.mul 64 (l - 1) (shape.m + 1)
        Outcome.add 64 d.expectedOffset block) =
      .ok (if l = 0 then i * (2 * shape.m + 1) else wordsBefore s shape.m i + (l - 1) * (shape.m + 1)) := by
    by_cases base : l = 0
    · simp only [base, if_true] at fits small ⊢
      rw [Outcome.mul_ok (by omega)]
    · simp only [base, if_false] at fits small ⊢
      rw [Outcome.mul_ok (by omega), Outcome.ok_bind, before.offset, Outcome.add_ok (by omega)]
  unfold decodeList
  simp only
  rw [start, Outcome.ok_bind]
  generalize (if l = 0 then s.l0Links else s.upperLinks) = bytes at fits small ⊢
  generalize firstWord : (if l = 0 then i * (2 * shape.m + 1)
    else wordsBefore s shape.m i + (l - 1) * (shape.m + 1)) = first at fits ⊢
  generalize capacityIs : (if l = 0 then 2 * shape.m else shape.m) = capacity at fits ⊢
  rw [getU32_ok (by omega) small, Outcome.ok_bind]
  generalize leValue ((bytes.drop (first * 4)).take 4) = count
  split
  · exact True.intro
  next room =>
  refine Outcome.Sat.bind (Outcome.Sat.loop
    (fun j read => IdsOk s shape.nodeCount i l read.1 ∧ read.1.length ≤ min j count ∧
      Stamped shape.nodeCount (d.listNumber + 1) read)
    ⟨IdsOk.nil, by simp, Stamped.start before.stamps before.bounded⟩ ?_) ?_
  · rintro j read - high ⟨ok, length, stamped⟩
    have bound : j < capacity := by omega
    exact decodeSlot_sat (p := ⟨i, l, bytes, _, first, count, d.listNumber + 1⟩) sized.levels
      (by simp only; omega) small ok length stamped
  · rintro ⟨ids, stamp⟩ - ⟨ok, length, stamped⟩
    simp only at ok length ⊢
    have capacityEq : d.graph.capacity l = capacity := by
      rw [HnswGraph.capacity, before.graph.m]
      exact capacityIs
    have bound : i < s.levels.length := by rw [sized.levels]; exact inside
    have listed : d.graph.hasList i l = true := by
      rw [HnswGraph.hasList, before.graph.nodeCount (Nat.succ_le_of_lt bound),
        level_of_prefix before.graph.levels (Nat.lt_succ_self i)]
      simp [level]
    have fitsList : ids.length ≤ d.graph.capacity l := by omega
    rw [HnswGraph.setLinks, listed]
    simp only [Outcome.check, fitsList, decide_true, if_true, Outcome.ok_bind,
      Outcome.pure_eq_ok, Outcome.Sat.ok_iff]
    exact ⟨before.graph.storeList fitsList ok, stamped.length, stamped.bounded, before.offset⟩

end Lists

section Nodes

/-- The lists of the nodes in front of node `i`. -/
def Behind (s : GraphSections) (i node l : Nat) : Prop := node < i ∧ l ≤ levelAt s node

theorem decodeNode_sat (sized : Sized s shape) {i : Nat} {d : Decoding} (inside : i < shape.nodeCount)
    (before : Decoded s shape i (wordsBefore s shape.m i) (Behind s i) d) :
    Outcome.Sat (decodeNode s shape i d)
      (Decoded s shape (i + 1) (wordsBefore s shape.m (i + 1)) (Behind s (i + 1))) := by
  have bound : i < s.levels.length := by rw [sized.levels]; exact inside
  have next := wordsBefore_succ (m := shape.m) bound
  have total := wordsBefore_mono (s := s) (m := shape.m) (show i + 1 ≤ shape.nodeCount from inside)
    (by rw [sized.levels])
  have words := sized.upper
  have small := sized.upperFits
  unfold decodeNode
  rw [(levelAt_index bound).1, Outcome.ok_bind]
  simp only [(levelAt_index bound).2]
  rw [getU64_ok (by rw [sized.index]; omega) sized.indexFits, Outcome.ok_bind]
  split
  · exact True.intro
  refine Outcome.Sat.bind (Outcome.Sat.lift _) ?_
  intro g _ grown
  have start : Decoded s shape (i + 1) (wordsBefore s shape.m i)
      (fun node l => Behind s i node l ∨ node = i ∧ l < 0) { d with graph := g } := by
    refine ⟨?_, before.stamps, before.bounded, before.offset⟩
    exact (before.graph.addNode bound (fun node l h => h.1) grown).weaken (by
      rintro node l (old | ⟨_, none⟩)
      · exact old
      · omega)
  refine Outcome.Sat.bind (Outcome.Sat.loop
    (fun l => Decoded s shape (i + 1) (wordsBefore s shape.m i)
      fun node k => Behind s i node k ∨ node = i ∧ k < l) start ?_) ?_
  · intro l e _ high holds
    refine (decodeList_sat sized inside (by omega) holds).mono ?_
    intro f done
    refine ⟨done.graph.weaken ?_, done.stamps, done.bounded, done.offset⟩
    rintro node k (old | ⟨rfl, below⟩)
    · exact Or.inr (Or.inl old)
    · rcases Nat.lt_succ_iff_lt_or_eq.mp below with earlier | rfl
      · exact Or.inr (Or.inr ⟨rfl, earlier⟩)
      · exact Or.inl ⟨rfl, rfl⟩
  · intro e _ holds
    have graph : Progress s shape (i + 1) (Behind s (i + 1)) e.graph := by
      apply holds.graph.weaken
      rintro node k ⟨below, level⟩
      rcases Nat.lt_succ_iff_lt_or_eq.mp below with earlier | rfl
      · exact Or.inl ⟨earlier, level⟩
      · exact Or.inr ⟨rfl, by omega⟩
    split
    · rw [Outcome.mul_ok (by omega), Outcome.ok_bind, holds.offset, Outcome.add_ok (by omega), Outcome.ok_bind]
      exact ⟨graph, holds.stamps, holds.bounded, next.symm⟩
    · next level =>
      have zero : levelAt s i = 0 := by omega
      rw [zero, Nat.zero_mul, Nat.add_zero] at next
      exact ⟨graph, holds.stamps, holds.bounded, by rw [next]; exact holds.offset⟩

/-- The level scan returns the highest level, all of them within the cap. -/
theorem scanLevels_sat {cap n : Nat} (levels : s.levels.length = n) :
    Outcome.Sat (Outcome.loop (scanLevel s cap) n 0 0) fun top =>
      (∀ i, i < n → levelAt s i ≤ cap ∧ levelAt s i ≤ top) ∧ (n ≠ 0 → ∃ i, i < n ∧ levelAt s i = top) := by
  have run := Outcome.Sat.loop (n := n) (i := 0) (s := 0) (f := scanLevel s cap)
    (fun i top => (∀ k, k < i → levelAt s k ≤ cap ∧ levelAt s k ≤ top) ∧
      (top = 0 ∨ ∃ k, k < i ∧ levelAt s k = top)) ⟨by intro k; omega, Or.inl rfl⟩ (by
    rintro i top - high ⟨below, reached⟩
    have bound : i < s.levels.length := by omega
    rw [scanLevel, (levelAt_index bound).1, Outcome.ok_bind]
    simp only [(levelAt_index bound).2]
    split
    · exact True.intro
    next fits =>
    rw [Outcome.pure_eq_ok, Outcome.Sat.ok_iff]
    refine ⟨?_, ?_⟩
    · intro k earlier
      by_cases same : k = i
      · subst same
        refine ⟨by omega, ?_⟩
        split <;> omega
      · have old := below k (by omega)
        refine ⟨old.1, ?_⟩
        split <;> omega
    · split
      · exact Or.inr ⟨i, by omega, rfl⟩
      · rcases reached with zero | ⟨k, earlier, level⟩
        · exact Or.inl zero
        · exact Or.inr ⟨k, by omega, level⟩)
  refine run.mono ?_
  rintro top ⟨below, reached⟩
  rw [Nat.zero_add] at below reached
  refine ⟨below, ?_⟩
  intro some
  rcases reached with zero | found
  · have first := (below 0 (by omega)).2
    exact ⟨0, by omega, by omega⟩
  · exact found

/-- What a decoded graph is, for every input: one node per row, and all of
`check_invariants`. -/
structure DecodedGraph (shape : GraphShape) (g : HnswGraph) : Prop where
  m : g.m = shape.m
  maxLevel : g.maxLevel = shape.maxLevelCap
  nodeCount : g.nodeCount = shape.nodeCount
  laid : g.Laid
  invariants : HnswValidator.Invariants g

theorem decode_sat (small : shape.nodeCount ≤ kMaxVectorsPerCollection) :
    Outcome.Sat (decode s shape) (DecodedGraph shape) := by
  unfold decode
  simp only
  split
  · exact True.intro
  next levels =>
  split
  · exact True.intro
  next l0 =>
  split
  · exact True.intro
  next index =>
  have length : s.levels.length = shape.nodeCount := by simpa using levels
  refine Outcome.Sat.bind (scanLevels_sat length) ?_
  rintro top - ⟨levelsOk, reached⟩
  have entrySpec : Outcome.Sat (ε := Status) (if shape.nodeCount = 0 then
      (return decide (shape.entryPoint = kEmptySlot.toNat ∧ shape.entryLevel = 0) : Checked Bool)
      else if shape.entryPoint ≥ shape.nodeCount then return false
      else do
        let byte ← Outcome.index s.levels shape.entryPoint
        return decide (byte.toNat = shape.entryLevel ∧ shape.entryLevel = top))
      (fun ok => ok = true → shape.nodeCount ≠ 0 →
        shape.entryPoint < shape.nodeCount ∧ levelAt s shape.entryPoint = shape.entryLevel ∧
        shape.entryLevel = top) := by
    split
    · next none => exact fun _ some => absurd none some
    split
    · intro no
      cases no
    · next bound =>
      have inside : shape.entryPoint < s.levels.length := by omega
      rw [(levelAt_index inside).1, Outcome.ok_bind, (levelAt_index inside).2]
      intro ok _
      obtain ⟨atEntry, isTop⟩ := of_decide_eq_true ok
      exact ⟨by omega, atEntry, isTop⟩
  refine Outcome.Sat.bind entrySpec ?_
  intro entryOk _ entry
  split
  · exact True.intro
  next accepted =>
  split
  · exact True.intro
  next upper =>
  have sized : Sized s shape := by
    simp only [ne_eq, not_not] at l0 index upper
    obtain ⟨total, words, bytes⟩ := Option.bind_eq_some_iff.mp upper
    obtain ⟨product, rows, l0Bytes⟩ := Option.bind_eq_some_iff.mp l0
    obtain ⟨_, rfl⟩ := (upperLinkWordsOf_eq_some (by omega)).mp words
    obtain ⟨_, rfl⟩ := checkedMul_eq_some.mp rows
    obtain ⟨fitsUpper, isUpper⟩ := checkedMul_eq_some.mp bytes
    obtain ⟨fitsL0, isL0⟩ := checkedMul_eq_some.mp l0Bytes
    obtain ⟨fitsIndex, isIndex⟩ := checkedMul_eq_some.mp index
    refine ⟨length, isL0, isL0 ▸ fitsL0, isIndex, isIndex ▸ fitsIndex, ?_, isUpper ▸ fitsUpper⟩
    rw [isUpper, wordsBefore, Nat.zero_add, List.take_of_length_le (by omega)]
  split
  · exact True.intro
  next graph created =>
  obtain ⟨rfl, _, _⟩ := HnswGraph.create_blank created
  have start : Decoded s shape 0 (wordsBefore s shape.m 0) (Behind s 0)
      { graph := HnswGraph.blank shape.m shape.maxLevelCap, stamp := List.replicate shape.nodeCount 0 } := by
    refine ⟨⟨rfl, rfl, rfl, rfl, HnswGraph.blank_laid _ _, ?_⟩, by simp, ?_, rfl⟩
    · rintro node l ⟨none, _⟩
      omega
    · intro x
      simp only [List.getD_eq_getElem?_getD, List.getElem?_replicate]
      split <;> simp
  refine Outcome.Sat.bind (Outcome.Sat.loop (fun i => Decoded s shape i (wordsBefore s shape.m i) (Behind s i))
    start (fun i d _ high holds => decodeNode_sat sized (by omega) holds)) ?_
  intro d _ done
  rw [Nat.zero_add] at done
  have count := done.graph.nodeCount (by omega)
  have level : ∀ i, i < shape.nodeCount → d.graph.level i = levelAt s i :=
    fun i inside => level_of_prefix done.graph.levels inside
  have lists : ∀ id l, id < shape.nodeCount → l ≤ levelAt s id → HnswValidator.ListOk d.graph id l := by
    intro id l inside low
    obtain ⟨room, ok⟩ := done.graph.lists id l ⟨inside, low⟩
    refine ⟨room, ?_, ok.other, ?_, ok.distinct⟩
    · rw [count]; exact ok.exists_
    · intro x member
      rw [level x (ok.exists_ x member)]
      exact ok.high x member
  split
  · next some =>
    obtain ⟨inside, atEntry, isTop⟩ := entry (by simpa using accepted) (by omega)
    have shapes : HnswGraph.SameShape (d.graph.setEntry ⟨shape.entryPoint, shape.entryLevel⟩) d.graph :=
      ⟨rfl, rfl, rfl, rfl, rfl, rfl, rfl, rfl, rfl⟩
    refine ⟨done.graph.m, done.graph.maxLevel, count, done.graph.laid.of_shape shapes.symm, ?_⟩
    refine ⟨?_, ?_, ?_, ?_⟩
    · intro zero
      rw [shapes.nodeCount_eq, count] at zero
      omega
    · intro _
      rw [shapes.nodeCount_eq, shapes.level_eq, count]
      refine ⟨?_, inside, ?_⟩
      · simp only [kMaxVectorsPerCollection] at small
        exact decide_eq_true (by simp only [HnswGraph.setEntry]; omega)
      · exact (level _ inside).trans atEntry
    · intro id bound
      rw [shapes.nodeCount_eq, count] at bound
      rw [shapes.level_eq, level id bound]
      have fits := levelsOk id bound
      exact ⟨fits.1.trans_eq done.graph.maxLevel.symm, fits.2.trans_eq isTop.symm⟩
    · intro id l bound low
      rw [shapes.nodeCount_eq, count] at bound
      rw [shapes.level_eq, level id bound] at low
      have ok := lists id l bound low
      exact ⟨ok.count, ok.exists_, ok.other, ok.high, ok.distinct⟩
  · next none =>
    have zero : d.graph.nodeCount = 0 := by omega
    refine ⟨done.graph.m, done.graph.maxLevel, count, done.graph.laid, ?_⟩
    refine ⟨fun _ => by rw [done.graph.entry]; rfl, fun some => absurd zero some, ?_, ?_⟩
    · intro id bound
      omega
    · intro id l bound
      omega

end Nodes
end VectorForge.HnswIo
