import VectorForge.Hnsw.IoSafety

namespace VectorForge.HnswIo
open Format LittleEndian

section Blocks
variable {α : Type}

/-- An element of one block, addressed from the start of all blocks. -/
theorem getElem?_flatten_block {blocks : List (List α)} {i j : Nat} {block : List α}
    (found : blocks[i]? = some block)
    (inside : j < block.length) : blocks.flatten[(blocks.take i).flatten.length + j]? = block[j]? := by
  induction blocks generalizing i with
  | nil => cases found
  | cons first rest ih =>
    cases i with
    | zero =>
      cases found
      simp only [List.take_zero, List.flatten_nil, List.length_nil, Nat.zero_add, List.flatten_cons]
      rw [List.getElem?_append_left inside]
    | succ i =>
      rw [List.take_succ_cons, List.flatten_cons, List.flatten_cons, List.length_append, Nat.add_assoc,
        List.getElem?_append_right (Nat.le_add_right _ _), Nat.add_sub_cancel_left]
      exact ih (by simpa using found)

theorem length_flatten_uniform {blocks : List (List α)} {d : Nat} (uniform : ∀ b ∈ blocks, b.length = d) :
    blocks.flatten.length = blocks.length * d := by
  induction blocks with
  | nil => simp
  | cons first rest ih =>
    rw [List.flatten_cons, List.length_append, uniform first (List.mem_cons_self ..),
      ih (fun b h => uniform b (List.mem_cons_of_mem _ h)), List.length_cons, Nat.succ_mul, Nat.add_comm]

end Blocks

section Words

/-- Little-endian words, one after the other. -/
def wordBytes (width : Nat) (words : List Nat) : List Byte := words.flatMap (leBytes width)

@[simp] theorem length_wordBytes (width : Nat) (words : List Nat) :
    (wordBytes width words).length = words.length * width := by
  rw [wordBytes, List.flatMap_def, length_flatten_uniform (d := width), List.length_map]
  intro b member
  obtain ⟨w, _, rfl⟩ := List.mem_map.mp member
  exact length_leBytes width w

/-- Reading word `i` back. -/
theorem wordBytes_slice {width i w : Nat} {words : List Nat} (found : words[i]? = some w) :
    ((wordBytes width words).drop (i * width)).take width = leBytes width w := by
  induction words generalizing i with
  | nil => cases found
  | cons first rest ih =>
    have head : (leBytes width first).length = width := length_leBytes width first
    cases i with
    | zero =>
      cases found
      rw [wordBytes, List.flatMap_cons, Nat.zero_mul, List.drop_zero, List.take_append_of_le_length (by omega),
        List.take_of_length_le (by omega)]
    | succ i =>
      have skip : (wordBytes width (first :: rest)).drop width = wordBytes width rest := by
        rw [wordBytes, List.flatMap_cons, List.drop_append_of_le_length (by omega),
          List.drop_of_length_le (by omega)]
        rfl
      rw [Nat.succ_mul, Nat.add_comm, ← List.drop_drop, skip]
      exact ih (by simpa using found)

theorem getU32_word {words : List Nat} {i w : Nat} (found : words[i]? = some w) (fits : w < 2 ^ 32)
    (small : words.length * 4 < 2 ^ 64) : getU32 (wordBytes 4 words) i = .ok w := by
  have inside : i < words.length := (List.getElem?_eq_some_iff.mp found).1
  rw [getU32_ok (by rw [length_wordBytes]; omega) (by rw [length_wordBytes]; exact small), wordBytes_slice found,
    leValue_leBytes_of_lt (by omega)]

theorem getU64_word {words : List Nat} {i w : Nat} (found : words[i]? = some w) (fits : w < 2 ^ 64)
    (small : words.length * 8 < 2 ^ 64) : getU64 (wordBytes 8 words) i = .ok w := by
  have inside : i < words.length := (List.getElem?_eq_some_iff.mp found).1
  rw [getU64_ok (by rw [length_wordBytes]; omega) (by rw [length_wordBytes]; exact small), wordBytes_slice found,
    leValue_leBytes_of_lt (by omega)]

end Words

section Sections
variable (g : HnswGraph)

/-- The lists of level 0, one after the other. -/
def l0Blocks : List (List Nat) := (List.range g.nodeCount).map fun i => listWords (g.links i 0) (g.capacity 0)

/-- The upper lists of one node. -/
def nodeBlocks (i : Nat) : List (List Nat) :=
  (List.range (g.level i)).map fun k => listWords (g.links i (k + 1)) (g.capacity (k + 1))

def upperBlocks : List (List Nat) := (List.range g.nodeCount).map fun i => (nodeBlocks g i).flatten

/-- The four sections that the writers produce. -/
def encodedSections : GraphSections where
  levels := wordBytes 1 g.levels
  l0Links := wordBytes 4 (l0Blocks g).flatten
  upperIndex := wordBytes 8 (upperOffsets g.m 0 g.levels)
  upperLinks := wordBytes 4 (upperBlocks g).flatten

variable {g}

section Memory
variable {w : BinaryWriter MemorySink}

theorem foldl_appended {α : Type} {step : BinaryWriter MemorySink → α → BinaryWriter MemorySink} {f : α → List Byte}
    (each : ∀ w a, w.status = none → step w a = w.appended (f a)) (items : List α) :
    ∀ {w : BinaryWriter MemorySink}, w.status = none → items.foldl step w = w.appended (items.flatMap f) := by
  induction items with
  | nil =>
    intro w _
    simp
  | cons a rest ih =>
    intro w clean
    rw [List.foldl_cons, each w a clean, ih (by simpa using clean), BinaryWriter.appended_appended,
      List.flatMap_cons]

theorem array_eq_appended (clean : w.status = none) (width : Nat) (words : List Nat) :
    w.array width words = w.appended (wordBytes width words) := BinaryWriter.bytes_eq_appended clean _

theorem flatMap_wordBytes {α : Type} (f : α → List Nat) (items : List α) (width : Nat) :
    (items.flatMap fun a => wordBytes width (f a)) = wordBytes width (items.map f).flatten := by
  induction items with
  | nil => rfl
  | cons a rest ih =>
    rw [List.flatMap_cons, ih, List.map_cons, List.flatten_cons, wordBytes, wordBytes, wordBytes,
      List.flatMap_append]

theorem writeLevels_eq (clean : w.status = none) : writeLevels w g = w.appended (encodedSections g).levels :=
  array_eq_appended clean 1 g.levels

theorem writeL0Links_eq (clean : w.status = none) : writeL0Links w g = w.appended (encodedSections g).l0Links := by
  rw [writeL0Links, foldl_appended (f := fun i => wordBytes 4 (listWords (g.links i 0) (g.capacity 0))) _ _ clean,
    flatMap_wordBytes]
  · rfl
  · intro w i clean
    exact array_eq_appended clean 4 _

theorem writeUpperIndex_eq (clean : w.status = none) :
    writeUpperIndex w g = w.appended (encodedSections g).upperIndex :=
  foldl_appended (f := leBytes 8) (fun _ _ clean => BinaryWriter.bytes_eq_appended clean _) _ clean

theorem writeUpperLinks_eq (clean : w.status = none) :
    writeUpperLinks w g = w.appended (encodedSections g).upperLinks := by
  rw [writeUpperLinks, foldl_appended (f := fun i => wordBytes 4 (nodeBlocks g i).flatten) _ _ clean,
    flatMap_wordBytes]
  · rfl
  · intro w i clean
    rw [foldl_appended (f := fun k => wordBytes 4 (listWords (g.links i (k + 1)) (g.capacity (k + 1)))) _ _ clean,
      flatMap_wordBytes]
    · rfl
    · intro w k clean
      exact array_eq_appended clean 4 _

end Memory

section Shape

theorem length_listWords {links : List Nat} {capacity : Nat} (fits : links.length ≤ capacity) :
    (listWords links capacity).length = capacity + 1 := by
  simp only [listWords, List.cons_append, List.length_cons, List.length_append, List.length_replicate]
  omega

theorem listWords_count (links : List Nat) (capacity : Nat) :
    (listWords links capacity)[0]? = some links.length := rfl

theorem listWords_slot {links : List Nat} {capacity j : Nat} (inside : j < capacity) :
    (listWords links capacity)[1 + j]? = some (links.getD j kEmptySlot.toNat) := by
  rw [listWords, Nat.add_comm, List.cons_append, List.getElem?_cons_succ]
  by_cases used : j < links.length
  · rw [List.getElem?_append_left used, List.getD_eq_getElem?_getD, List.getElem?_eq_getElem used, Option.getD_some]
  · rw [List.getElem?_append_right (by omega), List.getElem?_replicate, if_pos (by omega),
      List.getD_eq_getElem?_getD, List.getElem?_eq_none (by omega), Option.getD_none]

/-- What the writers need of a graph: lists within capacity, levels that fit a byte. -/
structure Writable (g : HnswGraph) : Prop where
  counts : ∀ id l, id < g.nodeCount → l ≤ g.level id → (g.links id l).length ≤ g.capacity l
  bytes : ∀ id, id < g.nodeCount → g.level id < 256

theorem length_nodeBlocks (ok : Writable g) {i : Nat} (inside : i < g.nodeCount) :
    (nodeBlocks g i).flatten.length = g.level i * (1 + g.m) := by
  rw [length_flatten_uniform (d := 1 + g.m)]
  · simp [nodeBlocks]
  · intro b member
    obtain ⟨k, bound, rfl⟩ := List.mem_map.mp member
    have level := List.mem_range.mp bound
    rw [length_listWords (ok.counts i (k + 1) inside (by omega))]
    simp [HnswGraph.capacity, Nat.add_comm]

theorem level_eq_getElem {i : Nat} (inside : i < g.nodeCount) : g.levels[i]? = some (g.level i) := by
  rw [HnswGraph.level, List.getD_eq_getElem?_getD, List.getElem?_eq_getElem inside, Option.getD_some]

theorem length_upper_take (ok : Writable g) : ∀ {i : Nat}, i ≤ g.nodeCount →
    ((upperBlocks g).take i).flatten.length = ((g.levels.take i).map (· * (1 + g.m))).sum
  | 0, _ => by simp
  | i + 1, bound => by
    have block : (upperBlocks g)[i]? = some (nodeBlocks g i).flatten := by
      rw [upperBlocks, List.getElem?_map, List.getElem?_range bound]
      rfl
    rw [List.take_add_one, block, Option.toList_some, List.flatten_append, List.length_append,
      length_upper_take ok (Nat.le_of_succ_le bound), List.flatten_singleton, length_nodeBlocks ok bound,
      List.take_add_one, level_eq_getElem bound, Option.toList_some, List.map_append, List.sum_append]
    simp

theorem length_upper (ok : Writable g) : (upperBlocks g).flatten.length = upperLinkWords g := by
  have whole := length_upper_take ok (le_refl g.nodeCount)
  rw [List.take_of_length_le (by simp [upperBlocks]),
    List.take_of_length_le (by simp [HnswGraph.nodeCount])] at whole
  exact whole

theorem length_l0 (ok : Writable g) : (l0Blocks g).flatten.length = g.nodeCount * (g.capacity 0 + 1) := by
  rw [length_flatten_uniform (d := g.capacity 0 + 1)]
  · simp [l0Blocks]
  · intro b member
    obtain ⟨i, bound, rfl⟩ := List.mem_map.mp member
    exact length_listWords (ok.counts i 0 (List.mem_range.mp bound) (Nat.zero_le _))

theorem length_upperOffsets (m : Nat) : ∀ {levels : List Nat} {offset : Nat},
    (upperOffsets m offset levels).length = levels.length
  | [], _ => rfl
  | level :: rest, offset => by
    unfold upperOffsets
    split <;> simp [length_upperOffsets m]

/-- The offset stored for node `i`. -/
theorem getElem?_upperOffsets (m : Nat) : ∀ {levels : List Nat} (offset : Nat) {i level : Nat},
    levels[i]? = some level →
    (upperOffsets m offset levels)[i]? = some (if level = 0 then kNoUpperBlock.toNat
      else offset + ((levels.take i).map (· * (1 + m))).sum)
  | [], _, _, _, found => by cases found
  | first :: rest, offset, 0, level, found => by
    cases found
    unfold upperOffsets
    split
    · simp
    · simp
  | first :: rest, offset, i + 1, level, found => by
    have later : rest[i]? = some level := by simpa using found
    unfold upperOffsets
    split
    · next zero =>
      rw [List.getElem?_cons_succ, getElem?_upperOffsets m _ later]
      simp [zero]
    · rw [List.getElem?_cons_succ, getElem?_upperOffsets m _ later]
      simp [Nat.add_assoc]

/-- Word `j` of the level-`l` list of node `i`, where the decoder looks for it. -/
theorem listWord_at (ok : Writable g) {i l j : Nat} (inside : i < g.nodeCount) (level : l ≤ g.level i)
    (bound : j < g.capacity l + 1) :
    (if l = 0 then (l0Blocks g).flatten else (upperBlocks g).flatten)[
      (if l = 0 then i * (2 * g.m + 1)
        else ((g.levels.take i).map (· * (1 + g.m))).sum + (l - 1) * (g.m + 1)) + j]? =
      (listWords (g.links i l) (g.capacity l))[j]? := by
  have width := length_listWords (ok.counts i l inside level)
  by_cases base : l = 0
  · subst base
    have block : (l0Blocks g)[i]? = some (listWords (g.links i 0) (g.capacity 0)) := by
      rw [l0Blocks, List.getElem?_map, List.getElem?_range inside]
      rfl
    have before : ((l0Blocks g).take i).flatten.length = i * (2 * g.m + 1) := by
      rw [length_flatten_uniform (d := 2 * g.m + 1), List.length_take, l0Blocks, List.length_map,
        List.length_range, min_eq_left inside.le]
      intro b member
      obtain ⟨k, inRange, rfl⟩ := List.mem_map.mp (List.mem_of_mem_take member)
      exact length_listWords (ok.counts k 0 (List.mem_range.mp inRange) (Nat.zero_le _))
    simp only [if_true]
    rw [← before]
    exact getElem?_flatten_block block (by omega)
  · obtain ⟨k, rfl⟩ : ∃ k, l = k + 1 := ⟨l - 1, by omega⟩
    simp only [Nat.succ_ne_zero, if_false, Nat.add_sub_cancel]
    have node : (upperBlocks g)[i]? = some (nodeBlocks g i).flatten := by
      rw [upperBlocks, List.getElem?_map, List.getElem?_range inside]
      rfl
    have list : (nodeBlocks g i)[k]? = some (listWords (g.links i (k + 1)) (g.capacity (k + 1))) := by
      rw [nodeBlocks, List.getElem?_map, List.getElem?_range (by omega)]
      rfl
    have before : ((nodeBlocks g i).take k).flatten.length = k * (g.m + 1) := by
      rw [length_flatten_uniform (d := g.m + 1), List.length_take, nodeBlocks, List.length_map, List.length_range,
        min_eq_left (by omega)]
      intro b member
      obtain ⟨k', inRange, rfl⟩ := List.mem_map.mp (List.mem_of_mem_take member)
      have high := List.mem_range.mp inRange
      exact length_listWords (ok.counts i (k' + 1) inside (by omega))
    have inNode : k * (g.m + 1) + j < (nodeBlocks g i).flatten.length := by
      have step := Nat.mul_le_mul_right (g.m + 1) (show k + 1 ≤ g.level i from level)
      have size : g.capacity (k + 1) = g.m := rfl
      rw [length_nodeBlocks ok inside, Nat.add_comm 1 g.m]
      rw [Nat.succ_mul] at step
      omega
    rw [← length_upper_take ok inside.le, Nat.add_assoc, getElem?_flatten_block node inNode, ← before]
    exact getElem?_flatten_block list (by omega)

end Shape

section Decode

/-- A graph as a collection stores it: within the parameter ranges and with the invariants. -/
structure Storable (g : HnswGraph) : Prop where
  laid : g.Laid
  invariants : HnswValidator.Invariants g
  minM : 2 ≤ g.m
  maxM : g.m ≤ 512
  minLevel : 1 ≤ g.maxLevel
  maxLevel : g.maxLevel ≤ 32
  nodes : g.nodeCount ≤ kMaxVectorsPerCollection

/-- What the writer relies on. -/
structure Bounded (g : HnswGraph) : Prop where
  counts : ∀ id l, id < g.nodeCount → l ≤ g.level id → (g.links id l).length ≤ g.capacity l
  levels : ∀ id, id < g.nodeCount → g.level id ≤ g.maxLevel
  maxM : g.m ≤ 512
  maxLevel : g.maxLevel ≤ 32
  nodes : g.nodeCount ≤ kMaxVectorsPerCollection

/-- The shape that METADATA gives for `g`. -/
def encodedShape (g : HnswGraph) : GraphShape where
  nodeCount := g.nodeCount
  m := g.m
  maxLevelCap := g.maxLevel
  entryPoint := if g.entry.valid then g.entry.id else kEmptySlot.toNat
  entryLevel := if g.entry.valid then g.entry.level else 0

theorem Storable.bounded (ok : Storable g) : Bounded g where
  counts := fun id l inside level => (ok.invariants.lists id l inside level).count
  levels := fun id inside => (ok.invariants.levels id inside).1
  maxM := ok.maxM
  maxLevel := ok.maxLevel
  nodes := ok.nodes

theorem Bounded.writable (ok : Bounded g) : Writable g := by
  refine ⟨ok.counts, ?_⟩
  intro id inside
  have level := ok.levels id inside
  have cap := ok.maxLevel
  omega

theorem Storable.writable (ok : Storable g) : Writable g := ok.bounded.writable

theorem wordBytes_one (words : List Nat) : wordBytes 1 words = words.map UInt8.ofNat := by
  rw [wordBytes, List.flatMap_def]
  induction words with
  | nil => rfl
  | cons first rest ih =>
    rw [List.map_cons, List.flatten_cons, ih, leBytes_succ, leBytes_zero]
    rfl

theorem levelAt_encoded (ok : Writable g) {i : Nat} (inside : i < g.nodeCount) :
    levelAt (encodedSections g) i = g.level i := by
  have small := ok.bytes i inside
  simp only [levelAt, encodedSections, wordBytes_one, List.getD_eq_getElem?_getD, List.getElem?_map,
    level_eq_getElem inside, Option.map_some, Option.getD_some, UInt8.toNat_ofNat']
  omega

theorem levels_bytes (ok : Writable g) : (encodedSections g).levels.map (·.toNat) = g.levels := by
  rw [encodedSections, wordBytes_one, List.map_map]
  conv_rhs => rw [← List.map_id g.levels]
  apply List.map_congr_left
  intro level member
  obtain ⟨i, inside, rfl⟩ := List.mem_iff_getElem.mp member
  have small := ok.bytes i inside
  have same := level_eq_getElem (g := g) inside
  rw [List.getElem?_eq_getElem inside] at same
  rw [Option.some.inj same]
  simp only [Function.comp, UInt8.toNat_ofNat', id]
  omega

theorem wordsBefore_encoded (ok : Writable g) (i : Nat) :
    wordsBefore (encodedSections g) g.m i = ((g.levels.take i).map (· * (1 + g.m))).sum := by
  rw [wordsBefore, ← levels_bytes ok, ← List.map_take, List.map_map, Nat.add_comm 1 g.m]
  rfl

theorem upperLinkWords_le (ok : Bounded g) : upperLinkWords g ≤ g.nodeCount * (32 * 513) := by
  rw [upperLinkWords, HnswGraph.nodeCount, ← List.length_map (· * (1 + g.m))]
  rw [Nat.mul_comm]
  have bound := List.sum_le_card_nsmul (g.levels.map (· * (1 + g.m))) (32 * 513) (by
    intro x member
    obtain ⟨level, inLevels, rfl⟩ := List.mem_map.mp member
    obtain ⟨i, inside, rfl⟩ := List.mem_iff_getElem.mp inLevels
    have same := level_eq_getElem (g := g) inside
    rw [List.getElem?_eq_getElem inside] at same
    rw [Option.some.inj same]
    have level := ok.levels i inside
    have cap := ok.maxLevel
    have m := ok.maxM
    exact Nat.mul_le_mul (by omega) (by omega))
  simpa [Nat.mul_comm] using bound

theorem Bounded.sized (ok : Bounded g) : Sized (encodedSections g) (encodedShape g) := by
  have nodes := ok.nodes
  have m := ok.maxM
  have words := upperLinkWords_le ok
  have l0 : (encodedSections g).l0Links.length = g.nodeCount * (2 * g.m + 1) * 4 := by
    rw [encodedSections, length_wordBytes, length_l0 ok.writable]
    rfl
  have l0Bound : g.nodeCount * (2 * g.m + 1) ≤ kMaxVectorsPerCollection * 1025 := Nat.mul_le_mul nodes (by omega)
  have index : (encodedSections g).upperIndex.length = g.nodeCount * 8 := by
    rw [encodedSections, length_wordBytes, length_upperOffsets]
    rfl
  have upper : (encodedSections g).upperLinks.length = upperLinkWords g * 4 := by
    rw [encodedSections, length_wordBytes, length_upper ok.writable]
  simp only [kMaxVectorsPerCollection, kInvalidInternalId] at nodes l0Bound
  refine ⟨?_, l0, ?_, index, ?_, ?_, ?_⟩
  · rw [encodedSections, length_wordBytes, Nat.mul_one]
    rfl
  · rw [l0]; omega
  · rw [index]; omega
  · show _ = wordsBefore (encodedSections g) g.m g.nodeCount * 4
    rw [upper, wordsBefore_encoded ok.writable, List.take_of_length_le (by simp [HnswGraph.nodeCount])]
    rfl
  · rw [upper]; omega

theorem decodeSlot_yields {s : GraphSections} {n j : Nat} {p : ListPlace} {links : List Nat}
    {read : List Nat × List Nat} (word : getU32 p.bytes (p.first + 1 + j) = .ok (links.getD j kEmptySlot.toNat))
    (small : p.first + 1 + j < 2 ^ 64) (count : p.count = links.length) (length : s.levels.length = n)
    (each : ∀ x ∈ links, x < n ∧ x ≠ p.node ∧ p.level ≤ levelAt s x) (distinct : links.Nodup)
    (before : read.1 = links.take j) (stamped : Stamped n p.number read) :
    Outcome.Yields (decodeSlot s n p j read) fun next => next.1 = links.take (j + 1) := by
  unfold decodeSlot
  rw [Outcome.add_ok (by omega), Outcome.ok_bind, Outcome.add_ok small, Outcome.ok_bind, word, Outcome.ok_bind]
  by_cases used : j < links.length
  · have value : links.getD j kEmptySlot.toNat = links[j] := by
      rw [List.getD_eq_getElem?_getD, List.getElem?_eq_getElem used, Option.getD_some]
    obtain ⟨inside, other, high⟩ := each links[j] (List.getElem_mem used)
    have bound : links[j] < s.levels.length := by rw [length]; exact inside
    have room : links[j] < read.2.length := by rw [stamped.length]; exact inside
    have fresh : links[j] ∉ read.1 := by
      rw [before]
      intro member
      obtain ⟨k, bound, same⟩ := List.mem_iff_getElem.mp member
      rw [List.length_take] at bound
      rw [List.getElem_take] at same
      have equal := (List.Nodup.getElem_inj_iff distinct).mp same
      omega
    have unseen : read.2[links[j]] ≠ p.number := by
      intro marked
      apply fresh
      rw [← stamped.current _ inside, List.getD_eq_getElem?_getD, List.getElem?_eq_getElem room, Option.getD_some]
      exact marked
    rw [value, if_neg (by omega), if_neg (by omega), if_neg other, (levelAt_index bound).1, Outcome.ok_bind,
      (levelAt_index bound).2, if_neg (by omega), Outcome.index_ok room, Outcome.ok_bind, if_neg unseen]
    refine ⟨_, rfl, ?_⟩
    rw [before, List.take_add_one, List.getElem?_eq_getElem used]
    rfl
  · have value : links.getD j kEmptySlot.toNat = kEmptySlot.toNat := by
      rw [List.getD_eq_getElem?_getD, List.getElem?_eq_none (by omega), Option.getD_none]
    rw [value, if_pos (by omega), if_neg (by simp)]
    refine ⟨read, rfl, before.trans ?_⟩
    rw [List.take_of_length_le (by omega), List.take_of_length_le (by omega)]

/-- The graph under construction next to the graph that was written. -/
structure Rebuilt (g : HnswGraph) (count : Nat) (done : Nat → Nat → Prop) (d : Decoding) : Prop where
  shape : ∃ h, HnswGraph.addNodes (HnswGraph.blank g.m g.maxLevel) (g.levels.take count) = .ok h ∧
    HnswGraph.SameShape h d.graph
  entry : d.graph.entry = {}
  links : ∀ node l, done node l → d.graph.links node l = g.links node l

theorem decodeList_yields (ok : Storable g) {i l : Nat} {done : Nat → Nat → Prop} {d : Decoding}
    (inside : i < g.nodeCount) (level : l ≤ g.level i)
    (safe : Decoded (encodedSections g) (encodedShape g) (i + 1) (wordsBefore (encodedSections g) g.m i) done d)
    (before : Rebuilt g (i + 1) done d) :
    Outcome.Yields (decodeList (encodedSections g) (encodedShape g) i l d)
      (Rebuilt g (i + 1) fun node k => (node = i ∧ k = l) ∨ done node k) := by
  have sized := ok.bounded.sized
  have levelSame := levelAt_encoded ok.writable inside
  obtain ⟨fits, small⟩ := sized.list_fits (i := i) (l := l) inside (by rw [levelSame]; exact level)
  have listOk := ok.invariants.lists i l inside level
  have capacityIs : (if l = 0 then 2 * (encodedShape g).m else (encodedShape g).m) = g.capacity l := rfl
  have bytesIs : (if l = 0 then (encodedSections g).l0Links else (encodedSections g).upperLinks) =
      wordBytes 4 (if l = 0 then (l0Blocks g).flatten else (upperBlocks g).flatten) := by
    split <;> rfl
  have start : (if l = 0 then (Outcome.mul 64 i (2 * (encodedShape g).m + 1) : Checked Nat)
      else do
        let block ← Outcome.mul 64 (l - 1) ((encodedShape g).m + 1)
        Outcome.add 64 d.expectedOffset block) =
      .ok (if l = 0 then i * (2 * g.m + 1) else wordsBefore (encodedSections g) g.m i + (l - 1) * (g.m + 1)) := by
    by_cases base : l = 0
    · simp only [base, if_true] at fits small ⊢
      rw [Outcome.mul_ok (by omega)]
      rfl
    · have shapeM : (encodedShape g).m = g.m := rfl
      simp only [base, if_false, shapeM] at fits small ⊢
      rw [Outcome.mul_ok (by omega), Outcome.ok_bind, safe.offset, Outcome.add_ok (by omega)]
  have word (j : Nat) (bound : j < g.capacity l + 1) := listWord_at ok.writable inside level bound
  rw [← wordsBefore_encoded ok.writable] at word
  simp only [capacityIs, bytesIs] at fits small
  unfold decodeList
  simp only [start, Outcome.ok_bind, capacityIs, bytesIs]
  generalize firstIs : (if l = 0 then i * (2 * g.m + 1)
    else wordsBefore (encodedSections g) g.m i + (l - 1) * (g.m + 1)) = first at fits word ⊢
  have firstSame : (if l = 0 then i * (2 * (encodedShape g).m + 1)
    else wordsBefore (encodedSections g) (encodedShape g).m i +
      (l - 1) * ((encodedShape g).m + 1)) = first := firstIs
  rw [firstSame] at fits
  generalize (if l = 0 then (l0Blocks g).flatten else (upperBlocks g).flatten) = words at fits small word ⊢
  rw [length_wordBytes] at fits small
  have nodes := ok.nodes
  simp only [kMaxVectorsPerCollection, kInvalidInternalId] at nodes
  have countWord : getU32 (wordBytes 4 words) first = .ok (g.links i l).length := by
    have m := ok.maxM
    have cap : g.capacity l ≤ 1024 := by
      simp only [HnswGraph.capacity]
      split <;> omega
    have counted := listOk.count
    exact getU32_word (by rw [← Nat.add_zero first, word 0 (by omega), listWords_count]) (by omega) small
  rw [countWord, Outcome.ok_bind, if_neg (by have := listOk.count; omega)]
  have slots := Outcome.Yields.loop
    (f := decodeSlot (encodedSections g) (encodedShape g).nodeCount
      { node := i, level := l, bytes := wordBytes 4 words, name := if l = 0 then "L0_LINKS" else "UPPER_LINKS",
        first, count := (g.links i l).length, number := d.listNumber + 1 })
    (fun j read => read.1 = (g.links i l).take j ∧
      IdsOk (encodedSections g) g.nodeCount i l read.1 ∧ read.1.length ≤ min j (g.links i l).length ∧
      Stamped g.nodeCount (d.listNumber + 1) read)
    (n := g.capacity l) (i := 0) (s := ([], d.stamp))
    ⟨rfl, IdsOk.nil, by simp, Stamped.start safe.stamps safe.bounded⟩ (by
    rintro j read - high ⟨taken, idsOk, length, stamped⟩
    have slot : getU32 (wordBytes 4 words) (first + 1 + j) = .ok ((g.links i l).getD j kEmptySlot.toNat) := by
      apply getU32_word
      · rw [Nat.add_assoc, word (1 + j) (by omega), listWords_slot (by omega)]
      · rw [List.getD_eq_getElem?_getD]
        cases found : (g.links i l)[j]? with
        | none => decide
        | some x =>
          have member := listOk.exists_ x (List.mem_of_getElem? found)
          simp only [Option.getD_some]
          omega
      · exact small
    refine (decodeSlot_yields (p := ⟨i, l, wordBytes 4 words, _, first, _, d.listNumber + 1⟩) slot
      (by simp only; omega) rfl sized.levels ?_ listOk.distinct taken stamped).and_sat
      (decodeSlot_sat (p := ⟨i, l, wordBytes 4 words, _, first, _, d.listNumber + 1⟩) sized.levels
        (by simp only [length_wordBytes]; omega) (by rw [length_wordBytes]; exact small) idsOk length stamped)
    intro x member
    have there := listOk.exists_ x member
    refine ⟨there, listOk.other x member, ?_⟩
    rw [levelAt_encoded ok.writable there]
    exact listOk.high x member)
  refine Outcome.Yields.bind slots ?_
  rintro ⟨ids, stamp⟩ ⟨taken, _⟩
  rw [Nat.zero_add, List.take_of_length_le listOk.count] at taken
  simp only at taken
  subst taken
  obtain ⟨h, grown, shape⟩ := before.shape
  have shapeLevels := safe.graph.levels
  have bound : i < (encodedSections g).levels.length := by rw [sized.levels]; exact inside
  have listed : d.graph.hasList i l = true := by
    rw [HnswGraph.hasList, safe.graph.nodeCount (Nat.succ_le_of_lt bound),
      level_of_prefix shapeLevels (Nat.lt_succ_self i), levelSame]
    simp [level]
  have room : (g.links i l).length ≤ d.graph.capacity l := by
    have capacity : d.graph.capacity l = g.capacity l := by
      rw [HnswGraph.capacity, HnswGraph.capacity, safe.graph.m]
      rfl
    rw [capacity]
    exact listOk.count
  rw [HnswGraph.setLinks, listed]
  simp only [Outcome.check, room, decide_true, if_true, Outcome.ok_bind, Outcome.pure_eq_ok]
  refine Outcome.Yields.ok ⟨⟨h, grown, shape.trans (HnswGraph.storeList_shape _ _ _ _).symm⟩, ?_, ?_⟩
  · exact (HnswGraph.storeList_entry _).trans before.entry
  · intro node k member
    by_cases here : node = i ∧ k = l
    · obtain ⟨rfl, rfl⟩ := here
      exact HnswGraph.links_storeList _
    · rw [HnswGraph.links_storeList_of_ne _ here]
      exact before.links node k (member.resolve_left here)

/-- The next node of the written graph can be added again. -/
theorem Rebuilt.addNode (ok : Storable g) {i : Nat} {done : Nat → Nat → Prop} {d : Decoding}
    (inside : i < g.nodeCount) (old : ∀ node l, done node l → node < i) (count : d.graph.nodeCount = i)
    (before : Rebuilt g i done d) :
    ∃ next, d.graph.addNode (g.level i) = .ok next ∧ Rebuilt g (i + 1) done { d with graph := next } := by
  obtain ⟨full, built, _⟩ := ok.laid
  obtain ⟨h, grown, shape⟩ := before.shape
  have split : g.levels.take (i + 1) = g.levels.take i ++ [g.level i] := by
    rw [List.take_add_one, level_eq_getElem inside]
    rfl
  rw [← List.take_append_drop (i + 1) g.levels] at built
  obtain ⟨mid, step⟩ := HnswGraph.addNodes_prefix built
  have atMid := step
  rw [split, HnswGraph.addNodes_append grown] at atMid
  obtain ⟨next, run, same⟩ := shape.addNode atMid
  obtain ⟨_, _, _, _, _, entry, words⟩ := HnswGraph.addNode_spec run
  refine ⟨next, run, ⟨mid, step, same⟩, entry.trans before.entry, ?_⟩
  intro node l member
  have different : node ≠ d.graph.nodeCount := by
    have earlier := old node l member
    omega
  rw [← before.links node l member]
  simp only [HnswGraph.links, words, if_neg different]

theorem decodeNode_yields (ok : Storable g) {i : Nat} {d : Decoding} (inside : i < g.nodeCount)
    (safe : Decoded (encodedSections g) (encodedShape g) i (wordsBefore (encodedSections g) g.m i)
      (Behind (encodedSections g) i) d)
    (before : Rebuilt g i (Behind (encodedSections g) i) d) :
    Outcome.Yields (decodeNode (encodedSections g) (encodedShape g) i d)
      (Rebuilt g (i + 1) (Behind (encodedSections g) (i + 1))) := by
  have sized := ok.bounded.sized
  have bound : i < (encodedSections g).levels.length := by rw [sized.levels]; exact inside
  have levelSame := levelAt_encoded ok.writable inside
  have shapeM : (encodedShape g).m = g.m := rfl
  have next := wordsBefore_succ (m := g.m) bound
  have total := wordsBefore_mono (s := encodedSections g) (m := g.m) (show i + 1 ≤ g.nodeCount from inside)
    (by rw [sized.levels]; rfl)
  have words := sized.upper
  have small := sized.upperFits
  have count : d.graph.nodeCount = i := safe.graph.nodeCount bound.le
  simp only [shapeM, show (encodedShape g).nodeCount = g.nodeCount from rfl] at words
  have stored : getU64 (encodedSections g).upperIndex i =
      .ok (if g.level i = 0 then kNoUpperBlock.toNat else wordsBefore (encodedSections g) g.m i) := by
    have found := getElem?_upperOffsets g.m 0 (level_eq_getElem inside)
    rw [Nat.zero_add, ← wordsBefore_encoded ok.writable] at found
    refine getU64_word found ?_ ?_
    · split
      · decide
      · omega
    · have fits := sized.indexFits
      rwa [encodedSections, length_wordBytes] at fits
  have canonical : canonicalOffset (g.level i)
      (if g.level i = 0 then kNoUpperBlock.toNat else wordsBefore (encodedSections g) g.m i)
      d.expectedOffset = true := by
    rw [safe.offset, canonicalOffset]
    split <;> simp
  obtain ⟨graph, run, grown⟩ := before.addNode ok inside (fun node l h => h.1) count
  have added := safe.graph.addNode bound (fun node l h => h.1) (by rw [levelSame]; exact run)
  unfold decodeNode
  rw [(levelAt_index bound).1, Outcome.ok_bind]
  simp only [(levelAt_index bound).2, levelSame, stored, Outcome.ok_bind, canonical,
    Bool.not_true, Bool.false_eq_true,
    if_false, run, Outcome.lift_ok]
  have lists := Outcome.Yields.loop
    (f := decodeList (encodedSections g) (encodedShape g) i)
    (fun l e => Rebuilt g (i + 1) (fun node k => Behind (encodedSections g) i node k ∨ node = i ∧ k < l) e ∧
      Decoded (encodedSections g) (encodedShape g) (i + 1) (wordsBefore (encodedSections g) g.m i)
        (fun node k => Behind (encodedSections g) i node k ∨ node = i ∧ k < l) e)
    (n := g.level i + 1) (i := 0) (s := { d with graph }) (by
      have none : ∀ node l, (Behind (encodedSections g) i node l ∨ node = i ∧ l < 0) →
          Behind (encodedSections g) i node l := by
        rintro node l (old | ⟨_, none⟩)
        · exact old
        · omega
      exact ⟨⟨grown.shape, grown.entry, fun node l h => grown.links node l (none node l h)⟩,
        added.weaken none, safe.stamps, safe.bounded, safe.offset⟩) (by
    rintro l e - high ⟨rebuilt, decoded⟩
    have more : ∀ node k, (Behind (encodedSections g) i node k ∨ node = i ∧ k < l + 1) →
        (node = i ∧ k = l) ∨ (Behind (encodedSections g) i node k ∨ node = i ∧ k < l) := by
      rintro node k (old | ⟨same, below⟩)
      · exact Or.inr (Or.inl old)
      · rcases Nat.lt_succ_iff_lt_or_eq.mp below with earlier | equal
        · exact Or.inr (Or.inr ⟨same, earlier⟩)
        · exact Or.inl ⟨same, equal⟩
    refine ((decodeList_yields ok inside (by omega) decoded rebuilt).and_sat
      (decodeList_sat sized inside (by omega) decoded)).mono ?_
    rintro f ⟨rebuilt, decoded⟩
    exact ⟨⟨rebuilt.shape, rebuilt.entry, fun node k h => rebuilt.links node k (more node k h)⟩,
      decoded.graph.weaken more, decoded.stamps, decoded.bounded, decoded.offset⟩)
  refine Outcome.Yields.bind lists ?_
  rintro e ⟨rebuilt, decoded⟩
  rw [Nat.zero_add] at rebuilt
  have all : ∀ node k, Behind (encodedSections g) (i + 1) node k →
      Behind (encodedSections g) i node k ∨ node = i ∧ k < g.level i + 1 := by
    rintro node k ⟨below, level⟩
    rcases Nat.lt_succ_iff_lt_or_eq.mp below with earlier | rfl
    · exact Or.inl ⟨earlier, level⟩
    · exact Or.inr ⟨rfl, by omega⟩
  have done : Rebuilt g (i + 1) (Behind (encodedSections g) (i + 1)) e :=
    ⟨rebuilt.shape, rebuilt.entry, fun node k h => rebuilt.links node k (all node k h)⟩
  split
  · rw [levelSame] at next
    rw [shapeM, Outcome.mul_ok (by omega), Outcome.ok_bind, decoded.offset,
      Outcome.add_ok (by omega), Outcome.ok_bind]
    exact Outcome.Yields.ok ⟨done.shape, done.entry, done.links⟩
  · exact Outcome.Yields.ok done

theorem scanLevels_yields (ok : Storable g) :
    Outcome.Yields (Outcome.loop (scanLevel (encodedSections g) g.maxLevel) g.nodeCount 0 0) fun _ => True := by
  refine (Outcome.Yields.loop (fun _ _ => True) True.intro ?_).mono fun _ _ => True.intro
  intro i top _ high _
  have inside : i < g.nodeCount := by omega
  have bound : i < (encodedSections g).levels.length := by rw [ok.bounded.sized.levels]; exact inside
  have level := (ok.invariants.levels i inside).1
  rw [scanLevel, (levelAt_index bound).1, Outcome.ok_bind]
  simp only [(levelAt_index bound).2, levelAt_encoded ok.writable inside]
  rw [if_neg (by omega)]
  exact ⟨_, rfl, True.intro⟩

/-- The same nodes, levels, lists and entry point. -/
structure SameGraph (a b : HnswGraph) : Prop where
  shape : HnswGraph.SameShape a b
  valid : a.entry.valid = b.entry.valid
  entry : b.entry.valid = true → a.entry = b.entry
  links : ∀ node l, node < b.nodeCount → l ≤ b.level node → a.links node l = b.links node l

/-- What was written of a graph decodes to the same graph. -/
theorem decode_yields (ok : Storable g) :
    Outcome.Yields (decode (encodedSections g) (encodedShape g)) fun h => SameGraph h g := by
  have sized := ok.bounded.sized
  have shapeM : (encodedShape g).m = g.m := rfl
  have shapeN : (encodedShape g).nodeCount = g.nodeCount := rfl
  have shapeCap : (encodedShape g).maxLevelCap = g.maxLevel := rfl
  have l0 := sized.l0
  have l0Fits := sized.l0Fits
  have index := sized.index
  have indexFits := sized.indexFits
  have upper := sized.upper
  have upperFits := sized.upperFits
  simp only [shapeM, shapeN] at l0 index upper
  have wordsL0 : checkedMul3 64 g.nodeCount (2 * g.m + 1) 4 = some (encodedSections g).l0Links.length := by
    rw [checkedMul3, checkedMul_eq_some.mpr ⟨by omega, rfl⟩, Option.bind_some, checkedMul_eq_some]
    exact ⟨by omega, l0⟩
  have wordsIndex : checkedMul 64 g.nodeCount 8 = some (encodedSections g).upperIndex.length := by
    rw [checkedMul_eq_some]
    exact ⟨by omega, index⟩
  have wordsUpper : (upperLinkWordsOf g.m (encodedSections g).levels 0).bind (checkedMul 64 · 4) =
      some (encodedSections g).upperLinks.length := by
    have sum : ((encodedSections g).levels.map fun b => b.toNat * (g.m + 1)).sum =
        wordsBefore (encodedSections g) g.m g.nodeCount := by
      rw [wordsBefore, List.take_of_length_le (by rw [sized.levels]; exact le_rfl)]
    rw [(upperLinkWordsOf_eq_some (by omega)).mpr ⟨by omega, rfl⟩, Option.bind_some, checkedMul_eq_some]
    omega
  have created := HnswGraph.create_ok ok.minM ok.maxM ok.minLevel ok.maxLevel
  unfold decode
  simp only [shapeM, shapeN, shapeCap]
  rw [if_neg (by rw [sized.levels, shapeN]; simp), if_neg (by rw [wordsL0]; simp),
    if_neg (by rw [wordsIndex]; simp)]
  refine Outcome.Yields.bind ((scanLevels_yields ok).and_sat (scanLevels_sat sized.levels)) ?_
  rintro top ⟨-, levelsOk, reached⟩
  have entrySpec : (if g.nodeCount = 0 then
      (return decide ((encodedShape g).entryPoint = kEmptySlot.toNat ∧
        (encodedShape g).entryLevel = 0) : Checked Bool)
      else if (encodedShape g).entryPoint ≥ g.nodeCount then return false
      else do
        let byte ← Outcome.index (encodedSections g).levels (encodedShape g).entryPoint
        return decide (byte.toNat = (encodedShape g).entryLevel ∧
          (encodedShape g).entryLevel = top)) = .ok true := by
    by_cases none : g.nodeCount = 0
    · rw [if_pos none, encodedShape, ok.invariants.empty none]
      rfl
    · obtain ⟨valid, inside, level⟩ := ok.invariants.entry none
      have atEntry : (encodedShape g).entryPoint = g.entry.id := by simp [encodedShape, valid]
      have entryLevel : (encodedShape g).entryLevel = g.entry.level := by simp [encodedShape, valid]
      have bound : g.entry.id < (encodedSections g).levels.length := by rw [sized.levels]; exact inside
      have isTop : g.entry.level = top := by
        obtain ⟨i, here, same⟩ := reached none
        have below := (levelsOk g.entry.id inside).2
        have above := (ok.invariants.levels i here).2
        rw [levelAt_encoded ok.writable inside, level] at below
        rw [levelAt_encoded ok.writable here] at same
        omega
      rw [if_neg none, atEntry, entryLevel, if_neg (by omega), (levelAt_index bound).1, Outcome.ok_bind,
        (levelAt_index bound).2, levelAt_encoded ok.writable inside, level, isTop]
      simp
  rw [entrySpec, Outcome.ok_bind, if_neg (by simp), if_neg (by rw [wordsUpper]; simp), created]
  have nodes := Outcome.Yields.loop
    (f := decodeNode (encodedSections g) (encodedShape g))
    (fun i d => Rebuilt g i (Behind (encodedSections g) i) d ∧
      Decoded (encodedSections g) (encodedShape g) i (wordsBefore (encodedSections g) g.m i)
        (Behind (encodedSections g) i) d)
    (n := g.nodeCount) (i := 0)
    (s := { graph := HnswGraph.blank g.m g.maxLevel, stamp := List.replicate g.nodeCount 0 }) (by
      have none : ∀ node l, ¬Behind (encodedSections g) 0 node l := fun node l h => absurd h.1 (Nat.not_lt_zero _)
      refine ⟨⟨⟨_, rfl, HnswGraph.SameShape.refl _⟩, rfl, fun node l h => absurd h (none node l)⟩,
        ⟨rfl, rfl, rfl, rfl, HnswGraph.blank_laid _ _, fun node l h => absurd h (none node l)⟩, by
        simp [shapeN], ?_, rfl⟩
      intro x
      simp only [List.getD_eq_getElem?_getD, List.getElem?_replicate]
      split <;> simp) (by
    rintro i d - high ⟨rebuilt, decoded⟩
    exact (decodeNode_yields ok (by omega) decoded rebuilt).and_sat (decodeNode_sat sized (by omega) decoded))
  refine Outcome.Yields.bind nodes ?_
  rintro d ⟨rebuilt, -⟩
  rw [Nat.zero_add] at rebuilt
  obtain ⟨h, grown, shape⟩ := rebuilt.shape
  obtain ⟨full, built, same⟩ := ok.laid
  rw [List.take_of_length_le (by simp [HnswGraph.nodeCount])] at grown
  rw [grown] at built
  cases built
  have links : ∀ node l, node < g.nodeCount → l ≤ g.level node → d.graph.links node l = g.links node l := by
    intro node l inside level
    exact rebuilt.links node l ⟨inside, by rw [levelAt_encoded ok.writable inside]; exact level⟩
  have shapes := shape.symm.trans same
  split
  · next some =>
    obtain ⟨valid, _, _⟩ := ok.invariants.entry (by omega)
    have entry :
        (d.graph.setEntry { id := (encodedShape g).entryPoint, level := (encodedShape g).entryLevel }).entry =
        g.entry := by
      simp [HnswGraph.setEntry, encodedShape, valid]
    refine Outcome.Yields.ok ⟨?_, by rw [entry], fun _ => entry, links⟩
    exact ⟨shapes.m, shapes.maxLevel, shapes.nodesPerChunk, shapes.arenaChunkWords, shapes.arenaUsed,
      shapes.arenaChunks, shapes.l0Chunks, shapes.levels, shapes.upper⟩
  · have none : g.nodeCount = 0 := by omega
    have invalid := ok.invariants.empty none
    refine Outcome.Yields.ok ⟨shapes, ?_, ?_, links⟩
    · rw [rebuilt.entry, invalid]
      rfl
    · intro valid
      rw [invalid] at valid
      cases valid

end Decode
end Sections
end VectorForge.HnswIo
