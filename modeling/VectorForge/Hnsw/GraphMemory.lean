import VectorForge.Hnsw.Graph

/-! The list words of a graph in the chunks that hold them. -/

namespace VectorForge

/-- The array that a list lies in. -/
inductive ListArea where
  | level0 (chunk : Nat)
  | arena (chunk : Nat)
  deriving DecidableEq, Repr

structure ListPtr where
  area : ListArea
  word : Nat
  deriving DecidableEq, Repr

/-- `HnswGraph` with its chunks: `l0Chunks` of `nodesPerChunk` lists for level 0, and `arenaChunks` with one block
of lists for each node on a higher level. -/
structure ChunkedGraph where
  m : Nat
  maxLevel : Nat
  nodesPerChunk : Nat
  arenaChunkWords : Nat
  arenaUsed : Nat
  levels : List Nat := []
  upper : List Nat := []
  l0Chunks : List (List Nat) := []
  arenaChunks : List (List Nat) := []
  deriving DecidableEq, Repr

/-- A call that changes the graph. -/
inductive GraphCall where
  | addNode (level : Nat)
  | setLinks (id level : Nat) (ids : List Nat)
  | tryAppendLink (id level neighbor : Nat)
  deriving DecidableEq, Repr

inductive GraphReply where
  | done
  | appended (room : Bool)
  | status (s : Status)
  | threw
  deriving DecidableEq, Repr

namespace ChunkedGraph

def create (options : HnswGraph.Options) : Result ChunkedGraph :=
  (HnswGraph.create options).map fun g =>
    { m := g.m, maxLevel := g.maxLevel, nodesPerChunk := g.nodesPerChunk, arenaChunkWords := g.arenaChunkWords,
      arenaUsed := g.arenaUsed }

variable (g : ChunkedGraph)

def stride0 : Nat := 1 + 2 * g.m
def strideUpper : Nat := 1 + g.m
def chunkShift : Nat := g.nodesPerChunk.log2
def chunkMask : Nat := g.nodesPerChunk - 1
def arenaShift : Nat := g.arenaChunkWords.log2
def arenaMask : Nat := g.arenaChunkWords - 1
def nodeCount : Nat := g.levels.length
def capacity (level : Nat) : Nat := if level = 0 then 2 * g.m else g.m
def level (id : Nat) : Nat := g.levels.getD id 0
def hasList (id level : Nat) : Bool := decide (id < g.nodeCount ∧ level ≤ g.level id)

def listPtr (id level : Nat) : ListPtr :=
  if level = 0 then { area := .level0 (id >>> g.chunkShift), word := (id &&& g.chunkMask) * g.stride0 }
  else
    let offset := g.upper.getD id 0
    { area := .arena (offset >>> g.arenaShift), word := (offset &&& g.arenaMask) + (level - 1) * g.strideUpper }

/-- The words of an array, none if there is no such array. -/
def words : ListArea → List Nat
  | .level0 chunk => g.l0Chunks.getD chunk []
  | .arena chunk => g.arenaChunks.getD chunk []

def load (list : ListPtr) (i : Nat) : Nat := (g.words list.area).getD (list.word + i) 0

def store (list : ListPtr) (i value : Nat) : ChunkedGraph :=
  match list.area with
  | .level0 chunk => { g with l0Chunks := g.l0Chunks.modify chunk fun words => words.set (list.word + i) value }
  | .arena chunk =>
    { g with arenaChunks := g.arenaChunks.modify chunk fun words => words.set (list.word + i) value }

/-- Whether the upper block of a node on `level` needs another arena chunk. -/
def opensArenaChunk (level : Nat) : Bool :=
  decide (level > 0 ∧ g.arenaUsed + level * g.strideUpper > g.arenaChunkWords)

/-- The place of the next block, before it is cast to 32 bits. -/
def nextOffset (level : Nat) : Nat :=
  if level > 0 then
    if g.opensArenaChunk level then g.arenaChunks.length <<< g.arenaShift
    else ((g.arenaChunks.length - 1) <<< g.arenaShift) + g.arenaUsed
  else 0

/-- The second half of `add_node`, which cannot fail. -/
def commitNode (level : Nat) : ChunkedGraph :=
  { g with
    l0Chunks :=
      if g.nodeCount &&& g.chunkMask = 0 then g.l0Chunks ++ [List.replicate (g.nodesPerChunk * g.stride0) 0]
      else g.l0Chunks
    arenaChunks :=
      if g.opensArenaChunk level then g.arenaChunks ++ [List.replicate g.arenaChunkWords 0]
      else g.arenaChunks
    arenaUsed :=
      if level > 0 then (if g.opensArenaChunk level then 0 else g.arenaUsed) + level * g.strideUpper
      else g.arenaUsed
    levels := g.levels ++ [level]
    upper := g.upper ++ [g.nextOffset level % 2 ^ 32] }

/-- `add_node`. `memory` says whether the allocations before the check of the arena succeed, and whether the one
after it does. -/
def addNode (level : Nat) (memory : Bool × Bool) : GraphReply × ChunkedGraph :=
  if level > g.maxLevel then
    (.status (.invalidArgument ("hnsw graph: level " ++ toString level ++ " exceeds max_level " ++
      toString g.maxLevel)), g)
  else if g.nodeCount ≥ kMaxVectorsPerCollection then
  (.status (.resourceExhausted "hnsw graph: node id space exhausted"), g)
  else if !memory.1 then (.threw, g)
  else if g.opensArenaChunk level ∧ g.arenaChunks.length ≥ 2 ^ (32 - g.arenaShift) then
    (.status (.resourceExhausted "hnsw graph: upper-level arena exhausted"), g)
  else if g.opensArenaChunk level ∧ !memory.2 then (.threw, g)
  else (.done, g.commitNode level)

def storeIds (list : ListPtr) : Nat → List Nat → ChunkedGraph → ChunkedGraph
  | _, [], g => g
  | i, id :: rest, g => storeIds list (i + 1) rest (g.store list i id)

def setLinks (id level : Nat) (ids : List Nat) : ChunkedGraph :=
  (storeIds (g.listPtr id level) 1 ids g).store (g.listPtr id level) 0 ids.length

def tryAppendLink (id level neighbor : Nat) : Bool × ChunkedGraph :=
  let list := g.listPtr id level
  let count := g.load list 0
  if count ≥ g.capacity level then (false, g)
  else (true, (g.store list (1 + count) neighbor).store list 0 (count + 1))

def call : GraphCall → Bool × Bool → GraphReply × ChunkedGraph
  | .addNode level, memory => g.addNode level memory
  | .setLinks id level ids, _ => (.done, g.setLinks id level ids)
  | .tryAppendLink id level neighbor, _ => let (room, h) := g.tryAppendLink id level neighbor; (.appended room, h)

/-- What the callers promise. -/
def Allows : GraphCall → Prop
  | .addNode _ => True
  | .setLinks id level ids => g.hasList id level = true ∧ ids.length ≤ g.capacity level
  | .tryAppendLink id level _ => g.hasList id level = true

def execute : List (GraphCall × (Bool × Bool)) → ChunkedGraph → ChunkedGraph
  | [], g => g
  | (c, memory) :: rest, g => execute rest (g.call c memory).2

def AllowsAll : List (GraphCall × (Bool × Bool)) → ChunkedGraph → Prop
  | [], _ => True
  | (c, memory) :: rest, g => g.Allows c ∧ AllowsAll rest (g.call c memory).2

/-- The ids of a `LinkView`. -/
def links (id level : Nat) : List Nat := (List.range (g.load (g.listPtr id level) 0)).map fun i =>
  g.load (g.listPtr id level) (1 + i)

/-- How far the arena has been handed out, counted over all its chunks. -/
def arenaTop : Nat := g.arenaChunks.length * g.arenaChunkWords + g.arenaUsed - g.arenaChunkWords

/-- What `add_node` and the stores keep. -/
structure Wf : Prop where
  nodesPower : g.nodesPerChunk = 2 ^ g.nodesPerChunk.log2
  arenaPower : g.arenaChunkWords = 2 ^ g.arenaChunkWords.log2
  arenaSmall : g.arenaChunkWords ≤ 2 ^ 31
  block : g.maxLevel * g.strideUpper ≤ g.arenaChunkWords
  tops : ∀ level ∈ g.levels, level ≤ g.maxLevel
  offsets : g.upper.length = g.levels.length
  l0Count : g.l0Chunks.length = (g.nodeCount + g.nodesPerChunk - 1) / g.nodesPerChunk
  l0Whole : ∀ chunk ∈ g.l0Chunks, chunk.length = g.nodesPerChunk * g.stride0
  arenaWhole : ∀ chunk ∈ g.arenaChunks, chunk.length = g.arenaChunkWords
  arenaFew : g.arenaChunks.length * g.arenaChunkWords ≤ 2 ^ 32
  used : g.arenaUsed ≤ g.arenaChunkWords
  unopened : g.arenaChunks.length = 0 → g.arenaUsed = g.arenaChunkWords
  within : ∀ id, id < g.nodeCount → 0 < g.level id →
    g.upper.getD id 0 % g.arenaChunkWords + g.level id * g.strideUpper ≤ g.arenaChunkWords
  below : ∀ id, id < g.nodeCount → 0 < g.level id → g.upper.getD id 0 + g.level id * g.strideUpper ≤ g.arenaTop
  ordered : ∀ i j, i < j → j < g.nodeCount → 0 < g.level i → 0 < g.level j →
    g.upper.getD i 0 + g.level i * g.strideUpper ≤ g.upper.getD j 0
  fresh0 : ∀ id, g.nodeCount ≤ id → ∀ i, i < g.stride0 →
    (g.words (.level0 (id / g.nodesPerChunk))).getD (id % g.nodesPerChunk * g.stride0 + i) 0 = 0
  freshUpper : ∀ c w, w < g.arenaChunkWords → g.arenaTop ≤ c * g.arenaChunkWords + w →
    (g.words (.arena c)).getD w 0 = 0

section Layout
variable {g} {h : ChunkedGraph} {id l : Nat}

theorem Wf.nodesPositive (wf : g.Wf) : 0 < g.nodesPerChunk := by
  rw [wf.nodesPower]
  exact Nat.two_pow_pos _

theorem Wf.arenaPositive (wf : g.Wf) : 0 < g.arenaChunkWords := by
  rw [wf.arenaPower]
  exact Nat.two_pow_pos _

theorem stride_eq (l : Nat) : 1 + g.capacity l = if l = 0 then g.stride0 else g.strideUpper := by
  rw [capacity, stride0, strideUpper]
  split <;> rfl

theorem hasList_iff : g.hasList id l = true ↔ id < g.nodeCount ∧ l ≤ g.level id := decide_eq_true_iff

theorem and_mask {n : Nat} (power : n = 2 ^ n.log2) (id : Nat) : id &&& (n - 1) = id % n := by
  generalize n.log2 = k at power
  rw [power, Nat.and_two_pow_sub_one_eq_mod]

theorem shift_log {n : Nat} (power : n = 2 ^ n.log2) (id : Nat) : id >>> n.log2 = id / n := by
  rw [Nat.shiftRight_eq_div_pow, ← power]

theorem Wf.listPtr_zero (wf : g.Wf) (id : Nat) :
    g.listPtr id 0 = ⟨.level0 (id / g.nodesPerChunk), id % g.nodesPerChunk * g.stride0⟩ := by
  rw [listPtr, if_pos rfl, chunkShift, chunkMask, shift_log wf.nodesPower, and_mask wf.nodesPower]

theorem Wf.listPtr_succ (wf : g.Wf) (id l : Nat) : g.listPtr id (l + 1) =
    ⟨.arena (g.upper.getD id 0 / g.arenaChunkWords), g.upper.getD id 0 % g.arenaChunkWords + l *
      g.strideUpper⟩ := by
  rw [listPtr, if_neg (Nat.succ_ne_zero l)]
  dsimp only
  rw [arenaShift, arenaMask, shift_log wf.arenaPower, and_mask wf.arenaPower, Nat.add_sub_cancel]

theorem Wf.length_level0 (wf : g.Wf) (node : id < g.nodeCount) :
    (g.words (.level0 (id / g.nodesPerChunk))).length = g.nodesPerChunk * g.stride0 := by
  have inside : id / g.nodesPerChunk < g.l0Chunks.length := by
    rw [wf.l0Count, Nat.div_lt_iff_lt_mul wf.nodesPositive]
    have whole := Nat.div_add_mod (g.nodeCount + g.nodesPerChunk - 1) g.nodesPerChunk
    have rest := Nat.mod_lt (g.nodeCount + g.nodesPerChunk - 1) wf.nodesPositive
    rw [Nat.mul_comm] at whole
    omega
  rw [words, List.getD_eq_getElem _ _ inside]
  exact wf.l0Whole _ (List.getElem_mem inside)

theorem Wf.length_arena (wf : g.Wf) {c : Nat} (inside : c < g.arenaChunks.length) :
    (g.words (.arena c)).length = g.arenaChunkWords := by
  rw [words, List.getD_eq_getElem _ _ inside]
  exact wf.arenaWhole _ (List.getElem_mem inside)

/-- The chunk of an upper block exists. -/
theorem Wf.arena_inside (wf : g.Wf) (node : id < g.nodeCount) (upper : 0 < g.level id) :
    g.upper.getD id 0 / g.arenaChunkWords < g.arenaChunks.length := by
  have below := wf.below id node upper
  have positive : 0 < g.level id * g.strideUpper := Nat.mul_pos upper (by rw [strideUpper]; omega)
  have used := wf.used
  rw [Nat.div_lt_iff_lt_mul wf.arenaPositive]
  rw [arenaTop] at below
  omega

/-- Every list lies inside its chunk. -/
theorem Wf.list_inside (wf : g.Wf) (listed : g.hasList id l = true) :
    (g.listPtr id l).word + (1 + g.capacity l) ≤ (g.words (g.listPtr id l).area).length := by
  obtain ⟨node, high⟩ := hasList_iff.mp listed
  rw [stride_eq]
  cases l with
  | zero =>
    rw [wf.listPtr_zero, if_pos rfl, wf.length_level0 node]
    have rest := Nat.mul_le_mul_right g.stride0 (Nat.succ_le_of_lt (Nat.mod_lt id wf.nodesPositive))
    rwa [Nat.succ_mul] at rest
  | succ l =>
    have upper : 0 < g.level id := by omega
    rw [wf.listPtr_succ, if_neg (Nat.succ_ne_zero l), wf.length_arena (wf.arena_inside node upper)]
    have within := wf.within id node upper
    have rest := Nat.mul_le_mul_right g.strideUpper high
    rw [Nat.succ_mul] at rest
    dsimp only
    omega

theorem block_eq {a b i j stride : Nat} (inside : i < stride) (inside' : j < stride)
    (same : a * stride + i = b * stride + j) : a = b := by
  have first : (a * stride + i) / stride = a := by
    rw [Nat.add_comm, Nat.add_mul_div_right _ _ (by omega), Nat.div_eq_of_lt inside, Nat.zero_add]
  have second : (b * stride + j) / stride = b := by
    rw [Nat.add_comm, Nat.add_mul_div_right _ _ (by omega), Nat.div_eq_of_lt inside', Nat.zero_add]
  rw [← first, same, second]

/-- The lists of different nodes, or of one node on different levels, have no word in common. -/
theorem Wf.lists_disjoint (wf : g.Wf) {id' l' i j : Nat} (listed : g.hasList id l = true)
    (listed' : g.hasList id' l' = true)
    (other : ¬(id = id' ∧ l = l')) (inside : i < 1 + g.capacity l) (inside' : j < 1 + g.capacity l') :
    ¬((g.listPtr id l).area = (g.listPtr id' l').area ∧
      (g.listPtr id l).word + i = (g.listPtr id' l').word + j) := by
  obtain ⟨node, high⟩ := hasList_iff.mp listed
  obtain ⟨node', high'⟩ := hasList_iff.mp listed'
  rw [stride_eq] at inside inside'
  rintro ⟨area, word⟩
  cases l with
  | zero =>
    cases l' with
    | zero =>
      rw [wf.listPtr_zero, wf.listPtr_zero] at area word
      rw [if_pos rfl] at inside inside'
      simp only [ListArea.level0.injEq] at area
      dsimp only at word
      have same := block_eq inside inside' word
      have first := Nat.div_add_mod id g.nodesPerChunk
      have second := Nat.div_add_mod id' g.nodesPerChunk
      rw [area, same] at first
      exact other ⟨by omega, rfl⟩
    | succ l' =>
      rw [wf.listPtr_zero, wf.listPtr_succ] at area
      cases area
  | succ l =>
    cases l' with
    | zero =>
      rw [wf.listPtr_zero, wf.listPtr_succ] at area
      cases area
    | succ l' =>
      rw [wf.listPtr_succ, wf.listPtr_succ] at area word
      rw [if_neg (Nat.succ_ne_zero _)] at inside inside'
      simp only [ListArea.arena.injEq] at area
      dsimp only at word
      have first := Nat.div_add_mod (g.upper.getD id 0) g.arenaChunkWords
      have second := Nat.div_add_mod (g.upper.getD id' 0) g.arenaChunkWords
      rw [area] at first
      have low := Nat.mul_le_mul_right g.strideUpper high
      have low' := Nat.mul_le_mul_right g.strideUpper high'
      rw [Nat.succ_mul] at low low'
      have linear : g.upper.getD id 0 + l * g.strideUpper + i = g.upper.getD id' 0 + l' *
          g.strideUpper + j := by omega
      rcases Nat.lt_trichotomy id id' with before | rfl | after
      · have order := wf.ordered id id' before node' (by omega) (by omega)
        omega
      · have same : l = l' := block_eq inside inside' (by omega)
        exact other ⟨rfl, by rw [same]⟩
      · have order := wf.ordered id' id after node (by omega) (by omega)
        omega

end Layout

section Stores
variable {g} {h k : ChunkedGraph} {id l : Nat}

theorem words_store (list : ListPtr) (i value : Nat) (area : ListArea) : (g.store list i value).words area =
    if area = list.area then (g.words area).set (list.word + i) value else g.words area := by
  obtain ⟨at_, word⟩ := list
  have update (chunks : List (List Nat)) (c c' : Nat) :
      (chunks.modify c fun words => words.set (word + i) value).getD c' [] =
      if c' = c then (chunks.getD c' []).set (word + i) value else chunks.getD c' [] := by
    simp only [List.getD_eq_getElem?_getD, List.getElem?_modify]
    by_cases same : c' = c
    · subst same
      rw [if_pos rfl]
      cases chunks[c']? <;> simp
    · rw [if_neg same]
      cases chunks[c']? <;> simp [Ne.symm same]
  cases at_ with
  | level0 c =>
    cases area with
    | level0 c' =>
      simp only [store, words, ListArea.level0.injEq]
      exact update g.l0Chunks c c'
    | arena c' => simp [store, words]
  | arena c =>
    cases area with
    | level0 c' => simp [store, words]
    | arena c' =>
      simp only [store, words, ListArea.arena.injEq]
      exact update g.arenaChunks c c'

theorem getD_set {words : List Nat} {i value j : Nat} (inside : i < words.length) :
    (words.set i value).getD j 0 = if j = i then value else words.getD j 0 := by
  simp only [List.getD_eq_getElem?_getD, List.getElem?_set]
  by_cases same : j = i
  · subst same
    rw [if_pos rfl, if_pos inside, if_pos rfl]
    rfl
  · rw [if_neg (Ne.symm same), if_neg same]

/-- Everything but the words. -/
structure SameLayout (g h : ChunkedGraph) : Prop where
  m : h.m = g.m
  maxLevel : h.maxLevel = g.maxLevel
  nodesPerChunk : h.nodesPerChunk = g.nodesPerChunk
  arenaChunkWords : h.arenaChunkWords = g.arenaChunkWords
  arenaUsed : h.arenaUsed = g.arenaUsed
  levels : h.levels = g.levels
  upper : h.upper = g.upper
  l0Chunks : h.l0Chunks.map List.length = g.l0Chunks.map List.length
  arenaChunks : h.arenaChunks.map List.length = g.arenaChunks.map List.length

theorem SameLayout.refl (g : ChunkedGraph) : SameLayout g g := ⟨rfl, rfl, rfl, rfl, rfl, rfl, rfl, rfl, rfl⟩

theorem SameLayout.trans (first : SameLayout g h) (second : SameLayout h k) : SameLayout g k :=
  ⟨second.m.trans first.m, second.maxLevel.trans first.maxLevel, second.nodesPerChunk.trans first.nodesPerChunk,
    second.arenaChunkWords.trans first.arenaChunkWords, second.arenaUsed.trans first.arenaUsed,
    second.levels.trans first.levels,
    second.upper.trans first.upper, second.l0Chunks.trans first.l0Chunks,
    second.arenaChunks.trans first.arenaChunks⟩

theorem store_layout (list : ListPtr) (i value : Nat) : SameLayout g (g.store list i value) := by
  have lengths (chunks : List (List Nat)) (c : Nat) :
      (chunks.modify c fun words => words.set (list.word + i) value).map List.length = chunks.map List.length := by
    refine List.ext_getElem? fun j => ?_
    simp only [List.getElem?_map, List.getElem?_modify]
    split
    · cases chunks[j]? <;> simp
    · simp
  rw [store]
  split
  · exact ⟨rfl, rfl, rfl, rfl, rfl, rfl, rfl, lengths _ _, rfl⟩
  · exact ⟨rfl, rfl, rfl, rfl, rfl, rfl, rfl, rfl, lengths _ _⟩

theorem SameLayout.length_words (same : SameLayout g h) (area : ListArea) :
    (h.words area).length = (g.words area).length := by
  have lengths {a b : List (List Nat)} (equal : b.map List.length = a.map List.length) (c : Nat) :
      (b.getD c []).length = (a.getD c []).length := by
    have at_ : (b.map List.length)[c]? = (a.map List.length)[c]? := by rw [equal]
    rw [List.getElem?_map, List.getElem?_map] at at_
    rw [List.getD_eq_getElem?_getD, List.getD_eq_getElem?_getD]
    cases first : b[c]? with
    | none =>
      cases second : a[c]? with
      | none => rfl
      | some y => rw [first, second] at at_; cases at_
    | some x =>
      cases second : a[c]? with
      | none => rw [first, second] at at_; cases at_
      | some y =>
        rw [first, second] at at_
        exact Option.some.inj at_
  cases area with
  | level0 c => exact lengths same.l0Chunks c
  | arena c => exact lengths same.arenaChunks c

theorem SameLayout.listPtr (same : SameLayout g h) (id l : Nat) : h.listPtr id l = g.listPtr id l := by
  simp only [ChunkedGraph.listPtr, chunkShift, chunkMask, arenaShift, arenaMask, stride0, strideUpper,
    same.m, same.nodesPerChunk,
    same.arenaChunkWords, same.upper]

theorem SameLayout.hasList (same : SameLayout g h) (id l : Nat) : h.hasList id l = g.hasList id l := by
  rw [ChunkedGraph.hasList, ChunkedGraph.hasList, nodeCount, nodeCount, level, level, same.levels]

theorem SameLayout.capacity (same : SameLayout g h) (l : Nat) : h.capacity l = g.capacity l := by
  simp only [ChunkedGraph.capacity, same.m]

/-- Only words of the list `(id, l)` have changed. -/
structure Wrote (g : ChunkedGraph) (id l : Nat) (h : ChunkedGraph) : Prop where
  layout : SameLayout g h
  frame : ∀ area w, ¬(area = (g.listPtr id l).area ∧ (g.listPtr id l).word ≤ w ∧
    w < (g.listPtr id l).word + (1 + g.capacity l)) →
    (h.words area).getD w 0 = (g.words area).getD w 0

theorem Wrote.refl (g : ChunkedGraph) (id l : Nat) : Wrote g id l g := ⟨.refl g, fun _ _ _ => rfl⟩

theorem Wrote.store (wrote : Wrote g id l h) (wf : g.Wf) (listed : g.hasList id l = true) {i : Nat}
    (inside : i < 1 + g.capacity l) (value : Nat) : Wrote g id l (h.store (g.listPtr id l) i value) := by
  have room := wf.list_inside listed
  refine ⟨wrote.layout.trans (store_layout _ _ _), fun area w away => ?_⟩
  rw [words_store]
  split
  next same =>
    subst same
    rw [getD_set (by rw [wrote.layout.length_words]; omega),
      if_neg (by rintro rfl; exact away ⟨rfl, by omega, by omega⟩)]
    exact wrote.frame _ w away
  next => exact wrote.frame area w away

/-- The other lists are what they were. -/
theorem Wrote.load_other (wrote : Wrote g id l h) (wf : g.Wf) (listed : g.hasList id l = true) {id' l' j : Nat}
    (listed' : g.hasList id' l' = true) (other : ¬(id' = id ∧ l' = l)) (inside : j < 1 + g.capacity l') :
    h.load (h.listPtr id' l') j = g.load (g.listPtr id' l') j := by
  rw [wrote.layout.listPtr, load, load, wrote.frame]
  rintro ⟨area, low, high⟩
  refine wf.lists_disjoint (i := j) (j := (g.listPtr id' l').word + j - (g.listPtr id l).word) listed' listed
    other inside (by omega)
    ⟨area, by omega⟩

theorem Wrote.wf (wrote : Wrote g id l h) (wf : g.Wf) (listed : g.hasList id l = true) : h.Wf := by
  obtain ⟨node, high⟩ := hasList_iff.mp listed
  obtain ⟨⟨m, maxLevel, perChunk, chunkWords, used, levels, upper, l0, arena⟩, frame⟩ := wrote
  have l0Length : h.l0Chunks.length = g.l0Chunks.length := by simpa using congrArg List.length l0
  have arenaLength : h.arenaChunks.length = g.arenaChunks.length := by simpa using congrArg List.length arena
  have count : h.nodeCount = g.nodeCount := by rw [nodeCount, levels, nodeCount]
  have top : h.arenaTop = g.arenaTop := by rw [arenaTop, arenaLength, chunkWords, used, arenaTop]
  have stride : h.stride0 = g.stride0 := by rw [stride0, m, stride0]
  have strideU : h.strideUpper = g.strideUpper := by rw [strideUpper, m, strideUpper]
  have tall (x : Nat) : h.level x = g.level x := by rw [level, levels, level]
  have whole {a b : List (List Nat)} {n : Nat} (lengths : b.map List.length = a.map List.length)
      (each : ∀ c ∈ a, c.length = n) : ∀ c ∈ b, c.length = n := by
    intro c member
    have listed : c.length ∈ a.map List.length := lengths ▸ List.mem_map_of_mem member
    obtain ⟨d, inside, same⟩ := List.mem_map.mp listed
    rw [← same, each d inside]
  exact {
    nodesPower := by rw [perChunk]; exact wf.nodesPower
    arenaPower := by rw [chunkWords]; exact wf.arenaPower
    arenaSmall := by rw [chunkWords]; exact wf.arenaSmall
    block := by rw [chunkWords, maxLevel, strideU]; exact wf.block
    tops := by rw [levels, maxLevel]; exact wf.tops
    offsets := by rw [upper, levels]; exact wf.offsets
    l0Count := by rw [l0Length, count, perChunk]; exact wf.l0Count
    l0Whole := by rw [perChunk, stride]; exact whole l0 wf.l0Whole
    arenaWhole := by rw [chunkWords]; exact whole arena wf.arenaWhole
    arenaFew := by rw [arenaLength, chunkWords]; exact wf.arenaFew
    used := by rw [used, chunkWords]; exact wf.used
    unopened := by rw [arenaLength, used, chunkWords]; exact wf.unopened
    within := by
      intro x inside some
      rw [tall] at some ⊢
      rw [upper, chunkWords, strideU]
      exact wf.within x (count ▸ inside) some
    below := by
      intro x inside some
      rw [tall] at some ⊢
      rw [upper, strideU, top]
      exact wf.below x (count ▸ inside) some
    ordered := by
      intro i j less inside some some'
      rw [tall] at some some' ⊢
      rw [upper, strideU]
      exact wf.ordered i j less (count ▸ inside) some some'
    fresh0 := by
      intro x beyond i inside
      rw [count] at beyond
      rw [stride] at inside ⊢
      rw [perChunk, frame, wf.fresh0 x beyond i inside]
      rintro ⟨area, low, bound⟩
      cases l with
      | zero =>
        rw [wf.listPtr_zero] at area low bound
        rw [stride_eq, if_pos rfl] at bound
        simp only [ListArea.level0.injEq] at area
        dsimp only at low bound
        have same : x % g.nodesPerChunk = id % g.nodesPerChunk :=
          block_eq (j := x % g.nodesPerChunk * g.stride0 + i - id % g.nodesPerChunk * g.stride0) inside
            (by omega) (by omega)
        have first := Nat.div_add_mod x g.nodesPerChunk
        have second := Nat.div_add_mod id g.nodesPerChunk
        rw [area, same] at first
        omega
      | succ l =>
        rw [wf.listPtr_succ] at area
        cases area
    freshUpper := by
      intro c w inside beyond
      rw [chunkWords] at inside beyond
      rw [top] at beyond
      rw [frame, wf.freshUpper c w inside beyond]
      rintro ⟨area, low, bound⟩
      cases l with
      | zero =>
        rw [wf.listPtr_zero] at area
        cases area
      | succ l =>
        rw [wf.listPtr_succ] at area low bound
        rw [stride_eq, if_neg (Nat.succ_ne_zero _)] at bound
        simp only [ListArea.arena.injEq] at area
        dsimp only at low bound
        have place := Nat.div_add_mod (g.upper.getD id 0) g.arenaChunkWords
        have end_ := wf.below id node (by omega)
        have tallEnough := Nat.mul_le_mul_right g.strideUpper high
        rw [Nat.succ_mul] at tallEnough
        rw [← area, Nat.mul_comm] at place
        omega }

theorem load_store {list : ListPtr} {i : Nat}
    (inside : list.word + i < (h.words list.area).length) (value j : Nat) :
    (h.store list i value).load list j = if j = i then value else h.load list j := by
  rw [load, words_store, if_pos rfl, getD_set inside, load]
  by_cases same : j = i
  · rw [if_pos same, if_pos (by rw [same])]
  · rw [if_neg same, if_neg (by omega)]

theorem storeIds_spec (wf : g.Wf) (listed : g.hasList id l = true) :
    ∀ (ids : List Nat) (first : Nat) {h : ChunkedGraph}, Wrote g id l h →
    first + ids.length ≤ 1 + g.capacity l → Wrote g id l (storeIds (g.listPtr id l) first ids h) ∧
      ∀ j, (storeIds (g.listPtr id l) first ids h).load (g.listPtr id l) j =
        if first ≤ j ∧ j < first + ids.length then ids.getD (j - first) 0 else h.load (g.listPtr id l) j
  | [], first, h, wrote, _ => by
    refine ⟨wrote, fun j => ?_⟩
    rw [if_neg (by simp only [List.length_nil]; omega)]
    rfl
  | value :: rest, first, h, wrote, room => by
    rw [List.length_cons] at room
    have inside := wf.list_inside listed
    obtain ⟨after, loads⟩ := storeIds_spec wf listed rest (first + 1)
      (wrote.store wf listed (i := first) (by omega) value) (by omega)
    refine ⟨after, fun j => ?_⟩
    rw [storeIds, loads, load_store (by rw [wrote.layout.length_words]; omega), List.length_cons]
    rcases Nat.lt_trichotomy j first with low | rfl | high
    · rw [if_neg (by omega), if_neg (by omega), if_neg (by omega)]
    · rw [if_neg (by omega), if_pos rfl, if_pos (by omega), Nat.sub_self]
      rfl
    · rw [if_neg (show j ≠ first by omega)]
      by_cases below : j < first + 1 + rest.length
      · rw [if_pos (by omega), if_pos (by omega), show j - first = j - (first + 1) + 1 by omega]
        rfl
      · rw [if_neg (by omega), if_neg (by omega)]

theorem setLinks_load (wf : g.Wf) {ids : List Nat} (listed : g.hasList id l = true)
    (room : ids.length ≤ g.capacity l) (j : Nat) :
    (g.setLinks id l ids).load (g.listPtr id l) j = if j = 0 then ids.length
      else if 1 ≤ j ∧ j < 1 + ids.length then ids.getD (j - 1) 0 else g.load (g.listPtr id l) j := by
  have inside := wf.list_inside listed
  obtain ⟨wrote, loads⟩ := storeIds_spec wf listed ids 1 (.refl g id l) (by omega)
  rw [setLinks, load_store (by rw [wrote.layout.length_words]; omega), loads]

theorem setLinks_spec (wf : g.Wf) {ids : List Nat} (listed : g.hasList id l = true)
    (room : ids.length ≤ g.capacity l) :
    Wrote g id l (g.setLinks id l ids) ∧ (g.setLinks id l ids).links id l = ids := by
  obtain ⟨wrote, _⟩ := storeIds_spec wf listed ids 1 (.refl g id l) (by omega)
  have whole := wrote.store wf listed (i := 0) (by omega) ids.length
  refine ⟨whole, ?_⟩
  have word := setLinks_load wf listed room
  rw [links, show (g.setLinks id l ids).listPtr id l = g.listPtr id l from whole.layout.listPtr id l, word,
    if_pos rfl]
  refine List.ext_getElem? fun i => ?_
  rw [List.getElem?_map]
  rcases Nat.lt_or_ge i ids.length with low | high
  · rw [List.getElem?_range low, Option.map_some, word, if_neg (by omega), if_pos (by omega),
      Nat.add_sub_cancel_left,
      List.getD_eq_getElem _ _ low, List.getElem?_eq_getElem low]
  · rw [List.getElem?_eq_none (by simpa using high), List.getElem?_eq_none high]
    rfl

theorem tryAppendLink_spec (wf : g.Wf) (listed : g.hasList id l = true) (neighbor : Nat) :
    Wrote g id l (g.tryAppendLink id l neighbor).2 ∧
      (g.tryAppendLink id l neighbor = (false, g) ∧ g.capacity l ≤ (g.links id l).length ∨
      (g.tryAppendLink id l neighbor).1 = true ∧ (g.links id l).length < g.capacity l ∧
        (g.tryAppendLink id l neighbor).2.links id l = g.links id l ++ [neighbor]) := by
  have inside := wf.list_inside listed
  have length : (g.links id l).length = g.load (g.listPtr id l) 0 := by
    rw [links, List.length_map, List.length_range]
  rw [length]
  unfold tryAppendLink
  dsimp only
  split
  next full => exact ⟨.refl g id l, .inl ⟨rfl, full⟩⟩
  next room =>
    have first := (Wrote.refl g id l).store wf listed (i := 1 + g.load (g.listPtr id l) 0) (by omega) neighbor
    have whole := first.store wf listed (i := 0) (by omega) (g.load (g.listPtr id l) 0 + 1)
    refine ⟨whole, .inr ⟨rfl, by omega, ?_⟩⟩
    have word (j : Nat) :
        ((g.store (g.listPtr id l) (1 + g.load (g.listPtr id l) 0) neighbor).store (g.listPtr id l) 0
        (g.load (g.listPtr id l) 0 + 1)).load (g.listPtr id l) j = if j = 0 then g.load (g.listPtr id l) 0 + 1
          else if j = 1 + g.load (g.listPtr id l) 0 then neighbor else g.load (g.listPtr id l) j := by
      rw [load_store (by rw [first.layout.length_words]; omega), load_store (by omega)]
    rw [links, whole.layout.listPtr, word, if_pos rfl, List.range_succ, List.map_append, List.map_singleton,
      word, if_neg (by omega),
      if_pos rfl, links]
    congr 1
    refine List.map_congr_left fun i member => ?_
    have below := List.mem_range.mp member
    rw [word, if_neg (by omega), if_neg (by omega)]

end Stores

section Commit
variable {g} {level : Nat}

/-- `add_node` has passed its checks. -/
structure Fits (g : ChunkedGraph) (level : Nat) : Prop where
  cap : level ≤ g.maxLevel
  arena : g.opensArenaChunk level = true → g.arenaChunks.length < 2 ^ (32 - g.arenaShift)

theorem addNode_cases (g : ChunkedGraph) (level : Nat) (memory : Bool × Bool) :
    (g.addNode level memory).2 = g ∧ (g.addNode level memory).1 ≠ .done ∨
      g.addNode level memory = (.done, g.commitNode level) ∧ g.Fits level := by
  unfold addNode
  split
  · exact .inl ⟨rfl, nofun⟩
  next cap =>
    split
    · exact .inl ⟨rfl, nofun⟩
    split
    · exact .inl ⟨rfl, nofun⟩
    split
    · exact .inl ⟨rfl, nofun⟩
    next arena =>
      split
      · exact .inl ⟨rfl, nofun⟩
      · refine .inr ⟨rfl, Nat.le_of_not_lt cap, fun opens => ?_⟩
        by_contra many
        exact arena ⟨opens, Nat.le_of_not_lt many⟩

theorem Wf.arenaWords_pow (wf : g.Wf) : 2 ^ (32 - g.arenaShift) * g.arenaChunkWords = 2 ^ 32 := by
  have power := wf.arenaPower
  have small := wf.arenaSmall
  have low : g.arenaChunkWords.log2 ≤ 31 := by
    rw [power] at small
    exact (Nat.pow_le_pow_iff_right (by omega)).mp small
  rw [arenaShift]
  generalize g.arenaChunkWords.log2 = a at power low
  rw [power, ← Nat.pow_add]
  congr 1
  omega

theorem opens_iff : g.opensArenaChunk level = true ↔ 0 < level ∧
    g.arenaChunkWords < g.arenaUsed + level * g.strideUpper :=
  decide_eq_true_iff

theorem stride_pos (upper : 0 < level) : 0 < level * g.strideUpper := Nat.mul_pos upper (by rw [strideUpper]; omega)

/-- The next block begins at or after everything handed out so far, and is not cut by the end of a chunk. -/
theorem Wf.nextOffset_spec (wf : g.Wf) (fits : g.Fits level) (upper : 0 < level) :
    g.nextOffset level < 2 ^ 32 ∧ g.arenaTop ≤ g.nextOffset level ∧
    g.nextOffset level % g.arenaChunkWords + level * g.strideUpper ≤ g.arenaChunkWords ∧
    (g.commitNode level).arenaTop = g.nextOffset level + level * g.strideUpper ∧
    (g.commitNode level).arenaUsed ≤ g.arenaChunkWords ∧ (g.commitNode level).arenaChunks.length ≠ 0 ∧
    (g.commitNode level).arenaChunks.length * g.arenaChunkWords ≤ 2 ^ 32 := by
  have positive := wf.arenaPositive
  have some := stride_pos (g := g) upper
  have block : level * g.strideUpper ≤ g.arenaChunkWords := (Nat.mul_le_mul_right _ fits.cap).trans wf.block
  have used := wf.used
  have few := wf.arenaFew
  have unopened := wf.unopened
  have shifted (n : Nat) : n <<< g.arenaShift = n * g.arenaChunkWords := by
    rw [Nat.shiftLeft_eq, arenaShift, ← wf.arenaPower]
  rw [nextOffset, if_pos upper]
  simp only [arenaTop, commitNode, if_pos upper, shifted]
  cases opens : g.opensArenaChunk level with
  | true =>
    have room := Nat.mul_le_mul_right g.arenaChunkWords (Nat.succ_le_of_lt (fits.arena opens))
    rw [wf.arenaWords_pow, Nat.succ_mul] at room
    simp only [if_true, List.length_append, List.length_singleton, Nat.add_mul, Nat.one_mul,
      Nat.mul_mod_left, Nat.zero_add]
    exact ⟨by omega, by omega, block, by omega, block, by omega, room⟩
  | false =>
    have full : g.arenaUsed + level * g.strideUpper ≤ g.arenaChunkWords := by
      by_contra more
      rw [opens_iff.mpr ⟨upper, by omega⟩] at opens
      cases opens
    obtain ⟨n, length⟩ : ∃ n, g.arenaChunks.length = n + 1 := ⟨g.arenaChunks.length - 1, by omega⟩
    rw [length, Nat.succ_mul] at few
    simp only [Bool.false_eq_true, if_false, length, Nat.add_sub_cancel, Nat.add_mul, Nat.one_mul]
    refine ⟨by omega, by omega, ?_, by omega, full, by omega, few⟩
    rw [Nat.add_comm (n * _), Nat.add_mul_mod_self_right, Nat.mod_eq_of_lt (by omega)]
    exact full

theorem getD_replicate_zero (n w : Nat) : (List.replicate n 0).getD w 0 = 0 := by
  rw [List.getD_eq_getElem?_getD, List.getElem?_replicate]
  split <;> rfl

/-- New chunks are zero, as if they had been there before. -/
theorem words_commitNode (area : ListArea) (w : Nat) :
    ((g.commitNode level).words area).getD w 0 = (g.words area).getD w 0 := by
  have longer (chunks : List (List Nat)) (n c : Nat) :
      ((chunks ++ [List.replicate n 0]).getD c []).getD w 0 = (chunks.getD c []).getD w 0 := by
    rcases Nat.lt_trichotomy c chunks.length with low | rfl | high
    · rw [List.getD_append _ _ _ _ low]
    · rw [List.getD_append_right _ _ _ _ (Nat.le_refl _), List.getD_eq_default chunks _ (Nat.le_refl _),
        Nat.sub_self]
      exact getD_replicate_zero n w
    · rw [List.getD_eq_default (chunks ++ _) _ (by rw [List.length_append, List.length_singleton]; exact high),
        List.getD_eq_default chunks _ high.le]
  cases area with
  | level0 c =>
    simp only [words, commitNode]
    split
    · exact longer _ _ _
    · rfl
  | arena c =>
    simp only [words, commitNode]
    split
    · exact longer _ _ _
    · rfl

theorem level_commitNode (id : Nat) :
    (g.commitNode level).level id = if id = g.nodeCount then level else g.level id := by
  rw [ChunkedGraph.level, commitNode, HnswGraph.level_append]
  rfl

/-- The cast to 32 bits cuts nothing off. -/
theorem Wf.nextOffset_small (wf : g.Wf) (fits : g.Fits level) : g.nextOffset level < 2 ^ 32 := by
  rcases Nat.eq_zero_or_pos level with zero | upper
  · rw [nextOffset, if_neg (by omega)]
    decide
  · exact (wf.nextOffset_spec fits upper).1

theorem Wf.upper_commitNode (wf : g.Wf) (fits : g.Fits level) (id : Nat) :
    (g.commitNode level).upper.getD id 0 = if id = g.nodeCount then g.nextOffset level else g.upper.getD id 0 := by
  have small : g.nextOffset level % 2 ^ 32 = g.nextOffset level := Nat.mod_eq_of_lt (wf.nextOffset_small fits)
  rw [commitNode]
  dsimp only
  rw [small, HnswGraph.level_append, wf.offsets]
  rfl

theorem Wf.listPtr_commitNode (wf : g.Wf) (fits : g.Fits level) {id : Nat} (node : id < g.nodeCount) (l : Nat) :
    (g.commitNode level).listPtr id l = g.listPtr id l := by
  have offset := wf.upper_commitNode fits id
  rw [if_neg (by omega)] at offset
  rw [listPtr, listPtr, offset]
  rfl

theorem arena_commitNode_zero : (g.commitNode 0).arenaChunks = g.arenaChunks ∧
    (g.commitNode 0).arenaUsed = g.arenaUsed ∧
    (g.commitNode 0).arenaTop = g.arenaTop := by
  have closed : g.opensArenaChunk 0 = false := decide_eq_false fun opens => Nat.lt_irrefl 0 opens.1
  simp [commitNode, closed, arenaTop]

theorem Wf.l0_commitNode (wf : g.Wf) :
    (g.commitNode level).l0Chunks.length = (g.nodeCount + 1 + g.nodesPerChunk - 1) / g.nodesPerChunk := by
  have positive := wf.nodesPositive
  have before := wf.l0Count
  have place := Nat.div_add_mod g.nodeCount g.nodesPerChunk
  have rest := Nat.mod_lt g.nodeCount positive
  have mask : g.nodeCount &&& g.chunkMask = g.nodeCount % g.nodesPerChunk := and_mask wf.nodesPower _
  have after : (g.nodeCount + 1 + g.nodesPerChunk - 1) / g.nodesPerChunk = g.nodeCount / g.nodesPerChunk + 1 := by
    rw [show g.nodeCount + 1 + g.nodesPerChunk - 1 = g.nodeCount + g.nodesPerChunk by
      omega, Nat.add_div_right _ positive]
  rw [after, commitNode]
  dsimp only
  rw [mask]
  split
  next first =>
    rw [List.length_append, List.length_singleton, before]
    congr 1
    rw [first, Nat.add_zero] at place
    have whole : g.nodeCount + g.nodesPerChunk - 1 = g.nodesPerChunk - 1 + g.nodesPerChunk *
        (g.nodeCount / g.nodesPerChunk) := by omega
    rw [whole, Nat.add_mul_div_left _ _ positive, Nat.div_eq_of_lt (by omega), Nat.zero_add]
  next later =>
    rw [before]
    have whole : g.nodeCount + g.nodesPerChunk - 1 =
        g.nodeCount % g.nodesPerChunk - 1 + g.nodesPerChunk * (g.nodeCount / g.nodesPerChunk + 1) := by
      rw [Nat.mul_add, Nat.mul_one]
      omega
    rw [whole, Nat.add_mul_div_left _ _ positive, Nat.div_eq_of_lt (by omega), Nat.zero_add]

/-- The part of the invariant that is about upper blocks. -/
theorem Wf.blocks_commitNode (wf : g.Wf) (fits : g.Fits level) :
    (∀ id, id < g.nodeCount + 1 → 0 < (g.commitNode level).level id →
      (g.commitNode level).upper.getD id 0 % g.arenaChunkWords +
      (g.commitNode level).level id * g.strideUpper ≤ g.arenaChunkWords) ∧
    (∀ id, id < g.nodeCount + 1 → 0 < (g.commitNode level).level id → (g.commitNode level).upper.getD id 0 +
      (g.commitNode level).level id * g.strideUpper ≤ (g.commitNode level).arenaTop) ∧
    ∀ i j, i < j → j < g.nodeCount + 1 → 0 < (g.commitNode level).level i → 0 < (g.commitNode level).level j →
      (g.commitNode level).upper.getD i 0 + (g.commitNode level).level i * g.strideUpper ≤
        (g.commitNode level).upper.getD j 0 := by
  have grows : g.arenaTop ≤ (g.commitNode level).arenaTop := by
    rcases Nat.eq_zero_or_pos level with rfl | upper
    · exact arena_commitNode_zero.2.2.ge
    · obtain ⟨_, start, _, top, _⟩ := wf.nextOffset_spec fits upper
      omega
  refine ⟨fun id inside => ?_, fun id inside => ?_, fun i j less inside => ?_⟩
  · rw [level_commitNode, wf.upper_commitNode fits]
    split
    next => exact fun upper => (wf.nextOffset_spec fits upper).2.2.1
    next old => exact wf.within id (by omega)
  · rw [level_commitNode, wf.upper_commitNode fits]
    split
    next => exact fun upper => (wf.nextOffset_spec fits upper).2.2.2.1.ge
    next old => exact fun upper => (wf.below id (by omega) upper).trans grows
  · have first : i ≠ g.nodeCount := by omega
    rw [level_commitNode i, wf.upper_commitNode fits i, level_commitNode j, wf.upper_commitNode fits j,
      if_neg first, if_neg first]
    by_cases last : j = g.nodeCount
    · rw [if_pos last, if_pos last]
      exact fun some upper => (wf.below i (by omega) some).trans (wf.nextOffset_spec fits upper).2.1
    · rw [if_neg last, if_neg last]
      exact wf.ordered i j less (by omega)

theorem Wf.commitNode (wf : g.Wf) (fits : g.Fits level) : (g.commitNode level).Wf := by
  have count : (g.commitNode level).nodeCount = g.nodeCount + 1 := by
    rw [nodeCount, ChunkedGraph.commitNode, List.length_append]
    rfl
  obtain ⟨within, below, ordered⟩ := wf.blocks_commitNode fits
  have arena : g.arenaTop ≤ (g.commitNode level).arenaTop ∧ (g.commitNode level).arenaUsed ≤ g.arenaChunkWords ∧
      ((g.commitNode level).arenaChunks.length = 0 → (g.commitNode level).arenaUsed = g.arenaChunkWords) ∧
      (g.commitNode level).arenaChunks.length * g.arenaChunkWords ≤ 2 ^ 32 := by
    rcases Nat.eq_zero_or_pos level with rfl | upper
    · obtain ⟨chunks, used, top⟩ := arena_commitNode_zero (g := g)
      rw [chunks, used, top]
      exact ⟨Nat.le_refl _, wf.used, wf.unopened, wf.arenaFew⟩
    · obtain ⟨_, start, _, top, used, some, few⟩ := wf.nextOffset_spec fits upper
      exact ⟨by omega, used, fun none => absurd none some, few⟩
  obtain ⟨grows, used, unopened, few⟩ := arena
  exact {
    nodesPower := wf.nodesPower
    arenaPower := wf.arenaPower
    arenaSmall := wf.arenaSmall
    block := wf.block
    tops := by
      intro x member
      rcases List.mem_append.mp member with old | new
      · exact wf.tops x old
      · rw [List.mem_singleton.mp new]
        exact fits.cap
    offsets := by simp only [ChunkedGraph.commitNode, List.length_append, List.length_singleton, wf.offsets]
    l0Count := by rw [count]; exact wf.l0_commitNode
    l0Whole := by
      intro chunk member
      simp only [ChunkedGraph.commitNode] at member
      split at member
      · rcases List.mem_append.mp member with old | new
        · exact wf.l0Whole chunk old
        · rw [List.mem_singleton.mp new, List.length_replicate]
          rfl
      · exact wf.l0Whole chunk member
    arenaWhole := by
      intro chunk member
      simp only [ChunkedGraph.commitNode] at member
      split at member
      · rcases List.mem_append.mp member with old | new
        · exact wf.arenaWhole chunk old
        · rw [List.mem_singleton.mp new, List.length_replicate]
          rfl
      · exact wf.arenaWhole chunk member
    arenaFew := few
    used := used
    unopened := unopened
    within := fun id inside => within id (count ▸ inside)
    below := fun id inside => below id (count ▸ inside)
    ordered := fun i j less inside => ordered i j less (count ▸ inside)
    fresh0 := by
      intro x beyond i inside
      rw [count] at beyond
      rw [words_commitNode]
      exact wf.fresh0 x (by omega) i inside
    freshUpper := by
      intro c w inside beyond
      rw [words_commitNode]
      exact wf.freshUpper c w inside (grows.trans beyond) }

/-- The lists of the older nodes are what they were. -/
theorem Wf.load_commitNode (wf : g.Wf) (fits : g.Fits level) {id : Nat} (node : id < g.nodeCount) (l j : Nat) :
    (g.commitNode level).load ((g.commitNode level).listPtr id l) j = g.load (g.listPtr id l) j := by
  rw [wf.listPtr_commitNode fits node, load, words_commitNode, load]

/-- The lists of a new node are zero. -/
theorem Wf.load_new (wf : g.Wf) (fits : g.Fits level) {l j : Nat} (high : l ≤ level)
    (inside : j < 1 + g.capacity l) :
    (g.commitNode level).load ((g.commitNode level).listPtr g.nodeCount l) j = 0 := by
  have after := wf.commitNode fits
  rw [stride_eq] at inside
  rw [load, words_commitNode]
  cases l with
  | zero =>
    rw [if_pos rfl] at inside
    rw [after.listPtr_zero]
    exact wf.fresh0 g.nodeCount (Nat.le_refl _) j inside
  | succ l =>
    rw [if_neg (Nat.succ_ne_zero _)] at inside
    have upper : 0 < level := by omega
    obtain ⟨_, start, within, _⟩ := wf.nextOffset_spec fits upper
    have offset := wf.upper_commitNode fits g.nodeCount
    rw [if_pos rfl] at offset
    rw [after.listPtr_succ, offset]
    have low := Nat.mul_le_mul_right g.strideUpper high
    rw [Nat.succ_mul] at low
    have place := Nat.div_add_mod (g.nextOffset level) g.arenaChunkWords
    rw [Nat.mul_comm] at place
    refine wf.freshUpper _ _ ?_ ?_
    · show g.nextOffset level % g.arenaChunkWords + l * g.strideUpper + j < g.arenaChunkWords
      omega
    · show g.arenaTop ≤ g.nextOffset level / g.arenaChunkWords * g.arenaChunkWords +
        (g.nextOffset level % g.arenaChunkWords + l * g.strideUpper + j)
      omega

theorem Wf.links_commitNode (wf : g.Wf) (fits : g.Fits level) {l : Nat} (high : l ≤ level) :
    (g.commitNode level).links g.nodeCount l = [] := by
  rw [links, wf.load_new fits high (by omega)]
  rfl

end Commit

section Runs
variable {g} {h : ChunkedGraph}

theorem defaultNodesPerChunk_power (m : Nat) : ∃ k, HnswGraph.defaultNodesPerChunk m = 2 ^ k := by
  rw [HnswGraph.defaultNodesPerChunk, bitFloor, if_neg (by omega), HnswGraph.kMaxNodesPerChunk,
    max_eq_left (Nat.one_le_two_pow)]
  rcases Nat.le_total (max (HnswGraph.kTargetChunkBytes / ((1 + 2 * m) * 4)) 1).log2 16 with small | large
  · exact ⟨_, min_eq_left (Nat.pow_le_pow_right (by omega) small)⟩
  · exact ⟨16, min_eq_right (Nat.pow_le_pow_right (by omega) large)⟩

theorem create_spec {options : HnswGraph.Options} (run : create options = .ok g) : g.m = options.m ∧
    g.maxLevel = options.maxLevel ∧
    g.nodesPerChunk = 2 ^ g.nodesPerChunk.log2 ∧ g.arenaChunkWords = 2 ^ g.arenaChunkWords.log2 ∧
    g.arenaChunkWords ≤ 2 ^ 31 ∧
    options.maxLevel * (1 + options.m) ≤ g.arenaChunkWords ∧
    g = { m := g.m, maxLevel := g.maxLevel, nodesPerChunk := g.nodesPerChunk, arenaChunkWords := g.arenaChunkWords,
          arenaUsed := g.arenaChunkWords } := by
  unfold create HnswGraph.create at run
  dsimp only at run
  generalize (if options.arenaChunkWords = 0 then HnswGraph.kDefaultArenaChunkWords else
    options.arenaChunkWords) = arenaWords at run
  split at run
  · cases run
  split at run
  · cases run
  split at run
  · cases run
  next nodes =>
    split at run
    · cases run
    next words =>
      cases run
      have power (n : Nat) (k : Nat) (same : n = 2 ^ k) : n = 2 ^ n.log2 := by rw [same, Nat.log2_two_pow]
      simp only [not_or, Bool.not_eq_true', Bool.not_eq_false, Nat.not_lt] at words
      obtain ⟨bit, block, small⟩ := words
      refine ⟨rfl, rfl, ?_, of_decide_eq_true bit, small, block, rfl⟩
      dsimp only
      split
      · obtain ⟨k, same⟩ := defaultNodesPerChunk_power options.m
        exact power _ k same
      next given =>
        have single : hasSingleBit options.nodesPerChunk = true := by
          by_contra many
          exact nodes ⟨given, .inl (by simpa using many)⟩
        exact of_decide_eq_true single

theorem create_wf {options : HnswGraph.Options} (run : create options = .ok g) : g.Wf := by
  obtain ⟨m, maxLevel, nodesPower, arenaPower, small, block, shape⟩ := create_spec run
  have positive : 0 < g.nodesPerChunk := by
    rw [nodesPower]
    exact Nat.two_pow_pos _
  have levels : g.levels = [] := congrArg ChunkedGraph.levels shape
  have upper : g.upper = [] := congrArg ChunkedGraph.upper shape
  have l0 : g.l0Chunks = [] := congrArg ChunkedGraph.l0Chunks shape
  have arena : g.arenaChunks = [] := congrArg ChunkedGraph.arenaChunks shape
  have used : g.arenaUsed = g.arenaChunkWords := congrArg ChunkedGraph.arenaUsed shape
  have none : g.nodeCount = 0 := by rw [nodeCount, levels]; rfl
  exact {
    nodesPower := nodesPower
    arenaPower := arenaPower
    arenaSmall := small
    block := by rw [maxLevel, strideUpper, m]; exact block
    tops := by rw [levels]; exact nofun
    offsets := by rw [upper, levels]
    l0Count := by
      rw [l0, none, Nat.zero_add, Nat.div_eq_of_lt (by omega)]
      rfl
    l0Whole := by rw [l0]; exact nofun
    arenaWhole := by rw [arena]; exact nofun
    arenaFew := by rw [arena, List.length_nil, Nat.zero_mul]; exact Nat.zero_le _
    used := used.le
    unopened := fun _ => used
    within := fun id node => absurd node (by omega)
    below := fun id node => absurd node (by omega)
    ordered := fun _ j _ node => absurd node (by omega)
    fresh0 := by
      intro id _ i _
      rw [words, l0]
      rfl
    freshUpper := by
      intro c w _ _
      rw [words, arena]
      rfl }

/-- The lists that are there stay where they are. -/
def Keeps (g h : ChunkedGraph) : Prop := ∀ id l, g.hasList id l = true → h.hasList id l = true ∧
    h.listPtr id l = g.listPtr id l

theorem SameLayout.keeps (same : SameLayout g h) : Keeps g h :=
  fun id l listed => ⟨(same.hasList id l).trans listed, same.listPtr id l⟩

theorem Wf.keeps_commitNode (wf : g.Wf) {level : Nat} (fits : g.Fits level) : Keeps g (g.commitNode level) := by
  intro id l listed
  obtain ⟨node, high⟩ := hasList_iff.mp listed
  refine ⟨hasList_iff.mpr ⟨?_, ?_⟩, wf.listPtr_commitNode fits node l⟩
  · rw [nodeCount, ChunkedGraph.commitNode, List.length_append]
    exact Nat.lt_add_right _ node
  · rw [level_commitNode, if_neg (by omega)]
    exact high

theorem Wf.call (wf : g.Wf) {c : GraphCall} (allowed : g.Allows c) (memory : Bool × Bool) :
    (g.call c memory).2.Wf ∧ Keeps g (g.call c memory).2 := by
  cases c with
  | addNode level =>
    rcases addNode_cases g level memory with ⟨same, _⟩ | ⟨run, fits⟩
    · rw [ChunkedGraph.call, same]
      exact ⟨wf, fun id l listed => ⟨listed, rfl⟩⟩
    · rw [ChunkedGraph.call, run]
      exact ⟨wf.commitNode fits, wf.keeps_commitNode fits⟩
  | setLinks id level ids =>
    obtain ⟨wrote, _⟩ := setLinks_spec wf allowed.1 allowed.2
    exact ⟨wrote.wf wf allowed.1, wrote.layout.keeps⟩
  | tryAppendLink id level neighbor =>
    obtain ⟨wrote, _⟩ := tryAppendLink_spec wf allowed neighbor
    exact ⟨wrote.wf wf allowed, wrote.layout.keeps⟩

theorem Wf.execute : ∀ {calls : List (GraphCall × (Bool × Bool))} {g : ChunkedGraph}, g.Wf → AllowsAll calls g →
    (execute calls g).Wf ∧ Keeps g (ChunkedGraph.execute calls g)
  | [], g, wf, _ => ⟨wf, fun id l listed => ⟨listed, rfl⟩⟩
  | (c, memory) :: rest, g, wf, allowed => by
    obtain ⟨next, first⟩ := wf.call allowed.1 memory
    obtain ⟨last, later⟩ := Wf.execute next allowed.2
    refine ⟨last, fun id l listed => ?_⟩
    obtain ⟨there, ptr⟩ := first id l listed
    obtain ⟨still, ptr'⟩ := later id l there
    exact ⟨still, ptr'.trans ptr⟩

theorem execute_append (first more : List (GraphCall × (Bool × Bool))) (g : ChunkedGraph) :
    execute (first ++ more) g = execute more (execute first g) := by
  induction first generalizing g with
  | nil => rfl
  | cons c rest ih => exact ih _

theorem allowsAll_append (first more : List (GraphCall × (Bool × Bool))) (g : ChunkedGraph) :
    AllowsAll (first ++ more) g ↔ AllowsAll first g ∧ AllowsAll more (execute first g) := by
  induction first generalizing g with
  | nil => exact ⟨fun all => ⟨trivial, all⟩, And.right⟩
  | cons c rest ih =>
    rw [List.cons_append, AllowsAll, ih, AllowsAll, and_assoc]
    rfl

end Runs

section Words
variable {g} {h : ChunkedGraph} {v : HnswGraph}

/-- The graph whose words are addressed by node, level and position has the same lists. -/
structure Pictures (g : ChunkedGraph) (v : HnswGraph) : Prop where
  m : v.m = g.m
  maxLevel : v.maxLevel = g.maxLevel
  nodesPerChunk : v.nodesPerChunk = g.nodesPerChunk
  arenaChunkWords : v.arenaChunkWords = g.arenaChunkWords
  arenaUsed : v.arenaUsed = g.arenaUsed
  arenaChunks : v.arenaChunks = g.arenaChunks.length
  levels : v.levels = g.levels
  words : ∀ id l j, g.hasList id l = true → j < 1 + g.capacity l → v.words id l j = g.load (g.listPtr id l) j

theorem Pictures.hasList (same : Pictures g v) (id l : Nat) : v.hasList id l = g.hasList id l := by
  rw [HnswGraph.hasList, ChunkedGraph.hasList, HnswGraph.nodeCount, nodeCount, HnswGraph.level, level, same.levels]

theorem Pictures.opens (same : Pictures g v) (level : Nat) : v.opensArenaChunk level = g.opensArenaChunk level := by
  rw [HnswGraph.opensArenaChunk, opensArenaChunk, same.arenaUsed, same.arenaChunkWords, same.m, strideUpper]

/-- `add_node` adds the same node. -/
theorem Pictures.addNode (same : Pictures g v) (wf : g.Wf) {level : Nat} {memory : Bool × Bool}
    (run : g.addNode level memory = (.done, h)) : ∃ v', v.addNode level = .ok v' ∧ Pictures h v' := by
  have room : g.nodeCount < kMaxVectorsPerCollection := by
    by_contra full
    unfold ChunkedGraph.addNode at run
    split at run
    · cases run
    · rw [if_pos (Nat.le_of_not_lt full)] at run
      cases run
  rcases addNode_cases g level memory with ⟨_, wrong⟩ | ⟨done, fits⟩
  · exact absurd (congrArg Prod.fst run) wrong
  · obtain rfl : g.commitNode level = h := congrArg Prod.snd (done.symm.trans run)
    have count : v.nodeCount = g.nodeCount := by rw [HnswGraph.nodeCount, same.levels, nodeCount]
    have shift : v.arenaShift = g.arenaShift := by rw [HnswGraph.arenaShift, same.arenaChunkWords, arenaShift]
    unfold HnswGraph.addNode
    rw [same.maxLevel, if_neg (Nat.not_lt.mpr fits.cap), count, if_neg (Nat.not_le.mpr room), same.opens,
      same.arenaChunks, shift,
      if_neg fun high => absurd (fits.arena high.1) (Nat.not_lt.mpr high.2)]
    refine ⟨_, rfl, ?_⟩
    exact {
      m := same.m
      maxLevel := rfl
      nodesPerChunk := same.nodesPerChunk
      arenaChunkWords := same.arenaChunkWords
      arenaUsed := by
        dsimp only [commitNode]
        rw [same.arenaUsed, same.m, strideUpper]
        split
        next => rfl
        next low => rw [if_neg fun opens => low (opens_iff.mp opens).1]
      arenaChunks := by
        dsimp only [commitNode]
        split <;> simp
      levels := by
        dsimp only [commitNode]
        rw [same.levels]
      words := by
        intro id l j listed inside
        obtain ⟨node, high⟩ := hasList_iff.mp listed
        rw [level_commitNode] at high
        dsimp only
        split
        next new =>
          subst new
          rw [if_pos rfl] at high
          exact (wf.load_new fits high inside).symm
        next old =>
          rw [if_neg old] at high
          have below : id < g.nodeCount := by
            rw [nodeCount, commitNode, List.length_append, List.length_singleton] at node
            have total : g.nodeCount = g.levels.length := rfl
            omega
          rw [wf.load_commitNode fits below]
          exact same.words id l j (hasList_iff.mpr ⟨below, high⟩) inside }

/-- `set_links` rewrites the same list. -/
theorem Pictures.setLinks (same : Pictures g v) (wf : g.Wf) {id l : Nat} {ids : List Nat}
    (listed : g.hasList id l = true) (room : ids.length ≤ g.capacity l) : ∃ v', v.setLinks id l ids = .ok v' ∧
    Pictures (g.setLinks id l ids) v' := by
  obtain ⟨wrote, _⟩ := setLinks_spec wf listed room
  have capacity : v.capacity l = g.capacity l := by rw [HnswGraph.capacity, same.m, ChunkedGraph.capacity]
  refine ⟨v.storeList id l ids, ?_, ?_⟩
  · rw [HnswGraph.setLinks, capacity, same.hasList, listed, Outcome.check, if_pos (decide_eq_true room),
      Outcome.ok_bind, Outcome.check,
      if_pos rfl]
    rfl
  · obtain ⟨m, maxLevel, perChunk, chunkWords, used, levels, _, _, arena⟩ := wrote.layout
    have arenaLength : (g.setLinks id l ids).arenaChunks.length = g.arenaChunks.length := by
      simpa using congrArg List.length arena
    have shape := HnswGraph.storeList_shape v id l ids
    refine ⟨shape.m.trans (same.m.trans m.symm), shape.maxLevel.trans (same.maxLevel.trans maxLevel.symm),
      shape.nodesPerChunk.trans (same.nodesPerChunk.trans perChunk.symm),
      shape.arenaChunkWords.trans (same.arenaChunkWords.trans chunkWords.symm),
      shape.arenaUsed.trans (same.arenaUsed.trans used.symm),
      shape.arenaChunks.trans (same.arenaChunks.trans arenaLength.symm),
      shape.levels.trans (same.levels.trans levels.symm), ?_⟩
    intro id' l' j listed' inside
    rw [wrote.layout.hasList] at listed'
    rw [wrote.layout.capacity] at inside
    by_cases here : id' = id ∧ l' = l
    · obtain ⟨rfl, rfl⟩ := here
      rw [wrote.layout.listPtr, setLinks_load wf listed room, HnswGraph.storeList, HnswGraph.storeWord]
      dsimp only
      rw [(HnswGraph.storeIds_spec _ _).2.2]
      simp only [true_and]
      rw [same.words id' l' j listed inside]
    · rw [wrote.load_other wf listed listed' here inside, HnswGraph.storeList, HnswGraph.storeWord]
      dsimp only
      rw [if_neg fun wrong => here ⟨wrong.1, wrong.2.1⟩, (HnswGraph.storeIds_spec _ _).2.2,
        if_neg fun wrong => here ⟨wrong.1, wrong.2.1⟩]
      exact same.words id' l' j listed' inside

end Words

/-- The lists of a graph lie in disjoint ranges that never move; new nodes have empty lists, a list changes only
when it is written, and an `add_node` that does not succeed has no effect. -/
theorem list_storage_is_disjoint_and_stable {options : HnswGraph.Options} {start : ChunkedGraph}
    (created : create options = .ok start)
    {calls : List (GraphCall × (Bool × Bool))} (allowed : AllowsAll calls start) : ∃ g, execute calls start = g ∧
    (∀ id l, g.hasList id l = true → (g.listPtr id l).word + (1 + g.capacity l) ≤
      (g.words (g.listPtr id l).area).length) ∧
    (∀ id l id' l', g.hasList id l = true → g.hasList id' l' = true → ¬(id = id' ∧ l = l') →
      ∀ i j, i < 1 + g.capacity l → j < 1 + g.capacity l' →
        ¬((g.listPtr id l).area = (g.listPtr id' l').area ∧
          (g.listPtr id l).word + i = (g.listPtr id' l').word + j)) ∧
    (∀ earlier later, calls = earlier ++ later → ∀ id l, (execute earlier start).hasList id l = true →
      g.hasList id l = true ∧ g.listPtr id l = (execute earlier start).listPtr id l) ∧
    (∀ level memory h, g.addNode level memory = (.done, h) →
      g.nextOffset level < 2 ^ 32 ∧ h.upper = g.upper ++ [g.nextOffset level] ∧ h.levels = g.levels ++ [level] ∧
      (∀ l, l ≤ level → h.links g.nodeCount l = []) ∧
      ∀ id l j, g.hasList id l = true → h.load (h.listPtr id l) j = g.load (g.listPtr id l) j) ∧
    (∀ level memory reply h, g.addNode level memory = (reply, h) → reply ≠ .done → h = g) ∧
    (∀ id l ids, g.hasList id l = true → ids.length ≤ g.capacity l → (g.setLinks id l ids).links id l = ids ∧
      ∀ id' l' j, g.hasList id' l' = true → ¬(id' = id ∧ l' = l) → j < 1 + g.capacity l' →
        (g.setLinks id l ids).load ((g.setLinks id l ids).listPtr id' l') j = g.load (g.listPtr id' l') j) ∧
    ∀ id l neighbor room h, g.hasList id l = true → g.tryAppendLink id l neighbor = (room, h) →
      (room = decide ((g.links id l).length < g.capacity l)) ∧
      (h.links id l = if room then g.links id l ++ [neighbor] else g.links id l) ∧
      ∀ id' l' j, g.hasList id' l' = true → ¬(id' = id ∧ l' = l) → j < 1 + g.capacity l' →
        h.load (h.listPtr id' l') j = g.load (g.listPtr id' l') j := by
  obtain ⟨wf, _⟩ := (create_wf created).execute allowed
  refine ⟨_, rfl, fun id l listed => wf.list_inside listed,
    fun id l id' l' listed listed' other i j inside inside' =>
    wf.lists_disjoint listed listed' other inside inside', ?_, ?_, ?_, ?_, ?_⟩
  · rintro earlier later rfl id l listed
    obtain ⟨before, after⟩ := (allowsAll_append earlier later start).mp allowed
    rw [execute_append]
    exact (((create_wf created).execute before).1.execute after).2 id l listed
  · intro level memory h run
    rcases addNode_cases (execute calls start) level memory with ⟨_, wrong⟩ | ⟨done, fits⟩
    · exact absurd (congrArg Prod.fst run) wrong
    · obtain rfl : (execute calls start).commitNode level = h := congrArg Prod.snd (done.symm.trans run)
      have small := wf.nextOffset_small fits
      refine ⟨small, ?_, rfl, fun l high => wf.links_commitNode fits high, ?_⟩
      · rw [commitNode, Nat.mod_eq_of_lt small]
      · exact fun id l j listed => wf.load_commitNode fits (hasList_iff.mp listed).1 l j
  · intro level memory reply h run failed
    rcases addNode_cases (execute calls start) level memory with ⟨same, _⟩ | ⟨done, _⟩
    · rw [run] at same
      exact same
    · exact absurd (congrArg Prod.fst (run.symm.trans done)) failed
  · intro id l ids listed room
    obtain ⟨wrote, links⟩ := setLinks_spec wf listed room
    exact ⟨links, fun id' l' j listed' other inside => wrote.load_other wf listed listed' other inside⟩
  · intro id l neighbor room h listed run
    have spec := tryAppendLink_spec wf listed neighbor
    rw [run] at spec
    obtain ⟨wrote, outcome⟩ := spec
    refine ⟨?_, ?_, fun id' l' j listed' other inside => wrote.load_other wf listed listed' other inside⟩
    · rcases outcome with ⟨same, full⟩ | ⟨true, free, _⟩
      · cases same
        exact (decide_eq_false (Nat.not_lt.mpr full)).symm
      · dsimp only at true
        rw [true, decide_eq_true free]
    · rcases outcome with ⟨same, _⟩ | ⟨true, _, appended⟩
      · cases same
        rfl
      · dsimp only at true appended
        rw [true, if_pos rfl, appended]

/-- Two nodes and a link, in chunks of one node and of one block. -/
theorem list_storage_is_disjoint_and_stable_small : ∃ g start, create ⟨2, 1, 1, 4⟩ = .ok start ∧
    execute [(.addNode 1, true, true), (.addNode 0, true, true), (.tryAppendLink 0 1 1, true, true)] start = g ∧
    g.links 0 1 = [1] ∧ g.links 1 0 = [] ∧
    ¬((g.listPtr 0 0).area = (g.listPtr 1 0).area ∧ (g.listPtr 0 0).word + 0 = (g.listPtr 1 0).word + 0) := by
  have created : create ⟨2, 1, 1, 4⟩ =
      .ok { m := 2, maxLevel := 1, nodesPerChunk := 1, arenaChunkWords := 4, arenaUsed := 4 } := by
    decide +kernel
  have allowed : AllowsAll [(.addNode 1, true, true), (.addNode 0, true, true), (.tryAppendLink 0 1 1, true, true)]
      ({ m := 2, maxLevel := 1, nodesPerChunk := 1, arenaChunkWords := 4, arenaUsed := 4 } : ChunkedGraph) :=
    ⟨trivial, trivial, by show ChunkedGraph.hasList _ 0 1 = true; decide +kernel, trivial⟩
  obtain ⟨g, run, _, disjoint, _⟩ := list_storage_is_disjoint_and_stable created allowed
  subst run
  exact ⟨_, _, created, rfl, by decide +kernel, by decide +kernel,
    disjoint 0 0 1 0 (by decide +kernel) (by decide +kernel) (by decide) 0 0 (by decide +kernel)
    (by decide +kernel)⟩

end ChunkedGraph
end VectorForge
