import VectorForge.Storage.VectorStore

namespace VectorForge

structure HnswGraph.Entry where
  id : Nat := kInvalidInternalId
  level : Nat := 0
  deriving DecidableEq, Repr

/-- `HnswGraph`. A list word is addressed by its node, its level and its position in the
list, where word 0 is the count; `upper`, `l0Chunks` and the arena fields are the
bookkeeping that decides when `add_node` runs out of address space. -/
structure HnswGraph where
  m : Nat
  maxLevel : Nat
  nodesPerChunk : Nat
  arenaChunkWords : Nat
  arenaUsed : Nat
  arenaChunks : Nat := 0
  l0Chunks : Nat := 0
  levels : List Nat := []
  upper : List Nat := []
  words : Nat → Nat → Nat → Nat := fun _ _ _ => 0
  entry : HnswGraph.Entry := {}

namespace HnswGraph

def Entry.valid (e : Entry) : Bool := decide (e.id ≠ kInvalidInternalId)

structure Options where
  m : Nat := 16
  maxLevel : Nat := 16
  nodesPerChunk : Nat := 0
  arenaChunkWords : Nat := 0

def kTargetChunkBytes : Nat := 16 * 2 ^ 20
def kMaxNodesPerChunk : Nat := 2 ^ 16
def kDefaultArenaChunkWords : Nat := 2 ^ 16

def defaultNodesPerChunk (m : Nat) : Nat :=
  min (max (bitFloor (max (kTargetChunkBytes / ((1 + 2 * m) * 4)) 1)) 1) kMaxNodesPerChunk

def create (options : Options) : Result HnswGraph :=
  if options.m < 2 then .error (.invalidArgument "hnsw graph: m must be >= 2")
  else if options.maxLevel < 1 then .error (.invalidArgument "hnsw graph: max_level must be >= 1")
  else if options.nodesPerChunk ≠ 0 ∧ (!hasSingleBit options.nodesPerChunk ∨ options.nodesPerChunk > 2 ^ 31) then
    .error (.invalidArgument "hnsw graph: nodes_per_chunk must be a power of two <= 2^31")
  else
    let nodesPerChunk := if options.nodesPerChunk = 0 then defaultNodesPerChunk options.m else options.nodesPerChunk
    let arenaWords := if options.arenaChunkWords = 0 then kDefaultArenaChunkWords else options.arenaChunkWords
    let maxBlock := options.maxLevel * (1 + options.m)
    if !hasSingleBit arenaWords ∨ arenaWords < maxBlock ∨ arenaWords > 2 ^ 31 then
      .error (.invalidArgument
        ("hnsw graph: arena_chunk_words must be a power of two in [max_level * (1 + m), 2^31], got " ++
          toString arenaWords))
    else .ok {
      m := options.m, maxLevel := options.maxLevel, nodesPerChunk, arenaChunkWords := arenaWords
      arenaUsed := arenaWords }

variable (g : HnswGraph)

def nodeCount : Nat := g.levels.length

/-- `2M` on level 0, `M` above. -/
def capacity (level : Nat) : Nat := if level = 0 then 2 * g.m else g.m

def level (id : Nat) : Nat := g.levels.getD id 0

def chunkMask : Nat := g.nodesPerChunk - 1
def arenaShift : Nat := g.arenaChunkWords.log2

/-- Whether the upper block of a node on `level` needs another arena chunk. -/
def opensArenaChunk (level : Nat) : Bool :=
  decide (level > 0 ∧ g.arenaUsed + level * (1 + g.m) > g.arenaChunkWords)

def addNode (level : Nat) : Result HnswGraph :=
  if level > g.maxLevel then
    .error (.invalidArgument ("hnsw graph: level " ++ toString level ++ " exceeds max_level " ++
      toString g.maxLevel))
  else if g.nodeCount ≥ kMaxVectorsPerCollection then
    .error (.resourceExhausted "hnsw graph: node id space exhausted")
  else if g.opensArenaChunk level ∧ g.arenaChunks ≥ 2 ^ (32 - g.arenaShift) then
    .error (.resourceExhausted "hnsw graph: upper-level arena exhausted")
  else
    let id := g.nodeCount
    let arenaChunks := if g.opensArenaChunk level then g.arenaChunks + 1 else g.arenaChunks
    let arenaUsed := if g.opensArenaChunk level then 0 else g.arenaUsed
    .ok { g with
      l0Chunks := if id &&& g.chunkMask = 0 then g.l0Chunks + 1 else g.l0Chunks
      arenaChunks
      arenaUsed := if level > 0 then arenaUsed + level * (1 + g.m) else arenaUsed
      levels := g.levels ++ [level]
      upper := g.upper ++ [if level > 0 then ((arenaChunks - 1) <<< g.arenaShift) + arenaUsed else 0]
      -- chunks and arena blocks are allocated zeroed and handed out once
      words := fun node l w => if node = id then 0 else g.words node l w }

/-- One atomic store into a list. -/
def storeWord (id level word value : Nat) : HnswGraph :=
  { g with words := fun node l w => if node = id ∧ l = level ∧ w = word then value else g.words node l w }

/-- The ids of a `LinkView` taken while nobody writes. -/
def links (id level : Nat) : List Nat := (List.range (g.words id level 0)).map fun i => g.words id level (1 + i)

def storeIds (id level : Nat) : Nat → List Nat → HnswGraph → HnswGraph
  | _, [], g => g
  | word, value :: rest, g => storeIds id level (word + 1) rest (g.storeWord id level word value)

/-- Ids first, then the count. -/
def storeList (id level : Nat) (ids : List Nat) : HnswGraph :=
  (storeIds id level 1 ids g).storeWord id level 0 ids.length

/-- The range that `list_ptr` asserts. -/
def hasList (id level : Nat) : Bool := decide (id < g.nodeCount ∧ level ≤ g.level id)

def setLinks (id level : Nat) (ids : List Nat) : Checked HnswGraph := do
  Outcome.check (decide (ids.length ≤ g.capacity level)) "HnswGraph::set_links: too many links"
  Outcome.check (g.hasList id level) "HnswGraph: list out of range"
  return g.storeList id level ids

def setEntry (e : Entry) : HnswGraph := { g with entry := e }

section Words
variable {g} {id level word value : Nat}

@[simp] theorem storeWord_levels : (g.storeWord id level word value).levels = g.levels := rfl
@[simp] theorem storeWord_entry : (g.storeWord id level word value).entry = g.entry := rfl
@[simp] theorem storeWord_m : (g.storeWord id level word value).m = g.m := rfl
@[simp] theorem storeWord_maxLevel : (g.storeWord id level word value).maxLevel = g.maxLevel := rfl

/-- Everything but the list words and the entry point. -/
structure SameShape (a b : HnswGraph) : Prop where
  m : a.m = b.m
  maxLevel : a.maxLevel = b.maxLevel
  nodesPerChunk : a.nodesPerChunk = b.nodesPerChunk
  arenaChunkWords : a.arenaChunkWords = b.arenaChunkWords
  arenaUsed : a.arenaUsed = b.arenaUsed
  arenaChunks : a.arenaChunks = b.arenaChunks
  l0Chunks : a.l0Chunks = b.l0Chunks
  levels : a.levels = b.levels
  upper : a.upper = b.upper

theorem SameShape.refl (a : HnswGraph) : SameShape a a := ⟨rfl, rfl, rfl, rfl, rfl, rfl, rfl, rfl, rfl⟩

theorem SameShape.symm {a b : HnswGraph} (shape : SameShape a b) : SameShape b a :=
  ⟨shape.m.symm, shape.maxLevel.symm, shape.nodesPerChunk.symm, shape.arenaChunkWords.symm, shape.arenaUsed.symm,
    shape.arenaChunks.symm, shape.l0Chunks.symm, shape.levels.symm, shape.upper.symm⟩

theorem SameShape.trans {a b c : HnswGraph} (first : SameShape a b) (second : SameShape b c) : SameShape a c :=
  ⟨first.m.trans second.m, first.maxLevel.trans second.maxLevel, first.nodesPerChunk.trans second.nodesPerChunk,
    first.arenaChunkWords.trans second.arenaChunkWords, first.arenaUsed.trans second.arenaUsed,
    first.arenaChunks.trans second.arenaChunks, first.l0Chunks.trans second.l0Chunks,
    first.levels.trans second.levels, first.upper.trans second.upper⟩

theorem setEntry_shape (g : HnswGraph) (e : Entry) : SameShape (g.setEntry e) g :=
  ⟨rfl, rfl, rfl, rfl, rfl, rfl, rfl, rfl, rfl⟩

theorem storeWord_shape : SameShape (g.storeWord id level word value) g :=
  ⟨rfl, rfl, rfl, rfl, rfl, rfl, rfl, rfl, rfl⟩

theorem storeIds_spec : ∀ {ids : List Nat} (first : Nat) (g : HnswGraph),
    SameShape (storeIds id level first ids g) g ∧ (storeIds id level first ids g).entry = g.entry ∧
      ∀ node l w, (storeIds id level first ids g).words node l w =
        if node = id ∧ l = level ∧ first ≤ w ∧ w < first + ids.length then ids.getD (w - first) 0
        else g.words node l w := by
  intro ids
  induction ids with
  | nil =>
    intro first g
    refine ⟨SameShape.refl g, rfl, ?_⟩
    intro node l w
    rw [if_neg (by simp only [List.length_nil]; omega)]
    rfl
  | cons value rest ih =>
    intro first g
    obtain ⟨shape, entry, words⟩ := ih (first + 1) (g.storeWord id level first value)
    refine ⟨shape.trans storeWord_shape, entry, ?_⟩
    intro node l w
    rw [storeIds, words]
    by_cases here : node = id ∧ l = level
    · obtain ⟨rfl, rfl⟩ := here
      simp only [true_and, List.length_cons, storeWord]
      rcases Nat.lt_trichotomy w first with below | rfl | above
      · rw [if_neg (by omega), if_neg (by omega), if_neg (by omega)]
      · rw [if_neg (by omega), if_pos rfl, if_pos (by omega)]
        simp
      · by_cases inside : w < first + 1 + rest.length
        · obtain ⟨k, rfl⟩ : ∃ k, w = first + 1 + k := ⟨w - (first + 1), by omega⟩
          rw [if_pos (by omega), if_pos (by omega), Nat.add_sub_cancel_left,
            show first + 1 + k - first = k + 1 by omega]
          rfl
        · rw [if_neg (by omega), if_neg (by omega), if_neg (by omega)]
    · simp only [storeWord]
      rw [if_neg (by tauto), if_neg (by tauto), if_neg (by tauto)]

theorem storeList_shape (g : HnswGraph) (id level : Nat) (ids : List Nat) :
    SameShape (g.storeList id level ids) g :=
  storeWord_shape.trans (storeIds_spec _ _).1

@[simp] theorem storeList_entry (ids : List Nat) : (g.storeList id level ids).entry = g.entry :=
  (storeIds_spec _ _).2.1

/-- A rewritten list holds exactly the new ids. -/
@[simp] theorem links_storeList (ids : List Nat) : (g.storeList id level ids).links id level = ids := by
  have count : (g.storeList id level ids).words id level 0 = ids.length := by simp [storeList, storeWord]
  rw [links, count]
  apply List.ext_getElem?
  intro i
  rw [List.getElem?_map]
  by_cases inside : i < ids.length
  · have nonzero : 1 + i ≠ 0 := by omega
    rw [List.getElem?_range inside, List.getElem?_eq_getElem inside, Option.map_some, storeList, storeWord]
    simp only [true_and, if_neg nonzero, (storeIds_spec _ _).2.2]
    rw [if_pos (by omega), Nat.add_sub_cancel_left, List.getD_eq_getElem?_getD, List.getElem?_eq_getElem inside]
    rfl
  · rw [List.getElem?_eq_none (by simpa using inside), List.getElem?_eq_none (by omega)]
    rfl

theorem links_storeList_of_ne {node l : Nat} (ids : List Nat) (other : ¬(node = id ∧ l = level)) :
    (g.storeList id level ids).links node l = g.links node l := by
  have same (w : Nat) : (g.storeList id level ids).words node l w = g.words node l w := by
    rw [storeList, storeWord]
    simp only
    rw [if_neg (by tauto), (storeIds_spec _ _).2.2, if_neg (by tauto)]
  simp only [links, same]

@[simp] theorem length_links : (g.links id level).length = g.words id level 0 := by
  simp [links]

theorem SameShape.level_eq {a b : HnswGraph} (shape : SameShape a b) (id : Nat) : a.level id = b.level id := by
  rw [HnswGraph.level, HnswGraph.level, shape.levels]

theorem SameShape.nodeCount_eq {a b : HnswGraph} (shape : SameShape a b) : a.nodeCount = b.nodeCount := by
  rw [HnswGraph.nodeCount, HnswGraph.nodeCount, shape.levels]

theorem SameShape.capacity_eq {a b : HnswGraph} (shape : SameShape a b) (level : Nat) :
    a.capacity level = b.capacity level := by
  rw [HnswGraph.capacity, HnswGraph.capacity, shape.m]

end Words

section AddNode
variable {g} {h : HnswGraph} {level : Nat}

/-- A new node has the next id, its level and empty lists; nothing else is visible. -/
theorem addNode_spec (run : g.addNode level = .ok h) :
    level ≤ g.maxLevel ∧ g.nodeCount < kMaxVectorsPerCollection ∧ h.levels = g.levels ++ [level] ∧ h.m = g.m ∧
      h.maxLevel = g.maxLevel ∧ h.entry = g.entry ∧
      ∀ node l w, h.words node l w = if node = g.nodeCount then 0 else g.words node l w := by
  unfold addNode at run
  split at run
  · cases run
  next fitsLevel =>
  split at run
  · cases run
  next fitsId =>
  split at run
  · cases run
  cases run
  exact ⟨by omega, by omega, rfl, rfl, rfl, rfl, fun _ _ _ => rfl⟩

theorem level_append {levels : List Nat} {id : Nat} : (levels ++ [level]).getD id 0 =
    if id = levels.length then level else levels.getD id 0 := by
  simp only [List.getD_eq_getElem?_getD]
  rcases Nat.lt_trichotomy id levels.length with below | rfl | above
  · rw [List.getElem?_append_left below, if_neg (Nat.ne_of_lt below)]
  · simp
  · rw [List.getElem?_eq_none (by simp; omega), List.getElem?_eq_none (by omega), if_neg (by omega)]

theorem addNode_level (run : g.addNode level = .ok h) (id : Nat) :
    h.level id = if id = g.nodeCount then level else g.level id := by
  obtain ⟨_, _, levels, _⟩ := addNode_spec run
  rw [HnswGraph.level, levels, level_append]
  rfl

theorem addNode_nodeCount (run : g.addNode level = .ok h) : h.nodeCount = g.nodeCount + 1 := by
  obtain ⟨_, _, levels, _⟩ := addNode_spec run
  rw [HnswGraph.nodeCount, levels, List.length_append, List.length_singleton]
  rfl

/-- `add_node` looks only at the shape of the graph. -/
theorem SameShape.addNode {a b c : HnswGraph} (shape : SameShape a b) (run : a.addNode level = .ok c) :
    ∃ d, b.addNode level = .ok d ∧ SameShape c d := by
  obtain ⟨m, maxLevel, nodes, chunkWords, used, chunks, l0, levels, upper⟩ := shape
  cases a
  cases b
  simp only at m maxLevel nodes chunkWords used chunks l0 levels upper
  subst m maxLevel nodes chunkWords used chunks l0 levels upper
  unfold HnswGraph.addNode at run
  split at run
  · cases run
  next fitsLevel =>
  split at run
  · cases run
  next fitsId =>
  split at run
  · cases run
  next fitsArena =>
  cases run
  exact ⟨_, (if_neg fitsLevel).trans ((if_neg fitsId).trans (if_neg fitsArena)),
    rfl, rfl, rfl, rfl, rfl, rfl, rfl, rfl, rfl⟩

end AddNode

section Laid

/-- An empty graph with the default layout, the one every collection starts from. -/
def blank (m maxLevel : Nat) : HnswGraph where
  m := m
  maxLevel := maxLevel
  nodesPerChunk := defaultNodesPerChunk m
  arenaChunkWords := kDefaultArenaChunkWords
  arenaUsed := kDefaultArenaChunkWords

/-- Nodes on the given levels, added one after the other. -/
def addNodes (g : HnswGraph) : List Nat → Result HnswGraph
  | [] => .ok g
  | level :: rest => g.addNode level >>= fun h => addNodes h rest

/-- The bookkeeping is what `add_node` makes of the levels; there is no other way to a node. -/
def Laid (g : HnswGraph) : Prop := ∃ h, addNodes (blank g.m g.maxLevel) g.levels = .ok h ∧ SameShape h g

variable {g} {h : HnswGraph} {level : Nat}

theorem create_blank {m maxLevel : Nat} (run : create { m, maxLevel } = .ok g) :
    g = blank m maxLevel ∧ 2 ≤ m ∧ 1 ≤ maxLevel := by
  unfold create at run
  split at run
  · cases run
  next low =>
  split at run
  · cases run
  next one =>
  split at run
  · cases run
  simp only [if_true] at run
  split at run
  · cases run
  · cases run
    exact ⟨rfl, Nat.le_of_not_lt low, Nat.le_of_not_lt one⟩

theorem create_ok {m maxLevel : Nat} (low : 2 ≤ m) (high : m ≤ 512) (one : 1 ≤ maxLevel) (cap : maxLevel ≤ 32) :
    create { m, maxLevel } = .ok (blank m maxLevel) := by
  have bits : hasSingleBit kDefaultArenaChunkWords = true := VectorStore.hasSingleBit_two_pow 16
  have block : maxLevel * (1 + m) ≤ 32 * 513 := Nat.mul_le_mul cap (by omega)
  unfold create
  simp only [if_true]
  rw [if_neg (by omega), if_neg (by omega), if_neg (by simp), if_neg]
  · rfl
  · rw [bits]
    simp only [kDefaultArenaChunkWords, Bool.not_true, Bool.false_eq_true, false_or]
    omega

theorem addNodes_append {levels : List Nat} : ∀ {g h : HnswGraph}, addNodes g levels = .ok h →
    addNodes g (levels ++ [level]) = h.addNode level := by
  induction levels with
  | nil =>
    intro g h run
    cases run
    simp only [List.nil_append, addNodes]
    cases g.addNode level <;> rfl
  | cons first rest ih =>
    intro g h run
    simp only [List.cons_append, addNodes] at run ⊢
    cases step : g.addNode first with
    | error e => rw [step] at run; cases run
    | ok next =>
      rw [step] at run
      exact ih run

/-- What can be built can be built up to any point. -/
theorem addNodes_prefix {first rest : List Nat} : ∀ {g h : HnswGraph}, addNodes g (first ++ rest) = .ok h →
    ∃ mid, addNodes g first = .ok mid := by
  induction first with
  | nil => exact fun _ => ⟨_, rfl⟩
  | cons level more ih =>
    intro g h run
    simp only [List.cons_append, addNodes] at run ⊢
    cases step : g.addNode level with
    | error e => rw [step] at run; cases run
    | ok next =>
      rw [step] at run
      exact ih run

theorem blank_laid (m maxLevel : Nat) : (blank m maxLevel).Laid := ⟨_, rfl, SameShape.refl _⟩

theorem Laid.of_shape (laid : g.Laid) (shape : SameShape g h) : h.Laid := by
  obtain ⟨w, run, same⟩ := laid
  refine ⟨w, ?_, same.trans shape⟩
  rw [← shape.m, ← shape.maxLevel, ← shape.levels]
  exact run

theorem Laid.addNode (laid : g.Laid) (run : g.addNode level = .ok h) : h.Laid := by
  obtain ⟨w, built, same⟩ := laid
  obtain ⟨_, _, levels, m, maxLevel, _⟩ := addNode_spec run
  obtain ⟨v, step, shape⟩ := same.symm.addNode run
  refine ⟨v, ?_, shape.symm⟩
  rw [levels, m, maxLevel, addNodes_append built]
  exact step

end Laid

end HnswGraph
end VectorForge
