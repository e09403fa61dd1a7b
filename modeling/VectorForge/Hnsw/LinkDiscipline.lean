import VectorForge.Hnsw.Insert
import VectorForge.Hnsw.Validator

/-! What single steps of insertions do to the shared graph, the invariant that holds between
any two of them, and what one insertion may rely on while others run. -/

namespace VectorForge

/-- The memory that insertions share. `stripes` and `top` name the insertions that hold the locks;
`joined` and `stored` are history: the levels that `publish` linked a node on, and the lists whose
count was ever stored. -/
structure SharedGraph where
  graph : HnswGraph
  stripes : Nat → Option Nat := fun _ => none
  top : Option Nat := none
  joined : Nat → Nat := fun _ => 0
  stored : Nat → Nat → Bool := fun _ _ => false

namespace SharedGraph

def storeWord (s : SharedGraph) (id level word value : Nat) : SharedGraph :=
  { s with
    graph := s.graph.storeWord id level word value
    stored := fun c l => if c = id ∧ l = level ∧ word = 0 then true else s.stored c l }

/-- One step of the insertion of node `i`. A lock that somebody holds cannot be taken, and only the
insertions in `mayFail` run out of memory. -/
def Does (mayFail : Nat → Prop) (i : Nat) : (o : GraphOp) → SharedGraph → o.Ret → SharedGraph → Prop
  | .levelOf id, s, r, s' => r = s.graph.level id ∧ s' = s
  | .load id level word, s, r, s' => r = s.graph.words id level word ∧ s' = s
  | .store id level word value, s, _, s' => s' = s.storeWord id level word value
  | .loadEntry, s, r, s' => r = s.graph.entry ∧ s' = s
  | .storeEntry e, s, _, s' => s' = { s with graph := s.graph.setEntry e }
  | .lock stripe, s, _, s' =>
    s.stripes stripe = none ∧ s' = { s with stripes := Function.update s.stripes stripe (some i) }
  | .unlock stripe, s, _, s' => s' = { s with stripes := Function.update s.stripes stripe none }
  | .lockTop, s, _, s' => s.top = none ∧ s' = { s with top := some i }
  | .unlockTop, s, _, s' => s' = { s with top := none }
  | .allocate, s, r, s' => s' = s ∧ (r = false → mayFail i)
  | .addNode level, s, r, s' => match s.graph.addNode level with
    | .ok g => r = .ok () ∧ s' = { s with graph := g }
    | .error e => r = .error e ∧ s' = s
  | .joins id levels, s, _, s' => s' = { s with joined := Function.update s.joined id levels }
  | .abort, _, _, _ => False

/-- The same step while nothing else runs; `memory` says whether allocations succeed. -/
def answer (memory : Bool) (i : Nat) : (o : GraphOp) → SharedGraph → Option (o.Ret × SharedGraph)
  | .levelOf id, s => some (s.graph.level id, s)
  | .load id level word, s => some (s.graph.words id level word, s)
  | .store id level word value, s => some ((), s.storeWord id level word value)
  | .loadEntry, s => some (s.graph.entry, s)
  | .storeEntry e, s => some ((), { s with graph := s.graph.setEntry e })
  | .lock stripe, s =>
    if s.stripes stripe = none then some ((), { s with stripes := Function.update s.stripes stripe (some i) })
    else none
  | .unlock stripe, s => some ((), { s with stripes := Function.update s.stripes stripe none })
  | .lockTop, s => if s.top = none then some ((), { s with top := some i }) else none
  | .unlockTop, s => some ((), { s with top := none })
  | .allocate, s => some (memory, s)
  | .addNode level, s => match s.graph.addNode level with
    | .ok g => some (.ok (), { s with graph := g })
    | .error e => some (.error e, s)
  | .joins id levels, s => some ((), { s with joined := Function.update s.joined id levels })
  | .abort, _ => none

theorem does_of_answer {mayFail : Nat → Prop} {memory : Bool} {i : Nat}
    (lacks : memory = false → mayFail i) (o : GraphOp)
    (s : SharedGraph) (r : o.Ret) (s' : SharedGraph) (run : answer memory i o s = some (r, s')) :
    Does mayFail i o s r s' := by
  cases o with
  | lock stripe =>
    simp only [answer] at run
    split at run
    next free => cases run; exact ⟨free, rfl⟩
    next => cases run
  | lockTop =>
    simp only [answer] at run
    split at run
    next free => cases run; exact ⟨free, rfl⟩
    next => cases run
  | addNode level =>
    simp only [answer] at run
    simp only [Does]
    split at run <;> cases run <;> exact ⟨rfl, rfl⟩
  | abort => cases run
  | allocate => cases run; exact ⟨rfl, lacks⟩
  | store id level word value => cases run; rfl
  | storeEntry e => cases run; rfl
  | unlock stripe => cases run; rfl
  | unlockTop => cases run; rfl
  | joins id levels => cases run; rfl
  | levelOf id => cases run; exact ⟨rfl, rfl⟩
  | load id level word => cases run; exact ⟨rfl, rfl⟩
  | loadEntry => cases run; exact ⟨rfl, rfl⟩

/-- The preconditions of the operations: lists in range, words inside their list, locks released
by their owner, no failed assertion. -/
def Allowed (i : Nat) : GraphOp → SharedGraph → Prop
  | .levelOf id, s => id < s.graph.nodeCount
  | .load id level word, s => s.graph.hasList id level = true ∧ word ≤ s.graph.capacity level
  | .store id level word _, s => s.graph.hasList id level = true ∧ word ≤ s.graph.capacity level
  | .unlock stripe, s => s.stripes stripe = some i
  | .unlockTop, s => s.top = some i
  | .addNode _, s => i = s.graph.nodeCount
  | .abort, _ => False
  | _, _ => True

end SharedGraph

/-- Auxiliary state: the published nodes, every id a list ever held and the length it ever had, and
for each insertion the list that it is rewriting. -/
structure LinkGhost where
  pub : Nat → Prop
  may : Nat → Nat → Nat → Prop
  high : Nat → Nat → Nat
  dirty : Nat → Option (Nat × Nat)

/-- The insertion that may raise the top level: the one that runs alone, if there is one, or else
the one that holds the lock. -/
def raiser (solo : Option Nat) (s : SharedGraph) : Option Nat := solo <|> s.top

/-- Holds between any two steps of any insertions. -/
structure LinkInv (params : HnswParams) (solo : Option Nat) (s : SharedGraph) (γ : LinkGhost) : Prop where
  m : s.graph.m = params.M.toNat
  maxLevel : s.graph.maxLevel = params.maxLevel.toNat
  laid : s.graph.Laid
  room : s.graph.nodeCount ≤ kMaxVectorsPerCollection
  tops : ∀ id, id < s.graph.nodeCount → s.graph.level id ≤ s.graph.maxLevel
  inside : ∀ x, γ.pub x → x < s.graph.nodeCount
  counts : ∀ c l, s.graph.hasList c l = true → s.graph.words c l 0 ≤ γ.high c l
  high : ∀ c l, γ.high c l ≤ s.graph.capacity l
  unlisted : ∀ c l, s.graph.hasList c l = false → γ.high c l = 0
  slots : ∀ c l k, k < γ.high c l → γ.may c l (s.graph.words c l (1 + k))
  may : ∀ c l v, γ.may c l v → γ.pub v ∧ v ≠ c ∧ l ≤ s.graph.level v
  distinct : ∀ c l, s.graph.hasList c l = true → (∀ j, γ.dirty j ≠ some (c, l)) → (s.graph.links c l).Nodup
  locked : ∀ j c l, γ.dirty j = some (c, l) → γ.pub c ∧ s.stripes (HnswContext.stripeOf c) = some j
  entry : s.graph.entry.valid = true →
    γ.pub s.graph.entry.id ∧ s.graph.level s.graph.entry.id = s.graph.entry.level
  reach : ∀ x, γ.pub x →
    s.graph.entry.valid = true ∧ (s.graph.level x ≤ s.graph.entry.level ∨ raiser solo s = some x)
  written : ∀ x, γ.pub x → ∀ l, l < s.joined x → s.stored x l = true

/-- What the insertion of `i` may rely on while others take steps. -/
structure LinkRely (solo : Option Nat) (i : Nat) (s : SharedGraph) (γ : LinkGhost)
    (s' : SharedGraph) (γ' : LinkGhost) : Prop where
  m : s'.graph.m = s.graph.m
  grows : s.graph.levels <+: s'.graph.levels
  fixed : (∀ j, solo = some j → j = i) → s'.graph.levels = s.graph.levels
  pub : ∀ x, γ.pub x → γ'.pub x
  hidden : ¬γ.pub i → ¬γ'.pub i
  may : ∀ c l v, γ.may c l v → γ'.may c l v
  high : ∀ c l, γ.high c l ≤ γ'.high c l
  unlinked : ∀ c l, γ.pub c → ¬γ.may c l i → ¬γ'.may c l i
  entry : s.graph.entry.valid = true →
    s'.graph.entry.valid = true ∧ s.graph.entry.level ≤ s'.graph.entry.level
  raiser : raiser solo s = some i → raiser solo s' = some i ∧ s'.graph.entry = s.graph.entry
  top : s'.top = some i ↔ s.top = some i
  stripes : ∀ k, s'.stripes k = some i ↔ s.stripes k = some i
  locked : ∀ c l w, γ.pub c → s.stripes (HnswContext.stripeOf c) = some i →
    s'.graph.words c l w = s.graph.words c l w
  own : i < s.graph.nodeCount → ¬γ.pub i → ∀ l w, s'.graph.words i l w = s.graph.words i l w
  stored : ∀ c l, s.stored c l = true → s'.stored c l = true
  joined : s'.joined i = s.joined i
  dirty : γ'.dirty i = γ.dirty i

namespace LinkRely
variable {solo : Option Nat} {i : Nat} {s s' s'' : SharedGraph} {γ γ' γ'' : LinkGhost}

theorem refl (solo : Option Nat) (i : Nat) (s : SharedGraph) (γ : LinkGhost) : LinkRely solo i s γ s γ where
  m := rfl
  grows := List.prefix_refl _
  fixed := fun _ => rfl
  pub := fun _ h => h
  hidden := fun h => h
  may := fun _ _ _ h => h
  high := fun _ _ => Nat.le_refl _
  unlinked := fun _ _ _ h => h
  entry := fun h => ⟨h, Nat.le_refl _⟩
  raiser := fun h => ⟨h, rfl⟩
  top := Iff.rfl
  stripes := fun _ => Iff.rfl
  locked := fun _ _ _ _ _ => rfl
  own := fun _ _ _ _ => rfl
  stored := fun _ _ h => h
  joined := rfl
  dirty := rfl

theorem nodeCount_le (rely : LinkRely solo i s γ s' γ') : s.graph.nodeCount ≤ s'.graph.nodeCount :=
  rely.grows.length_le

theorem level_eq (rely : LinkRely solo i s γ s' γ') {id : Nat} (inside : id < s.graph.nodeCount) :
    s'.graph.level id = s.graph.level id := by
  obtain ⟨more, longer⟩ := rely.grows
  rw [HnswGraph.level, HnswGraph.level, ← longer]
  simp only [List.getD_eq_getElem?_getD, List.getElem?_append_left inside]

theorem hasList (rely : LinkRely solo i s γ s' γ') {c l : Nat} (listed : s.graph.hasList c l = true) :
    s'.graph.hasList c l = true := by
  simp only [HnswGraph.hasList, decide_eq_true_eq] at listed ⊢
  have more := rely.nodeCount_le
  rw [rely.level_eq listed.1]
  exact ⟨by omega, listed.2⟩

theorem trans (first : LinkRely solo i s γ s' γ') (second : LinkRely solo i s' γ' s'' γ'') :
    LinkRely solo i s γ s'' γ'' where
  m := second.m.trans first.m
  grows := first.grows.trans second.grows
  fixed := fun only => (second.fixed only).trans (first.fixed only)
  pub := fun x h => second.pub x (first.pub x h)
  hidden := fun h => second.hidden (first.hidden h)
  may := fun c l v h => second.may c l v (first.may c l v h)
  high := fun c l => (first.high c l).trans (second.high c l)
  unlinked := fun c l known h => second.unlinked c l (first.pub c known) (first.unlinked c l known h)
  entry := fun h =>
    have middle := first.entry h
    have last := second.entry middle.1
    ⟨last.1, middle.2.trans last.2⟩
  raiser := fun h =>
    have middle := first.raiser h
    have last := second.raiser middle.1
    ⟨last.1, last.2.trans middle.2⟩
  top := second.top.trans first.top
  stripes := fun k => (second.stripes k).trans (first.stripes k)
  locked := fun c l w known held =>
    (second.locked c l w (first.pub c known) ((first.stripes _).mpr held)).trans (first.locked c l w known held)
  own := fun inside h l w =>
    (second.own (inside.trans_le first.nodeCount_le) (first.hidden h) l w).trans (first.own inside h l w)
  stored := fun c l h => second.stored c l (first.stored c l h)
  joined := second.joined.trans first.joined
  dirty := second.dirty.trans first.dirty

end LinkRely

/-- Insertions into graphs with these parameters. `solo` is the node of an `add`, which needs exclusive
access; it is `none` while nodes are linked concurrently. -/
def linkDiscipline (params : HnswParams) (mayFail : Nat → Prop) (solo : Option Nat) :
    Discipline GraphOp GraphOp.Ret SharedGraph LinkGhost where
  does := SharedGraph.Does mayFail
  allowed := SharedGraph.Allowed
  inv := LinkInv params solo
  rely := LinkRely solo
  refl := LinkRely.refl solo
  trans := LinkRely.trans

theorem linkDiscipline_answer {params : HnswParams} {mayFail : Nat → Prop} {solo : Option Nat}
    {memory : Bool} {i : Nat}
    (lacks : memory = false → mayFail i) (o : GraphOp) (s : SharedGraph) (r : o.Ret) (s' : SharedGraph)
    (run : SharedGraph.answer memory i o s = some (r, s')) : (linkDiscipline params mayFail solo).does i o s r s' :=
  SharedGraph.does_of_answer lacks o s r s' run

end VectorForge
