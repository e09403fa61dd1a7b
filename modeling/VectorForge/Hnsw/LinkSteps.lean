import VectorForge.Hnsw.LinkDiscipline

/-! Each step of an insertion keeps the invariant and what the other insertions rely on. -/

namespace VectorForge
open HnswContext (stripeOf)

section Words
variable {g : HnswGraph} {id level word value : Nat}

theorem HnswGraph.links_storeWord_of_ne {c l : Nat} (other : ¬(c = id ∧ l = level)) :
    (g.storeWord id level word value).links c l = g.links c l := by
  have same (w : Nat) : (g.storeWord id level word value).words c l w = g.words c l w :=
    if_neg fun at_ => other ⟨at_.1, at_.2.1⟩
  simp only [HnswGraph.links, same]

/-- A store past the count is not visible in the list. -/
theorem HnswGraph.links_storeSlot {k c l : Nat} (past : g.words id level 0 ≤ k) :
    (g.storeWord id level (1 + k) value).links c l = g.links c l := by
  by_cases here : c = id ∧ l = level
  · obtain ⟨rfl, rfl⟩ := here
    have count : (g.storeWord c l (1 + k) value).words c l 0 = g.words c l 0 := if_neg (by omega)
    rw [HnswGraph.links, HnswGraph.links, count]
    apply List.map_congr_left
    intro slot inside
    have below : slot < g.words c l 0 := List.mem_range.mp inside
    exact if_neg (by omega)
  · exact links_storeWord_of_ne here

/-- A stored count makes the slots below it the list. -/
theorem HnswGraph.links_storeCount (n : Nat) : (g.storeWord id level 0 n).links id level =
    (List.range n).map fun k => g.words id level (1 + k) := by
  have count : (g.storeWord id level 0 n).words id level 0 = n := if_pos ⟨rfl, rfl, rfl⟩
  rw [HnswGraph.links, count]
  apply List.map_congr_left
  intro slot _
  exact if_neg (by omega)

end Words

/-- Node `i` is ready to become reachable. -/
structure Ready (solo : Option Nat) (i : Nat) (s : SharedGraph) : Prop where
  node : i < s.graph.nodeCount
  valid : s.graph.entry.valid = true
  reach : s.graph.level i ≤ s.graph.entry.level ∨ raiser solo s = some i
  written : ∀ l, l < s.joined i → s.stored i l = true

/-- The lists that insertion `i` may change: its own while nobody can see them, and those of
published nodes whose stripe it holds. -/
def MayWrite (i c : Nat) (s : SharedGraph) (γ : LinkGhost) : Prop :=
  (c = i ∧ ¬γ.pub i ∧ i < s.graph.nodeCount) ∨ (γ.pub c ∧ s.stripes (stripeOf c) = some i)

namespace LinkGhost
variable (γ : LinkGhost)

def putSlot (c l v : Nat) : LinkGhost :=
  { γ with
    pub := fun x => γ.pub x ∨ x = v
    may := fun c' l' x => γ.may c' l' x ∨ (c' = c ∧ l' = l ∧ x = v) }

def putCount (c l n : Nat) : LinkGhost :=
  { γ with high := fun c' l' => if c' = c ∧ l' = l then max (γ.high c l) n else γ.high c' l' }

def mark (i : Nat) (list : Option (Nat × Nat)) : LinkGhost := { γ with dirty := Function.update γ.dirty i list }

def publish (i : Nat) : LinkGhost := { γ with pub := fun x => γ.pub x ∨ x = i }

variable {γ} {i j c l n c' l' : Nat} {list : Option (Nat × Nat)}

theorem mark_self : (γ.mark i list).dirty i = list := Function.update_self ..

theorem mark_of_ne (other : j ≠ i) : (γ.mark i list).dirty j = γ.dirty j := Function.update_of_ne other ..

theorem putCount_high_self : (γ.putCount c l n).high c l = max (γ.high c l) n := if_pos ⟨rfl, rfl⟩

theorem putCount_high_of_ne (elsewhere : ¬(c' = c ∧ l' = l)) : (γ.putCount c l n).high c' l' = γ.high c' l' :=
  if_neg elsewhere

end LinkGhost

section Store
variable {params : HnswParams} {solo : Option Nat} {i c l k v n : Nat} {s : SharedGraph} {γ : LinkGhost}
  {list : Option (Nat × Nat)}

theorem MayWrite.node (inv : LinkInv params solo s γ) (access : MayWrite i c s γ) : c < s.graph.nodeCount := by
  rcases access with ⟨rfl, _, inside⟩ | ⟨known, _⟩
  · exact inside
  · exact inv.inside c known

/-- Nobody else holds the list that is written. -/
theorem MayWrite.foreign (access : MayWrite i c s γ) {j c' : Nat} (other : j ≠ i) (known : γ.pub c')
    (held : s.stripes (stripeOf c') = some j) : c' ≠ c := by
  rintro rfl
  rcases access with ⟨rfl, hidden, _⟩ | ⟨_, mine⟩
  · exact hidden known
  · rw [held] at mine
    exact other (Option.some.inj mine)

/-- Nobody else's unpublished node is written. -/
theorem MayWrite.ne_hidden (access : MayWrite i c s γ) {j : Nat} (other : j ≠ i) (hidden : ¬γ.pub j) : j ≠ c := by
  rintro rfl
  rcases access with ⟨rfl, _, _⟩ | ⟨known, _⟩
  · exact other rfl
  · exact hidden known

/-- What may be stored in a slot of `(c, l)`: a published node or `i` itself once it is ready, and
into the list of another node only `i` or what the list held before. -/
structure Storable (solo : Option Nat) (i c l v : Nat) (s : SharedGraph) (γ : LinkGhost) : Prop where
  other : v ≠ c
  high : l ≤ s.graph.level v
  known : γ.pub v ∨ (v = i ∧ Ready solo i s)
  again : γ.pub c → v = i ∨ γ.may c l v

/-- How a slot store treats the list: invisibly past the count, or as part of a rewrite. -/
def Marks (i c l k : Nat) (list : Option (Nat × Nat)) (s : SharedGraph) (γ : LinkGhost) : Prop :=
  (list = γ.dirty i ∧ s.graph.words c l 0 ≤ k) ∨
  (list = some (c, l) ∧ (γ.dirty i = none ∨ γ.dirty i = some (c, l)) ∧ γ.pub c ∧ s.stripes (stripeOf c) = some i)

theorem storeSlot_inv (inv : LinkInv params solo s γ) (storable : Storable solo i c l v s γ)
    (marks : Marks i c l k list s γ) :
    LinkInv params solo (s.storeWord c l (1 + k) v) ((γ.mark i list).putSlot c l v) where
  m := inv.m
  maxLevel := inv.maxLevel
  laid := inv.laid.of_shape HnswGraph.storeWord_shape.symm
  room := inv.room
  tops := inv.tops
  inside := by
    rintro x (known | rfl)
    · exact inv.inside x known
    · rcases storable.known with known | ⟨rfl, ready⟩
      · exact inv.inside x known
      · exact ready.node
  counts := by
    intro c' l' listed
    have count : (s.storeWord c l (1 + k) v).graph.words c' l' 0 = s.graph.words c' l' 0 := if_neg (by omega)
    rw [count]
    exact inv.counts c' l' listed
  high := inv.high
  unlisted := inv.unlisted
  slots := by
    intro c' l' slot below
    by_cases here : c' = c ∧ l' = l ∧ 1 + slot = 1 + k
    · have value : (s.storeWord c l (1 + k) v).graph.words c' l' (1 + slot) = v := if_pos here
      exact .inr ⟨here.1, here.2.1, value⟩
    · have value : (s.storeWord c l (1 + k) v).graph.words c' l' (1 + slot) = s.graph.words c' l' (1 + slot) :=
        if_neg here
      rw [value]
      exact .inl (inv.slots c' l' slot below)
  may := by
    rintro c' l' x (held | ⟨rfl, rfl, rfl⟩)
    · obtain ⟨known, other, high⟩ := inv.may c' l' x held
      exact ⟨.inl known, other, high⟩
    · exact ⟨.inr rfl, storable.other, storable.high⟩
  distinct := by
    intro c' l' listed clean
    have before : ∀ j, j ≠ i → γ.dirty j ≠ some (c', l') := by
      intro j other same
      exact clean j ((LinkGhost.mark_of_ne other).trans same)
    have mine : list ≠ some (c', l') := fun same => clean i (LinkGhost.mark_self.trans same)
    rcases marks with ⟨rfl, past⟩ | ⟨rfl, was, _⟩
    · have links : (s.storeWord c l (1 + k) v).graph.links c' l' = s.graph.links c' l' :=
        HnswGraph.links_storeSlot past
      rw [links]
      refine inv.distinct c' l' listed ?_
      intro j
      by_cases same : j = i
      · rw [same]
        exact mine
      · exact before j same
    · have elsewhere : ¬(c' = c ∧ l' = l) := by
        rintro ⟨rfl, rfl⟩
        exact mine rfl
      have links : (s.storeWord c l (1 + k) v).graph.links c' l' = s.graph.links c' l' :=
        HnswGraph.links_storeWord_of_ne elsewhere
      rw [links]
      refine inv.distinct c' l' listed ?_
      intro j
      by_cases same : j = i
      · subst same
        rcases was with none | here
        · rw [none]
          exact nofun
        · rw [here]
          exact mine
      · exact before j same
  locked := by
    intro j c' l' at_
    by_cases same : j = i
    · subst same
      have dirty : list = some (c', l') := LinkGhost.mark_self.symm.trans at_
      rcases marks with ⟨rfl, _⟩ | ⟨rfl, _, known, held⟩
      · exact (inv.locked j c' l' dirty).imp_left .inl
      · cases dirty
        exact ⟨.inl known, held⟩
    · have dirty : γ.dirty j = some (c', l') := (LinkGhost.mark_of_ne same).symm.trans at_
      exact (inv.locked j c' l' dirty).imp_left .inl
  entry := fun valid => (inv.entry valid).imp_left .inl
  reach := by
    rintro x (known | rfl)
    · exact inv.reach x known
    · rcases storable.known with known | ⟨rfl, ready⟩
      · exact inv.reach x known
      · exact ⟨ready.valid, ready.reach⟩
  written := by
    have kept (x l' : Nat) (old : s.stored x l' = true) : (s.storeWord c l (1 + k) v).stored x l' = true :=
      (if_neg (by omega)).trans old
    rintro x (known | rfl) l' below
    · exact kept x l' (inv.written x known l' below)
    · rcases storable.known with known | ⟨rfl, ready⟩
      · exact kept x l' (inv.written x known l' below)
      · exact kept x l' (ready.written l' below)

theorem storeSlot_rely (access : MayWrite i c s γ) (storable : Storable solo i c l v s γ)
    {j : Nat} (other : j ≠ i) :
    LinkRely solo j s γ (s.storeWord c l (1 + k) v) ((γ.mark i list).putSlot c l v) where
  m := rfl
  grows := List.prefix_refl _
  fixed := fun _ => rfl
  pub := fun _ => .inl
  hidden := by
    rintro hidden (known | rfl)
    · exact hidden known
    · rcases storable.known with known | ⟨rfl, _⟩
      · exact hidden known
      · exact other rfl
  may := fun _ _ _ => .inl
  high := fun _ _ => Nat.le_refl _
  unlinked := by
    rintro c' l' known none (held | ⟨rfl, rfl, rfl⟩)
    · exact none held
    · rcases storable.again known with rfl | held
      · exact other rfl
      · exact none held
  entry := fun valid => ⟨valid, Nat.le_refl _⟩
  raiser := fun held => ⟨held, rfl⟩
  top := Iff.rfl
  stripes := fun _ => Iff.rfl
  locked := by
    intro c' l' w known held
    exact if_neg fun here => access.foreign other known held here.1
  own := by
    intro _ hidden l' w
    exact if_neg fun here => access.ne_hidden other hidden here.1
  stored := by
    intro c' l' old
    exact (if_neg (by omega)).trans old
  joined := rfl
  dirty := LinkGhost.mark_of_ne other

/-- What may become a list: slots with known ids, distinct and within the capacity. -/
structure Countable (i c l n : Nat) (s : SharedGraph) (γ : LinkGhost) : Prop where
  listed : s.graph.hasList c l = true
  fits : n ≤ s.graph.capacity l
  slots : ∀ k, k < n → γ.may c l (s.graph.words c l (1 + k))
  distinct : ((List.range n).map fun k => s.graph.words c l (1 + k)).Nodup
  mine : γ.dirty i = none ∨ γ.dirty i = some (c, l)

theorem storeCount_inv (inv : LinkInv params solo s γ) (countable : Countable i c l n s γ) :
    LinkInv params solo (s.storeWord c l 0 n) ((γ.mark i none).putCount c l n) where
  m := inv.m
  maxLevel := inv.maxLevel
  laid := inv.laid.of_shape HnswGraph.storeWord_shape.symm
  room := inv.room
  tops := inv.tops
  inside := inv.inside
  counts := by
    intro c' l' listed
    by_cases here : c' = c ∧ l' = l
    · obtain ⟨rfl, rfl⟩ := here
      have count : (s.storeWord c' l' 0 n).graph.words c' l' 0 = n := if_pos ⟨rfl, rfl, rfl⟩
      rw [count, LinkGhost.putCount_high_self]
      exact Nat.le_max_right ..
    · have count : (s.storeWord c l 0 n).graph.words c' l' 0 = s.graph.words c' l' 0 :=
        if_neg fun at_ => here ⟨at_.1, at_.2.1⟩
      rw [count, LinkGhost.putCount_high_of_ne here]
      exact inv.counts c' l' listed
  high := by
    intro c' l'
    by_cases here : c' = c ∧ l' = l
    · obtain ⟨rfl, rfl⟩ := here
      rw [LinkGhost.putCount_high_self]
      exact Nat.max_le.mpr ⟨inv.high c' l', countable.fits⟩
    · rw [LinkGhost.putCount_high_of_ne here]
      exact inv.high c' l'
  unlisted := by
    intro c' l' none
    have elsewhere : ¬(c' = c ∧ l' = l) := by
      rintro ⟨rfl, rfl⟩
      have listed : s.graph.hasList c' l' = true := countable.listed
      have missing : s.graph.hasList c' l' = false := none
      rw [listed] at missing
      cases missing
    rw [LinkGhost.putCount_high_of_ne elsewhere]
    exact inv.unlisted c' l' none
  slots := by
    intro c' l' slot below
    have value : (s.storeWord c l 0 n).graph.words c' l' (1 + slot) = s.graph.words c' l'
        (1 + slot) := if_neg (by omega)
    rw [value]
    by_cases here : c' = c ∧ l' = l
    · obtain ⟨rfl, rfl⟩ := here
      rw [LinkGhost.putCount_high_self] at below
      have either : slot < max (γ.high c' l') n := below
      rcases Nat.lt_or_ge slot n with new | past
      · exact countable.slots slot new
      · exact inv.slots c' l' slot (by omega)
    · rw [LinkGhost.putCount_high_of_ne here] at below
      exact inv.slots c' l' slot below
  may := inv.may
  distinct := by
    intro c' l' listed clean
    by_cases here : c' = c ∧ l' = l
    · obtain ⟨rfl, rfl⟩ := here
      have links : (s.storeWord c' l' 0 n).graph.links c' l' = _ := HnswGraph.links_storeCount n
      rw [links]
      exact countable.distinct
    · have links : (s.storeWord c l 0 n).graph.links c' l' = s.graph.links c' l' :=
        HnswGraph.links_storeWord_of_ne here
      rw [links]
      refine inv.distinct c' l' listed ?_
      intro j at_
      by_cases same : j = i
      · subst same
        rcases countable.mine with none | mine
        · rw [none] at at_
          cases at_
        · rw [mine] at at_
          cases at_
          exact here ⟨rfl, rfl⟩
      · exact clean j ((LinkGhost.mark_of_ne same).trans at_)
  locked := by
    intro j c' l' at_
    by_cases same : j = i
    · subst same
      cases LinkGhost.mark_self.symm.trans at_
    · exact inv.locked j c' l' ((LinkGhost.mark_of_ne same).symm.trans at_)
  entry := inv.entry
  reach := inv.reach
  written := by
    intro x known l' below
    have old := inv.written x known l' below
    change (if x = c ∧ l' = l ∧ 0 = 0 then true else s.stored x l') = true
    rw [old]
    exact ite_self true

theorem storeCount_rely (access : MayWrite i c s γ) {j : Nat} (other : j ≠ i) :
    LinkRely solo j s γ (s.storeWord c l 0 n) ((γ.mark i none).putCount c l n) where
  m := rfl
  grows := List.prefix_refl _
  fixed := fun _ => rfl
  pub := fun _ known => known
  hidden := fun hidden => hidden
  may := fun _ _ _ held => held
  high := by
    intro c' l'
    by_cases here : c' = c ∧ l' = l
    · obtain ⟨rfl, rfl⟩ := here
      rw [LinkGhost.putCount_high_self]
      exact Nat.le_max_left ..
    · exact (LinkGhost.putCount_high_of_ne here).ge
  unlinked := fun _ _ _ none => none
  entry := fun valid => ⟨valid, Nat.le_refl _⟩
  raiser := fun held => ⟨held, rfl⟩
  top := Iff.rfl
  stripes := fun _ => Iff.rfl
  locked := by
    intro c' l' w known held
    exact if_neg fun here => access.foreign other known held here.1
  own := by
    intro _ hidden l' w
    exact if_neg fun here => access.ne_hidden other hidden here.1
  stored := by
    intro c' l' old
    change (if c' = c ∧ l' = l ∧ 0 = 0 then true else s.stored c' l') = true
    rw [old]
    exact ite_self true
  joined := rfl
  dirty := LinkGhost.mark_of_ne other

end Store

section Locks
variable {params : HnswParams} {solo : Option Nat} {i : Nat} {s : SharedGraph} {γ : LinkGhost}

theorem stripes_inv (inv : LinkInv params solo s γ) {stripes : Nat → Option Nat}
    (kept : ∀ j c l, γ.dirty j = some (c, l) → stripes (stripeOf c) = some j) :
    LinkInv params solo { s with stripes := stripes } γ :=
  { inv with locked := fun j c l dirty => ⟨(inv.locked j c l dirty).1, kept j c l dirty⟩ }

theorem stripes_rely {stripes : Nat → Option Nat} {j : Nat}
    (same : ∀ k, stripes k = some j ↔ s.stripes k = some j) : LinkRely solo j s γ { s with stripes := stripes } γ :=
  { LinkRely.refl solo j s γ with stripes := same }

theorem lock_inv (inv : LinkInv params solo s γ) {k : Nat} (free : s.stripes k = none) :
    LinkInv params solo { s with stripes := Function.update s.stripes k (some i) } γ := by
  refine stripes_inv inv ?_
  intro j c l dirty
  have held := (inv.locked j c l dirty).2
  have elsewhere : stripeOf c ≠ k := by
    rintro rfl
    rw [free] at held
    cases held
  rw [Function.update_of_ne elsewhere]
  exact held

theorem lock_rely {k j : Nat} (free : s.stripes k = none) (other : j ≠ i) :
    LinkRely solo j s γ { s with stripes := Function.update s.stripes k (some i) } γ := by
  refine stripes_rely ?_
  intro k'
  by_cases here : k' = k
  · rw [here, Function.update_self, free]
    simp [Ne.symm other]
  · rw [Function.update_of_ne here]

theorem unlock_inv (inv : LinkInv params solo s γ) {k : Nat} (held : s.stripes k = some i)
    (clean : γ.dirty i = none) : LinkInv params solo { s with stripes := Function.update s.stripes k none } γ := by
  refine stripes_inv inv ?_
  intro j c l dirty
  have owner := (inv.locked j c l dirty).2
  have elsewhere : stripeOf c ≠ k := by
    rintro rfl
    rw [held] at owner
    cases owner
    rw [clean] at dirty
    cases dirty
  rw [Function.update_of_ne elsewhere]
  exact owner

theorem unlock_rely {k j : Nat} (held : s.stripes k = some i) (other : j ≠ i) :
    LinkRely solo j s γ { s with stripes := Function.update s.stripes k none } γ := by
  refine stripes_rely ?_
  intro k'
  by_cases here : k' = k
  · rw [here, Function.update_self, held]
    simp [Ne.symm other]
  · rw [Function.update_of_ne here]

theorem lockTop_inv (inv : LinkInv params none s γ) (free : s.top = none) :
    LinkInv params none { s with top := some i } γ := by
  refine { inv with reach := ?_ }
  intro x known
  obtain ⟨valid, low | high⟩ := inv.reach x known
  · exact ⟨valid, .inl low⟩
  · have held : s.top = some x := high
    rw [free] at held
    cases held

theorem lockTop_rely {j : Nat} (free : s.top = none) (other : j ≠ i) :
    LinkRely none j s γ { s with top := some i } γ := by
  refine { LinkRely.refl none j s γ with raiser := ?_, top := ?_ }
  · intro held
    have mine : s.top = some j := held
    rw [free] at mine
    cases mine
  · rw [free]
    simp [Ne.symm other]

theorem unlockTop_inv (inv : LinkInv params none s γ) (held : s.top = some i)
    (low : γ.pub i → s.graph.level i ≤ s.graph.entry.level) : LinkInv params none { s with top := none } γ := by
  refine { inv with reach := ?_ }
  intro x known
  obtain ⟨valid, below | high⟩ := inv.reach x known
  · exact ⟨valid, .inl below⟩
  · have owner : s.top = some x := high
    rw [held] at owner
    cases owner
    exact ⟨valid, .inl (low known)⟩

theorem unlockTop_rely {j : Nat} (held : s.top = some i) (other : j ≠ i) :
    LinkRely none j s γ { s with top := none } γ := by
  refine { LinkRely.refl none j s γ with raiser := ?_, top := ?_ }
  · intro mine
    have owner : s.top = some j := mine
    rw [held] at owner
    cases owner
    exact absurd rfl other
  · rw [held]
    simp [Ne.symm other]

theorem joins_inv (inv : LinkInv params solo s γ) (hidden : ¬γ.pub i) {levels : Nat} :
    LinkInv params solo { s with joined := Function.update s.joined i levels } γ := by
  refine { inv with written := ?_ }
  intro x known l below
  have other : x ≠ i := by
    rintro rfl
    exact hidden known
  simp only [Function.update_of_ne other] at below
  exact inv.written x known l below

theorem joins_rely {levels j : Nat} (other : j ≠ i) :
    LinkRely solo j s γ { s with joined := Function.update s.joined i levels } γ :=
  { LinkRely.refl solo j s γ with joined := Function.update_of_ne other .. }

end Locks

section Entry
variable {params : HnswParams} {solo : Option Nat} {i level : Nat} {s : SharedGraph} {γ : LinkGhost}

/-- Node `i` may become the entry point. -/
structure Rising (solo : Option Nat) (i : Nat) (s : SharedGraph) : Prop where
  node : i < s.graph.nodeCount
  raiser : raiser solo s = some i
  above : s.graph.entry.valid = true → s.graph.entry.level ≤ s.graph.level i
  written : ∀ l, l < s.joined i → s.stored i l = true

theorem LinkInv.valid_of_node (inv : LinkInv params solo s γ) (node : i < s.graph.nodeCount) :
    HnswGraph.Entry.valid { id := i, level } = true := by
  have room := inv.room
  simp only [HnswGraph.Entry.valid, decide_eq_true_eq, ne_eq]
  simp only [kMaxVectorsPerCollection] at room
  omega

theorem storeEntry_inv (inv : LinkInv params solo s γ) (rising : Rising solo i s) :
    LinkInv params solo { s with graph := s.graph.setEntry { id := i, level := s.graph.level i } }
      (γ.publish i) := by
  have low (x : Nat) (known : γ.pub x) : s.graph.level x ≤ s.graph.level i := by
    obtain ⟨valid, below | high⟩ := inv.reach x known
    · exact below.trans (rising.above valid)
    · rw [rising.raiser] at high
      cases high
      exact Nat.le_refl _
  refine {
    m := inv.m, maxLevel := inv.maxLevel, laid := inv.laid.of_shape ⟨rfl, rfl, rfl, rfl, rfl, rfl, rfl, rfl,
      rfl⟩, room := inv.room
    tops := inv.tops, counts := inv.counts, high := inv.high, unlisted := inv.unlisted, slots := inv.slots
    distinct := inv.distinct, inside := ?_, may := ?_, locked := ?_, entry := ?_, reach := ?_, written := ?_ }
  · rintro x (known | rfl)
    · exact inv.inside x known
    · exact rising.node
  · intro c l v held
    exact (inv.may c l v held).imp_left .inl
  · intro j c l dirty
    exact (inv.locked j c l dirty).imp_left .inl
  · exact fun _ => ⟨.inr rfl, rfl⟩
  · rintro x (known | rfl)
    · exact ⟨inv.valid_of_node rising.node, .inl (low x known)⟩
    · exact ⟨inv.valid_of_node rising.node, .inl (Nat.le_refl _)⟩
  · rintro x (known | rfl)
    · exact inv.written x known
    · exact rising.written

theorem storeEntry_rely (inv : LinkInv params solo s γ) (rising : Rising solo i s) {j : Nat} (other : j ≠ i) :
    LinkRely solo j s γ { s with graph := s.graph.setEntry { id := i, level := s.graph.level i } }
      (γ.publish i) := by
  refine { LinkRely.refl solo j s γ with pub := fun _ => .inl, hidden := ?_, entry := ?_, raiser := ?_ }
  · rintro hidden (known | rfl)
    · exact hidden known
    · exact other rfl
  · exact fun valid => ⟨inv.valid_of_node rising.node, rising.above valid⟩
  · intro held
    rw [rising.raiser] at held
    cases held
    exact absurd rfl other

end Entry

section AddNode
variable {params : HnswParams} {i level : Nat} {s : SharedGraph} {γ : LinkGhost} {g : HnswGraph}

theorem addNode_hasList (run : s.graph.addNode level = .ok g) {c l : Nat} (old : c ≠ s.graph.nodeCount) :
    g.hasList c l = s.graph.hasList c l := by
  have count := HnswGraph.addNode_nodeCount run
  simp only [HnswGraph.hasList, decide_eq_decide]
  by_cases below : c < s.graph.nodeCount
  · rw [HnswGraph.addNode_level run, if_neg old]
    omega
  · omega

theorem addNode_inv (inv : LinkInv params (some i) s γ) (run : s.graph.addNode level = .ok g) :
    LinkInv params (some i) { s with graph := g } γ := by
  obtain ⟨fits, room, levels, sameM, sameMax, sameEntry, words⟩ := HnswGraph.addNode_spec run
  have count := HnswGraph.addNode_nodeCount run
  have capacity (l : Nat) : g.capacity l = s.graph.capacity l := by
    rw [HnswGraph.capacity, HnswGraph.capacity, sameM]
  have level_eq (x : Nat) (known : γ.pub x) : g.level x = s.graph.level x := by
    rw [HnswGraph.addNode_level run, if_neg (Nat.ne_of_lt (inv.inside x known))]
  have old (c l : Nat) (some : γ.high c l ≠ 0) : c ≠ s.graph.nodeCount := by
    rintro rfl
    refine some (inv.unlisted _ l ?_)
    simp [HnswGraph.hasList]
  refine {
    m := sameM.trans inv.m, maxLevel := sameMax.trans inv.maxLevel, laid := inv.laid.addNode run
    room := ?_, tops := ?_, inside := ?_, counts := ?_
    high := ?_, unlisted := ?_, slots := ?_, may := ?_, distinct := ?_, locked := inv.locked, entry := ?_
    reach := ?_, written := inv.written }
  · change g.nodeCount ≤ _
    omega
  · intro id below
    change g.level id ≤ g.maxLevel
    have bound : id < g.nodeCount := below
    by_cases new : id = s.graph.nodeCount
    · rw [sameMax, HnswGraph.addNode_level run, if_pos new]
      exact fits
    · rw [sameMax, HnswGraph.addNode_level run, if_neg new]
      exact inv.tops id (by omega)
  · intro x known
    have below := inv.inside x known
    change x < g.nodeCount
    omega
  · intro c l listed
    change g.words c l 0 ≤ γ.high c l
    rw [words]
    split
    · exact Nat.zero_le _
    next other => exact inv.counts c l ((addNode_hasList run other).symm.trans listed)
  · intro c l
    exact (inv.high c l).trans (capacity l).ge
  · intro c l missing
    by_cases new : c = s.graph.nodeCount
    · exact Decidable.by_contra fun some => old c l some new
    · exact inv.unlisted c l ((addNode_hasList run new).symm.trans missing)
  · intro c l k below
    have same : g.words c l (1 + k) = s.graph.words c l (1 + k) := by
      rw [words, if_neg (old c l (by omega))]
    change γ.may c l (g.words c l (1 + k))
    rw [same]
    exact inv.slots c l k below
  · intro c l v held
    obtain ⟨known, other, high⟩ := inv.may c l v held
    refine ⟨known, other, ?_⟩
    change l ≤ g.level v
    rw [level_eq v known]
    exact high
  · intro c l listed clean
    change (g.links c l).Nodup
    by_cases new : c = s.graph.nodeCount
    · have empty : g.links c l = [] := by
        rw [HnswGraph.links, words, if_pos new]
        rfl
      rw [empty]
      exact List.nodup_nil
    · have same : g.links c l = s.graph.links c l := by
        simp only [HnswGraph.links, words, if_neg new]
      rw [same]
      exact inv.distinct c l ((addNode_hasList run new).symm.trans listed) clean
  · intro valid
    change γ.pub g.entry.id ∧ g.level g.entry.id = g.entry.level
    have before : s.graph.entry.valid = true := by
      rw [← sameEntry]
      exact valid
    obtain ⟨known, high⟩ := inv.entry before
    rw [sameEntry, level_eq _ known]
    exact ⟨known, high⟩
  · intro x known
    change g.entry.valid = true ∧ (g.level x ≤ g.entry.level ∨ _)
    rw [sameEntry, level_eq x known]
    exact inv.reach x known

theorem addNode_rely (inv : LinkInv params (some i) s γ) (run : s.graph.addNode level = .ok g)
    {j : Nat} (other : j ≠ i) : LinkRely (some i) j s γ { s with graph := g } γ := by
  obtain ⟨_, _, levels, sameM, _, sameEntry, words⟩ := HnswGraph.addNode_spec run
  refine { LinkRely.refl (some i) j s γ with
    m := sameM, grows := ?_, fixed := ?_, entry := ?_, raiser := ?_, locked := ?_, own := ?_ }
  · change s.graph.levels <+: g.levels
    rw [levels]
    exact List.prefix_append ..
  · exact fun only => absurd (only i rfl) (Ne.symm other)
  · intro valid
    change g.entry.valid = true ∧ _ ≤ g.entry.level
    rw [sameEntry]
    exact ⟨valid, Nat.le_refl _⟩
  · intro held
    have mine : some i = some j := held
    cases mine
    exact absurd rfl other
  · intro c l w known _
    have below := inv.inside c known
    exact (words c l w).trans (if_neg (by omega))
  · intro below _ l w
    exact (words j l w).trans (if_neg (by omega))

end AddNode
end VectorForge
