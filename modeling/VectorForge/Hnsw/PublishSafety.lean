import VectorForge.Hnsw.SearchSafety

/-! The list updates of an insertion: what one update changes, and what it leaves for the next. -/

namespace VectorForge
open HnswContext (stripeOf NoOther)

/-- What insertion `i` knows after some of its own list updates, with other insertions in between.
It has added itself to no list outside `touched`. -/
structure After (solo : Option Nat) (i : Nat) (touched : Nat → Nat → Prop) (s : SharedGraph) (γ : LinkGhost)
    (s' : SharedGraph) (γ' : LinkGhost) : Prop where
  m : s'.graph.m = s.graph.m
  levels : s'.graph.levels = s.graph.levels
  pub : ∀ x, γ.pub x → γ'.pub x
  unlinked : ∀ c l, γ.pub c → ¬touched c l → ¬γ.may c l i → ¬γ'.may c l i
  entry : s.graph.entry.valid = true → s'.graph.entry.valid = true ∧ s.graph.entry.level ≤ s'.graph.entry.level
  raiser : raiser solo s = some i → raiser solo s' = some i ∧ s'.graph.entry = s.graph.entry
  top : s'.top = some i ↔ s.top = some i
  stored : ∀ c l, s.stored c l = true → s'.stored c l = true
  joined : s'.joined i = s.joined i

namespace After
variable {solo : Option Nat} {i l x : Nat} {touched more : Nat → Nat → Prop} {s s₁ s₂ : SharedGraph}
  {γ γ₁ γ₂ : LinkGhost}

theorem nodeCount_eq (since : After solo i touched s γ s₁ γ₁) : s₁.graph.nodeCount = s.graph.nodeCount := by
  rw [HnswGraph.nodeCount, since.levels]
  rfl

theorem level_eq (since : After solo i touched s γ s₁ γ₁) (x : Nat) : s₁.graph.level x = s.graph.level x := by
  rw [HnswGraph.level, since.levels]
  rfl

theorem capacity_eq (since : After solo i touched s γ s₁ γ₁) (level : Nat) :
    s₁.graph.capacity level = s.graph.capacity level := by
  rw [HnswGraph.capacity, HnswGraph.capacity, since.m]

theorem of_rely (only : NoOther solo i) (rely : LinkRely solo i s γ s₁ γ₁) : After solo i touched s γ s₁ γ₁ where
  m := rely.m
  levels := rely.fixed only
  pub := rely.pub
  unlinked := fun c l known _ => rely.unlinked c l known
  entry := rely.entry
  raiser := rely.raiser
  top := rely.top
  stored := rely.stored
  joined := rely.joined

theorem mono (since : After solo i touched s γ s₁ γ₁) (wider : ∀ c l, touched c l → more c l) :
    After solo i more s γ s₁ γ₁ :=
  { since with unlinked := fun c l known other => since.unlinked c l known fun here => other (wider c l here) }

theorem trans (first : After solo i touched s γ s₁ γ₁) (second : After solo i touched s₁ γ₁ s₂ γ₂) :
    After solo i touched s γ s₂ γ₂ where
  m := second.m.trans first.m
  levels := second.levels.trans first.levels
  pub := fun x h => second.pub x (first.pub x h)
  unlinked := fun c l known other h =>
    second.unlinked c l (first.pub c known) other (first.unlinked c l known other h)
  entry := fun h =>
    have middle := first.entry h
    have last := second.entry middle.1
    ⟨last.1, middle.2.trans last.2⟩
  raiser := fun h =>
    have middle := first.raiser h
    have last := second.raiser middle.1
    ⟨last.1, last.2.trans middle.2⟩
  top := second.top.trans first.top
  stored := fun c l h => second.stored c l (first.stored c l h)
  joined := second.joined.trans first.joined

theorem later (since : After solo i touched s γ s₁ γ₁) (only : NoOther solo i)
    (rely : LinkRely solo i s₁ γ₁ s₂ γ₂) : After solo i touched s γ s₂ γ₂ :=
  since.trans (of_rely only rely)

theorem known (since : After solo i touched s γ s₁ γ₁) (known : Known l x s γ) : Known l x s₁ γ₁ where
  pub := since.pub x known.pub
  node := known.node.trans_eq since.nodeCount_eq.symm
  high := known.high.trans (since.level_eq x).ge

theorem ready (since : After solo i touched s γ s₁ γ₁) (ready : Ready solo i s) : Ready solo i s₁ where
  node := ready.node.trans_eq since.nodeCount_eq.symm
  valid := (since.entry ready.valid).1
  reach := by
    rw [since.level_eq]
    rcases ready.reach with low | mine
    · exact .inl (low.trans (since.entry ready.valid).2)
    · exact .inr (since.raiser mine).1
  written := by
    intro l below
    rw [since.joined] at below
    exact since.stored i l (ready.written l below)

end After

/-- `i` was stored into list `(c, l)`. -/
def Touched (i c l : Nat) (ids : List Nat) (c' l' : Nat) : Prop := c' = c ∧ l' = l ∧ i ∈ ids

/-- Stores of `ids` into list `(c, l)`. Locks do not change, and if the list belongs to the hidden
node `i`, then `i` stays hidden and its other lists stay as they are. -/
structure Rewritten (solo : Option Nat) (i c l : Nat) (ids : List Nat) (s : SharedGraph) (γ : LinkGhost)
    (s' : SharedGraph) (γ' : LinkGhost) : Prop extends After solo i (Touched i c l ids) s γ s' γ' where
  hidden : c = i → ¬γ.pub i → ¬γ'.pub i
  stripes : ∀ k, s'.stripes k = some i ↔ s.stripes k = some i
  own : c = i → i < s.graph.nodeCount → ¬γ.pub i → ∀ l', l' ≠ l → s'.graph.words i l' 0 = s.graph.words i l' 0

namespace Rewritten
variable {solo : Option Nat} {i c l : Nat} {ids : List Nat} {s s₁ s₂ : SharedGraph} {γ γ₁ γ₂ : LinkGhost}

theorem of_rely (only : NoOther solo i) (rely : LinkRely solo i s γ s₁ γ₁) :
    Rewritten solo i c l ids s γ s₁ γ₁ where
  toAfter := After.of_rely only rely
  hidden := fun _ => rely.hidden
  stripes := rely.stripes
  own := fun _ inside hidden l' _ => rely.own inside hidden l' 0

theorem trans (first : Rewritten solo i c l ids s γ s₁ γ₁) (second : Rewritten solo i c l ids s₁ γ₁ s₂ γ₂) :
    Rewritten solo i c l ids s γ s₂ γ₂ where
  toAfter := first.toAfter.trans second.toAfter
  hidden := fun same h => second.hidden same (first.hidden same h)
  stripes := fun k => (second.stripes k).trans (first.stripes k)
  own := fun same inside h l' other =>
    (second.own same (inside.trans_eq first.nodeCount_eq.symm) (first.hidden same h) l' other).trans
      (first.own same inside h l' other)

theorem later (since : Rewritten solo i c l ids s γ s₁ γ₁) (only : NoOther solo i)
    (rely : LinkRely solo i s₁ γ₁ s₂ γ₂) : Rewritten solo i c l ids s γ s₂ γ₂ :=
  since.trans (of_rely only rely)

theorem of_slot {k v : Nat} {list : Option (Nat × Nat)} (offered : v ∈ ids) (other : v ≠ c) :
    Rewritten solo i c l ids s γ (s.storeWord c l (1 + k) v) ((γ.mark i list).putSlot c l v) where
  m := rfl
  levels := rfl
  pub := fun _ => .inl
  hidden := by
    rintro rfl hidden (known | rfl)
    · exact hidden known
    · exact other rfl
  unlinked := by
    rintro c' l' _ elsewhere none (held | ⟨rfl, rfl, rfl⟩)
    · exact none held
    · exact elsewhere ⟨rfl, rfl, offered⟩
  entry := fun valid => ⟨valid, Nat.le_refl _⟩
  raiser := fun held => ⟨held, rfl⟩
  top := Iff.rfl
  stripes := fun _ => Iff.rfl
  own := fun _ _ _ l' other => if_neg fun here => other here.2.1
  stored := fun c' l' old => (if_neg (by omega)).trans old
  joined := rfl

theorem of_count {n : Nat} :
    Rewritten solo i c l ids s γ (s.storeWord c l 0 n) ((γ.mark i none).putCount c l n) where
  m := rfl
  levels := rfl
  pub := fun _ known => known
  hidden := fun _ hidden => hidden
  unlinked := fun _ _ _ _ none => none
  entry := fun valid => ⟨valid, Nat.le_refl _⟩
  raiser := fun held => ⟨held, rfl⟩
  top := Iff.rfl
  stripes := fun _ => Iff.rfl
  own := fun _ _ _ l' other => if_neg fun here => other here.2.1
  stored := by
    intro c' l' old
    change (if c' = c ∧ l' = l ∧ 0 = 0 then true else s.stored c' l') = true
    rw [old]
    exact ite_self true
  joined := rfl

end Rewritten

section Writing
variable {params : HnswParams} {mayFail : Nat → Prop} {solo : Option Nat} {i c l : Nat}
  {s s₁ : SharedGraph} {γ γ₁ : LinkGhost}

/-- What may be written into `(c, l)`: what it held before, `i` itself, or, as long as `c = i` is
not reachable, any known node. -/
def Offered (solo : Option Nat) (i c l v : Nat) (s : SharedGraph) (γ : LinkGhost) : Prop :=
  γ.may c l v ∨ (v = i ∧ c ≠ i ∧ Ready solo i s ∧ l ≤ s.graph.level i) ∨ (c = i ∧ ¬γ.pub i ∧ Known l v s γ)

theorem Offered.storable {v : Nat} (offered : Offered solo i c l v s γ) (inv : LinkInv params solo s γ) :
    Storable solo i c l v s γ := by
  rcases offered with held | ⟨rfl, other, ready, high⟩ | ⟨rfl, hidden, known⟩
  · obtain ⟨known, other, high⟩ := inv.may c l v held
    exact ⟨other, high, .inl known, fun _ => .inr held⟩
  · exact ⟨Ne.symm other, high, .inr ⟨rfl, ready⟩, fun _ => .inl rfl⟩
  · refine ⟨?_, known.high, .inl known.pub, fun published => absurd published hidden⟩
    rintro rfl
    exact hidden known.pub

theorem Offered.later {v : Nat} (offered : Offered solo i c l v s γ) (only : NoOther solo i)
    (rely : LinkRely solo i s γ s₁ γ₁) : Offered solo i c l v s₁ γ₁ := by
  have since : After solo i (Touched i c l []) s γ s₁ γ₁ := After.of_rely only rely
  rcases offered with held | ⟨rfl, other, ready, high⟩ | ⟨rfl, hidden, known⟩
  · exact .inl (rely.may c l v held)
  · exact .inr (.inl ⟨rfl, other, since.ready ready, high.trans (since.level_eq v).ge⟩)
  · exact .inr (.inr ⟨rfl, rely.hidden hidden, known.later rely⟩)

/-- A slot store into the same list takes nothing away. -/
theorem Offered.slot {v w k : Nat} {list : Option (Nat × Nat)}
    (offered : Offered solo i c l v s γ) (other : w ≠ c) :
    Offered solo i c l v (s.storeWord c l (1 + k) w) ((γ.mark i list).putSlot c l w) := by
  have since : Rewritten solo i c l [w] s γ (s.storeWord c l (1 + k) w) ((γ.mark i list).putSlot c l w) :=
    Rewritten.of_slot (List.mem_singleton_self w) other
  rcases offered with held | ⟨rfl, apart, ready, high⟩ | ⟨rfl, hidden, known⟩
  · exact .inl (.inl held)
  · exact .inr (.inl ⟨rfl, apart, since.ready ready, high⟩)
  · exact .inr (.inr ⟨rfl, since.hidden rfl hidden, ⟨since.pub v known.pub, known.node, known.high⟩⟩)

/-- Insertion `i` is writing `(c, l)`, and the first slots hold `written` by now. Its own list is
still empty for everybody else; a published list is being rewritten under its stripe. -/
structure Writing (i c l : Nat) (written : List Nat) (s : SharedGraph) (γ : LinkGhost) : Prop where
  listed : s.graph.hasList c l = true
  slots : ∀ k v, written[k]? = some v → s.graph.words c l (1 + k) = v ∧ γ.may c l v
  mode : (c = i ∧ ¬γ.pub i ∧ γ.dirty i = none ∧ s.graph.words c l 0 = 0) ∨
    (c ≠ i ∧ γ.pub c ∧ s.stripes (stripeOf c) = some i ∧ (γ.dirty i = none ∨ γ.dirty i = some (c, l)))

theorem Writing.access {written : List Nat} (writing : Writing i c l written s γ) : MayWrite i c s γ := by
  have node : c < s.graph.nodeCount := (of_decide_eq_true writing.listed).1
  rcases writing.mode with ⟨rfl, hidden, _, _⟩ | ⟨_, known, held, _⟩
  · exact .inl ⟨rfl, hidden, node⟩
  · exact .inr ⟨known, held⟩

theorem MayWrite.words_later (access : MayWrite i c s γ) (rely : LinkRely solo i s γ s₁ γ₁) (l w : Nat) :
    s₁.graph.words c l w = s.graph.words c l w := by
  rcases access with ⟨rfl, hidden, node⟩ | ⟨known, held⟩
  · exact rely.own node hidden l w
  · exact rely.locked c l w known held

theorem Writing.later {written : List Nat} (writing : Writing i c l written s γ)
    (rely : LinkRely solo i s γ s₁ γ₁) : Writing i c l written s₁ γ₁ where
  listed := rely.hasList writing.listed
  slots := by
    intro k v at_
    obtain ⟨value, held⟩ := writing.slots k v at_
    exact ⟨(writing.access.words_later rely l (1 + k)).trans value, rely.may c l v held⟩
  mode := by
    rw [rely.dirty, writing.access.words_later rely]
    rcases writing.mode with ⟨rfl, hidden, clean, empty⟩ | ⟨apart, known, held, dirty⟩
    · exact .inl ⟨rfl, rely.hidden hidden, clean, empty⟩
    · exact .inr ⟨apart, rely.pub c known, (rely.stripes _).mpr held, dirty⟩

/-- The list that a slot store marks as being rewritten. -/
def Writing.marked (i c l : Nat) : Option (Nat × Nat) := if c = i then none else some (c, l)

theorem Writing.marks {written : List Nat} (writing : Writing i c l written s γ) (k : Nat) :
    Marks i c l k (Writing.marked i c l) s γ := by
  rcases writing.mode with ⟨rfl, hidden, clean, empty⟩ | ⟨apart, known, held, dirty⟩
  · exact .inl ⟨(if_pos rfl).trans clean.symm, empty.trans_le (Nat.zero_le k)⟩
  · exact .inr ⟨if_neg apart, dirty, known, held⟩

theorem Writing.slot {written : List Nat} {v : Nat} (writing : Writing i c l written s γ) (other : v ≠ c) :
    Writing i c l (written ++ [v]) (s.storeWord c l (1 + written.length) v)
      ((γ.mark i (Writing.marked i c l)).putSlot c l v) where
  listed := writing.listed
  slots := by
    intro k x at_
    rcases Nat.lt_trichotomy k written.length with below | rfl | past
    · rw [List.getElem?_append_left below] at at_
      obtain ⟨value, held⟩ := writing.slots k x at_
      exact ⟨(if_neg (by omega)).trans value, .inl held⟩
    · rw [List.getElem?_concat_length] at at_
      cases at_
      exact ⟨if_pos ⟨rfl, rfl, rfl⟩, .inr ⟨rfl, rfl, rfl⟩⟩
    · rw [List.getElem?_eq_none (by rw [List.length_append, List.length_singleton]; omega)] at at_
      cases at_
  mode := by
    have count : (s.storeWord c l (1 + written.length) v).graph.words c l 0 =
        s.graph.words c l 0 := if_neg (by omega)
    have dirty : ((γ.mark i (Writing.marked i c l)).putSlot c l v).dirty i =
        Writing.marked i c l := LinkGhost.mark_self
    rw [count, dirty]
    rcases writing.mode with ⟨rfl, hidden, clean, empty⟩ | ⟨apart, known, held, _⟩
    · refine .inl ⟨rfl, ?_, if_pos rfl, empty⟩
      rintro (known | rfl)
      · exact hidden known
      · exact other rfl
    · exact .inr ⟨apart, .inl known, held, .inr (if_neg apart)⟩

theorem ok_storeSlot {α : Type} {post : α → SharedGraph → LinkGhost → Prop} {written : List Nat} {v : Nat}
    {next : Unit → GraphProg α} (only : NoOther solo i) (writing : Writing i c l written s γ)
    (offered : Offered solo i c l v s γ) (fits : written.length < s.graph.capacity l)
    (rest : ∀ s₁ γ₁, LinkRely solo i s γ s₁ γ₁ → Storable solo i c l v s₁ γ₁ →
      LinkInv params solo (s₁.storeWord c l (1 + written.length) v)
      ((γ₁.mark i (Writing.marked i c l)).putSlot c l v) →
      LinkOk params mayFail solo i (next ()) post (s₁.storeWord c l (1 + written.length) v)
        ((γ₁.mark i (Writing.marked i c l)).putSlot c l v)) :
    LinkOk params mayFail solo i (HnswContext.store c l (1 + written.length) v >>= next) post s γ := by
  intro s₁ γ₁ rely inv
  have writing₁ := writing.later rely
  have storable := (offered.later only rely).storable inv
  have capacity : s₁.graph.capacity l = s.graph.capacity l := by
    rw [HnswGraph.capacity, HnswGraph.capacity, rely.m]
  refine ⟨⟨writing₁.listed, by omega⟩, ?_⟩
  rintro r s₂ rfl
  have inv₂ := storeSlot_inv inv storable (writing₁.marks written.length)
  refine ⟨_, inv₂, ?_, rest s₁ γ₁ rely storable inv₂⟩
  intro j other
  exact storeSlot_rely writing₁.access storable other

theorem ok_storeCount {α : Type} {post : α → SharedGraph → LinkGhost → Prop} {written : List Nat}
    {next : Unit → GraphProg α} (writing : Writing i c l written s γ) (fits : written.length ≤ s.graph.capacity l)
    (distinct : written.Nodup)
    (rest : ∀ s₁ γ₁, LinkRely solo i s γ s₁ γ₁ →
      LinkInv params solo (s₁.storeWord c l 0 written.length) ((γ₁.mark i none).putCount c l written.length) →
      LinkOk params mayFail solo i (next ()) post (s₁.storeWord c l 0 written.length)
        ((γ₁.mark i none).putCount c l written.length)) :
    LinkOk params mayFail solo i (HnswContext.store c l 0 written.length >>= next) post s γ := by
  intro s₁ γ₁ rely inv
  have writing₁ := writing.later rely
  have capacity : s₁.graph.capacity l = s.graph.capacity l := by
    rw [HnswGraph.capacity, HnswGraph.capacity, rely.m]
  have list : ((List.range written.length).map fun k => s₁.graph.words c l (1 + k)) = written := by
    apply List.ext_getElem?
    intro k
    rw [List.getElem?_map]
    rcases Nat.lt_or_ge k written.length with below | past
    · rw [List.getElem?_range below, List.getElem?_eq_getElem below, Option.map_some]
      exact congrArg some (writing₁.slots k _ (List.getElem?_eq_getElem below)).1
    · rw [List.getElem?_eq_none (by rw [List.length_range]; exact past), List.getElem?_eq_none past]
      rfl
  have countable : Countable i c l written.length s₁ γ₁ := by
    refine ⟨writing₁.listed, by omega, ?_, ?_, ?_⟩
    · intro k below
      obtain ⟨value, held⟩ := writing₁.slots k _ (List.getElem?_eq_getElem below)
      rw [value]
      exact held
    · rw [list]
      exact distinct
    · rcases writing₁.mode with ⟨_, _, clean, _⟩ | ⟨_, _, _, dirty⟩
      · exact .inl clean
      · exact dirty
  refine ⟨⟨writing₁.listed, Nat.zero_le _⟩, ?_⟩
  rintro r s₂ rfl
  have inv₂ := storeCount_inv inv countable
  refine ⟨_, inv₂, ?_, rest s₁ γ₁ rely inv₂⟩
  intro j other
  exact storeCount_rely writing₁.access other

end Writing

namespace HnswContext

section SetLinks
variable {params : HnswParams} {mayFail : Nat → Prop} {solo : Option Nat} {i c l : Nat}
  {s₀ : SharedGraph} {γ₀ : LinkGhost} (ctx : HnswContext)

theorem storeSlots_ok (only : NoOther solo i) {all ids : List Nat} : ∀ {written : List Nat} {s : SharedGraph}
    {γ : LinkGhost}, Rewritten solo i c l all s₀ γ₀ s γ → Writing i c l written s γ →
    (∀ v ∈ ids, v ∈ all ∧ Offered solo i c l v s γ) → written.length + ids.length ≤ s.graph.capacity l →
    LinkOk params mayFail solo i (storeSlots c l (1 + written.length) ids)
      (fun _ s γ => Rewritten solo i c l all s₀ γ₀ s γ ∧ Writing i c l (written ++ ids) s γ) s γ := by
  induction ids with
  | nil =>
    intro written s γ since writing _ _
    refine ok_done ?_
    intro s₁ γ₁ rely _
    rw [List.append_nil]
    exact ⟨since.later only rely, writing.later rely⟩
  | cons v rest ih =>
    intro written s γ since writing offered fits
    obtain ⟨first, others⟩ := List.forall_mem_cons.mp offered
    rw [List.length_cons] at fits
    refine ok_storeSlot only writing first.2 (by omega) ?_
    intro s₁ γ₁ rely storable inv₁
    have step : Rewritten solo i c l all s₁ γ₁ (s₁.storeWord c l (1 + written.length) v)
        ((γ₁.mark i (Writing.marked i c l)).putSlot c l v) := Rewritten.of_slot first.1 storable.other
    have since₁ := (since.later only rely).trans step
    have writing₁ := (writing.later rely).slot storable.other
    have longer : (written ++ [v]).length = written.length + 1 := by rw [List.length_append, List.length_singleton]
    have capacity : s₁.graph.capacity l = s.graph.capacity l := by
      rw [HnswGraph.capacity, HnswGraph.capacity, rely.m]
    have room : (written ++ [v]).length + rest.length ≤
        (s₁.storeWord c l (1 + written.length) v).graph.capacity l := by
      change _ ≤ s₁.graph.capacity l
      omega
    have more := ih since₁ writing₁ (fun x member =>
      ⟨(others x member).1, ((others x member).2.later only rely).slot storable.other⟩) room
    rw [longer, ← Nat.add_assoc, List.append_assoc] at more
    exact more

/-- A rewritten list: the store of the count ends the rewrite. -/
theorem setLinks_ok (only : NoOther solo i) {ids : List Nat} {s : SharedGraph} {γ : LinkGhost}
    (inv : LinkInv params solo s γ) (writing : Writing i c l [] s γ) (offered : ∀ v ∈ ids, Offered solo i c l v s γ)
    (capacity : s.graph.capacity l = ctx.capacity l) (fits : ids.length ≤ ctx.capacity l) (distinct : ids.Nodup) :
    LinkOk params mayFail solo i (ctx.setLinks c l ids)
      (fun _ s₁ γ₁ => Rewritten solo i c l ids s γ s₁ γ₁ ∧ γ₁.dirty i = none ∧ s₁.stored c l = true) s γ := by
  have start : Rewritten solo i c l ids s γ s γ := Rewritten.of_rely only (LinkRely.refl solo i s γ)
  rw [setLinks, if_neg (by omega)]
  refine Discipline.Ok.bind ?_ inv
  refine (storeSlots_ok only start writing (fun v member => ⟨member, offered v member⟩)
    (by rw [List.length_nil]; omega)).mono ?_
  rintro _ s₁ γ₁ inv₁ ⟨since, written⟩
  rw [List.nil_append] at written
  refine ok_storeCount written (by rw [since.capacity_eq]; omega) distinct ?_
  intro s₂ γ₂ rely inv₂
  refine ok_done ?_
  intro s₃ γ₃ rely₃ _
  have step : Rewritten solo i c l ids s₂ γ₂ (s₂.storeWord c l 0 ids.length)
      ((γ₂.mark i none).putCount c l ids.length) := Rewritten.of_count
  refine ⟨((since.later only rely).trans step).later only rely₃, ?_, ?_⟩
  · rw [rely₃.dirty]
    exact LinkGhost.mark_self
  · exact rely₃.stored c l (if_pos ⟨rfl, rfl, rfl⟩)

end SetLinks
end HnswContext
end VectorForge
