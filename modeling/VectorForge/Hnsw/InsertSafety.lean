import VectorForge.Hnsw.LinkSafety

/-! Whole insertions: `publish`, `link` and `add`. -/

namespace VectorForge.HnswContext

section WriteOwn
variable {params : HnswParams} {mayFail : Nat → Prop} {solo : Option Nat} {i : Nat} {ctx : HnswContext}

/-- Node `i` has not been published, and its lists from level `l` on are empty. -/
structure Unborn (i l : Nat) (s : SharedGraph) (γ : LinkGhost) : Prop where
  node : i < s.graph.nodeCount
  hidden : ¬γ.pub i
  empty : ∀ l', l ≤ l' → s.graph.words i l' 0 = 0

theorem Unborn.later {l : Nat} {s s₁ : SharedGraph} {γ γ₁ : LinkGhost} (unborn : Unborn i l s γ)
    (rely : LinkRely solo i s γ s₁ γ₁) : Unborn i l s₁ γ₁ where
  node := unborn.node.trans_le rely.nodeCount_le
  hidden := rely.hidden unborn.hidden
  empty := fun l' above => (rely.own unborn.node unborn.hidden l' 0).trans (unborn.empty l' above)

theorem writeOwn_ok (only : NoOther solo i) (sized : params = ctx.params) {layers : List Layer} :
    ∀ {l : Nat} {s : SharedGraph} {γ : LinkGhost}, LinkInv params solo s γ → Quiet i s γ → Unborn i l s γ →
    l + layers.length ≤ s.graph.level i + 1 → (∀ k layer, layers[k]? = some layer → ctx.LayerOk (l + k) layer s γ) →
    (∀ l', l' < l → s.stored i l' = true) →
    LinkOk params mayFail solo i (ctx.writeOwn i l layers)
      (fun _ s₁ γ₁ => After solo i nowhere s γ s₁ γ₁ ∧ Quiet i s₁ γ₁ ∧ ¬γ₁.pub i ∧
        ∀ l', l' < l + layers.length → s₁.stored i l' = true) s γ := by
  induction layers with
  | nil =>
    intro l s γ _ quiet unborn _ _ written
    refine ok_done ?_
    intro s₁ γ₁ rely _
    exact ⟨After.of_rely only rely, quiet.later rely, rely.hidden unborn.hidden,
      fun l' below => rely.stored i l' (written l' below)⟩
  | cons layer rest ih =>
    intro l s γ inv quiet unborn high ok written
    rw [List.length_cons] at high
    have here : ctx.LayerOk l layer s γ := ok 0 layer rfl
    have known (v : Nat) (member : v ∈ layer.selected.map (·.id)) : Known l v s γ := by
      obtain ⟨c, inside, rfl⟩ := List.mem_map.mp member
      exact here.found.known c (here.chosen.subset inside)
    have writing : Writing i i l [] s γ :=
      ⟨decide_eq_true ⟨unborn.node, by omega⟩, nofun,
        .inl ⟨rfl, unborn.hidden, quiet.clean, unborn.empty l (Nat.le_refl l)⟩⟩
    have few : (layer.selected.map (·.id)).length ≤ ctx.capacity l := by
      have bound := here.few
      rw [List.length_map, capacity]
      split <;> omega
    refine Discipline.Ok.bind ?_ inv
    refine (ctx.setLinks_ok only inv writing (fun v member => .inr (.inr ⟨rfl, unborn.hidden, known v member⟩))
      (capacity_eq inv sized l) few (nodup_of_subperm here.chosen here.found.distinct)).mono ?_
    rintro _ s₁ γ₁ inv₁ ⟨since₁, clean, stored⟩
    have hidden₁ := since₁.hidden rfl unborn.hidden
    have apart₁ : After solo i nowhere s γ s₁ γ₁ :=
      since₁.toAfter.mono fun _ _ touched => unborn.hidden (known i touched.2.2).pub
    have quiet₁ : Quiet i s₁ γ₁ := ⟨fun k held => quiet.free k ((since₁.stripes k).mp held), clean⟩
    have unborn₁ : Unborn i (l + 1) s₁ γ₁ := by
      refine ⟨unborn.node.trans_eq since₁.nodeCount_eq.symm, hidden₁, ?_⟩
      intro l' above
      rw [since₁.own rfl unborn.node unborn.hidden l' (by omega)]
      exact unborn.empty l' (by omega)
    have written₁ : ∀ l', l' < l + 1 → s₁.stored i l' = true := by
      intro l' below
      rcases Nat.lt_succ_iff_lt_or_eq.mp below with lower | rfl
      · exact since₁.stored i l' (written l' lower)
      · exact stored
    refine (ih inv₁ quiet₁ unborn₁ (by rw [since₁.level_eq]; omega) ?_ written₁).mono ?_
    · intro k x at_
      rw [show l + 1 + k = l + (k + 1) by omega]
      exact (ok (k + 1) x at_).after apart₁
    · rintro _ s₂ γ₂ _ ⟨since₂, quiet₂, hidden₂, written₂⟩
      refine ⟨apart₁.trans since₂, quiet₂, hidden₂, ?_⟩
      intro l' below
      rw [List.length_cons] at below
      exact written₂ l' (by omega)

end WriteOwn

/-- What a whole insertion keeps for its own thread. -/
structure Kept (solo : Option Nat) (i : Nat) (s s' : SharedGraph) : Prop where
  levels : s'.graph.levels = s.graph.levels
  entry : s.graph.entry.valid = true → s'.graph.entry.valid = true ∧ s.graph.entry.level ≤ s'.graph.entry.level
  raiser : raiser solo s = some i → raiser solo s' = some i ∧ s'.graph.entry = s.graph.entry
  top : s'.top = some i ↔ s.top = some i

namespace Kept
variable {solo : Option Nat} {i : Nat} {s s₁ s₂ : SharedGraph} {γ γ₁ : LinkGhost}

theorem of_after {touched : Nat → Nat → Prop} (since : After solo i touched s γ s₁ γ₁) : Kept solo i s s₁ :=
  ⟨since.levels, since.entry, since.raiser, since.top⟩

theorem of_rely (only : NoOther solo i) (rely : LinkRely solo i s γ s₁ γ₁) : Kept solo i s s₁ :=
  ⟨rely.fixed only, rely.entry, rely.raiser, rely.top⟩

theorem trans (first : Kept solo i s s₁) (second : Kept solo i s₁ s₂) : Kept solo i s s₂ where
  levels := second.levels.trans first.levels
  entry := fun h =>
    have middle := first.entry h
    have last := second.entry middle.1
    ⟨last.1, middle.2.trans last.2⟩
  raiser := fun h =>
    have middle := first.raiser h
    have last := second.raiser middle.1
    ⟨last.1, last.2.trans middle.2⟩
  top := second.top.trans first.top

theorem level_eq (kept : Kept solo i s s₁) (x : Nat) : s₁.graph.level x = s.graph.level x := by
  rw [HnswGraph.level, kept.levels]
  rfl

theorem nodeCount_eq (kept : Kept solo i s s₁) : s₁.graph.nodeCount = s.graph.nodeCount := by
  rw [HnswGraph.nodeCount, kept.levels]
  rfl

end Kept

section Publish
variable {params : HnswParams} {mayFail : Nat → Prop} {solo : Option Nat} {i : Nat}
  {ctx : HnswContext} {s : SharedGraph} {γ : LinkGhost}

theorem ok_joins {α : Type} {post : α → SharedGraph → LinkGhost → Prop} {next : Unit → GraphProg α} {levels : Nat}
    (hidden : ¬γ.pub i)
    (rest : ∀ s₁ γ₁, LinkRely solo i s γ s₁ γ₁ →
      LinkInv params solo { s₁ with joined := Function.update s₁.joined i levels } γ₁ →
      LinkOk params mayFail solo i (next ()) post { s₁ with joined := Function.update s₁.joined i levels } γ₁) :
    LinkOk params mayFail solo i (joins i levels >>= next) post s γ := by
  intro s₁ γ₁ rely inv
  refine ⟨trivial, ?_⟩
  rintro r s₂ rfl
  have inv₂ : LinkInv params solo { s₁ with joined := Function.update s₁.joined i levels } γ₁ :=
    joins_inv inv (rely.hidden hidden)
  exact ⟨γ₁, inv₂, fun j other => joins_rely other, rest s₁ γ₁ rely inv₂⟩

/-- Nothing but the history changes. -/
theorem known_joined {l x : Nat} {joined : Nat → Nat} (known : Known l x s γ) :
    Known l x { s with joined := joined } γ :=
  ⟨known.pub, known.node, known.high⟩

theorem publish_ok (only : NoOther solo i) (sized : params = ctx.params) {top : Nat} {layers : List Layer}
    (quiet : Quiet i s γ) (unborn : Unborn i 0 s γ) (ok : ctx.LayersOk top layers s γ) (low : top ≤ s.graph.level i)
    (valid : s.graph.entry.valid = true) (reach : s.graph.level i ≤ s.graph.entry.level ∨ raiser solo s = some i) :
    LinkOk params mayFail solo i (ctx.publish i layers)
      (fun _ s₁ γ₁ => Kept solo i s s₁ ∧ Quiet i s₁ γ₁ ∧ Ready solo i s₁) s γ := by
  refine ok_joins unborn.hidden ?_
  intro s₁ γ₁ rely inv₂
  let s₂ : SharedGraph := { s₁ with joined := Function.update s₁.joined i layers.length }
  have kept₂ : Kept solo i s s₂ := ⟨rely.fixed only, rely.entry, rely.raiser, rely.top⟩
  have unborn₁ := unborn.later rely
  have unborn₂ : Unborn i 0 s₂ γ₁ := ⟨unborn₁.node, unborn₁.hidden, unborn₁.empty⟩
  have quiet₂ : Quiet i s₂ γ₁ := ⟨(quiet.later rely).free, (quiet.later rely).clean⟩
  have ok₂ (k : Nat) (layer : Layer) (at_ : layers[k]? = some layer) : ctx.LayerOk (0 + k) layer s₂ γ₁ := by
    have layerOk := (ok.later rely).2 k layer at_
    rw [Nat.zero_add]
    exact { layerOk with found := { layerOk.found with
      known := fun c member => known_joined (layerOk.found.known c member) } }
  have high : 0 + layers.length ≤ s₂.graph.level i + 1 := by
    rw [kept₂.level_eq, ok.1]
    omega
  refine Discipline.Ok.bind ?_ inv₂
  refine (writeOwn_ok only sized inv₂ quiet₂ unborn₂ high ok₂ fun l' below =>
    absurd below (Nat.not_lt_zero l')).mono ?_
  rintro _ s₃ γ₃ inv₃ ⟨since₃, quiet₃, hidden₃, written₃⟩
  have kept₃ : Kept solo i s s₃ := kept₂.trans (Kept.of_after since₃)
  have joined₃ : s₃.joined i = layers.length := since₃.joined.trans (Function.update_self ..)
  have ready₃ : Ready solo i s₃ := by
    refine ⟨unborn₂.node.trans_eq since₃.nodeCount_eq.symm, (kept₃.entry valid).1, ?_, ?_⟩
    · rw [kept₃.level_eq]
      rcases reach with below | mine
      · exact .inl (below.trans (kept₃.entry valid).2)
      · exact .inr (kept₃.raiser mine).1
    · intro l below
      rw [joined₃] at below
      exact written₃ l (by omega)
  have fresh (k : Nat) (layer : Layer) (at_ : layers[k]? = some layer) : Fresh ctx i (0 + k) layer s₃ γ₃ := by
    have layerOk := (ok₂ k layer at_).after since₃
    refine ⟨layerOk, ?_, ?_⟩
    · intro c member same
      exact hidden₃ (same ▸ (layerOk.found.known c member).pub)
    · intro c _ held
      exact hidden₃ (inv₃.may _ _ _ held).1
  refine (linkBack_ok only sized inv₃ quiet₃ ready₃ (by rw [since₃.level_eq]; exact high) fresh).mono ?_
  rintro _ s₄ γ₄ _ ⟨since₄, quiet₄⟩
  exact ⟨kept₃.trans (Kept.of_after since₄), quiet₄, since₄.ready ready₃⟩

end Publish

section Entry
variable {params : HnswParams} {mayFail : Nat → Prop} {solo : Option Nat} {i : Nat}
  {s s₁ : SharedGraph} {γ γ₁ : LinkGhost}

/-- How insertion `i` ends: linked below an entry point at least as high, or out of memory and
still hidden. -/
structure Ended (mayFail : Nat → Prop) (i : Nat) (linked : Bool) (s : SharedGraph)
    (s' : SharedGraph) (γ' : LinkGhost) : Prop where
  levels : s'.graph.levels = s.graph.levels
  top : s'.top = some i ↔ s.top = some i
  quiet : Quiet i s' γ'
  reached : linked = true → s'.graph.entry.valid = true ∧ s.graph.level i ≤ s'.graph.entry.level
  written : linked = true → ∀ l, l < s'.joined i → s'.stored i l = true
  failed : linked = false → mayFail i ∧ ¬γ'.pub i

theorem Ended.later {linked : Bool} {s₂ : SharedGraph} {γ₂ : LinkGhost} (ended : Ended mayFail i linked s s₁ γ₁)
    (only : NoOther solo i) (rely : LinkRely solo i s₁ γ₁ s₂ γ₂) : Ended mayFail i linked s s₂ γ₂ where
  levels := (rely.fixed only).trans ended.levels
  top := rely.top.trans ended.top
  quiet := ended.quiet.later rely
  reached := by
    intro ok
    obtain ⟨valid, low⟩ := ended.reached ok
    obtain ⟨valid₂, more⟩ := rely.entry valid
    exact ⟨valid₂, low.trans more⟩
  written := by
    intro ok l below
    rw [rely.joined] at below
    exact rely.stored i l (ended.written ok l below)
  failed := fun none => ⟨(ended.failed none).1, rely.hidden (ended.failed none).2⟩

theorem rising_later (rising : Rising solo i s) (rely : LinkRely solo i s γ s₁ γ₁) :
    Rising solo i s₁ := by
  obtain ⟨held, same⟩ := rely.raiser rising.raiser
  have level : s₁.graph.level i = s.graph.level i := rely.level_eq rising.node
  refine ⟨rising.node.trans_le rely.nodeCount_le, held, ?_, ?_⟩
  · rw [same, level]
    exact rising.above
  · intro l below
    rw [rely.joined] at below
    exact rely.stored i l (rising.written l below)

theorem ok_setEntry {α : Type} {post : α → SharedGraph → LinkGhost → Prop} {next : Unit → GraphProg α}
    (only : NoOther solo i) (rising : Rising solo i s) (quiet : Quiet i s γ)
    (rest : ∀ s₁ γ₁, LinkInv params solo s₁ γ₁ → Ended mayFail i true s s₁ γ₁ →
      LinkOk params mayFail solo i (next ()) post s₁ γ₁) :
    LinkOk params mayFail solo i (setEntry { id := i, level := s.graph.level i } >>= next) post s γ := by
  intro s₁ γ₁ rely inv
  have rising₁ := rising_later rising rely
  have quiet₁ := quiet.later rely
  have level : s₁.graph.level i = s.graph.level i := rely.level_eq rising.node
  refine ⟨trivial, ?_⟩
  rw [← level]
  rintro r s₂ rfl
  have inv₂ := storeEntry_inv inv rising₁
  refine ⟨_, inv₂, fun j other => storeEntry_rely inv rising₁ other, ?_⟩
  refine rest _ _ inv₂ ⟨rely.fixed only, rely.top, ⟨quiet₁.free, quiet₁.clean⟩, ?_, fun _ => rising₁.written, nofun⟩
  exact fun _ => ⟨inv.valid_of_node rising₁.node, level.ge⟩

end Entry

section Link
variable {params : HnswParams} {mayFail : Nat → Prop} {solo : Option Nat} {i : Nat}
  {ctx : HnswContext} {s : SharedGraph} {γ : LinkGhost}

/-- The entry point that an insertion starts from: still at least as low as the current one, and the
current one if the insertion may go above it. -/
structure StartsFrom (solo : Option Nat) (i : Nat) (e : HnswGraph.Entry) (s : SharedGraph)
    (γ : LinkGhost) : Prop where
  valid : s.graph.entry.valid = true
  known : Known e.level e.id s γ
  low : e.level ≤ s.graph.entry.level
  below : s.graph.level i ≤ e.level ∨ (raiser solo s = some i ∧ s.graph.entry = e)

theorem StartsFrom.of_entry (inv : LinkInv params solo s γ) (valid : s.graph.entry.valid = true)
    (below : s.graph.level i ≤ s.graph.entry.level ∨ raiser solo s = some i) :
    StartsFrom solo i s.graph.entry s γ := by
  obtain ⟨pub, high⟩ := inv.entry valid
  exact ⟨valid, ⟨pub, inv.inside _ pub, high.ge⟩, Nat.le_refl _, below.imp_right fun mine => ⟨mine, rfl⟩⟩

theorem StartsFrom.later {e : HnswGraph.Entry} {s₁ : SharedGraph} {γ₁ : LinkGhost}
    (starts : StartsFrom solo i e s γ)
    (node : i < s.graph.nodeCount) (rely : LinkRely solo i s γ s₁ γ₁) : StartsFrom solo i e s₁ γ₁ where
  valid := (rely.entry starts.valid).1
  known := starts.known.later rely
  low := starts.low.trans (rely.entry starts.valid).2
  below := by
    rw [rely.level_eq node]
    rcases starts.below with low | ⟨mine, same⟩
    · exact .inl low
    · exact .inr ⟨(rely.raiser mine).1, (rely.raiser mine).2.trans same⟩

/-- The part of `link` and `add` after the search: publish, and become the entry point if higher. -/
theorem publishAndRaise_ok (only : NoOther solo i) (sized : params = ctx.params) {e : HnswGraph.Entry}
    {layers : List Layer} {α : Type} {a : α} {post : α → SharedGraph → LinkGhost → Prop}
    (inv : LinkInv params solo s γ)
    (quiet : Quiet i s γ) (unborn : Unborn i 0 s γ) (starts : StartsFrom solo i e s γ)
    (ok : ctx.LayersOk (min (s.graph.level i) e.level) layers s γ)
    (ends : ∀ s₁ γ₁, LinkInv params solo s₁ γ₁ → Ended mayFail i true s s₁ γ₁ → post a s₁ γ₁) :
    LinkOk params mayFail solo i (do
      ctx.publish i layers
      if s.graph.level i > e.level then setEntry { id := i, level := s.graph.level i }
      .done a) post s γ := by
  have reach : s.graph.level i ≤ s.graph.entry.level ∨ raiser solo s = some i :=
    starts.below.imp (fun low => low.trans starts.low) And.left
  refine Discipline.Ok.bind ?_ inv
  refine (publish_ok only sized quiet unborn ok (Nat.min_le_left ..) starts.valid reach).mono ?_
  rintro _ s₁ γ₁ inv₁ ⟨kept, quiet₁, ready⟩
  obtain ⟨valid₁, low₁⟩ := kept.entry starts.valid
  split
  next above =>
    obtain ⟨mine, same⟩ : raiser solo s = some i ∧ s.graph.entry = e := starts.below.resolve_left (by omega)
    obtain ⟨mine₁, same₁⟩ := kept.raiser mine
    have rising : Rising solo i s₁ := by
      refine ⟨ready.node, mine₁, ?_, ready.written⟩
      intro _
      rw [same₁, same, kept.level_eq]
      omega
    rw [← kept.level_eq]
    refine ok_setEntry only rising quiet₁ ?_
    intro s₂ γ₂ inv₂ ended
    refine ok_done ?_
    intro s₃ γ₃ rely inv₃
    have last := ended.later only rely
    refine ends s₃ γ₃ inv₃ ⟨last.levels.trans kept.levels, last.top.trans kept.top, last.quiet, ?_,
      last.written, nofun⟩
    intro _
    rw [← kept.level_eq]
    exact last.reached rfl
  next level =>
    refine ok_done ?_
    intro s₂ γ₂ rely inv₂
    have last : Ended mayFail i true s s₁ γ₁ :=
      ⟨kept.levels, kept.top, quiet₁, fun _ => ⟨valid₁, (by have := starts.low; omega)⟩,
        fun _ => ready.written, nofun⟩
    exact ends s₂ γ₂ inv₂ (last.later only rely)

theorem insertBelow_ok (only : NoOther solo i) (sized : params = ctx.params)
    (wide : 1 ≤ ctx.params.efConstruction.toNat) {visited : VisitedSet} {e : HnswGraph.Entry}
    (inv : LinkInv params solo s γ)
    (quiet : Quiet i s γ) (unborn : Unborn i 0 s γ) (starts : StartsFrom solo i e s γ)
    (covers : s.graph.nodeCount ≤ visited.marks.length) :
    LinkOk params mayFail solo i (ctx.insertBelow visited i (s.graph.level i) e)
      (fun linked s₁ γ₁ => Ended mayFail i linked s s₁ γ₁) s γ := by
  refine Discipline.Ok.bind ?_ inv
  refine (ctx.findNeighbors_ok only wide inv covers starts.known (Nat.min_le_right ..)).mono ?_
  rintro found s₁ γ₁ inv₁ ⟨rely, fails, ok⟩
  have unborn₁ := unborn.later rely
  have quiet₁ := quiet.later rely
  cases found with
  | none =>
    refine ok_done ?_
    intro s₂ γ₂ rely₂ _
    have since := rely.trans rely₂
    exact ⟨since.fixed only, since.top, quiet.later since, fun yes => absurd yes Bool.false_ne_true,
      fun yes => absurd yes Bool.false_ne_true, fun _ => ⟨fails rfl, since.hidden unborn.hidden⟩⟩
  | some layers =>
    have same : s₁.graph.level i = s.graph.level i := rely.level_eq unborn.node
    rw [← same] at ok ⊢
    refine publishAndRaise_ok only sized inv₁ quiet₁ unborn₁ (starts.later unborn.node rely) (ok layers rfl) ?_
    intro s₂ γ₂ _ ended
    refine ⟨ended.levels.trans (rely.fixed only), ended.top.trans rely.top, ended.quiet, ?_, ended.written,
      fun no => absurd no.symm Bool.false_ne_true⟩
    intro _
    rw [← same]
    exact ended.reached rfl

end Link

section Top
variable {params : HnswParams} {mayFail : Nat → Prop} {i : Nat} {ctx : HnswContext}
  {s : SharedGraph} {γ : LinkGhost}

theorem noOther_none : NoOther none i := fun _ some => nomatch some

theorem ok_lockTop {α : Type} {post : α → SharedGraph → LinkGhost → Prop} {next : Unit → GraphProg α}
    (rest : ∀ s₁ γ₁, LinkRely none i s γ s₁ γ₁ → LinkInv params none { s₁ with top := some i } γ₁ →
      LinkOk params mayFail none i (next ()) post { s₁ with top := some i } γ₁) :
    LinkOk params mayFail none i (lockTop >>= next) post s γ := by
  intro s₁ γ₁ rely inv
  refine ⟨trivial, ?_⟩
  rintro r s₂ ⟨free, rfl⟩
  have inv₂ : LinkInv params none { s₁ with top := some i } γ₁ := lockTop_inv inv free
  exact ⟨γ₁, inv₂, fun j other => lockTop_rely free other, rest s₁ γ₁ rely inv₂⟩

/-- The end of an insertion that held the lock. -/
theorem ok_unlockTop {linked : Bool} {s₀ : SharedGraph} (before : s₀.top ≠ some i)
    (held : s.top = some i) (ended : Ended mayFail i linked { s₀ with top := some i } s γ) :
    LinkOk params mayFail none i (do unlockTop; .done linked) (fun r s₁ γ₁ => Ended mayFail i r s₀ s₁ γ₁) s γ := by
  intro s₁ γ₁ rely inv
  have ended₁ := ended.later noOther_none rely
  have held₁ : s₁.top = some i := rely.top.mpr held
  have low : γ₁.pub i → s₁.graph.level i ≤ s₁.graph.entry.level := by
    intro known
    cases linked with
    | true =>
      have level : s₁.graph.level i = s₀.graph.level i := by rw [HnswGraph.level, ended₁.levels]; rfl
      rw [level]
      exact (ended₁.reached rfl).2
    | false => exact absurd known (ended₁.failed rfl).2
  refine ⟨held₁, ?_⟩
  rintro r s₂ rfl
  refine ⟨γ₁, unlockTop_inv inv held₁ low, fun j other => unlockTop_rely held₁ other, ?_⟩
  have free : Ended mayFail i linked s₀ { s₁ with top := none } γ₁ :=
    ⟨ended₁.levels, by simp [before], ⟨ended₁.quiet.free, ended₁.quiet.clean⟩, ended₁.reached, ended₁.written,
      ended₁.failed⟩
  exact ok_done fun s₃ γ₃ rely₃ _ => free.later noOther_none rely₃

/-- `link(id)` of a reserved node, whatever other insertions do meanwhile. -/
theorem link_ok (sized : params = ctx.params) (wide : 1 ≤ ctx.params.efConstruction.toNat) {visited : VisitedSet}
    (quiet : Quiet i s γ) (unborn : Unborn i 0 s γ) (new : s.joined i = 0) (free : s.top ≠ some i)
    (covers : s.graph.nodeCount ≤ visited.marks.length) :
    LinkOk params mayFail none i (ctx.link visited i) (fun linked s₁ γ₁ => Ended mayFail i linked s s₁ γ₁) s γ := by
  have only : NoOther none i := noOther_none
  refine ok_level unborn.node ?_
  intro s₁ γ₁ rely₁ _
  refine ok_entry ?_
  intro s₂ γ₂ rely₂ inv₂
  have rely := rely₁.trans rely₂
  have level₂ : s₂.graph.level i = s.graph.level i := rely.level_eq unborn.node
  have unborn₂ := unborn.later rely
  split
  next =>
    refine ok_lockTop ?_
    intro s₃ γ₃ rely₃ inv₃
    refine ok_entry ?_
    intro s₄ γ₄ rely₄ inv₄
    have top₄ : s₄.top = some i := rely₄.top.mpr rfl
    have since₃ := rely.trans rely₃
    have quiet₃ : Quiet i { s₃ with top := some i } γ₃ := ⟨(quiet.later since₃).free, (quiet.later since₃).clean⟩
    have unborn₃ : Unborn i 0 { s₃ with top := some i } γ₃ :=
      ⟨(unborn.later since₃).node, (unborn.later since₃).hidden, (unborn.later since₃).empty⟩
    have quiet₄ := quiet₃.later rely₄
    have unborn₄ := unborn₃.later rely₄
    have levels₄ : s₄.graph.levels = s.graph.levels := (rely₄.fixed only).trans (since₃.fixed only)
    have level₄ : s₄.graph.level i = s.graph.level i := by rw [HnswGraph.level, levels₄]; rfl
    have joined₄ : s₄.joined i = 0 := (rely₄.joined.trans since₃.joined).trans new
    -- the locked part, for any result of it
    have finish {linked : Bool} {s₅ : SharedGraph} {γ₅ : LinkGhost} (ended : Ended mayFail i linked s₄ s₅ γ₅) :
        LinkOk params mayFail none i (do unlockTop; .done linked)
        (fun r s₁ γ₁ => Ended mayFail i r s s₁ γ₁) s₅ γ₅ := by
      refine ok_unlockTop free (ended.top.mpr top₄) ?_
      refine ⟨ended.levels.trans levels₄, ended.top.trans (by simp [top₄]), ended.quiet, ?_,
        ended.written, ended.failed⟩
      intro ok
      obtain ⟨valid, low⟩ := ended.reached ok
      exact ⟨valid, level₄.symm.trans_le low⟩
    split
    next missing =>
      have invalid : s₄.graph.entry.valid = false := by simpa using missing
      have rising : Rising none i s₄ := by
        refine ⟨unborn₄.node, top₄, ?_, ?_⟩
        · rw [invalid]
          exact fun yes => absurd yes Bool.false_ne_true
        · intro l below
          omega
      rw [← level₄]
      refine ok_setEntry only rising quiet₄ ?_
      intro s₅ γ₅ _ ended
      exact finish ended
    next present =>
      have valid : s₄.graph.entry.valid = true := by simpa using present
      have starts : StartsFrom none i s₄.graph.entry s₄ γ₄ := StartsFrom.of_entry inv₄ valid (.inr top₄)
      rw [← level₄]
      refine Discipline.Ok.bind ?_ inv₄
      refine (insertBelow_ok only sized wide inv₄ quiet₄ unborn₄ starts
        (by rw [HnswGraph.nodeCount, levels₄]; exact covers)).mono ?_
      intro linked s₅ γ₅ _ ended
      exact finish ended
  next below =>
    obtain ⟨valid, low⟩ : s₂.graph.entry.valid = true ∧ s.graph.level i ≤ s₂.graph.entry.level := by
      rw [not_or] at below
      exact ⟨by simpa using below.1, by omega⟩
    have starts : StartsFrom none i s₂.graph.entry s₂ γ₂ :=
      StartsFrom.of_entry inv₂ valid (.inl (level₂.trans_le low))
    rw [← level₂]
    refine (insertBelow_ok only sized wide inv₂ (quiet.later rely) unborn₂ starts
      ((nodeCount_fixed only rely).trans_le covers)).mono ?_
    intro linked s₃ γ₃ _ ended
    refine ⟨ended.levels.trans (rely.fixed only), ended.top.trans rely.top, ended.quiet, ?_,
      ended.written, ended.failed⟩
    intro ok
    rw [← level₂]
    exact ended.reached ok

end Top

section Add
variable {params : HnswParams} {mayFail : Nat → Prop} {i : Nat} {ctx : HnswContext}
  {s : SharedGraph} {γ : LinkGhost}

/-- How `add(i)` ends. Whatever it reports, without success there is no new node. -/
structure Added (ctx : HnswContext) (mayFail : Nat → Prop) (i : Nat) (r : Option (Result Unit)) (s s' : SharedGraph)
    (γ' : LinkGhost) : Prop where
  levels : s'.graph.levels =
    if r = some (.ok ()) then s.graph.levels ++ [ctx.params.levels.levelFor i] else s.graph.levels
  top : s'.top = some i ↔ s.top = some i
  quiet : Quiet i s' γ'
  linked : r = some (.ok ()) → s'.graph.entry.valid = true ∧ ctx.params.levels.levelFor i ≤ s'.graph.entry.level
  written : r = some (.ok ()) → ∀ l, l < s'.joined i → s'.stored i l = true
  joined : r ≠ some (.ok ()) → s'.joined i = s.joined i
  threw : r = none → mayFail i

theorem noOther_self : NoOther (some i) i := fun _ same => (Option.some.inj same).symm

theorem ok_addNode {α : Type} {post : α → SharedGraph → LinkGhost → Prop}
    {next : Result Unit → GraphProg α} {level : Nat} (here : i = s.graph.nodeCount)
    (added : ∀ s₁ γ₁ g, LinkRely (some i) i s γ s₁ γ₁ → s₁.graph.addNode level = .ok g → ¬γ₁.pub i →
      LinkInv params (some i) { s₁ with graph := g } γ₁ →
      LinkOk params mayFail (some i) i (next (.ok ())) post { s₁ with graph := g } γ₁)
    (refused : ∀ s₁ γ₁ e, LinkRely (some i) i s γ s₁ γ₁ →
      LinkOk params mayFail (some i) i (next (.error e)) post s₁ γ₁) :
    LinkOk params mayFail (some i) i (addNode level >>= next) post s γ := by
  intro s₁ γ₁ rely inv
  have here₁ : i = s₁.graph.nodeCount := here.trans (nodeCount_fixed noOther_self rely).symm
  have hidden : ¬γ₁.pub i := fun known => absurd (inv.inside i known) (by omega)
  refine ⟨here₁, ?_⟩
  intro r s₂ does
  simp only [linkDiscipline, SharedGraph.Does] at does
  split at does
  next g run =>
    obtain ⟨rfl, rfl⟩ := does
    have inv₂ := addNode_inv inv run
    exact ⟨γ₁, inv₂, fun j other => addNode_rely inv run other, added s₁ γ₁ g rely run hidden inv₂⟩
  next e run =>
    obtain ⟨rfl, rfl⟩ := does
    exact ⟨γ₁, inv, fun j _ => LinkRely.refl _ j s₂ γ₁, refused s₂ γ₁ e rely⟩

section NewNode
variable {level : Nat} {g : HnswGraph}

theorem known_addNode {l x : Nat} (known : Known l x s γ) (run : s.graph.addNode level = .ok g) :
    Known l x { s with graph := g } γ := by
  refine ⟨known.pub, ?_, ?_⟩
  · have node := known.node
    change x < g.nodeCount
    rw [HnswGraph.addNode_nodeCount run]
    omega
  · change l ≤ g.level x
    rw [HnswGraph.addNode_level run, if_neg (Nat.ne_of_lt known.node)]
    exact known.high

theorem unborn_addNode (here : i = s.graph.nodeCount) (hidden : ¬γ.pub i) (run : s.graph.addNode level = .ok g) :
    Unborn i 0 { s with graph := g } γ := by
  obtain ⟨_, _, _, _, _, _, words⟩ := HnswGraph.addNode_spec run
  refine ⟨?_, hidden, ?_⟩
  · change i < g.nodeCount
    rw [HnswGraph.addNode_nodeCount run]
    omega
  · intro l _
    exact (words i l 0).trans (if_pos here)

theorem layersOk_addNode {top : Nat} {layers : List Layer} (ok : ctx.LayersOk top layers s γ)
    (run : s.graph.addNode level = .ok g) : ctx.LayersOk top layers { s with graph := g } γ := by
  refine ⟨ok.1, ?_⟩
  intro l layer at_
  have layerOk := ok.2 l layer at_
  exact { layerOk with
    found := { layerOk.found with known := fun c member => known_addNode (layerOk.found.known c member) run } }

theorem startsFrom_addNode {e : HnswGraph.Entry} (run : s.graph.addNode level = .ok g)
    (valid : e.valid = true) (known : Known e.level e.id s γ) (same : s.graph.entry = e) :
    StartsFrom (some i) i e { s with graph := g } γ := by
  obtain ⟨_, _, _, _, _, entry, _⟩ := HnswGraph.addNode_spec run
  have kept : g.entry = e := entry.trans same
  refine ⟨?_, known_addNode known run, ?_, .inr ⟨rfl, kept⟩⟩
  · change g.entry.valid = true
    rw [kept]
    exact valid
  · change e.level ≤ g.entry.level
    rw [kept]

end NewNode

/-- Nothing has happened yet when `add` gives up. -/
theorem added_without {r : Option (Result Unit)} {s₁ : SharedGraph} {γ₁ : LinkGhost} (quiet : Quiet i s γ)
    (rely : LinkRely (some i) i s γ s₁ γ₁) (no : r ≠ some (.ok ())) (threw : r = none → mayFail i) :
    Added ctx mayFail i r s s₁ γ₁ :=
  ⟨(rely.fixed noOther_self).trans (if_neg no).symm, rely.top, quiet.later rely, fun ok => absurd ok no,
    fun ok => absurd ok no, fun _ => rely.joined, threw⟩

theorem ok_without {r : Option (Result Unit)} {s₁ : SharedGraph} {γ₁ : LinkGhost} (quiet : Quiet i s γ)
    (rely : LinkRely (some i) i s γ s₁ γ₁) (no : r ≠ some (.ok ())) (threw : r = none → mayFail i) :
    LinkOk params mayFail (some i) i (.done r) (fun r s₁ γ₁ => Added ctx mayFail i r s s₁ γ₁) s₁ γ₁ :=
  ok_done fun _ _ rely₂ _ => added_without quiet (rely.trans rely₂) no threw

/-- `add(id)` with exclusive access. -/
theorem add_ok (sized : params = ctx.params) (wide : 1 ≤ ctx.params.efConstruction.toNat) {visited : VisitedSet}
    (here : i = s.graph.nodeCount) (quiet : Quiet i s γ) (new : s.joined i = 0)
    (covers : s.graph.nodeCount ≤ visited.marks.length) :
    LinkOk params mayFail (some i) i (ctx.add visited i) (fun r s₁ γ₁ => Added ctx mayFail i r s s₁ γ₁) s γ := by
  refine ok_entry ?_
  intro s₁ γ₁ rely₁ inv₁
  have here₁ : i = s₁.graph.nodeCount := here.trans (nodeCount_fixed noOther_self rely₁).symm
  -- the new graph, once the node has been added after `rely`
  have finish {s₂ s₃ : SharedGraph} {γ₂ γ₃ : LinkGhost} {g : HnswGraph} (rely₂ : LinkRely (some i) i s γ s₂ γ₂)
      (run : s₂.graph.addNode (ctx.params.levels.levelFor i) = .ok g)
      (ended : Ended mayFail i true { s₂ with graph := g } s₃ γ₃) :
      Added ctx mayFail i (some (.ok ())) s s₃ γ₃ := by
    obtain ⟨_, _, levels, _⟩ := HnswGraph.addNode_spec run
    have here₂ : i = s₂.graph.nodeCount := here.trans (nodeCount_fixed noOther_self rely₂).symm
    refine ⟨?_, ended.top.trans rely₂.top, ended.quiet, ?_, fun _ => ended.written rfl,
      fun no => absurd rfl no, nofun⟩
    · rw [if_pos rfl, ended.levels, ← rely₂.fixed noOther_self]
      exact levels
    · intro _
      obtain ⟨valid, low⟩ := ended.reached rfl
      have level : g.level i = ctx.params.levels.levelFor i := by rw [HnswGraph.addNode_level run, if_pos here₂]
      exact ⟨valid, level.symm.trans_le low⟩
  split
  next missing =>
    refine ok_allocate ?_ ?_
    · intro s₂ γ₂ rely₂ inv₂
      have here₂ : i = s₂.graph.nodeCount := here₁.trans (nodeCount_fixed noOther_self rely₂).symm
      refine ok_addNode here₂ ?_ ?_
      · intro s₃ γ₃ g rely₃ run hidden inv₄
        have since := (rely₁.trans rely₂).trans rely₃
        have here₃ : i = s₃.graph.nodeCount := here.trans (nodeCount_fixed noOther_self since).symm
        have unborn := unborn_addNode here₃ hidden run
        have level : g.level i = ctx.params.levels.levelFor i := by rw [HnswGraph.addNode_level run, if_pos here₃]
        have entry : g.entry = s₁.graph.entry := by
          obtain ⟨_, _, _, _, _, same, _⟩ := HnswGraph.addNode_spec run
          exact same.trans ((rely₂.trans rely₃).raiser rfl).2
        have rising : Rising (some i) i { s₃ with graph := g } := by
          refine ⟨unborn.node, rfl, ?_, ?_⟩
          · intro valid
            have invalid : s₁.graph.entry.valid = false := by simpa using missing
            rw [← entry] at invalid
            exact absurd (invalid.symm.trans valid) (by decide)
          · intro l below
            have zero : s₃.joined i = 0 := since.joined.trans new
            exact absurd below (by change ¬ l < s₃.joined i; omega)
        rw [← level]
        refine ok_setEntry noOther_self rising ⟨(quiet.later since).free, (quiet.later since).clean⟩ ?_
        intro s₄ γ₄ _ ended
        refine ok_done ?_
        intro s₅ γ₅ rely₅ _
        exact finish since run (ended.later noOther_self rely₅)
      · intro s₃ γ₃ e rely₃
        exact ok_without quiet ((rely₁.trans rely₂).trans rely₃) (by simp) nofun
    · intro s₂ γ₂ rely₂ _ fails
      exact ok_without quiet (rely₁.trans rely₂) (by simp) fun _ => fails
  next present =>
    have valid : s₁.graph.entry.valid = true := by simpa using present
    obtain ⟨pub, high⟩ := inv₁.entry valid
    have known : Known s₁.graph.entry.level s₁.graph.entry.id s₁ γ₁ := ⟨pub, inv₁.inside _ pub, high.ge⟩
    refine ok_allocate ?_ ?_
    · intro s₂ γ₂ rely₂ inv₂
      have covers₂ : s₂.graph.nodeCount ≤ visited.marks.length := by
        rw [nodeCount_fixed noOther_self (rely₁.trans rely₂)]
        exact covers
      refine Discipline.Ok.bind ?_ inv₂
      refine (ctx.findNeighbors_ok noOther_self wide inv₂ covers₂ (known.later rely₂) (Nat.min_le_right ..)).mono ?_
      rintro found s₃ γ₃ inv₃ ⟨rely₃, fails, ok⟩
      have since₃ := (rely₁.trans rely₂).trans rely₃
      cases found with
      | none => exact ok_without quiet since₃ (by simp) fun _ => fails rfl
      | some layers =>
        refine ok_allocate ?_ ?_
        · intro s₄ γ₄ rely₄ inv₄
          have here₄ : i = s₄.graph.nodeCount := here.trans (nodeCount_fixed noOther_self (since₃.trans rely₄)).symm
          refine ok_addNode here₄ ?_ ?_
          · intro s₅ γ₅ g rely₅ run hidden inv₆
            have since₅ := (since₃.trans rely₄).trans rely₅
            have after₁ := ((rely₂.trans rely₃).trans rely₄).trans rely₅
            have here₅ : i = s₅.graph.nodeCount := here.trans (nodeCount_fixed noOther_self since₅).symm
            have unborn := unborn_addNode here₅ hidden run
            have level : g.level i = ctx.params.levels.levelFor i := by
              rw [HnswGraph.addNode_level run, if_pos here₅]
            have layersOk := layersOk_addNode (((ok layers rfl).later rely₄).later rely₅) run
            have starts : StartsFrom (some i) i s₁.graph.entry { s₅ with graph := g } γ₅ :=
              startsFrom_addNode run valid (known.later after₁) (after₁.raiser rfl).2
            rw [← level] at layersOk ⊢
            refine publishAndRaise_ok noOther_self sized inv₆
              ⟨(quiet.later since₅).free, (quiet.later since₅).clean⟩
              unborn starts layersOk ?_
            intro s₆ γ₆ _ ended
            exact finish since₅ run ended
          · intro s₅ γ₅ e rely₅
            exact ok_without quiet ((since₃.trans rely₄).trans rely₅) (by simp) nofun
        · intro s₄ γ₄ rely₄ _ fails
          exact ok_without quiet (since₃.trans rely₄) (by simp) fun _ => fails
    · intro s₂ γ₂ rely₂ _ fails
      exact ok_without quiet (rely₁.trans rely₂) (by simp) fun _ => fails

end Add
end VectorForge.HnswContext
