import VectorForge.Hnsw.PublishSafety

/-! An insertion adds itself to each list at most once, and only after its own lists are written. -/

namespace VectorForge.HnswContext

/-- Insertion `i` holds no stripe and rewrites no list. -/
structure Quiet (i : Nat) (s : SharedGraph) (γ : LinkGhost) : Prop where
  free : ∀ k, s.stripes k ≠ some i
  clean : γ.dirty i = none

/-- Insertion `i` holds stripe `k` and rewrites no list. -/
structure Grip (i k : Nat) (s : SharedGraph) (γ : LinkGhost) : Prop where
  held : ∀ k', s.stripes k' = some i ↔ k' = k
  clean : γ.dirty i = none

/-- The lists that insertion `i` did not add itself to: all of them. -/
def nowhere (_ _ : Nat) : Prop := False

theorem Quiet.later {solo : Option Nat} {i : Nat} {s s₁ : SharedGraph} {γ γ₁ : LinkGhost} (quiet : Quiet i s γ)
    (rely : LinkRely solo i s γ s₁ γ₁) : Quiet i s₁ γ₁ :=
  ⟨fun k held => quiet.free k ((rely.stripes k).mp held), rely.dirty.trans quiet.clean⟩

section Stripe
variable {params : HnswParams} {mayFail : Nat → Prop} {solo : Option Nat} {i key : Nat} {α : Type}
  {post : α → SharedGraph → LinkGhost → Prop} {s : SharedGraph} {γ : LinkGhost}

theorem after_stripes {stripes : Nat → Option Nat} :
    After solo i nowhere s γ { s with stripes := stripes } γ :=
  ⟨rfl, rfl, fun _ h => h, fun _ _ _ _ h => h, fun h => ⟨h, Nat.le_refl _⟩, fun h => ⟨h, rfl⟩, Iff.rfl,
    fun _ _ h => h, rfl⟩

theorem ok_lockStripe {next : Unit → GraphProg α} (only : NoOther solo i) (quiet : Quiet i s γ)
    (rest : ∀ s₁ γ₁, After solo i nowhere s γ s₁ γ₁ → LinkInv params solo s₁ γ₁ → Grip i (stripeOf key) s₁ γ₁ →
      LinkOk params mayFail solo i (next ()) post s₁ γ₁) :
    LinkOk params mayFail solo i (lockStripe key >>= next) post s γ := by
  intro s₁ γ₁ rely inv
  have quiet₁ := quiet.later rely
  refine ⟨trivial, ?_⟩
  rintro r s₂ ⟨free, rfl⟩
  have inv₂ : LinkInv params solo { s₁ with stripes := Function.update s₁.stripes (stripeOf key) (some i) } γ₁ :=
    lock_inv inv free
  refine ⟨γ₁, inv₂, fun j other => lock_rely free other, ?_⟩
  refine rest _ γ₁ ((After.of_rely only rely).trans after_stripes) inv₂ ⟨?_, quiet₁.clean⟩
  intro k
  by_cases here : k = stripeOf key
  · rw [here]
    simp
  · simp [here, quiet₁.free k]

theorem ok_unlockStripe {next : Unit → GraphProg α} (only : NoOther solo i) (grip : Grip i (stripeOf key) s γ)
    (rest : ∀ s₁ γ₁, After solo i nowhere s γ s₁ γ₁ → LinkInv params solo s₁ γ₁ → Quiet i s₁ γ₁ →
      LinkOk params mayFail solo i (next ()) post s₁ γ₁) :
    LinkOk params mayFail solo i (unlockStripe key >>= next) post s γ := by
  intro s₁ γ₁ rely inv
  have held : s₁.stripes (stripeOf key) = some i := (rely.stripes _).mpr ((grip.held _).mpr rfl)
  have clean : γ₁.dirty i = none := rely.dirty.trans grip.clean
  refine ⟨held, ?_⟩
  rintro r s₂ rfl
  have inv₂ := unlock_inv inv held clean
  refine ⟨γ₁, inv₂, fun j other => unlock_rely held other, ?_⟩
  refine rest _ γ₁ ((After.of_rely only rely).trans after_stripes) inv₂ ⟨?_, clean⟩
  intro k mine
  by_cases here : k = stripeOf key
  · rw [here] at mine
    simp at mine
  · simp only [Function.update_of_ne here] at mine
    exact here ((grip.held k).mp ((rely.stripes k).mp mine))

end Stripe

section Held
variable {params : HnswParams} {mayFail : Nat → Prop} {solo : Option Nat} {i c l : Nat} {ids : List Nat}
  {s s₁ : SharedGraph} {γ γ₁ : LinkGhost}

/-- Under its stripe nobody else changes the list of a published node. -/
structure Held (i c l : Nat) (ids : List Nat) (s : SharedGraph) (γ : LinkGhost) : Prop where
  apart : c ≠ i
  known : Known l c s γ
  stripe : s.stripes (stripeOf c) = some i
  clean : γ.dirty i = none
  links : s.graph.links c l = ids

theorem Held.later (held : Held i c l ids s γ) (rely : LinkRely solo i s γ s₁ γ₁) : Held i c l ids s₁ γ₁ where
  apart := held.apart
  known := held.known.later rely
  stripe := (rely.stripes _).mpr held.stripe
  clean := rely.dirty.trans held.clean
  links := by
    have same (w : Nat) : s₁.graph.words c l w = s.graph.words c l w := rely.locked c l w held.known.pub held.stripe
    simp only [HnswGraph.links, same]
    exact held.links

theorem Held.count (held : Held i c l ids s γ) : s.graph.words c l 0 = ids.length := by
  rw [← held.links, HnswGraph.length_links]

theorem Held.slot (held : Held i c l ids s γ) {k : Nat} (below : k < ids.length) :
    s.graph.words c l (1 + k) = ids[k] := by
  have inside : k < (s.graph.links c l).length := by rw [held.links]; exact below
  have same : (s.graph.links c l)[k] = ids[k] := by simp only [held.links]
  rw [← same]
  simp [HnswGraph.links]

theorem Held.distinct (held : Held i c l ids s γ) (inv : LinkInv params solo s γ) : ids.Nodup := by
  rw [← held.links]
  refine inv.distinct c l held.known.listed ?_
  intro j dirty
  have owner := (inv.locked j c l dirty).2
  rw [held.stripe] at owner
  cases owner
  rw [held.clean] at dirty
  cases dirty

theorem Held.length_le (held : Held i c l ids s γ) (inv : LinkInv params solo s γ) : ids.length ≤ γ.high c l := by
  rw [← held.count]
  exact inv.counts c l held.known.listed

theorem Held.may (held : Held i c l ids s γ) (inv : LinkInv params solo s γ) {v : Nat}
    (member : v ∈ ids) : γ.may c l v := by
  obtain ⟨k, below, rfl⟩ := List.mem_iff_getElem.mp member
  have bound := held.length_le inv
  rw [← held.slot below]
  exact inv.slots c l k (by omega)

theorem Held.writing (held : Held i c l ids s γ) (inv : LinkInv params solo s γ) : Writing i c l ids s γ where
  listed := held.known.listed
  slots := by
    intro k v at_
    obtain ⟨below, rfl⟩ := List.getElem?_eq_some_iff.mp at_
    exact ⟨held.slot below, held.may inv (List.getElem_mem below)⟩
  mode := .inr ⟨held.apart, held.known.pub, held.stripe, .inl held.clean⟩

/-- A rewrite starts with no slots written. -/
theorem Held.rewriting (held : Held i c l ids s γ) : Writing i c l [] s γ where
  listed := held.known.listed
  slots := nofun
  mode := .inr ⟨held.apart, held.known.pub, held.stripe, .inl held.clean⟩

theorem ok_heldLoad {α : Type} {post : α → SharedGraph → LinkGhost → Prop} {w : Nat} {next : Nat → GraphProg α}
    (held : Held i c l ids s γ) (small : w ≤ ids.length)
    (rest : ∀ s₁ γ₁, LinkRely solo i s γ s₁ γ₁ → LinkInv params solo s₁ γ₁ →
      LinkOk params mayFail solo i (next (s.graph.words c l w)) post s₁ γ₁) :
    LinkOk params mayFail solo i (load c l w >>= next) post s γ := by
  refine ok_read ?_
  intro s₁ γ₁ rely inv
  have held₁ := held.later rely
  have bound := held₁.length_le inv
  have fits := inv.high c l
  refine ⟨⟨held₁.known.listed, by omega⟩, ?_⟩
  rintro r s₂ ⟨rfl, rfl⟩
  rw [rely.locked c l w held.known.pub held.stripe]
  exact ⟨rfl, rest s₂ γ₁ rely inv⟩

end Held

section BackLink
variable {params : HnswParams} {mayFail : Nat → Prop} {solo : Option Nat} {i c l : Nat}
  {ids : List Nat} {s : SharedGraph} {γ : LinkGhost} {ctx : HnswContext}

theorem capacity_eq (inv : LinkInv params solo s γ) (sized : params = ctx.params) (level : Nat) :
    s.graph.capacity level = ctx.capacity level := by
  rw [HnswGraph.capacity, inv.m, sized]
  rfl

/-- Whether `i` is in the list afterwards decides what is known about it. -/
theorem after_rewritten {s₁ : SharedGraph} {γ₁ : LinkGhost} {kept : Bool}
    (since : Rewritten solo i c l ids s γ s₁ γ₁) (same : i ∈ ids → kept = true) :
    After solo i (fun c' l' => c' = c ∧ l' = l ∧ kept = true) s γ s₁ γ₁ :=
  since.toAfter.mono fun _ _ ⟨atNode, atLevel, member⟩ => ⟨atNode, atLevel, same member⟩

theorem tryAppendLink_ok (only : NoOther solo i) (sized : params = ctx.params) (held : Held i c l ids s γ)
    (ready : Ready solo i s) (high : l ≤ s.graph.level i) (absent : i ∉ ids) :
    LinkOk params mayFail solo i (ctx.tryAppendLink c l i)
      (fun r s₁ γ₁ => After solo i (fun c' l' => c' = c ∧ l' = l ∧ r = true) s γ s₁ γ₁ ∧
        (∀ k, s₁.stripes k = some i ↔ s.stripes k = some i) ∧ γ₁.dirty i = none ∧
        (r = false → LinkRely solo i s γ s₁ γ₁)) s γ := by
  refine ok_heldLoad held (Nat.zero_le _) ?_
  intro s₁ γ₁ rely inv
  rw [held.count]
  have held₁ := held.later rely
  have bound := held₁.length_le inv
  split
  · refine ok_done ?_
    intro s₂ γ₂ rely₂ _
    have since := rely.trans rely₂
    exact ⟨After.of_rely only since, since.stripes, since.dirty.trans held.clean, fun _ => since⟩
  next room =>
    have since₁ : After solo i nowhere s γ s₁ γ₁ := After.of_rely only rely
    have room₁ : ids.length < s₁.graph.capacity l := by rw [capacity_eq inv sized]; omega
    have offered : Offered solo i c l i s₁ γ₁ :=
      .inr (.inl ⟨rfl, held.apart, since₁.ready ready, high.trans (since₁.level_eq i).ge⟩)
    refine ok_storeSlot only (held₁.writing inv) offered room₁ ?_
    intro s₂ γ₂ rely₂ storable inv₂
    have longer : ids.length + 1 = (ids ++ [i]).length := by rw [List.length_append, List.length_singleton]
    have step : Rewritten solo i c l [i] s₂ γ₂ (s₂.storeWord c l (1 + ids.length) i)
        ((γ₂.mark i (Writing.marked i c l)).putSlot c l i) :=
      Rewritten.of_slot (List.mem_singleton_self i) storable.other
    have since₂ : Rewritten solo i c l [i] s γ _ _ := (Rewritten.of_rely only (rely.trans rely₂)).trans step
    have distinct : (ids ++ [i]).Nodup := by
      refine List.nodup_append.mpr ⟨held₁.distinct inv, List.nodup_singleton i, ?_⟩
      intro a inside b single same
      rw [List.mem_singleton.mp single] at same
      exact absent (same ▸ inside)
    have fits : (ids ++ [i]).length ≤ (s₂.storeWord c l (1 + ids.length) i).graph.capacity l := by
      have sameCapacity : s₂.graph.capacity l = s₁.graph.capacity l := by
        rw [HnswGraph.capacity, HnswGraph.capacity, rely₂.m]
      change _ ≤ s₂.graph.capacity l
      omega
    rw [longer]
    refine ok_storeCount (((held₁.writing inv).later rely₂).slot storable.other) fits distinct ?_
    intro s₃ γ₃ rely₃ inv₃
    refine ok_done ?_
    intro s₄ γ₄ rely₄ _
    have count : Rewritten solo i c l [i] s₃ γ₃ (s₃.storeWord c l 0 (ids ++ [i]).length)
        ((γ₃.mark i none).putCount c l (ids ++ [i]).length) := Rewritten.of_count
    have all : Rewritten solo i c l [i] s γ s₄ γ₄ := ((since₂.later only rely₃).trans count).later only rely₄
    exact ⟨after_rewritten all fun _ => rfl, all.stripes, rely₄.dirty.trans LinkGhost.mark_self,
      fun no => absurd no.symm Bool.false_ne_true⟩

theorem readNeighbors_ok {s₀ : SharedGraph} {γ₀ : LinkGhost} {left : Nat} : ∀ {k : Nat} {candidates : List ScoredId}
    {s : SharedGraph} {γ : LinkGhost}, LinkRely solo i s₀ γ₀ s γ → Held i c l ids s γ → k + left = ids.length →
    candidates.map (·.id) = ids.take k →
    LinkOk params mayFail solo i (ctx.readNeighbors c l left k candidates)
      (fun r s γ => LinkRely solo i s₀ γ₀ s γ ∧ r.map (·.id) = ids) s γ := by
  induction left with
  | zero =>
    intro k candidates s γ since _ total read
    refine ok_done ?_
    intro s₁ γ₁ rely _
    refine ⟨since.trans rely, ?_⟩
    rw [read, List.take_of_length_le (by omega)]
  | succ left ih =>
    intro k candidates s γ since held total read
    refine ok_heldLoad held (by omega) ?_
    intro s₁ γ₁ rely inv
    refine ih (since.trans rely) (held.later rely) (by omega) ?_
    have below : k < ids.length := by omega
    rw [List.map_append, read, List.map_singleton, held.slot below, List.take_succ_eq_append_getElem below]

theorem insertKey_perm (sorted : List ScoredId) (key : ScoredId) :
    (insertKey sorted key).Perm (sorted ++ [key]) := by
  have split : sorted.rdropWhile (candidateLess key) ++ sorted.rtakeWhile (candidateLess key) = sorted :=
    List.rdropWhile_append_rtakeWhile
  have moved : (insertKey sorted key).Perm
      (key :: (sorted.rdropWhile (candidateLess key) ++ sorted.rtakeWhile (candidateLess key))) := List.perm_middle
  rw [split] at moved
  exact moved.trans (List.perm_append_singleton key sorted).symm

theorem insertionSort_perm (candidates : List ScoredId) : (insertionSort candidates).Perm candidates := by
  have general : ∀ (rest sorted : List ScoredId), (rest.foldl insertKey sorted).Perm (sorted ++ rest) := by
    intro rest
    induction rest with
    | nil =>
      intro sorted
      rw [List.append_nil]
      exact List.Perm.refl _
    | cons key rest ih =>
      intro sorted
      refine (ih (insertKey sorted key)).trans ?_
      rw [← List.singleton_append (l := rest), ← List.append_assoc]
      exact (insertKey_perm sorted key).append_right rest
  exact general candidates []

theorem nodup_of_subperm {chosen all : List ScoredId} (sub : chosen.Subperm all)
    (distinct : (all.map (·.id)).Nodup) : (chosen.map (·.id)).Nodup := by
  obtain ⟨list, perm, sublist⟩ := sub
  exact (perm.map _).nodup_iff.mp (distinct.sublist (sublist.map _))

theorem shrinkWith_ok (only : NoOther solo i) (sized : params = ctx.params) (held : Held i c l ids s γ)
    (ready : Ready solo i s) (high : l ≤ s.graph.level i) (absent : i ∉ ids) {distance : F32} :
    LinkOk params mayFail solo i (ctx.shrinkWith c l i distance)
      (fun r s₁ γ₁ => After solo i (fun c' l' => c' = c ∧ l' = l ∧ r = true) s γ s₁ γ₁ ∧
        (∀ k, s₁.stripes k = some i ↔ s.stripes k = some i) ∧ γ₁.dirty i = none) s γ := by
  refine ok_heldLoad held (Nat.zero_le _) ?_
  intro s₁ γ₁ rely inv
  rw [held.count]
  have start : ([] : List ScoredId).map (·.id) = ids.take 0 := List.take_zero.symm
  refine Discipline.Ok.bind ?_ inv
  refine (readNeighbors_ok rely (held.later rely) (Nat.zero_add _) start).mono ?_
  rintro candidates s₂ γ₂ inv₂ ⟨rely₂, read⟩
  have held₂ := held.later rely₂
  have since₂ : After solo i nowhere s γ s₂ γ₂ := After.of_rely only rely₂
  let sorted := insertionSort (candidates ++ [{ distance, id := i }])
  let selected := NeighborSelect.selectNeighbors sorted (ctx.capacity l) ctx.options.selection
    ctx.options.keepPruned
    ctx.distance
  have sub : selected.Subperm sorted := NeighborSelect.selectNeighbors_subperm ..
  have sortedIds : (sorted.map (·.id)).Perm (ids ++ [i]) := by
    have perm := (insertionSort_perm (candidates ++ [{ distance, id := i }])).map (·.id)
    rwa [List.map_append, read] at perm
  have distinct : (selected.map (·.id)).Nodup := by
    refine nodup_of_subperm sub (sortedIds.nodup_iff.mpr ?_)
    refine List.nodup_append.mpr ⟨held₂.distinct inv₂, List.nodup_singleton i, ?_⟩
    intro a inside b single same
    rw [List.mem_singleton.mp single] at same
    exact absent (same ▸ inside)
  have offered : ∀ v ∈ selected.map (·.id), Offered solo i c l v s₂ γ₂ := by
    intro v member
    have source : v ∈ ids ++ [i] := sortedIds.mem_iff.mp (List.map_subset _ sub.subset member)
    rcases List.mem_append.mp source with old | new
    · exact .inl (held₂.may inv₂ old)
    · rw [List.mem_singleton.mp new]
      exact .inr (.inl ⟨rfl, held.apart, since₂.ready ready, high.trans (since₂.level_eq i).ge⟩)
  have few : (selected.map (·.id)).length ≤ ctx.capacity l := by
    rw [List.length_map]
    exact NeighborSelect.length_selectNeighbors ..
  refine Discipline.Ok.bind ?_ inv₂
  refine (ctx.setLinks_ok only inv₂ held₂.rewriting offered (capacity_eq inv₂ sized l) few distinct).mono ?_
  rintro _ s₃ γ₃ inv₃ ⟨since₃, clean, _⟩
  refine ok_done ?_
  intro s₄ γ₄ rely₄ _
  have all : Rewritten solo i c l (selected.map (·.id)) s γ s₄ γ₄ :=
    ((Rewritten.of_rely only rely₂).trans since₃).later only rely₄
  refine ⟨after_rewritten all ?_, all.stripes, rely₄.dirty.trans clean⟩
  intro member
  obtain ⟨x, inside, same⟩ := List.mem_map.mp member
  exact List.any_eq_true.mpr ⟨x, inside, decide_eq_true same⟩

/-- One back-link: `i` is in the list of the neighbour only if the result says so. -/
theorem backLink_ok (only : NoOther solo i) (sized : params = ctx.params) {neighbor : ScoredId}
    (quiet : Quiet i s γ) (ready : Ready solo i s) (known : Known l neighbor.id s γ) (apart : neighbor.id ≠ i)
    (high : l ≤ s.graph.level i) (absent : ¬γ.may neighbor.id l i) :
    LinkOk params mayFail solo i (ctx.backLink i l neighbor)
      (fun r s₁ γ₁ => After solo i (fun c' l' => c' = neighbor.id ∧ l' = l ∧ r = true) s γ s₁ γ₁ ∧ Quiet i s₁ γ₁)
      s γ := by
  refine ok_lockStripe only quiet ?_
  intro s₁ γ₁ since₁ inv₁ grip
  have held : Held i neighbor.id l (s₁.graph.links neighbor.id l) s₁ γ₁ :=
    ⟨apart, since₁.known known, (grip.held _).mpr rfl, grip.clean, rfl⟩
  have gone : i ∉ s₁.graph.links neighbor.id l := fun member =>
    since₁.unlinked _ l known.pub id absent (held.may inv₁ member)
  have high₁ : l ≤ s₁.graph.level i := high.trans (since₁.level_eq i).ge
  have release {s₂ : SharedGraph} {γ₂ : LinkGhost} {kept : Bool}
      (since₂ : After solo i (fun c' l' => c' = neighbor.id ∧ l' = l ∧ kept = true) s₁ γ₁ s₂ γ₂)
      (stripes : ∀ k, s₂.stripes k = some i ↔ s₁.stripes k = some i) (clean : γ₂.dirty i = none) :
      LinkOk params mayFail solo i (do unlockStripe neighbor.id; .done kept)
        (fun r s₁ γ₁ => After solo i (fun c' l' => c' = neighbor.id ∧ l' = l ∧ r = true) s γ s₁ γ₁ ∧ Quiet i s₁ γ₁)
        s₂ γ₂ := by
    have grip₂ : Grip i (stripeOf neighbor.id) s₂ γ₂ := ⟨fun k => (stripes k).trans (grip.held k), clean⟩
    refine ok_unlockStripe only grip₂ ?_
    intro s₃ γ₃ since₃ _ quiet₃
    refine ok_done ?_
    intro s₄ γ₄ rely₄ _
    have before : After solo i (fun c' l' => c' = neighbor.id ∧ l' = l ∧ kept = true) s γ s₁ γ₁ :=
      since₁.mono fun _ _ => False.elim
    exact ⟨((before.trans since₂).trans (since₃.mono fun _ _ => False.elim)).later only rely₄, quiet₃.later rely₄⟩
  refine Discipline.Ok.bind ?_ inv₁
  refine (tryAppendLink_ok only sized held (since₁.ready ready) high₁ gone).mono ?_
  rintro appended s₂ γ₂ inv₂ ⟨since₂, stripes, clean, unchanged⟩
  cases appended with
  | true => exact release since₂ stripes clean
  | false =>
    have rely₂ := unchanged rfl
    refine Discipline.Ok.bind ?_ inv₂
    refine (shrinkWith_ok only sized (held.later rely₂) (since₂.ready (since₁.ready ready))
      (high₁.trans (since₂.level_eq i).ge) gone).mono ?_
    rintro kept s₃ γ₃ inv₃ ⟨since₃, stripes₃, clean₃⟩
    exact release ((After.of_rely only rely₂).trans since₃) (fun k => (stripes₃ k).trans (stripes k)) clean₃

end BackLink

section Publish
variable {params : HnswParams} {mayFail : Nat → Prop} {solo : Option Nat} {i : Nat} {ctx : HnswContext}

/-- The lists of one level to which `i` has still to be added. -/
structure Fresh (ctx : HnswContext) (i l : Nat) (layer : Layer) (s : SharedGraph) (γ : LinkGhost) : Prop where
  ok : ctx.LayerOk l layer s γ
  apart : ∀ c ∈ layer.candidates, c.id ≠ i
  absent : ∀ c ∈ layer.candidates, ¬γ.may c.id l i

section Fresh
variable {l : Nat} {layer : Layer} {touched : Nat → Nat → Prop} {s s₁ : SharedGraph} {γ γ₁ : LinkGhost}

theorem LayerOk.after (ok : ctx.LayerOk l layer s γ) (since : After solo i touched s γ s₁ γ₁) :
    ctx.LayerOk l layer s₁ γ₁ :=
  { ok with found := { ok.found with known := fun c member => since.known (ok.found.known c member) } }

theorem Fresh.after (fresh : Fresh ctx i l layer s γ) (since : After solo i touched s γ s₁ γ₁)
    (untouched : ∀ c, ¬touched c l) : Fresh ctx i l layer s₁ γ₁ where
  ok := fresh.ok.after since
  apart := fresh.apart
  absent := fun c member =>
    since.unlinked c.id l (fresh.ok.found.known c member).pub (untouched c.id) (fresh.absent c member)

theorem Fresh.selected (fresh : Fresh ctx i l layer s γ) {c : ScoredId} (member : c ∈ layer.selected) :
    c ∈ layer.candidates :=
  fresh.ok.chosen.subset member

end Fresh

theorem backLinks_ok (only : NoOther solo i) (sized : params = ctx.params) {l : Nat} {neighbors : List ScoredId} :
    ∀ {inLinks : Nat} {s : SharedGraph} {γ : LinkGhost}, LinkInv params solo s γ → Quiet i s γ → Ready solo i s →
    l ≤ s.graph.level i → (neighbors.map (·.id)).Nodup →
    (∀ c ∈ neighbors, Known l c.id s γ ∧ c.id ≠ i ∧ ¬γ.may c.id l i) →
    LinkOk params mayFail solo i (ctx.backLinks i l neighbors inLinks)
      (fun r s₁ γ₁ => inLinks ≤ r ∧ After solo i (fun _ l' => l' = l ∧ inLinks < r) s γ s₁ γ₁ ∧
        Quiet i s₁ γ₁) s γ := by
  induction neighbors with
  | nil =>
    intro inLinks s γ _ quiet _ _ _ _
    refine ok_done ?_
    intro s₁ γ₁ rely _
    exact ⟨Nat.le_refl _, After.of_rely only rely, quiet.later rely⟩
  | cons neighbor rest ih =>
    intro inLinks s γ inv quiet ready high distinct each
    obtain ⟨⟨known, apart, absent⟩, others⟩ := List.forall_mem_cons.mp each
    rw [List.map_cons, List.nodup_cons] at distinct
    refine Discipline.Ok.bind ?_ inv
    refine (backLink_ok only sized quiet ready known apart high absent).mono ?_
    rintro kept s₁ γ₁ inv₁ ⟨since₁, quiet₁⟩
    refine (ih inv₁ quiet₁ (since₁.ready ready) (high.trans (since₁.level_eq i).ge) distinct.2 ?_).mono ?_
    · intro c member
      obtain ⟨knownC, apartC, absentC⟩ := others c member
      refine ⟨since₁.known knownC, apartC, since₁.unlinked c.id l knownC.pub ?_ absentC⟩
      rintro ⟨same, _⟩
      exact distinct.1 (same ▸ List.mem_map_of_mem member)
    · rintro r s₂ γ₂ inv₂ ⟨more, since₂, quiet₂⟩
      have counted : inLinks ≤ r ∧ (kept = true → inLinks < r) := by
        cases kept <;> simp at more ⊢ <;> omega
      refine ⟨counted.1, ?_, quiet₂⟩
      refine (since₁.mono ?_).trans (since₂.mono ?_)
      · rintro c' l' ⟨_, atLevel, linked⟩
        exact ⟨atLevel, counted.2 linked⟩
      · rintro c' l' ⟨atLevel, linked⟩
        refine ⟨atLevel, ?_⟩
        split at linked <;> omega

theorem repairOrphan_ok (only : NoOther solo i) (sized : params = ctx.params) {l : Nat}
    {candidates : List ScoredId} :
    ∀ {s : SharedGraph} {γ : LinkGhost}, Quiet i s γ → Ready solo i s → l ≤ s.graph.level i →
    (∀ c ∈ candidates, Known l c.id s γ ∧ c.id ≠ i ∧ ¬γ.may c.id l i) →
    LinkOk params mayFail solo i (ctx.repairOrphan i l candidates)
      (fun _ s₁ γ₁ => After solo i (fun _ l' => l' = l) s γ s₁ γ₁ ∧ Quiet i s₁ γ₁) s γ := by
  induction candidates with
  | nil =>
    intro s γ quiet _ _ _
    refine ok_done ?_
    intro s₁ γ₁ rely _
    exact ⟨After.of_rely only rely, quiet.later rely⟩
  | cons c rest ih =>
    intro s γ quiet ready high each
    obtain ⟨⟨known, apart, absent⟩, others⟩ := List.forall_mem_cons.mp each
    refine ok_lockStripe only quiet ?_
    intro s₁ γ₁ since₁ inv₁ grip
    have held : Held i c.id l (s₁.graph.links c.id l) s₁ γ₁ :=
      ⟨apart, since₁.known known, (grip.held _).mpr rfl, grip.clean, rfl⟩
    have gone : i ∉ s₁.graph.links c.id l := fun member =>
      since₁.unlinked _ l known.pub id absent (held.may inv₁ member)
    refine Discipline.Ok.bind ?_ inv₁
    refine (tryAppendLink_ok only sized held (since₁.ready ready) (high.trans (since₁.level_eq i).ge) gone).mono ?_
    rintro appended s₂ γ₂ inv₂ ⟨since₂, stripes, clean, _⟩
    have grip₂ : Grip i (stripeOf c.id) s₂ γ₂ := ⟨fun k => (stripes k).trans (grip.held k), clean⟩
    refine ok_unlockStripe only grip₂ ?_
    intro s₃ γ₃ since₃ inv₃ quiet₃
    have toHere : After solo i (fun _ l' => l' = l ∧ appended = true) s γ s₃ γ₃ :=
      ((since₁.mono fun _ _ => False.elim).trans (since₂.mono fun _ _ here => here.2)).trans
        (since₃.mono fun _ _ => False.elim)
    cases appended with
    | true =>
      refine ok_done ?_
      intro s₄ γ₄ rely₄ _
      exact ⟨(toHere.mono fun _ _ here => here.1).later only rely₄, quiet₃.later rely₄⟩
    | false =>
      refine (ih quiet₃ (toHere.ready ready) (high.trans (toHere.level_eq i).ge) ?_).mono ?_
      · intro x member
        obtain ⟨knownX, apartX, absentX⟩ := others x member
        exact ⟨toHere.known knownX, apartX, toHere.unlinked x.id l knownX.pub (by simp) absentX⟩
      · rintro _ s₄ γ₄ _ ⟨since₄, quiet₄⟩
        exact ⟨(toHere.mono fun _ _ here => here.1).trans since₄, quiet₄⟩

theorem linkBack_ok (only : NoOther solo i) (sized : params = ctx.params) {layers : List Layer} :
    ∀ {l : Nat} {s : SharedGraph} {γ : LinkGhost}, LinkInv params solo s γ → Quiet i s γ → Ready solo i s →
    l + layers.length ≤ s.graph.level i + 1 →
    (∀ k layer, layers[k]? = some layer → Fresh ctx i (l + k) layer s γ) →
    LinkOk params mayFail solo i (ctx.linkBack i l layers)
      (fun _ s₁ γ₁ => After solo i (fun _ _ => True) s γ s₁ γ₁ ∧ Quiet i s₁ γ₁) s γ := by
  induction layers with
  | nil =>
    intro l s γ _ quiet _ _ _
    refine ok_done ?_
    intro s₁ γ₁ rely _
    exact ⟨After.of_rely only rely, quiet.later rely⟩
  | cons layer rest ih =>
    intro l s γ inv quiet ready high fresh
    rw [List.length_cons] at high
    have here : Fresh ctx i l layer s γ := fresh 0 layer rfl
    -- the rest of the levels, once this one has been linked
    have onward {s₁ : SharedGraph} {γ₁ : LinkGhost} (inv₁ : LinkInv params solo s₁ γ₁) (quiet₁ : Quiet i s₁ γ₁)
        (since₁ : After solo i (fun _ l' => l' = l) s γ s₁ γ₁) :
        LinkOk params mayFail solo i (ctx.linkBack i (l + 1) rest)
          (fun _ s₁ γ₁ => After solo i (fun _ _ => True) s γ s₁ γ₁ ∧ Quiet i s₁ γ₁) s₁ γ₁ := by
      refine (ih inv₁ quiet₁ (since₁.ready ready) (by rw [since₁.level_eq]; omega) ?_).mono ?_
      · intro k x at_
        have later := fresh (k + 1) x at_
        rw [show l + 1 + k = l + (k + 1) by omega]
        exact later.after since₁ fun _ same => by omega
      · rintro _ s₂ γ₂ _ ⟨since₂, quiet₂⟩
        exact ⟨(since₁.mono fun _ _ _ => trivial).trans since₂, quiet₂⟩
    refine Discipline.Ok.bind ?_ inv
    refine (backLinks_ok only sized inv quiet ready (by omega)
      (nodup_of_subperm here.ok.chosen here.ok.found.distinct) ?_).mono ?_
    · intro c member
      have candidate := here.selected member
      exact ⟨here.ok.found.known c candidate, here.apart c candidate, here.absent c candidate⟩
    rintro inLinks s₁ γ₁ inv₁ ⟨_, since₁, quiet₁⟩
    split
    next orphan =>
      have nowhereYet : After solo i nowhere s γ s₁ γ₁ := since₁.mono fun _ _ here => by omega
      have still := here.after nowhereYet fun _ => id
      refine Discipline.Ok.bind ?_ inv₁
      refine (repairOrphan_ok only sized quiet₁ (since₁.ready ready) (by rw [since₁.level_eq]; omega) ?_).mono ?_
      · exact fun c member => ⟨still.ok.found.known c member, still.apart c member, still.absent c member⟩
      rintro _ s₂ γ₂ inv₂ ⟨since₂, quiet₂⟩
      exact onward inv₂ quiet₂ ((nowhereYet.mono fun _ _ => False.elim).trans since₂)
    next => exact onward inv₁ quiet₁ (since₁.mono fun _ _ here => here.1)

end Publish
end VectorForge.HnswContext
