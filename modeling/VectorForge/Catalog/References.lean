import VectorForge.Catalog.Incarnations

/-! Who refers to which incarnation: a collection is used only as long as its deleter has not begun, and at most
one of those that still have files has a given name. -/

namespace VectorForge
namespace Incarnations
open Catalog (creatingName isValidName)

variable {F : FileSystem} {names : FileName → Prop} {r : Registry} {s s' : State} {t u i j : Nat}
  {name : FileName} {ref : Ref}

/-- A collection whose deleter has not come to its end. -/
def Registry.Live (r : Registry) (i : Nat) : Prop := (r.incs i).published = true ∧ (r.incs i).erased = 0

/-- What holds of the maps and of all incarnations. -/
structure Sound (names : FileName → Prop) (r : Registry) : Prop where
  slot : ∀ name slot, r.slots name = some slot → (r.incs slot.inc).name = name ∧
    (r.incs slot.inc).published = true ∧
    (r.incs slot.inc).dropped = false ∧ .slot ∈ (r.incs slot.inc).refs
  undropped : ∀ i, (r.incs i).published = true → (r.incs i).dropped = false →
    ∃ slot, r.slots (r.incs i).name = some slot ∧ slot.inc = i
  dropping : ∀ i, r.Live i → (r.incs i).dropped = true → (r.incs i).name ∈ r.dropping
  unborn : ∀ i, (r.incs i).published = false → (r.incs i).refs = [] ∧ (r.incs i).dropped = false ∧
    (r.incs i).erased = 0
  erased : ∀ i, (r.incs i).erased ≠ 0 → (r.incs i).erased = 1 ∧ (r.incs i).dropped = true ∧ (r.incs i).refs = []
  unique : ∀ i j, r.Live i → r.Live j → (r.incs i).name = (r.incs j).name → i = j
  known : ∀ i, i < r.count → names (r.incs i).name ∧ isValidName (r.incs i).name = true
  unused : ∀ i, r.count ≤ i → (r.incs i).published = false

/-- A new incarnation before its creation has succeeded. -/
structure Unborn (r : Registry) (i : Nat) : Prop where
  used : i < r.count
  unpublished : (r.incs i).published = false
  absent : r.slots (r.incs i).name = none
  settled : (r.incs i).name ∉ r.dropping

/-- A call with a local reference. -/
structure Held (r : Registry) (t i : Nat) : Prop where
  published : (r.incs i).published = true
  refs : .thread t ∈ (r.incs i).refs

/-- A collection whose deleter is running. -/
structure Gone (r : Registry) (i : Nat) : Prop where
  published : (r.incs i).published = true
  dropped : (r.incs i).dropped = true
  refs : (r.incs i).refs = []
  erased : (r.incs i).erased = 0

def Slotted (r : Registry) (i : Nat) : Prop := ∃ slot, r.slots (r.incs i).name = some slot ∧ slot.inc = i

/-- What the phase of a thread says of its incarnation. -/
def At (names : FileName → Prop) (r : Registry) (t : Nat) : Phase → Prop
  | .idle => True
  | .checking name => names name ∧ isValidName name = true
  | .clearingTemp i | .clearing i | .making i | .configuring i | .moving i | .placed i => Unborn r i
  | .marking i => Slotted r i
  | .marked i => Slotted r i ∧ (r.incs i).name ∈ r.dropping
  | .waiting i | .queued i | .saving i | .recording i _ | .finishing i | .leaving i => Held r t i
  | .deleting i | .erasing i _ => Gone r i

/-- The deleter of `i`. -/
def Phase.Deletes (i : Nat) : Phase → Prop
  | .deleting j | .erasing j _ => j = i
  | _ => False

section Changes
variable (sound : Sound names r)
include sound

theorem Sound.slotted (slotted : Slotted r i) : (r.incs i).published = true ∧ (r.incs i).dropped = false ∧
    .slot ∈ (r.incs i).refs ∧ r.Live i := by
  obtain ⟨slot, found, rfl⟩ := slotted
  obtain ⟨_, published, undropped, member⟩ := sound.slot _ slot found
  refine ⟨published, undropped, member, published, ?_⟩
  by_contra nonzero
  have dropped := (sound.erased _ nonzero).2.1
  rw [undropped] at dropped
  cases dropped

theorem Sound.found {slot : Slot} (found : r.slots name = some slot) : Slotted r slot.inc ∧
    (r.incs slot.inc).name = name := by
  have same := (sound.slot name slot found).1
  exact ⟨⟨slot, same ▸ found, rfl⟩, same⟩

theorem Sound.live_of_refs (member : ref ∈ (r.incs i).refs) : r.Live i := by
  constructor
  · by_contra unpublished
    have none := (sound.unborn i (Bool.not_eq_true _ ▸ unpublished)).1
    rw [none] at member
    cases member
  · by_contra nonzero
    have none := (sound.erased i nonzero).2.2
    rw [none] at member
    cases member

omit sound in
theorem Gone.live (gone : Gone r i) : r.Live i := ⟨gone.published, gone.erased⟩

/-- No collection has the name of one that is being created. -/
theorem Unborn.alone (unborn : Unborn r i) (live : r.Live j) : (r.incs j).name ≠ (r.incs i).name := by
  intro same
  cases dropped : (r.incs j).dropped with
  | false =>
    obtain ⟨slot, found, _⟩ := sound.undropped j live.1 dropped
    rw [same, unborn.absent] at found
    cases found
  | true => exact unborn.settled (same ▸ sound.dropping j live dropped)

end Changes

section Frames
variable {r' : Registry} {phase : Phase}

/-- What a thread knows, when the facts about its incarnation survive. -/
theorem At.mono (known : At names r u phase) (unborn : ∀ j, Unborn r j → Unborn r' j)
    (slotted : ∀ j, Slotted r j → Slotted r' j)
    (marked : ∀ j, Slotted r j → (r.incs j).name ∈ r.dropping → (r'.incs j).name ∈ r'.dropping)
    (held : ∀ j, Held r u j → Held r' u j) (gone : ∀ j, phase.Deletes j → Gone r j → Gone r' j) :
    At names r' u phase := by
  cases phase with
  | idle => trivial
  | checking => exact known
  | clearingTemp | clearing | making | configuring | moving | placed => exact unborn _ known
  | marking => exact slotted _ known
  | marked => exact ⟨slotted _ known.1, marked _ known.1 known.2⟩
  | waiting | queued | saving | recording | finishing | leaving => exact held _ known
  | deleting | erasing => exact gone _ rfl known

/-- The threads without the lock only know of references. -/
theorem At.mono_of_free (known : At names r u phase) (free : phase.locks = false)
    (held : ∀ j, Held r u j → Held r' u j) (gone : ∀ j, Gone r j → Gone r' j) : At names r' u phase := by
  cases phase with
  | idle => trivial
  | waiting | queued | saving | recording | finishing | leaving => exact held _ known
  | deleting | erasing => exact gone _ known
  | _ => cases free

end Frames

section Refs
variable {refs : List Ref}

/-- Other references to one incarnation. -/
def Registry.withRefs (r : Registry) (i : Nat) (refs : List Ref) : Registry :=
  r.change i fun inc => { inc with refs }

theorem incs_withRefs : (r.withRefs i refs).incs j = if j = i then { r.incs i with refs } else r.incs j := by
  simp only [Registry.withRefs, Registry.change, Function.update_apply]

@[simp] theorem name_withRefs : ((r.withRefs i refs).incs j).name = (r.incs j).name := by
  rw [incs_withRefs]
  split
  next same => rw [same]
  next => rfl

@[simp] theorem published_withRefs : ((r.withRefs i refs).incs j).published = (r.incs j).published := by
  rw [incs_withRefs]
  split
  next same => rw [same]
  next => rfl

@[simp] theorem dropped_withRefs : ((r.withRefs i refs).incs j).dropped = (r.incs j).dropped := by
  rw [incs_withRefs]
  split
  next same => rw [same]
  next => rfl

@[simp] theorem erased_withRefs : ((r.withRefs i refs).incs j).erased = (r.incs j).erased := by
  rw [incs_withRefs]
  split
  next same => rw [same]
  next => rfl

theorem refs_withRefs : ((r.withRefs i refs).incs j).refs = if j = i then refs else (r.incs j).refs := by
  rw [incs_withRefs]
  split <;> rfl

theorem Sound.withRefs (sound : Sound names r) (published : (r.incs i).published = true)
    (slot : (r.incs i).dropped = false → .slot ∈ refs)
    (none : (r.incs i).erased ≠ 0 → refs = []) : Sound names (r.withRefs i refs) where
  slot := by
    intro name slot' found
    obtain ⟨same, known, undropped, member⟩ := sound.slot name slot' found
    simp only [name_withRefs, published_withRefs, dropped_withRefs, refs_withRefs]
    refine ⟨same, known, undropped, ?_⟩
    split
    next here => exact slot (here ▸ undropped)
    next => exact member
  undropped := by
    intro j
    simp only [name_withRefs, published_withRefs, dropped_withRefs]
    exact sound.undropped j
  dropping := by
    intro j
    simp only [Registry.Live, name_withRefs, published_withRefs, dropped_withRefs, erased_withRefs]
    exact sound.dropping j
  unborn := by
    intro j
    simp only [published_withRefs, dropped_withRefs, erased_withRefs, refs_withRefs]
    intro unpublished
    rw [if_neg fun same => by rw [same, published] at unpublished; cases unpublished]
    exact sound.unborn j unpublished
  erased := by
    intro j
    simp only [dropped_withRefs, erased_withRefs, refs_withRefs]
    intro nonzero
    obtain ⟨once, dropped, gone⟩ := sound.erased j nonzero
    refine ⟨once, dropped, ?_⟩
    split
    next here => exact none (here ▸ nonzero)
    next => exact gone
  unique := by
    intro j k
    simp only [Registry.Live, name_withRefs, published_withRefs, erased_withRefs]
    exact sound.unique j k
  known := by
    intro j
    simp only [name_withRefs]
    exact sound.known j
  unused := by
    intro j
    simp only [published_withRefs]
    exact sound.unused j

/-- The other threads know what they knew. -/
theorem At.withRefs {phase : Phase} (known : At names r u phase)
    (mine : .thread u ∈ (r.incs i).refs → .thread u ∈ refs)
    (none : (r.incs i).refs = [] → refs = []) : At names (r.withRefs i refs) u phase := by
  refine known.mono (fun j unborn => ?_) (fun j slotted => ?_) (fun j _ marked => ?_)
    (fun j held => ?_) fun j _ gone => ?_
  · exact ⟨unborn.used, by
      rw [published_withRefs]; exact unborn.unpublished, by rw [name_withRefs]; exact unborn.absent,
      by rw [name_withRefs]; exact unborn.settled⟩
  · rw [Slotted, name_withRefs]
    exact slotted
  · rw [name_withRefs]
    exact marked
  · refine ⟨by rw [published_withRefs]; exact held.published, ?_⟩
    rw [refs_withRefs]
    split
    next here => exact mine (here ▸ held.refs)
    next => exact held.refs
  · refine ⟨by rw [published_withRefs]; exact gone.published, by rw [dropped_withRefs]; exact gone.dropped, ?_,
      by rw [erased_withRefs]; exact gone.erased⟩
    rw [refs_withRefs]
    split
    next here => exact none (here ▸ gone.refs)
    next => exact gone.refs

end Refs

section Others
variable {phase : Phase} {slot : Slot}

theorem Sound.fresh (sound : Sound names r) (used : names name ∧ isValidName name = true) :
    Sound names (r.fresh name) := by
  have new : (r.incs r.count).published = false := sound.unused _ (le_refl _)
  have old {j : Nat} (published : ((r.fresh name).incs j).published = true) : (r.fresh name).incs j = r.incs j := by
    simp only [Registry.fresh, Function.update_apply] at published ⊢
    split
    next here =>
      rw [if_pos here] at published
      cases published
    next => rfl
  have slotOld {slot : Slot} (published : (r.incs slot.inc).published = true) :
      (r.fresh name).incs slot.inc = r.incs slot.inc := by
    simp only [Registry.fresh, Function.update_apply]
    refine if_neg fun here => ?_
    rw [here, new] at published
    cases published
  refine ⟨?_, ?_, ?_, ?_, ?_, ?_, ?_, ?_⟩
  · intro n slot found
    have facts := sound.slot n slot found
    rw [slotOld facts.2.1]
    exact facts
  · intro j published
    have same := old published
    rw [same] at published ⊢
    exact sound.undropped j published
  · rintro j ⟨published, erased⟩
    have same := old published
    rw [same] at published erased ⊢
    exact sound.dropping j ⟨published, erased⟩
  · intro j
    simp only [Registry.fresh, Function.update_apply]
    split
    · exact fun _ => ⟨rfl, rfl, rfl⟩
    · exact sound.unborn j
  · intro j
    simp only [Registry.fresh, Function.update_apply]
    split
    · exact fun nonzero => absurd rfl nonzero
    · exact sound.erased j
  · rintro j k ⟨published, erased⟩ ⟨published', erased'⟩
    have same := old published
    have same' := old published'
    rw [same] at published erased ⊢
    rw [same'] at published' erased' ⊢
    exact sound.unique j k ⟨published, erased⟩ ⟨published', erased'⟩
  · intro j below
    simp only [Registry.fresh, Function.update_apply] at below ⊢
    split
    · exact used
    next other => exact sound.known j (by omega)
  · intro j above
    simp only [Registry.fresh, Function.update_apply] at above ⊢
    rw [if_neg (by omega)]
    exact sound.unused j (by omega)

theorem Unborn.fresh (absent : r.slots name = none) (settled : name ∉ r.dropping) :
    Unborn (r.fresh name) r.count := by
  have here : (r.fresh name).incs r.count = { name } := by simp only [Registry.fresh, Function.update_self]
  refine ⟨Nat.lt_succ_self _, ?_, ?_, ?_⟩
  · rw [here]
  · rw [here]
    exact absent
  · rw [here]
    exact settled

theorem Sound.used (sound : Sound names r) (published : (r.incs j).published = true) : j < r.count := by
  by_contra above
  rw [sound.unused j (Nat.le_of_not_lt above)] at published
  cases published

theorem At.fresh (sound : Sound names r) (known : At names r u phase) : At names (r.fresh name) u phase := by
  have old {j : Nat} (below : j < r.count) : (r.fresh name).incs j = r.incs j := by
    simp only [Registry.fresh, Function.update_of_ne below.ne]
  have here {j : Nat} (slotted : Slotted r j) : (r.fresh name).incs j = r.incs j :=
    old (sound.used (sound.slotted slotted).1)
  refine known.mono (fun j unborn => ?_) (fun j slotted => ?_) (fun j slotted marked => ?_)
    (fun j held => ?_) fun j _ gone => ?_
  · have same := old (j := j) unborn.used
    exact ⟨Nat.lt_succ_of_lt unborn.used, same ▸ unborn.unpublished, same ▸ unborn.absent, same ▸ unborn.settled⟩
  · rw [Slotted, here slotted]
    exact slotted
  · rw [here slotted]
    exact marked
  · have same := old (sound.used held.published)
    exact ⟨same ▸ held.published, same ▸ held.refs⟩
  · have same := old (sound.used gone.published)
    exact ⟨same ▸ gone.published, same ▸ gone.dropped, same ▸ gone.refs, same ▸ gone.erased⟩

theorem Sound.publish (sound : Sound names r) (unborn : Unborn r i) : Sound names (r.publish i) := by
  obtain ⟨none, undropped, fresh⟩ := sound.unborn i unborn.unpublished
  have incs (j : Nat) : (r.publish i).incs j =
      if j = i then { r.incs i with published := true, refs := [.user, .slot] } else r.incs j := by
    simp only [Registry.publish, Registry.change, Function.update_apply]
  have slots (n : FileName) : (r.publish i).slots n =
      if n = (r.incs i).name then some { inc := i } else r.slots n := by
    simp only [Registry.publish, Registry.change, Function.update_apply]
  have here : (r.publish i).incs i = { r.incs i with published := true, refs := [.user, .slot] } :=
    (incs i).trans (if_pos rfl)
  have other {j : Nat} (apart : j ≠ i) : (r.publish i).incs j = r.incs j := (incs j).trans (if_neg apart)
  have live {j : Nat} (apart : j ≠ i) (live : (r.publish i).Live j) : r.Live j := by
    rw [Registry.Live, other apart] at live
    exact live
  refine ⟨fun n slot found => ?_, fun j published undropped' => ?_, fun j alive dropped => ?_,
    fun j unpublished => ?_, fun j nonzero => ?_,
    fun j k alive alive' same => ?_, fun j below => ?_, fun j above => ?_⟩
  · rw [slots] at found
    split at found
    next same =>
      cases found
      rw [here]
      exact ⟨same.symm, rfl, undropped, List.mem_cons_of_mem _ List.mem_cons_self⟩
    next =>
      have facts := sound.slot n slot found
      have apart : slot.inc ≠ i := fun same => by
        rw [same, unborn.unpublished] at facts
        cases facts.2.1
      rw [other apart]
      exact facts
  · by_cases same : j = i
    · subst same
      rw [here, slots, if_pos rfl]
      exact ⟨_, rfl, rfl⟩
    · rw [other same] at published undropped' ⊢
      obtain ⟨slot, found, mine⟩ := sound.undropped j published undropped'
      refine ⟨slot, ?_, mine⟩
      rw [slots, if_neg fun equal => ?_]
      · exact found
      · rw [equal, unborn.absent] at found
        cases found
  · by_cases same : j = i
    · subst same
      rw [here] at dropped
      cases undropped.symm.trans dropped
    · rw [other same] at dropped ⊢
      exact sound.dropping j (live same alive) dropped
  · by_cases same : j = i
    · subst same
      rw [here] at unpublished
      cases unpublished
    · rw [other same] at unpublished ⊢
      exact sound.unborn j unpublished
  · by_cases same : j = i
    · subst same
      rw [here] at nonzero
      exact absurd fresh nonzero
    · rw [other same] at nonzero ⊢
      exact sound.erased j nonzero
  · by_cases first : j = i
    · by_cases second : k = i
      · rw [first, second]
      · subst first
        rw [here, other second] at same
        exact absurd same.symm (unborn.alone sound (live second alive'))
    · by_cases second : k = i
      · subst second
        rw [here, other first] at same
        exact absurd same (unborn.alone sound (live first alive))
      · rw [other first, other second] at same
        exact sound.unique j k (live first alive) (live second alive') same
  · by_cases same : j = i
    · subst same
      rw [here]
      exact sound.known j below
    · rw [other same]
      exact sound.known j below
  · by_cases same : j = i
    · subst same
      exact absurd unborn.used (Nat.not_lt.mpr above)
    · rw [other same]
      exact sound.unused j above

theorem At.publish (unborn : Unborn r i) (known : At names r u phase) (free : phase.locks = false) :
    At names (r.publish i) u phase := by
  have other {j : Nat} (published : (r.incs j).published = true) : (r.publish i).incs j = r.incs j := by
    simp only [Registry.publish, Registry.change, Function.update_apply]
    refine if_neg fun same => ?_
    rw [same, unborn.unpublished] at published
    cases published
  refine known.mono_of_free free (fun j held => ?_) fun j gone => ?_
  · have same := other held.published
    exact ⟨same ▸ held.published, same ▸ held.refs⟩
  · have same := other gone.published
    exact ⟨same ▸ gone.published, same ▸ gone.dropped, same ▸ gone.refs, same ▸ gone.erased⟩

theorem Sound.insert (sound : Sound names r) (i : Nat) : Sound names (r.insert i) :=
  { sound with dropping := fun j live dropped => List.mem_insert_of_mem (sound.dropping j live dropped) }

theorem At.insert (known : At names r u phase) (free : phase.locks = false) : At names (r.insert i) u phase :=
  known.mono_of_free free (fun _ held => ⟨held.published, held.refs⟩) fun _ gone =>
    ⟨gone.published, gone.dropped, gone.refs, gone.erased⟩

theorem Sound.record (sound : Sound names r) (found : r.slots (r.incs i).name = some slot) (generation : UInt64) :
    Sound names (r.record i { slot with generation }) := by
  have slots (n : FileName) : (r.record i { slot with generation }).slots n =
      if n = (r.incs i).name then some { slot with generation } else r.slots n := by
    simp only [Registry.record, Function.update_apply]
  refine { sound with slot := fun n slot' found' => ?_, undropped := fun j published undropped => ?_ }
  · rw [slots] at found'
    split at found'
    next same =>
      cases found'
      rw [same]
      exact sound.slot _ slot found
    next => exact sound.slot n slot' found'
  · obtain ⟨slot', found', mine⟩ := sound.undropped j published undropped
    have name : (r.record i { slot with generation }).incs j = r.incs j := rfl
    rw [name, slots]
    split
    next same =>
      rw [same, found] at found'
      cases found'
      exact ⟨_, rfl, mine⟩
    next => exact ⟨slot', found', mine⟩

theorem At.record (known : At names r u phase) (free : phase.locks = false) : At names (r.record i slot) u phase :=
  known.mono_of_free free (fun _ held => ⟨held.published, held.refs⟩) fun _ gone =>
    ⟨gone.published, gone.dropped, gone.refs, gone.erased⟩

theorem incs_unslot : (r.unslot i t).incs j =
    if j = i then { r.incs i with dropped := true, refs := .thread t :: (r.incs i).refs.erase .slot } else
      r.incs j := by
  simp only [Registry.unslot, Registry.change, Function.update_apply]

theorem Sound.unslot (sound : Sound names r) (slotted : Slotted r i)
    (marked : (r.incs i).name ∈ r.dropping) (t : Nat) : Sound names (r.unslot i t) := by
  obtain ⟨published, undropped, member, live⟩ := sound.slotted slotted
  obtain ⟨slot, found, mine⟩ := slotted
  have slots (n : FileName) : (r.unslot i t).slots n = if n = (r.incs i).name then none else r.slots n := by
    simp only [Registry.unslot, Registry.change, Function.update_apply]
  have here : (r.unslot i t).incs i =
      { r.incs i with dropped := true, refs := .thread t :: (r.incs i).refs.erase .slot } :=
    incs_unslot.trans (if_pos rfl)
  have other {j : Nat} (apart : j ≠ i) : (r.unslot i t).incs j = r.incs j := incs_unslot.trans (if_neg apart)
  have name (j : Nat) : ((r.unslot i t).incs j).name = (r.incs j).name := by
    by_cases same : j = i
    · rw [same, here]
    · rw [other same]
  have alive {j : Nat} (live : (r.unslot i t).Live j) : r.Live j := by
    by_cases same : j = i
    · subst same
      rw [Registry.Live, here] at live
      exact live
    · rw [Registry.Live, other same] at live
      exact live
  refine ⟨fun n slot' found' => ?_, fun j published' undropped' => ?_, fun j live' dropped => ?_,
    fun j unpublished => ?_, fun j nonzero => ?_,
    fun j k live' live'' same => ?_, fun j below => ?_, fun j above => ?_⟩
  · rw [slots] at found'
    split at found'
    next => cases found'
    next apart =>
      have facts := sound.slot n slot' found'
      rw [other fun same => apart (by rw [← same]; exact facts.1.symm)]
      exact facts
  · by_cases same : j = i
    · subst same
      rw [here] at undropped'
      cases undropped'
    · rw [other same] at published' undropped' ⊢
      obtain ⟨slot', found', mine'⟩ := sound.undropped j published' undropped'
      refine ⟨slot', ?_, mine'⟩
      rw [slots, if_neg fun equal => ?_]
      · exact found'
      · rw [equal, found] at found'
        cases found'
        exact same (mine'.symm.trans mine)
  · rw [name]
    by_cases same : j = i
    · rw [same]
      exact marked
    · rw [other same] at dropped
      exact sound.dropping j (alive live') dropped
  · by_cases same : j = i
    · subst same
      rw [here] at unpublished
      cases published.symm.trans unpublished
    · rw [other same] at unpublished ⊢
      exact sound.unborn j unpublished
  · by_cases same : j = i
    · subst same
      rw [here] at nonzero
      exact absurd live.2 nonzero
    · rw [other same] at nonzero ⊢
      exact sound.erased j nonzero
  · rw [name, name] at same
    exact sound.unique j k (alive live') (alive live'') same
  · rw [name]
    exact sound.known j below
  · by_cases same : j = i
    · subst same
      have unused := sound.unused j above
      cases published.symm.trans unused
    · rw [other same]
      exact sound.unused j above

theorem At.unslot (sound : Sound names r) (slotted : Slotted r i) (known : At names r u phase)
    (free : phase.locks = false) : At names (r.unslot i t) u phase := by
  obtain ⟨published, undropped, member, live⟩ := sound.slotted slotted
  refine known.mono_of_free free (fun j held => ?_) fun j gone => ?_
  · by_cases same : j = i
    · subst same
      refine ⟨?_, ?_⟩
      · rw [incs_unslot, if_pos rfl]
        exact held.published
      · rw [incs_unslot, if_pos rfl]
        exact List.mem_cons_of_mem _ ((List.mem_erase_of_ne (by simp)).mpr held.refs)
    · have other : (r.unslot i t).incs j = r.incs j := incs_unslot.trans (if_neg same)
      exact ⟨other ▸ held.published, other ▸ held.refs⟩
  · have other : (r.unslot i t).incs j = r.incs j := by
      refine incs_unslot.trans (if_neg fun same => ?_)
      rw [← same] at undropped
      cases gone.dropped.symm.trans undropped
    exact ⟨other ▸ gone.published, other ▸ gone.dropped, other ▸ gone.refs, other ▸ gone.erased⟩

theorem incs_erase :
    (r.erase i).incs j = if j = i then { r.incs i with erased := (r.incs i).erased + 1 } else r.incs j := by
  simp only [Registry.erase, Registry.change, Function.update_apply]

theorem name_erase : ((r.erase i).incs j).name = (r.incs j).name := by
  rw [incs_erase]
  split
  next same => rw [same]
  next => rfl

/-- Another collection with files stays in `dropping`. -/
theorem Sound.mem_erase (sound : Sound names r) (gone : Gone r i) (live : r.Live j) (apart : j ≠ i)
    (member : (r.incs j).name ∈ r.dropping) : (r.incs j).name ∈ (r.erase i).dropping :=
  (List.mem_erase_of_ne fun same => apart (sound.unique j i live gone.live same)).mpr member

theorem Sound.erase (sound : Sound names r) (gone : Gone r i) : Sound names (r.erase i) := by
  have here : (r.erase i).incs i = { r.incs i with erased := (r.incs i).erased + 1 } :=
    incs_erase.trans (if_pos rfl)
  have other {j : Nat} (apart : j ≠ i) : (r.erase i).incs j = r.incs j := incs_erase.trans (if_neg apart)
  have alive {j : Nat} (live : (r.erase i).Live j) : j ≠ i ∧ r.Live j := by
    by_cases same : j = i
    · subst same
      rw [Registry.Live, here] at live
      exact absurd live.2 (Nat.succ_ne_zero _)
    · rw [Registry.Live, other same] at live
      exact ⟨same, live⟩
  have undropped {j : Nat} (undropped : (r.incs j).dropped = false) : j ≠ i := by
    intro same
    rw [same] at undropped
    cases gone.dropped.symm.trans undropped
  refine ⟨fun n slot found => ?_, fun j published kept => ?_, fun j live dropped => ?_, fun j unpublished => ?_,
    fun j nonzero => ?_,
    fun j k live live' same => ?_, fun j below => ?_, fun j above => ?_⟩
  · have facts := sound.slot n slot found
    rw [other (undropped facts.2.2.1)]
    exact facts
  · by_cases same : j = i
    · subst same
      rw [here] at kept
      cases gone.dropped.symm.trans kept
    · rw [other same] at published kept ⊢
      exact sound.undropped j published kept
  · obtain ⟨apart, live⟩ := alive live
    rw [other apart] at dropped
    rw [name_erase]
    exact sound.mem_erase gone live apart (sound.dropping j live dropped)
  · by_cases same : j = i
    · subst same
      rw [here] at unpublished
      cases gone.published.symm.trans unpublished
    · rw [other same] at unpublished ⊢
      exact sound.unborn j unpublished
  · by_cases same : j = i
    · subst same
      rw [here]
      exact ⟨by rw [gone.erased], gone.dropped, gone.refs⟩
    · rw [other same] at nonzero ⊢
      exact sound.erased j nonzero
  · rw [name_erase, name_erase] at same
    exact sound.unique j k (alive live).2 (alive live').2 same
  · rw [name_erase]
    exact sound.known j below
  · by_cases same : j = i
    · subst same
      cases gone.published.symm.trans (sound.unused j above)
    · rw [other same]
      exact sound.unused j above

theorem At.erase (sound : Sound names r) (gone : Gone r i) (known : At names r u phase)
    (others : ¬phase.Deletes i) : At names (r.erase i) u phase := by
  refine known.mono (fun j unborn => ?_) (fun j slotted => ?_) (fun j slotted marked => ?_) (fun j held => ?_)
    fun j deletes gone' => ?_
  · have other : (r.erase i).incs j = r.incs j := by
      refine incs_erase.trans (if_neg fun same => ?_)
      have unpublished := unborn.unpublished
      rw [same] at unpublished
      cases gone.published.symm.trans unpublished
    exact ⟨unborn.used, other ▸ unborn.unpublished, other ▸ unborn.absent, other ▸ fun member =>
      unborn.settled (List.mem_of_mem_erase member)⟩
  · rw [Slotted, name_erase]
    exact slotted
  · have apart : j ≠ i := by
      intro same
      have undropped := (sound.slotted slotted).2.1
      rw [same] at undropped
      cases gone.dropped.symm.trans undropped
    rw [name_erase]
    exact sound.mem_erase gone (sound.slotted slotted).2.2.2 apart marked
  · have other : (r.erase i).incs j = r.incs j := by
      refine incs_erase.trans (if_neg fun same => ?_)
      have refs := held.refs
      rw [same, gone.refs] at refs
      cases refs
    exact ⟨other ▸ held.published, other ▸ held.refs⟩
  · have apart : j ≠ i := fun same => others (same ▸ deletes)
    have other : (r.erase i).incs j = r.incs j := incs_erase.trans (if_neg apart)
    exact ⟨other ▸ gone'.published, other ▸ gone'.dropped, other ▸ gone'.refs, other ▸ gone'.erased⟩

end Others

section Life

/-- What holds of the catalog and its threads. -/
structure Life (names : FileName → Prop) (s : State) : Prop where
  sound : Sound names s.registry
  phases : ∀ t, At names s.registry t (s.threads t)
  locked : ∀ t, (s.threads t).locks = true → s.exclusive = some t
  deleter : ∀ t u i, (s.threads t).Deletes i → (s.threads u).Deletes i → t = u
  finished : ∀ i, (s.inc i).published = true → (s.inc i).dropped = true → (s.inc i).refs = [] →
    (s.inc i).erased = 1 ∨ ∃ t, (s.threads t).Deletes i

variable {phase : Phase} {slot : Slot}

theorem Life.lock_eq (life : Life names s) (locks : (s.threads t).locks = true) (apart : u ≠ t) :
    (s.threads u).locks = false := by
  by_contra other
  have same := (life.locked u (Bool.not_eq_false _ ▸ other)).symm.trans (life.locked t locks)
  exact apart (Option.some.inj same)

theorem Life.open_ (life : Life names s) (open_ : s.exclusive = none) (u : Nat) : (s.threads u).locks = false := by
  by_contra locks
  cases open_.symm.trans (life.locked u (Bool.not_eq_false _ ▸ locks))

/-- One thread has moved. -/
theorem Life.moves (life : Life names s) {r : Registry} {e : Option Nat} {m : Nat → Option Nat}
    {d : FileName → Option Dir} (sound : Sound names r)
    (mine : At names r t phase) (others : ∀ u, u ≠ t → At names r u (s.threads u))
    (lock : phase.locks = true → e = some t) (unlock : ∀ u, u ≠ t → (s.threads u).locks = true → e = some u)
    (deletes : ∀ i, phase.Deletes i → (s.threads t).Deletes i ∨ ∀ u, ¬(s.threads u).Deletes i)
    (finished : ∀ i, (r.incs i).published = true → (r.incs i).dropped = true → (r.incs i).refs = [] →
      (r.incs i).erased = 1 ∨ phase.Deletes i ∨ ∃ u, u ≠ t ∧ (s.threads u).Deletes i) :
    Life names (State.mk r e m d (Function.update s.threads t phase)) where
  sound := sound
  phases := by
    intro u
    by_cases same : u = t
    · subst same
      simpa only [Function.update_self] using mine
    · simpa only [Function.update_of_ne same] using others u same
  locked := by
    intro u
    by_cases same : u = t
    · subst same
      simpa only [Function.update_self] using lock
    · simpa only [Function.update_of_ne same] using unlock u same
  deleter := by
    have apart {u i : Nat} (same : u ≠ t) (here : phase.Deletes i) (there : (s.threads u).Deletes i) : False := by
      rcases deletes i here with before | none
      · exact same (life.deleter u t i there before)
      · exact none u there
    intro u v i
    by_cases first : u = t
    · by_cases second : v = t
      · exact fun _ _ => first.trans second.symm
      · subst first
        simp only [Function.update_self, Function.update_of_ne second]
        exact fun here there => (apart second here there).elim
    · by_cases second : v = t
      · subst second
        simp only [Function.update_self, Function.update_of_ne first]
        exact fun there here => (apart first here there).elim
      · simp only [Function.update_of_ne first, Function.update_of_ne second]
        exact life.deleter u v i
  finished := by
    intro i published dropped none
    rcases finished i published dropped none with once | here | ⟨u, apart, there⟩
    · exact .inl once
    · refine .inr ⟨t, ?_⟩
      simpa only [Function.update_self] using here
    · refine .inr ⟨u, ?_⟩
      simpa only [Function.update_of_ne apart] using there

/-- A step that the maps do not notice. -/
theorem Life.quiet (life : Life names s) {e : Option Nat} {m : Nat → Option Nat} {d : FileName → Option Dir}
    (mine : At names s.registry t phase) (lock : phase.locks = true → e = some t)
    (unlock : ∀ u, u ≠ t → (s.threads u).locks = true → e = some u)
    (deletes : ∀ i, phase.Deletes i ↔ (s.threads t).Deletes i) :
    Life names (State.mk s.registry e m d (Function.update s.threads t phase)) := by
  refine life.moves life.sound mine (fun u _ => life.phases u) lock unlock
    (fun i here => .inl ((deletes i).mp here)) fun i published dropped none => ?_
  rcases life.finished i published dropped none with once | ⟨u, there⟩
  · exact .inl once
  · by_cases same : u = t
    · exact .inr (.inl ((deletes i).mpr (same ▸ there)))
    · exact .inr (.inr ⟨u, same, there⟩)

/-- A step of the files. -/
theorem Life.files (life : Life names s) {m : Nat → Option Nat} {d : FileName → Option Dir} :
    Life names { s with snapshotMutex := m, dirs := d } :=
  ⟨life.sound, life.phases, life.locked, life.deleter, life.finished⟩

/-- A step that keeps or gives back the lock, between phases that delete nothing. -/
theorem Life.walks (life : Life names s) {m : Nat → Option Nat} {d : FileName → Option Dir}
    (mine : At names s.registry t phase) (lock : phase.locks = true → (s.threads t).locks = true)
    (deletes : ∀ i, phase.Deletes i ↔ (s.threads t).Deletes i) :
    Life names (State.mk s.registry s.exclusive m d (Function.update s.threads t phase)) :=
  life.quiet mine (fun locks => life.locked t (lock locks)) (fun u _ => life.locked u) deletes

/-- A reference is taken by a call or handed out. -/
theorem Life.holds (life : Life names s) {m : Nat → Option Nat} {d : FileName → Option Dir}
    (slotted : Slotted s.registry i)
    (mine : At names (s.registry.hold i ref) t phase) (lock : phase.locks = true → (s.threads t).locks = true)
    (deletes : ∀ j, phase.Deletes j ↔ (s.threads t).Deletes j) :
    Life names (State.mk (s.registry.hold i ref) s.exclusive m d (Function.update s.threads t phase)) := by
  obtain ⟨published, undropped, member, live⟩ := life.sound.slotted slotted
  have same : s.registry.hold i ref = s.registry.withRefs i (ref :: (s.registry.incs i).refs) := rfl
  rw [same] at mine ⊢
  refine life.moves (life.sound.withRefs published (fun _ => List.mem_cons_of_mem _ member) fun nonzero =>
    absurd live.2 nonzero) mine
    (fun u _ => (life.phases u).withRefs (fun there => List.mem_cons_of_mem _ there) fun none => ?_)
    (fun locks => life.locked t (lock locks)) (fun u _ => life.locked u) (fun j here => .inl ((deletes j).mp here))
    fun j published' dropped none => ?_
  · rw [none] at member
    cases member
  · rw [refs_withRefs] at none
    split at none
    next => cases none
    next =>
      rw [published_withRefs] at published'
      rw [dropped_withRefs] at dropped
      rw [erased_withRefs]
      rcases life.finished j published' dropped none with once | ⟨u, there⟩
      · exact .inl once
      · by_cases equal : u = t
        · exact .inr (.inl ((deletes j).mpr (equal ▸ there)))
        · exact .inr (.inr ⟨u, equal, there⟩)

/-- A reference of a call or of a user is released, perhaps the last one. -/
theorem Life.releases (life : Life names s) (member : ref ∈ (s.inc i).refs) (noSlot : ref ≠ .slot)
    (mine : ∀ u, u ≠ t → ref ≠ .thread u) (idle : ∀ j, ¬(s.threads t).Deletes j) :
    Life names (s.release t i ref) := by
  have live := life.sound.live_of_refs member
  have same : s.registry.release i ref = s.registry.withRefs i ((s.registry.incs i).refs.erase ref) := rfl
  have slot : (s.registry.incs i).dropped = false → .slot ∈ (s.registry.incs i).refs.erase ref := by
    intro undropped
    obtain ⟨slot, found, here⟩ := life.sound.undropped i live.1 undropped
    have kept := (life.sound.slotted ⟨slot, found, here⟩).2.2.1
    exact (List.mem_erase_of_ne noSlot.symm).mpr kept
  have none (nonzero : (s.registry.incs i).erased ≠ 0) : (s.registry.incs i).refs.erase ref = [] :=
    absurd live.2 nonzero
  -- nobody deletes the files of a collection that is referred to
  have undeleted (u : Nat) : ¬(s.threads u).Deletes i := by
    intro deletes
    have gone := life.phases u
    cases phase : s.threads u with
    | deleting j | erasing j =>
      rw [phase] at deletes gone
      obtain rfl : j = i := deletes
      have refs : (s.inc j).refs = [] := gone.refs
      rw [refs] at member
      cases member
    | _ =>
      rw [phase] at deletes
      exact deletes
  change Life names (State.mk (s.registry.release i ref) s.exclusive s.snapshotMutex s.dirs
    (Function.update s.threads t _))
  rw [same]
  refine life.moves (life.sound.withRefs live.1 slot none) ?_
    (fun u apart => (life.phases u).withRefs (fun there => ?_) fun empty => ?_) ?_
    (fun u _ => life.locked u) (fun j here => .inr ?_) fun j published dropped empty => ?_
  · split
    next last =>
      refine ⟨?_, ?_, ?_, ?_⟩
      · rw [published_withRefs]
        exact live.1
      · rw [dropped_withRefs]
        exact last.2
      · rw [refs_withRefs, if_pos rfl]
        exact last.1
      · rw [erased_withRefs]
        exact live.2
    next => trivial
  · exact (List.mem_erase_of_ne (mine u apart).symm).mpr there
  · change (s.inc i).refs = [] at empty
    rw [empty] at member
    cases member
  · split <;> exact nofun
  · split at here
    next =>
      obtain rfl : i = j := here
      exact undeleted
    next => exact here.elim
  · rw [refs_withRefs] at empty
    rw [published_withRefs] at published
    rw [dropped_withRefs] at dropped
    rw [erased_withRefs]
    split at empty
    next here =>
      subst here
      exact .inr (.inl (by rw [if_pos ⟨empty, dropped⟩]; rfl))
    next =>
      rcases life.finished j published dropped empty with once | ⟨u, there⟩
      · exact .inl once
      · refine .inr (.inr ⟨u, fun equal => idle j (equal ▸ there), there⟩)

/-- The phases that delete nothing. -/
theorem deletes_iff {p : Phase} (first : ∀ i, ¬phase.Deletes i) (second : ∀ i, ¬p.Deletes i) (i : Nat) :
    phase.Deletes i ↔ p.Deletes i :=
  iff_of_false (first i) (second i)

/-- The deleters of the other threads go on. -/
theorem Life.others (life : Life names s) (idle : ∀ j, ¬(s.threads t).Deletes j)
    (published : (s.inc j).published = true) (dropped : (s.inc j).dropped = true) (none : (s.inc j).refs = []) :
    (s.inc j).erased = 1 ∨ phase.Deletes j ∨ ∃ u, u ≠ t ∧ (s.threads u).Deletes j := by
  rcases life.finished j published dropped none with once | ⟨u, there⟩
  · exact .inl once
  · exact .inr (.inr ⟨u, fun equal => idle j (equal ▸ there), there⟩)

theorem Steps.life {label : Label} (step : Steps F names t s label s') (life : Life names s) : Life names s' := by
  have known := life.phases t
  have free : ∀ u, u ≠ t → s.exclusive = none → (s.threads u).locks = true → some t = some u := by
    intro u _ open_ locks
    rw [life.open_ open_ u] at locks
    cases locks
  cases step with
  | create idle open_ used valid =>
    exact life.quiet ⟨used, valid⟩ (fun _ => rfl) (fun u apart => free u apart open_)
      (deletes_iff (fun _ => id) (by rw [idle]; exact fun _ => id))
  | refuse at_ =>
    refine life.quiet trivial nofun (fun u apart locks => ?_)
      (deletes_iff (fun _ => id) (by rw [at_]; exact fun _ => id))
    rw [life.lock_eq (by rw [at_]; rfl) apart] at locks
    cases locks
  | accept at_ absent settled =>
    rw [at_] at known
    refine life.moves (life.sound.fresh known) (Unborn.fresh absent settled)
      (fun u _ => (life.phases u).fresh life.sound)
      (fun _ => life.locked t (by rw [at_]; rfl)) (fun u _ => life.locked u) nofun
      fun j published dropped none => ?_
    simp only [Registry.fresh, Function.update_apply] at published dropped none ⊢
    split at published
    next => cases published
    next other =>
      rw [if_neg other] at dropped none ⊢
      exact life.others (by rw [at_]; exact fun _ => id) published dropped none
  | clearTempFile => exact life.files
  | clearTemp at_ | leaveTemp at_ | clear at_ | leaveHome at_ | make at_ | configured at_ | rename at_ =>
    rw [at_] at known
    exact life.walks known (fun _ => by rw [at_]; rfl) (deletes_iff (fun _ => id) (by rw [at_]; exact fun _ => id))
  | clearFile => exact life.files
  | configure => exact life.files
  | @publish i at_ =>
    rw [at_] at known
    refine life.moves (life.sound.publish known) trivial
      (fun u apart => (life.phases u).publish known (life.lock_eq (by rw [at_]; rfl) apart)) nofun
      (fun u apart locks => ?_) nofun
      fun j published dropped none => ?_
    · rw [life.lock_eq (by rw [at_]; rfl) apart] at locks
      cases locks
    · simp only [Registry.publish, Registry.change, Function.update_apply] at published dropped none ⊢
      split at none
      next => cases none
      next other =>
        rw [if_neg other] at published dropped ⊢
        exact life.others (by rw [at_]; exact fun _ => id) published dropped none
  | fail locks unmarked =>
    refine life.quiet trivial nofun (fun u apart other => ?_) (deletes_iff (fun _ => id) fun i deletes => ?_)
    · rw [life.lock_eq locks apart] at other
      cases other
    · cases phase : s.threads t <;> rw [phase] at locks deletes <;> first | exact deletes | cases locks
  | get idle open_ found =>
    have still : s.threads = Function.update s.threads t .idle := by rw [← idle, Function.update_eq_self]
    have holds : Life names (State.mk (s.registry.hold _ .user) s.exclusive s.snapshotMutex s.dirs
        (Function.update s.threads t .idle)) :=
      life.holds (life.sound.found found).1 trivial nofun
        (deletes_iff (fun _ => id) (by rw [idle]; exact fun _ => id))
    rw [← still] at holds
    exact holds
  | drop idle open_ found =>
    exact life.quiet (life.sound.found found).1 (fun _ => rfl) (fun u apart => free u apart open_)
      (deletes_iff (fun _ => id) (by rw [idle]; exact fun _ => id))
  | mark => exact life.files
  | @insert i at_ =>
    rw [at_] at known
    refine life.moves (life.sound.insert i) ⟨known, List.mem_insert_self⟩
      (fun u apart => (life.phases u).insert (life.lock_eq (by rw [at_]; rfl) apart))
      (fun _ => life.locked t (by rw [at_]; rfl))
      (fun u _ => life.locked u) nofun fun j published dropped none => ?_
    exact life.others (by rw [at_]; exact fun _ => id) published dropped none
  | @unslot i at_ =>
    rw [at_] at known
    obtain ⟨slotted, marked⟩ := known
    have here : (s.registry.unslot i t).incs i =
        { s.inc i with dropped := true, refs := .thread t :: (s.inc i).refs.erase .slot } :=
      incs_unslot.trans (if_pos rfl)
    have held : Held (s.registry.unslot i t) t i :=
      ⟨here ▸ (life.sound.slotted slotted).1, here ▸ List.mem_cons_self⟩
    refine life.moves (life.sound.unslot slotted marked t) held
      (fun u apart => (life.phases u).unslot life.sound slotted (life.lock_eq (by rw [at_]; rfl) apart)) nofun
      (fun u apart locks => ?_) nofun
      fun j published dropped none => ?_
    · rw [life.lock_eq (by rw [at_]; rfl) apart] at locks
      cases locks
    · by_cases same : j = i
      · rw [same, here] at none
        cases none
      · rw [incs_unslot, if_neg same] at published dropped none ⊢
        exact life.others (by rw [at_]; exact fun _ => id) published dropped none
  | snapshot idle open_ found =>
    obtain ⟨slotted, _⟩ := life.sound.found found
    refine life.holds slotted ⟨?_, ?_⟩ nofun (deletes_iff (fun _ => id) (by rw [idle]; exact fun _ => id))
    · exact published_withRefs.trans (life.sound.slotted slotted).1
    · change _ ∈ ((s.registry.withRefs _ _).incs _).refs
      rw [refs_withRefs, if_pos rfl]
      exact List.mem_cons_self
  | waited at_ | lockSnapshot at_ | unlockSnapshot at_ =>
    rw [at_] at known
    exact life.walks known nofun (deletes_iff (fun _ => id) (by rw [at_]; exact fun _ => id))
  | saveMakes => exact life.files
  | save => exact life.files
  | saved at_ | saveFails at_ | skip at_ =>
    rw [at_] at known
    exact life.walks known nofun (deletes_iff (fun _ => id) (by rw [at_]; exact fun _ => id))
  | record at_ open_ found mine =>
    rw [at_] at known
    exact life.moves (life.sound.record found _) ⟨known.published, known.refs⟩
      (fun u _ => (life.phases u).record (life.open_ open_ u)) nofun
      (fun u _ => life.locked u) nofun fun j => life.others (by rw [at_]; exact fun _ => id)
  | leave at_ =>
    rw [at_] at known
    exact life.releases known.refs nofun (fun u apart same => apart (Ref.thread.inj same).symm)
      (by rw [at_]; exact fun _ => id)
  | release idle held => exact life.releases held nofun nofun (by rw [idle]; exact fun _ => id)
  | deleteFile => exact life.files
  | deleteDir at_ | deleteNothing at_ | deleteFails at_ =>
    rw [at_] at known
    exact life.walks known nofun fun j => by rw [at_]; exact .rfl
  | @erase i whole at_ =>
    rw [at_] at known
    have others (u : Nat) (apart : u ≠ t) : ¬(s.threads u).Deletes i := fun deletes =>
      apart (life.deleter u t i deletes (by rw [at_]; rfl))
    refine life.moves (life.sound.erase known) trivial
      (fun u apart => (life.phases u).erase life.sound known (others u apart)) nofun
      (fun u _ => life.locked u) nofun fun j published dropped none => ?_
    by_cases same : j = i
    · refine .inl ?_
      rw [same, incs_erase, if_pos rfl, known.erased]
    · rw [incs_erase, if_neg same] at published dropped none ⊢
      rcases life.finished j published dropped none with once | ⟨u, there⟩
      · exact .inl once
      · refine .inr (.inr ⟨u, fun equal => same ?_, there⟩)
        rw [equal, at_] at there
        exact there.symm

end Life
end Incarnations
end VectorForge
