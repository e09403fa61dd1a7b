import VectorForge.Catalog.References
import VectorForge.Catalog.Creation

/-! The files of an incarnation are its own from its creation until its deleter has removed them, whatever
other calls do, as long as the file system tells the names in use apart. -/

namespace VectorForge
namespace Incarnations
open Catalog (creatingName isValidName creating_apart creating_same)

variable {F : FileSystem} {names : FileName → Prop} {r : Registry} {s s' : State} {t u i j : Nat}
  {name : FileName} {label : Label}

section Opening
variable {opened : List FileName} {left : List Leftover} {generation : FileName → UInt64}
  {files : FileName → List FileName}

theorem getElem?_of_idxOf? (found : opened.idxOf? name = some i) : opened[i]? = some name := by
  obtain ⟨below, same, _⟩ := List.findIdx?_eq_some_iff_getElem.mp found
  rw [List.getElem?_eq_getElem below, eq_of_beq same]

theorem idxOf?_of_getElem? (nodup : opened.Nodup) (there : opened[i]? = some name) :
    opened.idxOf? name = some i := by
  cases found : opened.idxOf? name with
  | none => exact absurd (List.mem_of_getElem? there) (List.idxOf?_eq_none_iff.mp found)
  | some j =>
    have other := getElem?_of_idxOf? found
    obtain ⟨below, _⟩ := List.getElem?_eq_some_iff.mp other
    rw [(List.getElem?_inj below nodup).mp (other.trans there.symm)]

theorem getElem?_past (there : opened[i]? = some name) : (past opened left)[i]? = some (restored name) := by
  have below := (List.getElem?_eq_some_iff.mp there).1
  rw [past, List.getElem?_append_left (by rwa [List.length_map]), List.getElem?_map, there]
  rfl

theorem inc_of_getElem? (there : opened[i]? = some name) :
    (opening F opened left generation files).inc i = restored name := by
  change (past opened left)[i]?.getD {} = _
  rw [getElem?_past there]
  rfl

/-- An incarnation has been restored, or nobody has anything to do with it. -/
theorem inc_opening (s : State) (start : s = opening F opened left generation files) (i : Nat) :
    (∃ name, opened[i]? = some name ∧ s.inc i = restored name) ∨
      (s.inc i).dropped = (s.inc i).published ∧ (s.inc i).erased = (s.inc i).published.toNat ∧
      (s.inc i).refs = [] := by
  subst start
  cases there : opened[i]? with
  | some name => exact .inl ⟨name, rfl, inc_of_getElem? there⟩
  | none =>
    have beyond : (opened.map restored).length ≤ i := by
      rw [List.length_map]
      exact List.getElem?_eq_none_iff.mp there
    have value : (opening F opened left generation files).inc i =
        ((left[i - opened.length]?).map Leftover.incarnation).getD {} := by
      change (past opened left)[i]?.getD {} = _
      rw [past, List.getElem?_append_right beyond, List.length_map, List.getElem?_map]
    right
    rw [value]
    cases left[i - opened.length]? <;> exact ⟨rfl, rfl, rfl⟩

/-- Only restored collections are in use. -/
theorem getElem?_of_live (s : State) (start : s = opening F opened left generation files)
    (live : s.registry.Live i) : opened[i]? = some (s.inc i).name := by
  rcases inc_opening s start i with ⟨name, there, same⟩ | ⟨_, erased, _⟩
  · rw [there, same]
    rfl
  · have once : (s.inc i).erased = 1 := erased.trans (by rw [show (s.inc i).published = true from live.1]; rfl)
    cases live.2.symm.trans once

theorem Life.opening (nodup : opened.Nodup)
    (valid : ∀ inc ∈ past opened left, names inc.name ∧ isValidName inc.name = true) :
    Life names (opening F opened left generation files) := by
  obtain ⟨s, start⟩ : ∃ s, s = Incarnations.opening F opened left generation files := ⟨_, rfl⟩
  rw [← start]
  have each := inc_opening s start
  have value (i : Nat) : s.inc i = (past opened left)[i]?.getD {} := by rw [start]; rfl
  have known (i : Nat) (live : s.registry.Live i) : opened[i]? = some (s.inc i).name :=
    getElem?_of_live s start live
  have dropped (i : Nat) (yes : (s.inc i).dropped = true) : (s.inc i).erased = 1 := by
    rcases each i with ⟨name, _, same⟩ | ⟨published, erased, _⟩
    · rw [same] at yes
      cases yes
    · rw [erased, ← published, yes]
      rfl
  refine ⟨⟨?_, ?_, ?_, ?_, ?_, ?_, ?_, ?_⟩, fun t => ?_, fun t locks => ?_, fun t u i here => ?_, ?_⟩
  · intro name slot found
    rw [start] at found
    obtain ⟨i, index, rfl⟩ := Option.map_eq_some_iff.mp found
    have same : s.inc i = restored name := start ▸ inc_of_getElem? (getElem?_of_idxOf? index)
    change (s.inc i).name = name ∧ (s.inc i).published = true ∧ (s.inc i).dropped = false ∧ .slot ∈ (s.inc i).refs
    rw [same]
    exact ⟨rfl, rfl, rfl, List.mem_singleton_self _⟩
  · intro i published undropped
    change (s.inc i).published = true at published
    change (s.inc i).dropped = false at undropped
    have live : s.registry.Live i := by
      refine ⟨published, ?_⟩
      rcases each i with ⟨name, _, same⟩ | ⟨same, _, _⟩
      · exact congrArg Incarnation.erased same
      · cases undropped.symm.trans (same.trans published)
    refine ⟨{ inc := i, generation := generation (s.inc i).name }, ?_, rfl⟩
    have index := idxOf?_of_getElem? nodup (known i live)
    change s.registry.slots (s.inc i).name = _
    rw [show s.registry.slots = fun name => (opened.idxOf? name).map fun i =>
      { inc := i, generation := generation name } by rw [start]; rfl]
    exact congrArg (Option.map _) index
  · intro i live yes
    cases live.2.symm.trans (dropped i yes)
  · intro i unpublished
    change (s.inc i).published = false at unpublished
    rcases each i with ⟨name, _, same⟩ | ⟨dropped, erased, refs⟩
    · rw [same] at unpublished
      cases unpublished
    · rw [unpublished] at dropped erased
      exact ⟨refs, dropped, erased⟩
  · intro i nonzero
    change (s.inc i).erased ≠ 0 at nonzero
    rcases each i with ⟨name, _, same⟩ | ⟨dropped, erased, refs⟩
    · exact absurd (congrArg Incarnation.erased same) nonzero
    · cases published : (s.inc i).published with
      | false =>
        rw [published] at erased
        exact absurd erased nonzero
      | true =>
        rw [published] at dropped erased
        exact ⟨erased, dropped, refs⟩
  · intro i j live live' same
    have first := known i live
    have second := known j live'
    obtain ⟨below, _⟩ := List.getElem?_eq_some_iff.mp first
    refine (List.getElem?_inj below nodup).mp (first.trans ?_)
    rw [second]
    exact congrArg some same
  · intro i below
    rw [show s.registry.count = (past opened left).length by rw [start]; rfl] at below
    refine valid (s.inc i) (List.mem_iff_getElem?.mpr ⟨i, ?_⟩)
    rw [value i, List.getElem?_eq_getElem below]
    rfl
  · intro i above
    rw [show s.registry.count = (past opened left).length by rw [start]; rfl] at above
    change (s.inc i).published = false
    rw [value i, List.getElem?_eq_none_iff.mpr above]
    rfl
  · rw [start]
    trivial
  · rw [start] at locks
    cases locks
  · rw [start] at here
    exact here.elim
  · intro i _ yes _
    exact .inl (dropped i yes)

end Opening

/-- Whose files are where. -/
def State.owners (s : State) (k : FileName) : Option Nat := (s.dirs k).map Dir.owner

/-- What the phase of a thread says of the directories. -/
def Files (F : FileSystem) (s : State) : Phase → Prop
  | .configuring i | .moving i => ∀ o, s.owners (temp F s i) = some o → o = i
  | .placed i => s.owners (temp F s i) = none ∧ ∀ o, s.owners (home F s i) = some o → o = i
  | .erasing i true => s.owners (home F s i) = none
  | _ => True

/-- Every directory is where its owner puts it, and a collection with files has its own. -/
structure Owned (F : FileSystem) (s : State) : Prop where
  owner : ∀ k i, s.owners k = some i → i < s.registry.count ∧
    (k = home F s i ∨ k = temp F s i ∧ (s.inc i).published = false)
  live : ∀ i o, s.registry.Live i → s.owners (home F s i) = some o → o = i
  phases : ∀ t, Files F s (s.threads t)

/-- The file system tells these names apart. -/
def Apart (F : FileSystem) (names : FileName → Prop) : Prop :=
  ∀ a b, names a → names b → F.platform.fold a = F.platform.fold b → a = b

section Directories
variable {phase : Phase} {k : FileName} {d : Dir} {o : Nat}

theorem owners_setDir (v : Option Dir) : (s.setDir k v).owners = Function.update s.owners k (v.map Dir.owner) := by
  funext n
  simp only [State.owners, State.setDir, Function.update_apply]
  split <;> rfl

/-- Another list of files in the same directory. -/
theorem owners_files (there : s.dirs k = some d) (files : List FileName) :
    (s.setDir k (some { d with files })).owners = s.owners := by
  rw [owners_setDir, Function.update_eq_self_iff, State.owners, there]
  rfl

theorem owners_none (n : FileName) (gone : (s.setDir k none).owners n = some o) : s.owners n = some o := by
  rw [owners_setDir, Function.update_apply] at gone
  split at gone
  next => cases gone
  next => exact gone

/-- Fewer directories, and nothing new about who owns them. -/
theorem Files.mono (files : Files F s phase) (life : Life names s) (known : At names s.registry u phase)
    (fewer : ∀ n o, s'.owners n = some o → s.owners n = some o)
    (same : ∀ i, i < s.registry.count → (s'.inc i).name = (s.inc i).name) : Files F s' phase := by
  have places {i : Nat} (used : i < s.registry.count) : home F s' i = home F s i ∧ temp F s' i = temp F s i := by
    simp only [home, temp, same i used, and_self]
  have none {n : FileName} (empty : s.owners n = none) : s'.owners n = none := by
    by_contra there
    obtain ⟨o, found⟩ := Option.ne_none_iff_exists'.mp there
    rw [fewer n o found] at empty
    cases empty
  cases phase with
  | configuring i | moving i =>
    intro o found
    rw [(places known.used).2] at found
    exact files o (fewer _ o found)
  | placed i =>
    obtain ⟨empty, mine⟩ := files
    refine ⟨?_, fun o found => ?_⟩
    · rw [(places known.used).2]
      exact none empty
    · rw [(places known.used).1] at found
      exact mine o (fewer _ o found)
  | erasing i whole =>
    cases whole with
    | false => trivial
    | true =>
      change s'.owners (home F s' i) = _
      rw [(places (life.sound.used known.published)).1]
      exact none files
  | _ => trivial

theorem Owned.shrinks (owned : Owned F s) (life : Life names s)
    (fewer : ∀ n o, s'.owners n = some o → s.owners n = some o)
    (same : ∀ i, i < s.registry.count → (s'.inc i).name = (s.inc i).name ∧
      (s'.inc i).published = (s.inc i).published)
    (count : s.registry.count ≤ s'.registry.count) (live : ∀ i, s'.registry.Live i → s.registry.Live i)
    (phases : ∀ u, s'.threads u = s.threads u ∨ Files F s' (s'.threads u)) : Owned F s' where
  owner := by
    intro n i found
    obtain ⟨used, place⟩ := owned.owner n i (fewer n i found)
    obtain ⟨name, published⟩ := same i used
    rw [home, temp, name, published]
    exact ⟨used.trans_le count, place⟩
  live := by
    intro i o alive found
    have before := live i alive
    rw [home, (same i (life.sound.used before.1)).1] at found
    exact owned.live i o before (fewer _ o found)
  phases := by
    intro u
    rcases phases u with still | new
    · rw [still]
      exact (owned.phases u).mono life (life.phases u) fewer fun i used => (same i used).1
    · exact new

/-- A thread has moved, and there are fewer directories. -/
theorem Owned.walks (owned : Owned F s) (life : Life names s) {e : Option Nat} {m : Nat → Option Nat}
    {dirs : FileName → Option Dir}
    (fewer : ∀ n o, ({ s with dirs } : State).owners n = some o → s.owners n = some o)
    (mine : Files F { s with dirs } phase) :
    Owned F (State.mk s.registry e m dirs (Function.update s.threads t phase)) := by
  refine owned.shrinks life fewer (fun _ _ => ⟨rfl, rfl⟩) (le_refl _) (fun _ => id) fun u => ?_
  by_cases same : u = t
  · subst same
    refine .inr ?_
    simp only [Function.update_self]
    cases phase <;> exact mine
  · exact .inl (Function.update_of_ne same _ _)

/-- A thread has changed the maps, but neither a directory nor the name of a collection. -/
theorem Owned.knows (owned : Owned F s) (life : Life names s) {r : Registry} {e : Option Nat} {m : Nat → Option Nat}
    (same : ∀ i, i < s.registry.count → (r.incs i).name = (s.inc i).name ∧
      (r.incs i).published = (s.inc i).published)
    (count : s.registry.count ≤ r.count) (live : ∀ i, r.Live i → s.registry.Live i)
    (mine : Files F { s with registry := r } phase) :
    Owned F (State.mk r e m s.dirs (Function.update s.threads t phase)) := by
  refine owned.shrinks life (fun _ _ => id) same count live fun u => ?_
  by_cases same : u = t
  · subst same
    refine .inr ?_
    simp only [Function.update_self]
    cases phase <;> exact mine
  · exact .inl (Function.update_of_ne same _ _)

/-- One collection has changed, but neither its name nor that it is published. -/
theorem Owned.changes (owned : Owned F s) (life : Life names s) {r : Registry} {e : Option Nat}
    {m : Nat → Option Nat} {inc : Incarnation}
    (incs : r.incs = Function.update s.registry.incs i inc) (count : r.count = s.registry.count)
    (name : inc.name = (s.inc i).name)
    (published : inc.published = (s.inc i).published) (erased : inc.erased = 0 → (s.inc i).erased = 0)
    (mine : Files F { s with registry := r } phase) :
    Owned F (State.mk r e m s.dirs (Function.update s.threads t phase)) := by
  refine owned.knows life (fun j _ => ?_) count.ge (fun j live => ?_) mine
  · rw [incs, Function.update_apply]
    split
    next same => exact ⟨same ▸ name, same ▸ published⟩
    next => exact ⟨rfl, rfl⟩
  · rw [Registry.Live, incs, Function.update_apply] at live
    split at live
    next same => exact ⟨same ▸ published ▸ live.1, same ▸ erased live.2⟩
    next => exact live

/-- The files of a directory have changed. -/
theorem Owned.edits (owned : Owned F s) (life : Life names s) (there : s.dirs k = some d) (files : List FileName) :
    Owned F (s.setDir k (some { d with files })) :=
  owned.shrinks life (fun n o found => by rwa [owners_files there] at found) (fun _ _ => ⟨rfl, rfl⟩) (le_refl _)
    (fun _ => id) fun _ => .inl rfl

/-- A directory is made. -/
theorem Owned.puts (owned : Owned F s) (used : d.owner < s.registry.count)
    (place : k = home F s d.owner ∨ k = temp F s d.owner ∧ (s.inc d.owner).published = false)
    (live : ∀ j, s.registry.Live j → home F s j = k → j = d.owner)
    (phases : ∀ u, Files F (s.setDir k (some d)) (s.threads u)) : Owned F (s.setDir k (some d)) where
  owner := by
    intro n i found
    rw [owners_setDir, Function.update_apply] at found
    split at found
    next here =>
      cases found
      exact ⟨used, here ▸ place⟩
    next => exact owned.owner n i found
  live := by
    intro i o alive found
    change (s.setDir k (some d)).owners (home F s i) = some o at found
    rw [owners_setDir, Function.update_apply] at found
    split at found
    next here =>
      cases found
      exact (live i alive here).symm
    next => exact owned.live i o alive found
  phases := phases

/-- A change in a directory that a thread says nothing about. -/
theorem Files.elsewhere {v : Option Dir} (files : Files F s phase) (known : At names s.registry u phase)
    (unborn : phase.locks = true → ∀ j, Unborn s.registry j → temp F s j ≠ k ∧ home F s j ≠ k)
    (gone : ∀ j, Gone s.registry j → home F s j ≠ k) : Files F (s.setDir k v) phase := by
  have same {n : FileName} (other : n ≠ k) : (s.setDir k v).owners n = s.owners n := by
    rw [owners_setDir, Function.update_of_ne other]
  cases phase with
  | configuring i | moving i =>
    intro o found
    exact files o ((same (unborn rfl i known).1).symm.trans found)
  | placed i => exact ⟨(same (unborn rfl i known).1).trans files.1,
    fun o found => files.2 o ((same (unborn rfl i known).2).symm.trans found)⟩
  | erasing i whole =>
    cases whole with
    | false => trivial
    | true => exact (same (gone i known)).trans files
  | _ => trivial

end Directories

section Places
variable (apart : Apart F names) (life : Life names s)
include apart life

omit apart in
/-- The files of a collection are never where those of another are made. -/
theorem Life.temp_ne_home (used : j < s.registry.count) : temp F s i ≠ home F s j :=
  creating_apart F _ (life.sound.known j used).2

theorem Life.home_inj (used : i < s.registry.count) (used' : j < s.registry.count)
    (same : home F s i = home F s j) : (s.inc i).name = (s.inc j).name :=
  apart _ _ (life.sound.known i used).1 (life.sound.known j used').1 same

theorem Life.eq_of_home (live : s.registry.Live i) (live' : s.registry.Live j)
    (same : home F s i = home F s j) : i = j :=
  life.sound.unique i j live live' (life.home_inj apart (life.sound.used live.1) (life.sound.used live'.1) same)

theorem Life.home_ne (unborn : Unborn s.registry i) (live : s.registry.Live j) :
    home F s j ≠ home F s i := fun same =>
  unborn.alone life.sound live (life.home_inj apart (life.sound.used live.1) unborn.used same)

end Places

section Step

/-- Only one thread has the lock. -/
theorem Life.alone (life : Life names s) (locks : (s.threads t).locks = true)
    (others : (s.threads u).locks = true) : u = t := by
  by_contra other
  rw [life.lock_eq locks other] at others
  cases others

theorem live_fresh (live : (r.fresh name).Live j) : r.Live j := by
  simp only [Registry.Live, Registry.fresh, Function.update_apply] at live
  split at live
  next => cases live.1
  next => exact live

theorem Steps.owned (step : Steps F names t s label s') (apart : Apart F names) (life : Life names s)
    (owned : Owned F s) : Owned F s' := by
  have known := life.phases t
  have files := owned.phases t
  cases step with
  | create | refuse | leaveTemp | leaveHome | fail | drop | waited | lockSnapshot | saved | saveFails | skip
  | unlockSnapshot | deleteFails =>
    exact owned.walks life (fun _ _ => id) (by exact trivial)
  | clearTempFile at_ there | clearFile at_ there | configure at_ there | mark at_ there
  | save at_ there | deleteFile at_ there =>
    exact owned.edits life there _
  | clearTemp | clear => exact owned.walks life (fun _ _ => owners_none _) (by exact trivial)
  | accept at_ absent settled =>
    refine owned.knows life (fun j used => ?_) (Nat.le_succ _) (fun j => live_fresh) (by exact trivial)
    simp only [State.inc, Registry.fresh, Function.update_of_ne used.ne, and_self]
  | @make i at_ =>
    rw [at_] at known
    have made : Owned F (s.setDir (temp F s i)
        (some { owner := i, files := ((s.dirs (temp F s i)).map Dir.files).getD [] })) := by
      refine owned.puts known.used (.inr ⟨rfl, known.unpublished⟩) (fun j live same => ?_) fun u => ?_
      · exact absurd same.symm (life.temp_ne_home (life.sound.used live.1))
      · by_cases same : u = t
        · rw [same, at_]
          trivial
        · refine (owned.phases u).elsewhere (life.phases u) (fun locks => ?_) fun j gone =>
            (life.temp_ne_home (life.sound.used gone.published)).symm
          exact absurd (life.alone (by rw [at_]; rfl) locks) same
    refine made.walks life.files (fun _ _ => id) ?_
    intro o found
    change (s.setDir (temp F s i) _).owners (temp F s i) = some o at found
    rw [owners_setDir, Function.update_self] at found
    cases found
    rfl
  | configured at_ =>
    rw [at_] at files
    exact owned.walks life (fun _ _ => id) files
  | @rename i d at_ there room =>
    rw [at_] at known files
    have mine : d.owner = i := files d.owner (by rw [State.owners, there]; rfl)
    have other : temp F s i ≠ home F s i := life.temp_ne_home known.used
    let cleared := s.setDir (temp F s i) none
    have fewer : Owned F cleared := owned.shrinks life (fun _ _ => owners_none _) (fun _ _ => ⟨rfl, rfl⟩)
      (le_refl _) (fun _ => id) fun _ => .inl rfl
    have empty : (cleared.setDir (home F s i) (some d)).owners (temp F s i) = none := by
      rw [owners_setDir, Function.update_of_ne other, owners_setDir, Function.update_self]
      rfl
    have placed : Owned F (cleared.setDir (home F s i) (some d)) := by
      refine fewer.puts (mine ▸ known.used) (.inl (by rw [mine]; rfl)) (fun j live same => ?_) fun u => ?_
      · have ne := life.home_ne apart known live
        exact absurd same ne
      · by_cases same : u = t
        · subst same
          change Files F _ (s.threads u)
          rw [at_]
          intro o found
          cases empty.symm.trans found
        · refine (fewer.phases u).elsewhere (life.phases u) (fun locks => ?_) fun j gone => ?_
          · exact absurd (life.alone (by rw [at_]; rfl) locks) same
          · have ne := life.home_ne apart known gone.live
            exact ne
    refine placed.walks life.files (fun _ _ => id) ⟨empty, fun o found => ?_⟩
    change (cleared.setDir (home F s i) (some d)).owners (home F s i) = some o at found
    rw [owners_setDir, Function.update_self] at found
    cases found
    exact mine
  | @publish i at_ =>
    rw [at_] at known files
    have incs (j : Nat) : (s.registry.publish i).incs j =
        if j = i then { s.inc i with published := true, refs := [.user, .slot] } else s.inc j := by
      simp only [Registry.publish, Registry.change, Function.update_apply, State.inc]
    have name (j : Nat) : ((s.registry.publish i).incs j).name = (s.inc j).name := by
      rw [incs]
      split
      next same => rw [same]
      next => rfl
    refine ⟨fun n j found => ?_, fun j o alive found => ?_, fun u => ?_⟩
    · obtain ⟨used, place⟩ := owned.owner n j found
      refine ⟨used, ?_⟩
      rcases place with here | ⟨here, unpublished⟩
      · exact .inl (here.trans (congrArg F.platform.fold (name j).symm))
      · by_cases same : j = i
        · rw [here, same] at found
          cases files.1.symm.trans found
        · refine .inr ⟨here.trans (congrArg (fun n => F.platform.fold (creatingName n)) (name j).symm), ?_⟩
          change ((s.registry.publish i).incs j).published = false
          rw [incs, if_neg same]
          exact unpublished
    · have place : F.platform.fold ((s.registry.publish i).incs j).name = home F s j :=
        congrArg F.platform.fold (name j)
      change s.owners (F.platform.fold ((s.registry.publish i).incs j).name) = some o at found
      rw [place] at found
      by_cases same : j = i
      · subst same
        exact files.2 o found
      · change (s.registry.publish i).Live j at alive
        rw [Registry.Live, incs, if_neg same] at alive
        exact owned.live j o alive found
    · by_cases same : u = t
      · simp only [State.go, same, Function.update_self]
        trivial
      · simp only [State.go, Function.update_of_ne same]
        exact (owned.phases u).mono life (life.phases u) (fun _ _ => id) fun j _ => name j
  | @get name slot idle =>
    have still : s.threads = Function.update s.threads t .idle := by rw [← idle, Function.update_eq_self]
    have holds : Owned F (State.mk (s.registry.hold slot.inc .user) s.exclusive s.snapshotMutex s.dirs
        (Function.update s.threads t .idle)) :=
      owned.changes life rfl rfl rfl rfl id trivial
    rw [← still] at holds
    exact holds
  | insert | record => exact owned.knows life (fun _ _ => ⟨rfl, rfl⟩) (le_refl _) (fun _ => id) (by exact trivial)
  | snapshot | unslot => exact owned.changes life rfl rfl rfl rfl id (by exact trivial)
  | @saveMakes i at_ missing =>
    rw [at_] at known
    have live := life.sound.live_of_refs known.refs
    refine owned.puts (life.sound.used live.1) (.inl rfl)
      (fun j live' same => life.eq_of_home apart live' live same) fun u => ?_
    refine (owned.phases u).elsewhere (life.phases u) (fun _ j unborn => ?_) fun j gone same => ?_
    · exact ⟨life.temp_ne_home (life.sound.used live.1), fun same => life.home_ne apart unborn live same.symm⟩
    · obtain rfl := life.eq_of_home apart gone.live live same
      have refs := known.refs
      rw [gone.refs] at refs
      cases refs
  | leave | release =>
    refine owned.changes life rfl rfl rfl rfl id ?_
    split <;> trivial
  | deleteDir =>
    refine owned.walks life (fun _ _ => owners_none _) ?_
    exact (congrFun (owners_setDir none) _).trans (Function.update_self _ _ _)
  | deleteNothing at_ missing => exact owned.walks life (fun _ _ => id) (congrArg (Option.map Dir.owner) missing)
  | erase => exact owned.changes life rfl rfl rfl rfl (fun locks => by cases locks) (by exact trivial)

end Step

section Safety

/-- A call uses the files of its own collection only, the deleter runs once and after all uses, and files that
are in the way of a creation belong to nobody. -/
def Safe (s s' : State) : Label → Prop
  | .silent => True
  | .touches i owner => owner = i
  | .deletes i owner => owner = i ∧ (s.inc i).dropped = true ∧ (s.inc i).refs = [] ∧ (s.inc i).erased = 0
  | .clears _ owner => (s.inc owner).refs = [] ∧ ((s.inc owner).published = true → (s.inc owner).erased = 1)
  | .records i owner => owner = i
  | .creates i => ∀ j, j ≠ i → (s.inc j).published = true → (s.inc j).name = (s.inc i).name →
    (s.inc j).erased = 1 ∧ (s.inc j).refs = [] ∧ ∀ k, s.owners k ≠ some j
  | .erases i whole =>
    (s.inc i).dropped = true ∧ (s.inc i).refs = [] ∧ (s.inc i).erased = 0 ∧ (s'.inc i).erased = 1 ∧
    (whole = true → ∀ k, s.owners k ≠ some i)

variable {k : FileName} {d : Dir}

theorem owners_of_there (there : s.dirs k = some d) : s.owners k = some d.owner := by rw [State.owners, there]; rfl

/-- Files where a collection is to be placed belong to nobody. -/
theorem Owned.unused (owned : Owned F s) (apart : Apart F names) (life : Life names s)
    (unborn : Unborn s.registry i) (there : s.owners (home F s i) = some j) : (s.inc j).refs = [] ∧
    ((s.inc j).published = true → (s.inc j).erased = 1) := by
  obtain ⟨used, place⟩ := owned.owner _ j there
  cases published : (s.inc j).published with
  | false => exact ⟨(life.sound.unborn j published).1, fun yes => absurd yes Bool.false_ne_true⟩
  | true =>
    have nonzero : (s.inc j).erased ≠ 0 := by
      intro zero
      rcases place with here | ⟨here, unpublished⟩
      · exact life.home_ne apart unborn ⟨published, zero⟩ here.symm
      · cases published.symm.trans unpublished
    exact ⟨(life.sound.erased j nonzero).2.2, fun _ => (life.sound.erased j nonzero).1⟩

theorem Steps.safe (step : Steps F names t s label s') (apart : Apart F names) (life : Life names s)
    (owned : Owned F s) : Safe s s' label := by
  have known := life.phases t
  have files := owned.phases t
  cases step with
  | clearTempFile at_ there | clearTemp at_ there =>
    rw [at_] at known
    obtain ⟨used, place⟩ := owned.owner _ _ (owners_of_there there)
    rcases place with here | ⟨_, unpublished⟩
    · exact absurd here (life.temp_ne_home used)
    · exact ⟨(life.sound.unborn _ unpublished).1, fun published => by
        rw [unpublished] at published; cases published⟩
  | clearFile at_ there | clear at_ there =>
    rw [at_] at known
    exact owned.unused apart life known (owners_of_there there)
  | configure at_ there | rename at_ there =>
    rw [at_] at files
    exact files _ (owners_of_there there)
  | @publish i at_ =>
    rw [at_] at known files
    intro j other published same
    have nonzero : (s.inc j).erased ≠ 0 := fun zero => known.alone life.sound ⟨published, zero⟩ same
    obtain ⟨once, _, refs⟩ := life.sound.erased j nonzero
    refine ⟨once, refs, fun k there => ?_⟩
    obtain ⟨_, here | ⟨_, unpublished⟩⟩ := owned.owner k j there
    · rw [here, home, same] at there
      exact other (files.2 j there)
    · cases published.symm.trans unpublished
  | mark at_ there =>
    rw [at_] at known
    exact owned.live _ _ (life.sound.slotted known).2.2.2 (owners_of_there there)
  | save at_ there =>
    rw [at_] at known
    exact owned.live _ _ (life.sound.live_of_refs known.refs) (owners_of_there there)
  | record at_ open_ found mine => exact mine
  | deleteFile at_ there | deleteDir at_ there =>
    rw [at_] at known
    exact ⟨owned.live _ _ known.live (owners_of_there there), known.dropped, known.refs, known.erased⟩
  | @erase i whole at_ =>
    rw [at_] at known files
    refine ⟨known.dropped, known.refs, known.erased, ?_, fun yes k there => ?_⟩
    · change ((s.registry.erase i).incs i).erased = 1
      rw [incs_erase, if_pos rfl, known.erased]
    · subst yes
      obtain ⟨_, here | ⟨_, unpublished⟩⟩ := owned.owner k i there
      · rw [here] at there
        cases files.symm.trans there
      · cases known.published.symm.trans unpublished
  | _ => trivial

/-- Removed files do not come back. -/
theorem Steps.stays_gone (step : Steps F names t s label s') (life : Life names s) (erased : (s.inc i).erased = 1)
    (gone : ∀ k, s.owners k ≠ some i) : ∀ k, s'.owners k ≠ some i := by
  have known := life.phases t
  have files {k : FileName} {d : Dir} (there : s.dirs k = some d) (files : List FileName) (n : FileName) :
      (s.setDir k (some { d with files })).owners n ≠ some i := by
    rw [owners_files there]
    exact gone n
  have put {k : FileName} {d : Dir} (other : d.owner ≠ i) (n : FileName) :
      (s.setDir k (some d)).owners n ≠ some i := by
    intro found
    rw [owners_setDir, Function.update_apply] at found
    split at found
    next => exact other (Option.some.inj found)
    next => exact gone n found
  have less {k : FileName} (n : FileName) : (s.setDir k none).owners n ≠ some i :=
    fun found => gone n (owners_none n found)
  cases step with
  | clearTempFile at_ there | clearFile at_ there | configure at_ there | mark at_ there
  | save at_ there | deleteFile at_ there => exact files there _
  | clearTemp | clear | deleteDir => exact less
  | @make j at_ =>
    rw [at_] at known
    refine put fun same => ?_
    have zero : (s.inc j).erased = 0 := (life.sound.unborn j known.unpublished).2.2
    rw [show j = i from same, erased] at zero
    cases zero
  | @rename j d at_ there room =>
    intro n found
    change ((s.setDir (temp F s j) none).setDir (home F s j) (some d)).owners n = some i at found
    rw [owners_setDir, Function.update_apply] at found
    split at found
    next => exact gone _ ((owners_of_there there).trans found)
    next => exact less n found
  | @saveMakes j at_ missing =>
    rw [at_] at known
    refine put fun same => ?_
    have zero : (s.inc j).erased = 0 := (life.sound.live_of_refs known.refs).2
    rw [show j = i from same, erased] at zero
    cases zero
  | _ => exact gone

theorem Owned.opening {opened : List FileName} {left : List Leftover} {generation : FileName → UInt64}
    {files : FileName → List FileName} (apart : Apart F names) (nodup : opened.Nodup)
    (valid : ∀ inc ∈ past opened left, names inc.name ∧ isValidName inc.name = true) :
    Owned F (opening F opened left generation files) := by
  let s := Incarnations.opening F opened left generation files
  have life : Life names s := .opening nodup valid
  -- The owner of a directory is the first incarnation whose place it is.
  have first {k : FileName} {i : Nat} (found : s.owners k = some i) :
      i < s.registry.count ∧ (s.inc i).place F = k ∧ ∀ j, j < i → (s.inc j).place F ≠ k := by
    rw [State.owners, Option.map_eq_some_iff] at found
    obtain ⟨d, there, rfl⟩ := found
    obtain ⟨i, index, rfl⟩ := Option.map_eq_some_iff.mp there
    obtain ⟨below, same, others⟩ := List.findIdx?_eq_some_iff_getElem.mp index
    have value {j : Nat} (inside : j < (past opened left).length) : s.inc j = (past opened left)[j] := by
      change (past opened left)[j]?.getD {} = _
      rw [List.getElem?_eq_getElem inside]
      rfl
    refine ⟨below, ?_, fun j earlier place => ?_⟩
    · rw [value below]
      exact of_decide_eq_true same
    · rw [value (earlier.trans below)] at place
      exact others j earlier (decide_eq_true place)
  refine ⟨fun k i found => ?_, fun i o live found => ?_, fun _ => trivial⟩
  · obtain ⟨below, place, _⟩ := first found
    refine ⟨below, ?_⟩
    rw [← place, Incarnation.place]
    cases published : (s.inc i).published with
    | true => exact .inl (congrArg F.platform.fold (if_pos rfl))
    | false => exact .inr ⟨congrArg F.platform.fold (if_neg Bool.false_ne_true), rfl⟩
  · obtain ⟨_, place, none⟩ := first found
    have mine {j : Nat} (published : (s.inc j).published = true) : (s.inc j).place F = home F s j := by
      rw [Incarnation.place, published]
      exact congrArg F.platform.fold (if_pos rfl)
    have before : o ≤ i := Nat.le_of_not_lt fun later => none i later (mine live.1)
    have inside := (List.getElem?_eq_some_iff.mp (getElem?_of_live s rfl live)).1
    have same : s.inc o = restored opened[o] := inc_of_getElem? (List.getElem?_eq_getElem (before.trans_lt inside))
    have published : (s.inc o).published = true := congrArg Incarnation.published same
    exact life.eq_of_home apart ⟨published, congrArg Incarnation.erased same⟩ live
      ((mine published).symm.trans place)

/-- Every reachable state. -/
theorem invariants (apart : Apart F names) (reachable : (machine F names).Reachable s) :
    Life names s ∧ Owned F s := by
  let holds (s : State) : Prop := Life names s ∧ Owned F s
  suffices whole : holds s from whole
  refine reachable.invariant ?_ ?_
  · rintro s ⟨opened, left, generation, files, nodup, valid, rfl⟩
    exact ⟨.opening nodup valid, .opening apart nodup valid⟩
  · rintro s s' ⟨t, label, step⟩ ⟨life, owned⟩
    exact ⟨step.life life, step.owned apart life owned⟩

/-- Where the names in use are told apart, the files of a dropped collection are removed once, after its last use
and before its name is used again, and no call touches the files of a later collection. -/
theorem name_reuse_is_safe (apart : Apart F names) (reachable : (machine F names).Reachable s) :
    (∀ i, (s.inc i).erased ≤ 1 ∧ ((s.inc i).erased = 1 → (s.inc i).dropped = true ∧ (s.inc i).refs = []) ∧
      ((s.inc i).dropped = true → (s.inc i).refs = [] → (s.inc i).erased = 1 ∨ ∃ t, (s.threads t).Deletes i)) ∧
    ∀ t label s', Steps F names t s label s' → Safe s s' label ∧
      ∀ i, (s.inc i).erased = 1 → (∀ k, s.owners k ≠ some i) → ∀ k, s'.owners k ≠ some i := by
  obtain ⟨life, owned⟩ := invariants apart reachable
  have erased (i : Nat) (nonzero : (s.inc i).erased ≠ 0) : (s.inc i).erased = 1 ∧ (s.inc i).dropped = true ∧
      (s.inc i).refs = [] :=
    life.sound.erased i nonzero
  refine ⟨fun i => ⟨?_, fun once => ?_, fun dropped none => ?_⟩, fun t label s' step =>
    ⟨step.safe apart life owned, fun i once => step.stays_gone life once⟩⟩
  · by_contra more
    have once := (erased i (by omega)).1
    omega
  · exact (erased i (by omega)).2
  · refine life.finished i ?_ dropped none
    by_contra unpublished
    have undropped := (life.sound.unborn i (Bool.not_eq_true _ ▸ unpublished)).2.1
    cases undropped.symm.trans dropped

end Safety

section Examples

theorem apart_posix : Apart FileSystem.posix names :=
  fun a b _ _ same => by simpa [FileSystem.posix, FileSystem.platform] using same

variable {opened : List FileName} {left : List Leftover} {generation : FileName → UInt64}
  {files : FileName → List FileName}

theorem reachable_opening (nodup : opened.Nodup)
    (valid : ∀ inc ∈ past opened left, names inc.name ∧ isValidName inc.name = true) :
    (machine F names).Reachable (opening F opened left generation files) :=
  ⟨_, ⟨opened, left, generation, files, nodup, valid, rfl⟩, .refl⟩

theorem reachable_step (reachable : (machine F names).Reachable s) (step : Steps F names t s label s') :
    (machine F names).Reachable s' :=
  reachable.step ⟨t, label, step⟩

/-- A collection is dropped while thread 0 takes a snapshot of it; then its name is used again, and thread 0 takes a
snapshot of the new one. Two directories could not be removed when the catalog was opened. -/
theorem name_reuse_is_safe_reused : ∃ s s' u u',
    (machine FileSystem.posix fun _ => True).Reachable s ∧ (s.inc 0).dropped = true ∧
    Steps FileSystem.posix (fun _ => True) 0 s (.touches 0 0) s' ∧ Safe s s' (.touches 0 0) ∧
    (machine FileSystem.posix fun _ => True).Reachable u ∧ (u.inc 0).erased = 1 ∧ (u.inc 3).name = (u.inc 0).name ∧
    Steps FileSystem.posix (fun _ => True) 0 u (.touches 3 3) u' ∧ Safe u u' (.touches 3 3) ∧
    ∀ k, u'.owners k ≠ some 0 := by
  have start : (machine FileSystem.posix fun _ => True).Reachable
      (opening FileSystem.posix [ascii "a"] [⟨ascii "b", true⟩, ⟨ascii "c", false⟩] (fun _ => 0) fun _ => []) :=
    reachable_opening (by decide) (by simp only [true_and]; decide)
  have s₁ := reachable_step start (.snapshot (t := 0) rfl rfl
    (show Registry.slots _ (ascii "a") = some { inc := 0 } from rfl))
  have s₂ := reachable_step s₁ (.lockSnapshot (t := 0) (i := 0) rfl rfl)
  have s₃ := reachable_step s₂ (.drop (t := 1) rfl rfl
    (show Registry.slots _ (ascii "a") = some { inc := 0 } from rfl))
  have s₄ := reachable_step s₃ (.insert (t := 1) (i := 0) rfl)
  have s₅ := reachable_step s₄ (.unslot (t := 1) (i := 0) rfl)
  have s₆ := reachable_step s₅ (.saved (t := 0) (i := 0) rfl 1)
  have s₇ := reachable_step s₆ (.skip (show State.threads _ 0 = .recording 0 1 from rfl) rfl
    fun slot found => by cases found)
  have s₈ := reachable_step s₇ (.unlockSnapshot (t := 0) (i := 0) rfl)
  have s₉ := reachable_step s₈ (.leave (t := 0) (i := 0) rfl)
  have s₁₀ := reachable_step s₉ (.waited (t := 1) (i := 0) rfl rfl)
  have s₁₁ := reachable_step s₁₀ (.leave (t := 1) (i := 0) rfl)
  have s₁₂ := reachable_step s₁₁ (.deleteDir (t := 1) (i := 0) (d := { owner := 0 }) rfl rfl rfl)
  have s₁₃ := reachable_step s₁₂ (.erase (show State.threads _ 1 = .erasing 0 true from rfl))
  have s₁₄ := reachable_step s₁₃ (.create (t := 2) rfl rfl trivial (by decide : isValidName (ascii "a") = true))
  have s₁₅ := reachable_step s₁₄ (.accept (t := 2) rfl rfl (by decide))
  have s₁₆ := reachable_step s₁₅ (.leaveTemp (t := 2) (i := 3) rfl)
  have s₁₇ := reachable_step s₁₆ (.leaveHome (t := 2) (i := 3) rfl)
  have s₁₈ := reachable_step s₁₇ (.make (t := 2) (i := 3) rfl)
  have s₁₉ := reachable_step s₁₈ (.configured (t := 2) (i := 3) rfl)
  have s₂₀ := reachable_step s₁₉ (.rename (t := 2) (i := 3) (d := { owner := 3 }) rfl rfl (.inl rfl))
  have s₂₁ := reachable_step s₂₀ (.publish (t := 2) (i := 3) rfl)
  have s₂₂ := reachable_step s₂₁ (.snapshot (t := 0) rfl rfl
    (show Registry.slots _ (ascii "a") = some { inc := 3 } from rfl))
  have s₂₃ := reachable_step s₂₂ (.lockSnapshot (t := 0) (i := 3) rfl rfl)
  obtain ⟨s, reachable, dropped, at_, there⟩ : ∃ s, (machine FileSystem.posix fun _ => True).Reachable s ∧
      (s.inc 0).dropped = true ∧ s.threads 0 = .saving 0 ∧
      s.dirs (home FileSystem.posix s 0) = some { owner := 0 } :=
    ⟨_, s₅, rfl, rfl, rfl⟩
  obtain ⟨u, reused, erased, same, later, new⟩ : ∃ u, (machine FileSystem.posix fun _ => True).Reachable u ∧
      (u.inc 0).erased = 1 ∧ (u.inc 3).name = (u.inc 0).name ∧ u.threads 0 = .saving 3 ∧
      u.dirs (home FileSystem.posix u 3) = some { owner := 3 } := ⟨_, s₂₃, rfl, rfl, rfl, rfl⟩
  have gone (k : FileName) : u.owners k ≠ some 0 := by
    intro found
    rcases ((invariants apart_posix reused).2.owner k 0 found).2 with rfl | ⟨_, unpublished⟩
    · have place : home FileSystem.posix u 0 = home FileSystem.posix u 3 :=
        congrArg FileSystem.posix.platform.fold same.symm
      rw [place, owners_of_there new] at found
      cases found
    · have published := ((invariants apart_posix reused).1.sound.unborn 0 unpublished).2.2
      cases published.symm.trans erased
  have step : Steps FileSystem.posix (fun _ => True) 0 s (.touches 0 0) _ := .save at_ there (.put (ascii "x"))
  have step' : Steps FileSystem.posix (fun _ => True) 0 u (.touches 3 3) _ := .save later new (.put (ascii "x"))
  obtain ⟨safe', stays⟩ := (name_reuse_is_safe apart_posix reused).2 0 _ _ step'
  have safe := ((name_reuse_is_safe apart_posix reachable).2 0 _ _ step).1
  exact ⟨s, _, u, _, reachable, dropped, step, safe, reused, erased, same, step', safe', stays 0 erased gone⟩

/-- On Windows a collection whose name differs in the case of its letters takes the directory of one that is
dropped and still in use, and a snapshot of the old one writes into the directory of the new one. -/
theorem letter_case_ends_in_newer_directory : ¬ ∀ (F : FileSystem) (names : FileName → Prop) (s s' : State)
    (t : Nat) (label : Label),
    (machine F names).Reachable s → Steps F names t s label s' → Safe s s' label := by
  intro all
  have start : (machine FileSystem.windows fun _ => True).Reachable
      (opening FileSystem.windows [ascii "A"] [] (fun _ => 0) fun _ => []) :=
    reachable_opening (by decide) fun inc member => by
      obtain rfl := List.mem_singleton.mp member
      exact ⟨trivial, by decide⟩
  have s₁ := reachable_step start (.snapshot (t := 0) rfl rfl
    (show Registry.slots _ (ascii "A") = some { inc := 0 } from rfl))
  have s₂ := reachable_step s₁ (.lockSnapshot (t := 0) (i := 0) rfl rfl)
  have s₃ := reachable_step s₂ (.drop (t := 1) rfl rfl
    (show Registry.slots _ (ascii "A") = some { inc := 0 } from rfl))
  have s₄ := reachable_step s₃ (.insert (t := 1) (i := 0) rfl)
  have s₅ := reachable_step s₄ (.unslot (t := 1) (i := 0) rfl)
  have s₆ := reachable_step s₅ (.create (t := 2) rfl rfl trivial (by decide : isValidName (ascii "a") = true))
  have s₇ := reachable_step s₆ (.accept (t := 2) rfl rfl (by decide))
  have s₈ := reachable_step s₇ (.leaveTemp (t := 2) (i := 1) rfl)
  have s₉ := reachable_step s₈ (.clear (t := 2) (i := 1) (d := { owner := 0 }) rfl rfl rfl)
  have s₁₀ := reachable_step s₉ (.make (t := 2) (i := 1) rfl)
  have s₁₁ := reachable_step s₁₀ (.configured (t := 2) (i := 1) rfl)
  have s₁₂ := reachable_step s₁₁ (.rename (t := 2) (i := 1) (d := { owner := 1 }) rfl rfl (.inl rfl))
  have s₁₃ := reachable_step s₁₂ (.publish (t := 2) (i := 1) rfl)
  obtain ⟨s, reachable, at_, there⟩ : ∃ s, (machine FileSystem.windows fun _ => True).Reachable s ∧
    s.threads 0 = .saving 0 ∧
      s.dirs (home FileSystem.windows s 0) = some { owner := 1 } := ⟨_, s₁₃, rfl, rfl⟩
  exact absurd (all _ _ _ _ _ _ reachable (.save at_ there .same)) Nat.one_ne_zero

end Examples

end Incarnations
end VectorForge
