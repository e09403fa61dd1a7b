import VectorForge.Lib.Files

/-! Computations that have to do with a part of their state only. -/

namespace Effect
variable {σ ε α β : Type}

/-- States that are alike for `near` lead to the same result and stay alike, and whatever `far` looks at stays as
it is. -/
structure Confined (near far : σ → σ → Prop) (p : Effect σ ε α) : Prop where
  result : ∀ s t, near s t → (p s).1 = (p t).1
  near : ∀ s t, near s t → near (p s).2 (p t).2
  far : ∀ s, far s (p s).2

namespace Confined
variable {near far : σ → σ → Prop} [Std.Refl far] [IsTrans σ far] {p : Effect σ ε α} {f : α → Effect σ ε β}

omit [IsTrans σ far] in
theorem pure (a : α) : Confined near far (Pure.pure a : Effect σ ε α) :=
  ⟨fun _ _ _ => rfl, fun _ _ same => same, fun s => refl s⟩

omit [IsTrans σ far] in
theorem leave (e : ε) : Confined near far (Effect.leave e : Effect σ ε α) :=
  ⟨fun _ _ _ => rfl, fun _ _ same => same, fun s => refl s⟩

omit [Std.Refl far] [IsTrans σ far] in
theorem modify {g : σ → σ} (alike : ∀ s t, near s t → near (g s) (g t)) (stays : ∀ s, far s (g s)) :
    Confined near far (Effect.modify g : Effect σ ε Unit) := ⟨fun _ _ _ => rfl, alike, stays⟩

omit [Std.Refl far] in
/-- A computation that goes on with what another one has ended in. -/
theorem through {q : Effect σ ε β} (rest : Except ε α → Effect σ ε β) (first : Confined near far p)
    (after : ∀ r, Confined near far (rest r)) (run : ∀ s, q s = rest (p s).1 (p s).2) : Confined near far q := by
  refine ⟨fun s t same => ?_, fun s t same => ?_, fun s => ?_⟩
  · rw [run, run, first.result s t same]
    exact (after _).result _ _ (first.near s t same)
  · rw [run, run, first.result s t same]
    exact (after _).near _ _ (first.near s t same)
  · rw [run]
    exact IsTrans.trans s (p s).2 _ (first.far s) ((after _).far _)

theorem bind (first : Confined near far p) (rest : ∀ a, Confined near far (f a)) : Confined near far (p >>= f) := by
  let next : Except ε α → Effect σ ε β := fun r => match r with
    | .ok a => f a
    | .error e => Effect.leave e
  refine through next first (fun r => ?_) fun s => ?_
  · cases r with
    | ok a => exact rest a
    | error e => exact leave e
  · change andThen p f s = _
    rw [andThen]
    rcases p s with ⟨a | e, s'⟩ <;> rfl

omit [Std.Refl far] [IsTrans σ far] in
/-- A computation that looks at the state does so only where near states are the same. -/
theorem get {f : σ → Effect σ ε β} (depends : ∀ s t, near s t → f s = f t) (rest : ∀ s, Confined near far (f s)) :
    Confined near far (Effect.get >>= f) := by
  have run : ∀ s, (Effect.get >>= f) s = f s s := fun s => rfl
  constructor
  · intro s t same
    rw [run, run, depends s t same]
    exact (rest t).result s t same
  · intro s t same
    rw [run, run, depends s t same]
    exact (rest t).near s t same
  · intro s
    exact (rest s).far s

theorem attempt {caught : ε → Bool} (confined : Confined near far p) :
    Confined near far (Effect.attempt caught p) := by
  let next : Except ε α → Effect σ ε (Except ε α) := fun r => match r with
    | .ok a => Pure.pure (.ok a)
    | .error e => if caught e then Pure.pure (.error e) else Effect.leave e
  refine through next confined (fun r => ?_) fun s => ?_
  · cases r with
    | ok a => exact pure _
    | error e =>
      dsimp only [next]
      split
      · exact pure _
      · exact leave e
  · rw [Effect.attempt]
    rcases p s with ⟨e | a, s'⟩
    · dsimp only [next]
      split <;> rfl
    · rfl

theorem undo {caught : ε → Bool} {cleanup : Effect σ ε Unit} (confined : Confined near far p)
    (clean : Confined near far cleanup) : Confined near far (Effect.undo caught cleanup p) := by
  let next : Except ε α → Effect σ ε α := fun r => match r with
    | .ok a => Pure.pure a
    | .error e => if caught e then cleanup >>= fun _ => Effect.leave e else Effect.leave e
  refine through next confined (fun r => ?_) fun s => ?_
  · cases r with
    | ok a => exact pure a
    | error e =>
      dsimp only [next]
      split
      · exact bind clean fun _ => leave e
      · exact leave e
  · rw [Effect.undo]
    rcases p s with ⟨e | a, s'⟩
    · dsimp only [next]
      split <;> rfl
    · rfl

end Confined
end Effect

namespace Files
open Effect
variable {ν β ε α : Type} [DecidableEq ν]

/-- The same directories at some of the places. -/
def SameAt (places : ν → Prop) (d d' : Disk ν β) : Prop := ∀ k, places k → d'.lookup k = d.lookup k

/-- The places of directories with such names. -/
def At (P : Platform ν) (titles : ν → Prop) (k : ν) : Prop := ∃ name, titles name ∧ P.fold name = k

/-- Nothing has changed at other places, and a directory with a new name has one of the names. -/
structure Leaves (P : Platform ν) (titles : ν → Prop) (d d' : Disk ν β) : Prop where
  others : ∀ k, ¬ At P titles k → d'.lookup k = d.lookup k
  names : ∀ k D', d'.lookup k = some D' → (titles D'.name ∧ P.fold D'.name = k) ∨
    ∃ D, d.lookup k = some D ∧ D.name = D'.name

instance (P : Platform ν) (titles : ν → Prop) : Std.Refl (Leaves (β := β) P titles) :=
  ⟨fun _ => ⟨fun _ _ => rfl, fun _ D here => .inr ⟨D, here, rfl⟩⟩⟩

theorem Leaves.trans {P : Platform ν} {titles : ν → Prop} {d d' d'' : Disk ν β} (first : Leaves P titles d d')
    (second : Leaves P titles d' d'') : Leaves P titles d d'' where
  others k other := (second.others k other).trans (first.others k other)
  names k D'' here := by
    rcases second.names k D'' here with new | ⟨D', before, same⟩
    · exact .inl new
    · rcases first.names k D' before with ⟨title, place⟩ | ⟨D, there, old⟩
      · exact .inl ⟨same ▸ title, same ▸ place⟩
      · exact .inr ⟨D, there, old.trans same⟩

instance (P : Platform ν) (titles : ν → Prop) : IsTrans (Disk ν β) (Leaves P titles) := ⟨fun _ _ _ => Leaves.trans⟩

/-- A program that has to do with the directories of some names only. -/
abbrev Within (P : Platform ν) (titles : ν → Prop) (p : Fs ν β ε α) : Prop :=
  Confined (SameAt (At P titles)) (Leaves P titles) p

/-- A change that can be told from the directories of some names, and changes them only. -/
structure Change (P : Platform ν) (titles : ν → Prop) (change : Disk ν β → Option (Disk ν β)) : Prop where
  near : ∀ d d', SameAt (At P titles) d d' → Option.Rel (SameAt (At P titles)) (change d) (change d')
  far : ∀ d d', change d = some d' → Leaves P titles d d'

section Programs
variable {P : Platform ν} {env : Environment ν β} {titles : ν → Prop} {s : FsStep ν} {e : ε}
  {dir name : ν} {d d' : Disk ν β}

theorem within_step {change : Disk ν β → Option (Disk ν β)} (within : Change P titles change) :
    Within P titles (step env s e change) := by
  refine ⟨fun d d' same => ?_, fun d d' same => ?_, fun d => ?_⟩
  · have related := within.near d d' same
    simp only [step]
    cases env.turn s <;> dsimp only
    cases left : change d <;> cases right : change d' <;> rw [left, right] at related <;>
      first | rfl | cases related
  · have related := within.near d d' same
    simp only [step]
    cases env.turn s <;> dsimp only
    · cases left : change d <;> cases right : change d' <;> rw [left, right] at related
      · exact same
      · cases related
      · cases related
      · cases related with
        | some related => exact related
    · exact same
    · exact same
  · simp only [step]
    cases env.turn s <;> dsimp only
    · cases left : change d with
      | none => exact refl d
      | some d' => exact within.far d d' left
    · exact refl d
    · exact refl d

theorem within_ignore {p : Fs ν β ε Unit} (within : Within P titles p) : Within P titles (ignore p) :=
  within.attempt.bind fun _ => .pure ()

omit [DecidableEq ν] in
theorem at_title (title : titles name) : At P titles (P.fold name) := ⟨name, title, rfl⟩

omit [DecidableEq ν] in
theorem ne_of_title {k : ν} (title : titles name) (other : ¬ At P titles k) : k ≠ P.fold name := by
  intro equal
  rw [equal] at other
  exact other (at_title title)

theorem directory_sameAt (same : SameAt (At P titles) d d') (title : titles dir) :
    directory P d' dir = directory P d dir :=
  same _ (at_title title)

theorem file_sameAt (same : SameAt (At P titles) d d') (title : titles dir) :
    file P d' dir name = file P d dir name := by
  rw [file, file, directory_sameAt same title]

theorem sameAt_insert {places : ν → Prop} (same : SameAt places d d') (k : ν) (D : Directory ν β) :
    SameAt places (d.insert k D) (d'.insert k D) := by
  intro other here
  by_cases equal : other = k
  · rw [equal, AList.lookup_insert, AList.lookup_insert]
  · rw [AList.lookup_insert_ne equal, AList.lookup_insert_ne equal, same other here]

theorem sameAt_erase {places : ν → Prop} (same : SameAt places d d') (k : ν) :
    SameAt places (d.erase k) (d'.erase k) := by
  intro other here
  by_cases equal : other = k
  · rw [equal, AList.lookup_erase, AList.lookup_erase]
  · rw [AList.lookup_erase_ne equal, AList.lookup_erase_ne equal, same other here]

/-- A directory is put in its place, with its name or with the one that was there. -/
theorem leaves_insert {D : Directory ν β} (title : titles dir)
    (named : D.name = dir ∨ ∃ D', directory P d dir = some D' ∧ D'.name = D.name) :
    Leaves P titles d (d.insert (P.fold dir) D) := by
  refine ⟨fun k other => AList.lookup_insert_ne (ne_of_title title other), fun k D' here => ?_⟩
  by_cases equal : k = P.fold dir
  · rw [equal, AList.lookup_insert] at here
    cases here
    rcases named with same | ⟨D', there, same⟩
    · exact .inl ⟨same ▸ title, by rw [same, equal]⟩
    · exact .inr ⟨D', equal ▸ there, same⟩
  · rw [AList.lookup_insert_ne equal] at here
    exact .inr ⟨D', here, rfl⟩

theorem leaves_erase (title : titles dir) : Leaves P titles d (d.erase (P.fold dir)) := by
  refine ⟨fun k other => AList.lookup_erase_ne (ne_of_title title other), fun k D' here => ?_⟩
  by_cases equal : k = P.fold dir
  · rw [equal, AList.lookup_erase] at here
    cases here
  · rw [AList.lookup_erase_ne equal] at here
    exact .inr ⟨D', here, rfl⟩

theorem sameAt_setFiles (change : (AList fun _ : ν => β) → AList fun _ : ν => β) (same : SameAt (At P titles) d d')
    (title : titles dir) : SameAt (At P titles) (setFiles P dir change d) (setFiles P dir change d') := by
  rw [setFiles, setFiles, directory_sameAt same title]
  split
  · exact same
  · exact sameAt_insert same _ _

theorem leaves_setFiles (change : (AList fun _ : ν => β) → AList fun _ : ν => β) (d : Disk ν β)
    (title : titles dir) : Leaves P titles d (setFiles P dir change d) := by
  rw [setFiles]
  split
  next => exact refl d
  next D there => exact leaves_insert title (.inr ⟨D, there, rfl⟩)

/-- A change that is never refused. -/
theorem Change.always {change : Disk ν β → Disk ν β}
    (near : ∀ d d', SameAt (At P titles) d d' → SameAt (At P titles) (change d) (change d'))
    (far : ∀ d, Leaves P titles d (change d)) : Change P titles fun d => some (change d) := by
  refine ⟨fun d d' same => .some (near d d' same), fun d d' run => ?_⟩
  cases run
  exact far d

theorem Change.setFiles (title : titles dir) (change : (AList fun _ : ν => β) → AList fun _ : ν => β) :
    Change P titles fun d => some (setFiles P dir change d) :=
  .always (fun _ _ same => sameAt_setFiles change same title) fun d => leaves_setFiles change d title

theorem Change.nothing : Change (β := β) P titles some := .always (fun _ _ same => same) refl

theorem within_dataStep (title : titles dir) (content : β) :
    Within P titles (dataStep P env s e dir name content) := by
  refine ⟨fun d d' same => ?_, fun d d' same => ?_, fun d => ?_⟩
  · rw [dataStep, dataStep]
    cases env.turn s <;> rfl
  · rw [dataStep, dataStep]
    cases env.turn s <;> exact sameAt_setFiles _ same title
  · rw [dataStep]
    cases env.turn s <;> exact leaves_setFiles _ d title

theorem within_makeDirectory (title : titles dir) : Within P titles (makeDirectory P env e dir) := by
  refine within_step (.always (fun d d' same => ?_) fun d => ?_)
  · rw [directory_sameAt same title]
    split
    · exact same
    · exact sameAt_insert same _ _
  · split
    · exact refl d
    · exact leaves_insert title (.inl rfl)

theorem within_removeFile (title : titles dir) : Within P titles (removeFile P env e dir name) :=
  within_step (.setFiles title _)

theorem within_removeFiles (title : titles dir) : ∀ names : List ν, Within P titles (removeFiles P env e dir names)
  | [] => .pure ()
  | _ :: rest => (within_removeFile title).bind fun _ => within_removeFiles title rest

theorem within_removeAll (title : titles dir) : Within P titles (removeAll P env e dir) := by
  refine Confined.get (fun d d' same => ?_) fun d => ?_
  · rw [directory_sameAt same title]
  · split
    · exact .pure ()
    · exact (within_removeFiles title _).bind fun _ =>
        within_step (.always (fun _ _ same => sameAt_erase same _) fun d => leaves_erase title)

theorem within_renameDirectory {source target : ν} (start : titles source) (goal : titles target) :
    Within P titles (renameDirectory P env e source target) := by
  have moved {d d' : Disk ν β} (D : Directory ν β) (same : SameAt (At P titles) d d') :
      SameAt (At P titles) ((d.erase (P.fold source)).insert (P.fold target) D)
      ((d'.erase (P.fold source)).insert (P.fold target) D) :=
    sameAt_insert (sameAt_erase same _) _ D
  have away (d : Disk ν β) (D : Directory ν β) :
      Leaves P titles d ((d.erase (P.fold source)).insert (P.fold target) { D with name := target }) :=
    (leaves_erase start).trans (leaves_insert goal (.inl rfl))
  refine within_step ⟨fun d d' same => ?_, fun d d' run => ?_⟩
  · rw [directory_sameAt same start, directory_sameAt same goal]
    split
    · exact .none
    · exact .some (moved _ same)
    · split
      · exact .some (moved _ same)
      · exact .none
  · split at run
    · cases run
    · cases run
      exact away _ _
    · split at run
      · cases run
        exact away _ _
      · cases run

end Programs
end Files
