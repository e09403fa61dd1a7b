import VectorForge.Lib.Effect

/-! Directories of files that a program changes step by step. Every step may fail, and the program may be
stopped in front of every step. -/

namespace Files
variable {ν β ε α : Type} [DecidableEq ν]

/-- A directory as it was named, with its files. -/
structure Directory (ν β : Type) where
  name : ν
  files : AList fun _ : ν => β

/-- Directories next to each other. The keys are the forms that names are compared in. -/
abbrev Disk (ν β : Type) := AList fun _ : ν => Directory ν β

/-- `fold` takes the names that mean one directory to one form; `replaces` tells whether a directory may be
renamed over an empty one. -/
structure Platform (ν : Type) where
  fold : ν → ν
  replaces : Bool

inductive FsStep (ν : Type) where
  | makeDirectory (dir : ν)
  | removeDirectory (dir : ν)
  | renameDirectory (source target : ν)
  | syncParent (dir : ν)
  | create (dir file : ν)
  | write (dir file : ν)
  | sync (dir file : ν)
  | close (dir file : ν)
  | rename (dir source target : ν)
  | syncDirectory (dir file : ν)
  | remove (dir file : ν)
  | discard (dir file : ν)
  deriving DecidableEq, Repr

/-- How a step goes. When data does not get to the disk, anything may be left in the file. -/
inductive Turn (β : Type) where
  | works
  | fails (left : β)
  | stops (left : β)
  deriving DecidableEq, Repr

/-- How the steps go, and in which order directories are listed. -/
structure Environment (ν β : Type) where
  turn : FsStep ν → Turn β
  order : ν → List ν → List ν := fun _ names => names
  lists : ∀ dir names, (order dir names).Perm names := by exact fun _ _ => .refl _

inductive Interruption (ε : Type) where
  | stops
  | reports (e : ε)
  deriving DecidableEq, Repr

abbrev Fs (ν β ε α : Type) := Effect (Disk ν β) (Interruption ε) α

/-- An error code that nobody looks at. -/
def Interruption.caught : Interruption ε → Bool
  | stops => false
  | reports _ => true

/-- Why a program is interrupted: because of a step, or for a reason of its own. -/
def Explained (env : Environment ν β) (reason : Prop) (x : Interruption ε) : Prop :=
  reason ∨ ∃ s left, env.turn s = match x with
    | .stops => .stops left
    | .reports _ => .fails left

omit [DecidableEq ν] in
theorem Explained.mono {env : Environment ν β} {reason other : Prop} {x : Interruption ε}
    (explained : Explained env reason x) (imp : reason → other) : Explained env other x := Or.imp_left imp explained

section Reading
variable (P : Platform ν) (d : Disk ν β)

def directory (dir : ν) : Option (Directory ν β) := d.lookup (P.fold dir)

def file (dir name : ν) : Option β := (directory P d dir).bind fun D => D.files.lookup name

end Reading

section Changes
variable (P : Platform ν)

/-- The disk with another set of files in a directory that is there. -/
def setFiles (dir : ν) (change : (AList fun _ : ν => β) → AList fun _ : ν => β) (d : Disk ν β) : Disk ν β :=
  match directory P d dir with
  | none => d
  | some D => d.insert (P.fold dir) { D with files := change D.files }

def putFile (dir name : ν) (content : β) : Disk ν β → Disk ν β := setFiles P dir (AList.insert name content)

def eraseFile (dir name : ν) : Disk ν β → Disk ν β := setFiles P dir (AList.erase name)

/-- A rename within a directory, which replaces the target. -/
def moveFile (dir source target : ν) : Disk ν β → Disk ν β := setFiles P dir fun files =>
  match files.lookup source with
  | none => files
  | some content => (files.erase source).insert target content

end Changes

section Steps
variable (P : Platform ν) (env : Environment ν β)

def report (e : ε) : Fs ν β ε α := Effect.leave (.reports e)

/-- A step that is refused where there is nothing it could change the disk to. -/
def step (s : FsStep ν) (e : ε) (change : Disk ν β → Option (Disk ν β)) : Fs ν β ε Unit := fun d =>
  match env.turn s with
  | .works =>
    match change d with
    | some d' => (.ok (), d')
    | none => (.error (.reports e), d)
  | .fails _ => (.error (.reports e), d)
  | .stops _ => (.error .stops, d)

/-- A step that has to do with the data of a file. -/
def dataStep (s : FsStep ν) (e : ε) (dir name : ν) (content : β) : Fs ν β ε Unit := fun d =>
  match env.turn s with
  | .works => (.ok (), putFile P dir name content d)
  | .fails left => (.error (.reports e), putFile P dir name left d)
  | .stops left => (.error .stops, putFile P dir name left d)

/-- `p`, whose error is ignored. -/
def ignore (p : Fs ν β ε Unit) : Fs ν β ε Unit := do
  let _ ← Effect.attempt Interruption.caught p

/-- `create_directories` for one directory. -/
def makeDirectory (e : ε) (dir : ν) : Fs ν β ε Unit :=
  step env (.makeDirectory dir) e fun d =>
    some (match directory P d dir with
      | some _ => d
      | none => d.insert (P.fold dir) ⟨dir, ∅⟩)

def removeFile (e : ε) (dir name : ν) : Fs ν β ε Unit :=
  step env (.remove dir name) e fun d => some (eraseFile P dir name d)

/-- The files of a directory, one after the other. -/
def removeFiles (e : ε) (dir : ν) : List ν → Fs ν β ε Unit
  | [] => pure ()
  | name :: rest => do
    removeFile P env e dir name
    removeFiles e dir rest

/-- `remove_all` of a directory, which need not be there. -/
def removeAll (e : ε) (dir : ν) : Fs ν β ε Unit := do
  match directory P (← Effect.get) dir with
  | none => pure ()
  | some D =>
    removeFiles P env e dir (env.order dir D.files.keys)
    step env (.removeDirectory dir) e fun d => some (d.erase (P.fold dir))

/-- A rename of a directory. A directory that is in the way has to be empty, if it can be replaced at all. -/
def renameDirectory (e : ε) (source target : ν) : Fs ν β ε Unit :=
  step env (.renameDirectory source target) e fun d =>
    match directory P d source, directory P d target with
    | none, _ => none
    | some D, none => some ((d.erase (P.fold source)).insert (P.fold target) { D with name := target })
    | some D, some other =>
      if P.replaces && other.files.keys.isEmpty then
        some ((d.erase (P.fold source)).insert (P.fold target) { D with name := target }) else none

end Steps

section Reads
variable {P : Platform ν} {d : Disk ν β} {dir name other : ν}
  {change : (AList fun _ : ν => β) → AList fun _ : ν => β}

theorem lookup_setFiles_ne {k : ν} (apart : k ≠ P.fold dir) : (setFiles P dir change d).lookup k = d.lookup k := by
  rw [setFiles]
  split
  · rfl
  · exact AList.lookup_insert_ne apart

theorem directory_setFiles : directory P (setFiles P dir change d) dir =
    (directory P d dir).map fun D => { D with files := change D.files } := by
  rw [setFiles]
  cases known : directory P d dir with
  | none => exact known
  | some D => exact AList.lookup_insert _

theorem file_setFiles : file P (setFiles P dir change d) dir name =
    (directory P d dir).bind fun D => (change D.files).lookup name := by
  rw [file, directory_setFiles]
  cases directory P d dir <;> rfl

theorem file_of_directory {D : Directory ν β} (known : directory P d dir = some D) :
    file P d dir name = D.files.lookup name := by
  rw [file, known]
  rfl

theorem file_putFile (there : (directory P d dir).isSome) (name : ν) (content : β) :
    file P (putFile P dir name content d) dir name = some content := by
  obtain ⟨D, known⟩ := Option.isSome_iff_exists.mp there
  rw [putFile, file_setFiles, known]
  exact AList.lookup_insert _

theorem file_eraseFile : file P (eraseFile P dir name d) dir name = none := by
  rw [eraseFile, file_setFiles]
  cases directory P d dir with
  | none => rfl
  | some D => exact AList.lookup_erase _ _

theorem file_eraseFile_ne (apart : other ≠ name) :
    file P (eraseFile P dir name d) dir other = file P d dir other := by
  rw [eraseFile, file_setFiles, file]
  cases directory P d dir with
  | none => rfl
  | some D => exact AList.lookup_erase_ne apart

theorem file_moveFile {source target : ν} {content : β} (known : file P d dir source = some content) :
    file P (moveFile P dir source target d) dir target = some content := by
  rw [moveFile, file_setFiles]
  rw [file] at known
  cases here : directory P d dir with
  | none =>
    rw [here] at known
    cases known
  | some D =>
    rw [here] at known
    change D.files.lookup source = some content at known
    simp only [Option.bind_some, known]
    exact AList.lookup_insert _

theorem file_of_none (missing : directory P d dir = none) : file P d dir name = none := by
  rw [file, missing]
  rfl

end Reads

/-- Nothing is different but some of the files of one directory. -/
structure OnlyFiles (P : Platform ν) (dir : ν) (names : ν → Prop) (d d' : Disk ν β) : Prop where
  others : ∀ k, k ≠ P.fold dir → d'.lookup k = d.lookup k
  name : (directory P d' dir).map (·.name) = (directory P d dir).map (·.name)
  files : ∀ f, ¬ names f → file P d' dir f = file P d dir f

namespace OnlyFiles
variable {P : Platform ν} {dir : ν} {names more : ν → Prop} {d d' d'' : Disk ν β}

theorem refl (d : Disk ν β) : OnlyFiles P dir names d d := ⟨fun _ _ => rfl, rfl, fun _ _ => rfl⟩

theorem trans (first : OnlyFiles P dir names d d') (second : OnlyFiles P dir names d' d'') :
    OnlyFiles P dir names d d'' :=
  ⟨fun k apart => (second.others k apart).trans (first.others k apart), second.name.trans first.name,
    fun f not => (second.files f not).trans (first.files f not)⟩

theorem mono (only : OnlyFiles P dir names d d') (imp : ∀ f, names f → more f) : OnlyFiles P dir more d d' :=
  ⟨only.others, only.name, fun f not => only.files f fun mem => not (imp f mem)⟩

theorem isSome (only : OnlyFiles P dir names d d') : (directory P d' dir).isSome = (directory P d dir).isSome := by
  have name := congrArg Option.isSome only.name
  rwa [Option.isSome_map, Option.isSome_map] at name

theorem setFiles {change : (AList fun _ : ν => β) → AList fun _ : ν => β}
    (same : ∀ files f, ¬ names f → (change files).lookup f = files.lookup f) :
    OnlyFiles P dir names d (Files.setFiles P dir change d) := by
  refine ⟨fun k apart => lookup_setFiles_ne apart, ?_, fun f not => ?_⟩
  · rw [directory_setFiles]
    cases directory P d dir <;> rfl
  · rw [file_setFiles, file]
    cases directory P d dir with
    | none => rfl
    | some D => exact same D.files f not

theorem putFile {name : ν} (mem : names name) (content : β) :
    OnlyFiles P dir names d (Files.putFile P dir name content d) :=
  setFiles fun _ f not => AList.lookup_insert_ne fun same : f = name => not (same ▸ mem)

theorem eraseFile {name : ν} (mem : names name) : OnlyFiles P dir names d (Files.eraseFile P dir name d) :=
  setFiles fun _ f not => AList.lookup_erase_ne fun same : f = name => not (same ▸ mem)

theorem moveFile {source target : ν} (left : names source) (right : names target) :
    OnlyFiles P dir names d (Files.moveFile P dir source target d) :=
  setFiles fun files f not => by
    split
    · rfl
    · rw [AList.lookup_insert_ne fun same : f = target => not (same ▸ right), AList.lookup_erase_ne fun same : f =
        source => not (same ▸ left)]

end OnlyFiles

/-- A directory is there with at most the files that it had. -/
structure Trimmed (P : Platform ν) (dir : ν) (d d' : Disk ν β) : Prop where
  others : ∀ k, k ≠ P.fold dir → d'.lookup k = d.lookup k
  files : ∃ D D', directory P d dir = some D ∧ directory P d' dir = some D' ∧ D'.name = D.name ∧
    ∀ f, D'.files.lookup f = D.files.lookup f ∨ D'.files.lookup f = none

/-- A directory is gone. -/
def Erased (P : Platform ν) (dir : ν) (d d' : Disk ν β) : Prop :=
  ∀ k, d'.lookup k = if k = P.fold dir then none else d.lookup k

theorem Trimmed.trans {P : Platform ν} {dir : ν} {d d' d'' : Disk ν β} (first : Trimmed P dir d d')
    (second : Trimmed P dir d' d'') : Trimmed P dir d d'' := by
  obtain ⟨others, D, D', before, between, name, files⟩ := first
  obtain ⟨others', D₁, D'', between', after, name', files'⟩ := second
  cases between.symm.trans between'
  refine ⟨fun k apart => (others' k apart).trans (others k apart), D, D'', before, after, name'.trans name,
    fun f => ?_⟩
  rcases files' f with same | none
  · rw [same]
    exact files f
  · exact .inr none

theorem Trimmed.erase {P : Platform ν} {dir : ν} {d d' : Disk ν β} (trimmed : Trimmed P dir d d') :
    Erased P dir d (d'.erase (P.fold dir)) := by
  intro k
  by_cases here : k = P.fold dir
  · rw [if_pos here, here]
    exact AList.lookup_erase _ _
  · rw [if_neg here, AList.lookup_erase_ne here]
    exact trimmed.others k here

section Ends
variable {P : Platform ν} {env : Environment ν β} {d : Disk ν β} {s : FsStep ν} {e : ε}
  {post : Unit → Disk ν β → Prop} {exits : Interruption ε → Disk ν β → Prop}
open Effect

omit [DecidableEq ν] in
theorem step_ends {change : Disk ν β → Option (Disk ν β)}
    (works : env.turn s = .works → ∀ d', change d = some d' → post () d')
    (refused : env.turn s = .works → change d = none → exits (.reports e) d)
    (fails : ∀ left, env.turn s = .fails left → exits (.reports e) d)
    (stops : ∀ left, env.turn s = .stops left → exits .stops d) : Ends (step env s e change) d post exits := by
  cases turn : env.turn s with
  | works =>
    cases known : change d with
    | some d' =>
      have run : step env s e change d = (pure () : Fs ν β ε Unit) d' := by simp only [step, turn, known]; rfl
      exact Ends.of_eq run (Ends.pure (works turn d' known))
    | none =>
      have run : step env s e change d = (report e : Fs ν β ε Unit) d := by simp only [step, turn, known]; rfl
      exact Ends.of_eq run (Ends.leave (refused turn known))
  | fails left =>
    have run : step env s e change d = (report e : Fs ν β ε Unit) d := by simp only [step, turn]; rfl
    exact Ends.of_eq run (Ends.leave (fails left turn))
  | stops left =>
    have run : step env s e change d = (Effect.leave .stops : Fs ν β ε Unit) d := by simp only [step, turn]; rfl
    exact Ends.of_eq run (Ends.leave (stops left turn))

theorem dataStep_ends {dir name : ν} {content : β}
    (works : env.turn s = .works → post () (putFile P dir name content d))
    (fails : ∀ left, env.turn s = .fails left → exits (.reports e) (putFile P dir name left d))
    (stops : ∀ left, env.turn s = .stops left → exits .stops (putFile P dir name left d)) :
    Ends (dataStep P env s e dir name content) d post exits := by
  cases turn : env.turn s with
  | works =>
    have run : dataStep P env s e dir name content d = (pure () : Fs ν β ε Unit)
        (putFile P dir name content d) := by simp only [dataStep, turn]; rfl
    exact Ends.of_eq run (Ends.pure (works turn))
  | fails left =>
    have run : dataStep P env s e dir name content d = (report e : Fs ν β ε Unit) (putFile P dir name left d) := by
      simp only [dataStep, turn]; rfl
    exact Ends.of_eq run (Ends.leave (fails left turn))
  | stops left =>
    have run : dataStep P env s e dir name content d = (Effect.leave .stops : Fs ν β ε Unit)
        (putFile P dir name left d) := by simp only [dataStep, turn]; rfl
    exact Ends.of_eq run (Ends.leave (stops left turn))

/-- A directory that is there stays as it is, another one starts without files. -/
theorem makeDirectory_ends (e : ε) (dir : ν) (d : Disk ν β) : Ends (makeDirectory P env e dir) d
    (fun _ d' => env.turn (.makeDirectory dir) = .works ∧ (∀ k, k ≠ P.fold dir → d'.lookup k = d.lookup k) ∧
      (directory P d' dir).isSome ∧ ((directory P d dir).isSome → d' = d) ∧
      (directory P d dir = none → directory P d' dir = some ⟨dir, ∅⟩))
    fun x d' => d' = d ∧ env.turn (.makeDirectory dir) ≠ .works ∧ Explained env False x := by
  refine step_ends (fun works d' done => ⟨works, ?_⟩) (fun _ refused => by cases refused)
    (fun left failed => ⟨rfl, by simp only [failed, ne_eq, reduceCtorEq,
      not_false_eq_true], .inr ⟨_, left, failed⟩⟩)
    fun left stopped => ⟨rfl, by simp only [stopped, ne_eq, reduceCtorEq,
      not_false_eq_true], .inr ⟨_, left, stopped⟩⟩
  cases known : directory P d dir with
  | some D =>
    rw [known] at done
    cases done
    exact ⟨fun _ _ => rfl, by rw [known]; rfl, fun _ => rfl, fun none => by cases none⟩
  | none =>
    rw [known] at done
    cases done
    have made : directory P (d.insert (P.fold dir) ⟨dir, ∅⟩) dir = some ⟨dir, ∅⟩ := AList.lookup_insert _
    exact ⟨fun k apart => AList.lookup_insert_ne apart, by
      rw [made]; rfl, fun some => (by cases some), fun _ => made⟩

theorem trimmed_refl {D : Directory ν β} {dir : ν} (there : directory P d dir = some D) : Trimmed P dir d d :=
  ⟨fun _ _ => rfl, D, D, there, there, rfl, fun _ => .inl rfl⟩

theorem trimmed_eraseFile {D : Directory ν β} {dir : ν} (name : ν) (there : directory P d dir = some D) :
    Trimmed P dir d (eraseFile P dir name d) := by
  refine ⟨fun k apart => lookup_setFiles_ne apart, D, { D with files := D.files.erase name }, there,
    ?_, rfl, fun f => ?_⟩
  · rw [eraseFile, directory_setFiles, there]
    rfl
  · by_cases same : f = name
    · exact .inr (same ▸ AList.lookup_erase _ _)
    · exact .inl (AList.lookup_erase_ne same)

theorem removeFiles_ends (e : ε) (dir : ν) : ∀ (names : List ν) {D : Directory ν β} {d : Disk ν β},
    directory P d dir = some D →
    Ends (removeFiles P env e dir names) d (fun _ d' => Trimmed P dir d d') fun x d' => Trimmed P dir d d' ∧
    Explained env False x
  | [], D, d, there => Ends.pure (trimmed_refl there)
  | name :: rest, D, d, there => by
    refine Ends.bind (step_ends (fun _ d₁ done => ?_) (fun _ refused => by cases refused)
      (fun left failed => ⟨trimmed_refl there, .inr ⟨_, left, failed⟩⟩) fun left stopped =>
      ⟨trimmed_refl there, .inr ⟨_, left, stopped⟩⟩)
    cases done
    have first := trimmed_eraseFile name there
    obtain ⟨-, -, D₁, -, still, -⟩ := first
    exact (removeFiles_ends e dir rest still).mono (fun _ _ second => (trimmed_eraseFile name there).trans second)
      fun _ _ second => ⟨(trimmed_eraseFile name there).trans second.1, second.2⟩

/-- Everything in a directory is removed and then the directory, or some of its files are left. -/
theorem removeAll_ends (P : Platform ν) (env : Environment ν β) (e : ε) (dir : ν) (d : Disk ν β) :
    Ends (removeAll P env e dir) d (fun _ d' => Erased P dir d d')
    fun x d' => Trimmed P dir d d' ∧ Explained env False x := by
  refine Ends.get ?_
  split
  next missing =>
    refine Ends.pure fun k => ?_
    by_cases here : k = P.fold dir
    · rw [if_pos here, here]
      exact missing
    · rw [if_neg here]
  next D there =>
    refine Ends.bind ((removeFiles_ends e dir _ there).mono (fun _ d₁ trimmed => ?_) fun _ _ exit => exit)
    refine step_ends (fun _ d' done => ?_) (fun _ refused => by cases refused)
      (fun left failed => ⟨trimmed, .inr ⟨_, left, failed⟩⟩) fun left stopped => ⟨trimmed, .inr ⟨_, left, stopped⟩⟩
    cases done
    exact trimmed.erase

/-- A directory gets another name, in a place that is free or that it may take. -/
theorem renameDirectory_ends (e : ε) (source target : ν) (d : Disk ν β) :
    Ends (renameDirectory P env e source target) d
      (fun _ d' => env.turn (.renameDirectory source target) = .works ∧ ∃ D, directory P d source = some D ∧
        ∀ k, d'.lookup k =
          if k = P.fold target then some { D with name := target }
          else if k = P.fold source then none else d.lookup k)
      fun x d' => d' = d ∧
        ((directory P d source = none ∨ (directory P d target).isSome) ∨
          env.turn (.renameDirectory source target) ≠ .works) ∧
        Explained env ((∃ e, x = .reports e) ∧
          (directory P d source = none ∨ (directory P d target).isSome)) x := by
  have moved : ∀ (D : Directory ν β) k,
      ((d.erase (P.fold source)).insert (P.fold target) { D with name := target }).lookup k =
      if k = P.fold target then some { D with name := target }
      else if k = P.fold source then none else d.lookup k := by
    intro D k
    by_cases new : k = P.fold target
    · rw [if_pos new, new]
      exact AList.lookup_insert _
    · rw [if_neg new, AList.lookup_insert_ne new]
      by_cases old : k = P.fold source
      · rw [if_pos old, old]
        exact AList.lookup_erase _ _
      · rw [if_neg old, AList.lookup_erase_ne old]
  have free : (match directory P d source, directory P d target with
      | none, _ => none
      | some D, none => some ((d.erase (P.fold source)).insert (P.fold target) { D with name := target })
      | some D, some other =>
        if P.replaces && other.files.keys.isEmpty then
          some ((d.erase (P.fold source)).insert (P.fold target) { D with name := target })
        else none) = none → directory P d source = none ∨ (directory P d target).isSome := by
    intro refused
    split at refused
    next missing => exact .inl missing
    next => cases refused
    next taken => exact .inr (by rw [taken]; rfl)
  refine step_ends (fun works d' done => ⟨works, ?_⟩)
    (fun _ refused => ⟨rfl, .inl (free refused), .inl ⟨⟨e, rfl⟩, free refused⟩⟩)
    (fun left failed => ⟨rfl, .inr (by simp only [failed, ne_eq, reduceCtorEq, not_false_eq_true]),
      .inr ⟨_, left, failed⟩⟩)
    fun left stopped => ⟨rfl, .inr (by simp only [stopped, ne_eq, reduceCtorEq, not_false_eq_true]),
      .inr ⟨_, left, stopped⟩⟩
  · split at done
    next => cases done
    next D there _ =>
      cases done
      exact ⟨D, there, moved D⟩
    next D other there _ =>
      split at done
      next =>
        cases done
        exact ⟨D, there, moved D⟩
      next => cases done

omit [DecidableEq ν] in
/-- An ignored error leaves the disk as it was when the error came up. -/
theorem ignore_ends {p : Fs ν β ε Unit} (ends : Ends p d post exits)
    (goes : ∀ e d', exits (.reports e) d' → post () d') :
    Ends (ignore p) d post fun x d' => x = .stops ∧ exits x d' := by
  have tried : Ends (Effect.attempt Interruption.caught p) d (fun _ d' => post () d') fun x d' =>
      x = .stops ∧ exits x d' := by
    refine Ends.attempt (ends.mono (fun _ _ holds => holds) fun x d' holds => ?_)
    cases x with
    | stops => exact ⟨rfl, holds⟩
    | reports e => exact goes e d' holds
  exact Ends.bind (tried.mono (fun _ _ holds => Ends.pure holds) fun _ _ holds => holds)

end Ends
end Files
