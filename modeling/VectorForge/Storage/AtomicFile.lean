import VectorForge.Lib.Files
import VectorForge.Storage.FlatJson

/-! Durable replacement of a file. -/

namespace VectorForge
open Files Effect

abbrev FileName := List Byte

/-- Programs on the directories of collections. -/
abbrev DirectoryOp (α : Type) := Fs FileName (List Byte) Status α

namespace AtomicFile

def pathText (dir file : FileName) : String := shown dir ++ "/" ++ shown file

def tempName (target : FileName) : FileName := target ++ ascii ".tmp"

variable (P : Platform FileName) (env : Environment FileName (List Byte))

/-- `remove_temp`, which ignores whether it works. -/
def removeTemp (dir file : FileName) : DirectoryOp Unit :=
  ignore (step env (.discard dir (tempName file)) (.ioError "") fun d => some (eraseFile P dir (tempName file) d))

/-- What is done between the creation of the temporary file and the rename, which is included. -/
def replaceContents (dir file : FileName) (contents : Checked (List Byte)) : DirectoryOp Unit :=
  match contents with
  | .error (.error st) => report st
  | .error (.fault _) => leave .stops
  | .ok bytes => do
    dataStep P env (.write dir (tempName file)) (.ioError ("write failed for " ++ pathText dir (tempName file))) dir
      (tempName file) bytes
    dataStep P env (.sync dir (tempName file)) (.ioError ("fsync failed for " ++ pathText dir (tempName file))) dir
      (tempName file) bytes
    step env (.close dir (tempName file)) (.ioError ("close failed for " ++ pathText dir (tempName file))) some
    step env (.rename dir (tempName file) file)
      (.ioError ("cannot rename " ++ pathText dir (tempName file) ++ " to " ++ pathText dir file)) fun d =>
      some (moveFile P dir (tempName file) file d)

/-- `write_atomic`, with what `write_contents` writes or the status it returns instead. -/
def writeAtomic (dir file : FileName) (contents : Checked (List Byte)) : DirectoryOp Unit := do
  step env (.create dir (tempName file)) (.ioError ("cannot create " ++ pathText dir (tempName file))) fun d =>
    if (directory P d dir).isSome then some (putFile P dir (tempName file) [] d) else none
  undo Interruption.caught (removeTemp P env dir file) (replaceContents P env dir file contents)
  step env (.syncDirectory dir file) (.ioError ("fsync failed for directory " ++ shown dir)) some

/-- The files that `write_atomic` has to do with. -/
def Involved (file : FileName) (f : FileName) : Prop := f = file ∨ f = tempName file

section Specification
variable {P : Platform FileName} {env : Environment FileName (List Byte)} {dir target : FileName}
  {contents : Checked (List Byte)} {d : Disk FileName (List Byte)}

theorem tempName_ne (target : FileName) : tempName target ≠ target := by
  intro same
  have length := congrArg List.length same
  have four : (ascii ".tmp").length = 4 := by decide
  rw [tempName, List.length_append, four] at length
  omega

theorem removeTemp_ends (d : Disk FileName (List Byte)) : Ends (removeTemp P env dir target) d
    (fun _ d' => OnlyFiles P dir (· = tempName target) d d') fun x d' => x = .stops ∧
    OnlyFiles P dir (· = tempName target) d d' ∧ Explained env False x := by
  have removed : Ends (step env (.discard dir (tempName target)) (Status.ioError "") fun d =>
      some (eraseFile P dir (tempName target) d)) d
      (fun _ d' => OnlyFiles P dir (· = tempName target) d d') fun x d' =>
      OnlyFiles P dir (· = tempName target) d d' ∧ Explained env False x := by
    refine step_ends (fun _ d' done => ?_) (fun _ refused => by cases refused)
      (fun left failed => ⟨.refl d, .inr ⟨_, left, failed⟩⟩)
      fun left stopped => ⟨.refl d, .inr ⟨_, left, stopped⟩⟩
    cases done
    exact .eraseFile rfl
  exact ignore_ends removed fun _ _ only => only.1

/-- The contents that are there once the file has been renamed, with the steps that have worked. -/
def Renamed (env : Environment FileName (List Byte)) (dir target : FileName) (contents : Checked (List Byte))
    (bytes : List Byte) : Prop :=
  contents = .ok bytes ∧ env.turn (.write dir (tempName target)) = .works ∧
    env.turn (.sync dir (tempName target)) = .works ∧
    env.turn (.close dir (tempName target)) = .works ∧ env.turn (.rename dir (tempName target) target) = .works

variable (env target contents) in
theorem replaceContents_ends (there : (directory P d dir).isSome) :
    Ends (replaceContents P env dir target contents) d
    (fun _ d' => ∃ bytes, Renamed env dir target contents bytes ∧ OnlyFiles P dir (Involved target) d d' ∧
      file P d' dir target = some bytes)
    fun x d' => OnlyFiles P dir (· = tempName target) d d' ∧ (∀ bytes, ¬ Renamed env dir target contents bytes) ∧
      Explained env (∀ bytes, contents ≠ .ok bytes) x := by
  unfold replaceContents
  split
  next st =>
    exact Ends.leave ⟨.refl d, fun _ renamed => (by cases renamed.1), .inl fun _ same => (by cases same)⟩
  next => exact Ends.leave ⟨.refl d, fun _ renamed => (by cases renamed.1), .inl fun _ same => (by cases same)⟩
  next bytes =>
    have put : ∀ {d : Disk FileName (List Byte)} left, OnlyFiles P dir (· = tempName target) d
        (putFile P dir (tempName target) left d) :=
      fun left => .putFile (by exact rfl) left
    refine Ends.bind (dataStep_ends (fun write => ?_) (fun left failed => ?_) fun left stopped => ?_)
    · refine Ends.bind (dataStep_ends (fun sync => ?_) (fun left failed => ?_) fun left stopped => ?_)
      · have both := (put (d := d) bytes).trans (put bytes)
        have filled := file_putFile ((put (d := d) bytes).isSome.trans there) (tempName target) bytes
        refine Ends.bind (step_ends (fun close d' done => ?_) (fun _ refused => by cases refused)
          (fun left failed => ?_) fun left stopped => ?_)
        · cases done
          refine step_ends (fun rename d' done => ?_) (fun _ refused => by cases refused) (fun left failed => ?_)
            fun left stopped => ?_
          · cases done
            exact ⟨bytes, ⟨rfl, write, sync, close, rename⟩,
              (both.mono fun _ same => .inr same).trans (.moveFile (.inr rfl) (.inl rfl)), file_moveFile filled⟩
          · exact ⟨both, fun _ renamed => (by rw [renamed.2.2.2.2] at failed; cases failed), .inr ⟨_, left, failed⟩⟩
          · exact ⟨both, fun _ renamed => (by rw [renamed.2.2.2.2] at stopped; cases stopped),
              .inr ⟨_, left, stopped⟩⟩
        · exact ⟨both, fun _ renamed => (by rw [renamed.2.2.2.1] at failed; cases failed), .inr ⟨_, left, failed⟩⟩
        · exact ⟨both, fun _ renamed => (by rw [renamed.2.2.2.1] at stopped; cases stopped),
            .inr ⟨_, left, stopped⟩⟩
      · exact ⟨(put bytes).trans (put left), fun _ renamed => (by rw [renamed.2.2.1] at failed; cases failed),
          .inr ⟨_, left, failed⟩⟩
      · exact ⟨(put bytes).trans (put left), fun _ renamed => (by rw [renamed.2.2.1] at stopped; cases stopped),
          .inr ⟨_, left, stopped⟩⟩
    · exact ⟨put left, fun _ renamed => (by rw [renamed.2.1] at failed; cases failed), .inr ⟨_, left, failed⟩⟩
    · exact ⟨put left, fun _ renamed => (by rw [renamed.2.1] at stopped; cases stopped), .inr ⟨_, left, stopped⟩⟩

/-- Everything that a replacement needs up to the rename. -/
def CanReplace (P : Platform FileName) (env : Environment FileName (List Byte)) (dir target : FileName)
    (contents : Checked (List Byte)) (d : Disk FileName (List Byte)) (bytes : List Byte) : Prop :=
  (directory P d dir).isSome ∧ env.turn (.create dir (tempName target)) = .works ∧
    Renamed env dir target contents bytes

/-- The target is replaced, or it is what it was; it has been replaced in spite of an error only when the
directory could not be synced. -/
theorem writeAtomic_ends (d : Disk FileName (List Byte)) : Ends (writeAtomic P env dir target contents) d
    (fun _ d' => ∃ bytes, CanReplace P env dir target contents d bytes ∧ OnlyFiles P dir (Involved target) d d' ∧
      file P d' dir target = some bytes ∧ env.turn (.syncDirectory dir target) = .works)
    fun x d' => OnlyFiles P dir (Involved target) d d' ∧
      ((file P d' dir target = file P d dir target ∧ ∀ bytes, ¬ CanReplace P env dir target contents d bytes) ∨
        ∃ bytes, CanReplace P env dir target contents d bytes ∧ file P d' dir target = some bytes ∧
          env.turn (.syncDirectory dir target) ≠ .works) ∧
      Explained env ((∀ bytes, contents ≠ .ok bytes) ∨ directory P d dir = none) x := by
  have same : ∀ {d' : Disk FileName (List Byte)}, OnlyFiles P dir (· = tempName target) d d' →
      OnlyFiles P dir (Involved target) d d' ∧
      file P d' dir target = file P d dir target := fun only =>
    ⟨only.mono fun _ same => .inr same, only.files target (tempName_ne target).symm⟩
  refine Ends.bind (step_ends (fun create d₁ done => ?_) (fun _ refused => ?_) (fun left failed => ?_)
    fun left stopped => ?_)
  · split at done
    next there =>
      cases done
      have fresh : OnlyFiles P dir (· = tempName target) d (putFile P dir (tempName target) [] d) :=
        .putFile (by exact rfl) []
      have body := replaceContents_ends env target contents (fresh.isSome.trans there)
      refine Ends.bind (Ends.undo (body.mono ?_ fun _ _ broken => broken) ?_ ?_)
      · rintro _ d₂ ⟨bytes, renamed, only, filled⟩
        have all := (same fresh).1.trans only
        refine step_ends (fun synced d' done => ?_) (fun _ refused => by cases refused) (fun left failed => ?_)
          fun left stopped => ?_
        · cases done
          exact ⟨bytes, ⟨there, create, renamed⟩, all, filled, synced⟩
        · exact ⟨all, .inr ⟨bytes, ⟨there, create, renamed⟩, filled, by
            rw [failed]; exact fun same => (by cases same)⟩,
            .inr ⟨_, left, failed⟩⟩
        · exact ⟨all, .inr ⟨bytes, ⟨there, create, renamed⟩, filled, by
            rw [stopped]; exact fun same => (by cases same)⟩,
            .inr ⟨_, left, stopped⟩⟩
      · rintro x d₂ ⟨only, not, explained⟩ -
        refine (removeTemp_ends d₂).mono (fun _ d₃ removed => ?_) fun y d₃ removed => ?_
        · have all := same ((fresh.trans only).trans removed)
          exact ⟨all.1, .inl ⟨all.2, fun bytes can => not bytes can.2.2⟩, explained.mono .inl⟩
        · have all := same ((fresh.trans only).trans removed.2.1)
          exact ⟨all.1, .inl ⟨all.2, fun bytes can => not bytes can.2.2⟩, removed.2.2.mono False.elim⟩
      · rintro x d₂ ⟨only, not, explained⟩ -
        have all := same (fresh.trans only)
        exact ⟨all.1, .inl ⟨all.2, fun bytes can => not bytes can.2.2⟩, explained.mono .inl⟩
    next => cases done
  · split at refused
    next => cases refused
    next missing =>
      exact ⟨.refl d, .inl ⟨rfl, fun bytes can => missing can.1⟩,
        .inl (.inr (Option.not_isSome_iff_eq_none.mp missing))⟩
  · refine ⟨.refl d, .inl ⟨rfl, fun bytes can => ?_⟩, .inr ⟨_, left, failed⟩⟩
    rw [can.2.1] at failed
    cases failed
  · refine ⟨.refl d, .inl ⟨rfl, fun bytes can => ?_⟩, .inr ⟨_, left, stopped⟩⟩
    rw [can.2.1] at stopped
    cases stopped

end Specification
end AtomicFile
end VectorForge
