import VectorForge.Lib.Files

/-! The removal of a directory that carries a marker, on disks where steps do not fail: a stop leaves the marker
or nothing, if nothing stops the removal once it has got past the marker. -/

namespace Files
open Effect
variable {ν β ε : Type} [DecidableEq ν]

/-- Steps work, or the program is stopped. -/
def Environment.CrashOnly (env : Environment ν β) : Prop := ∀ s left, env.turn s ≠ .fails left

/-- A removal of `dir` that gets past `marker` comes to its end. -/
def Environment.Spares (env : Environment ν β) (dir marker : ν) : Prop :=
  ∀ names before rest, env.order dir names = before ++ marker :: rest →
    (∀ f ∈ before, env.turn (.remove dir f) = .works) →
    env.turn (.remove dir marker) = .works → (∀ f ∈ rest, env.turn (.remove dir f) = .works) ∧
    env.turn (.removeDirectory dir) = .works

/-- A step is stopped. -/
def Environment.Interrupts (env : Environment ν β) : Prop := ∃ s left, env.turn s = .stops left

section Removal
variable {P : Platform ν} {env : Environment ν β} {d : Disk ν β} {e : ε} {dir marker : ν}

omit [DecidableEq ν] in
theorem Environment.CrashOnly.stops {x : Interruption ε} (crashes : env.CrashOnly)
    (explained : Explained env False x) : x = .stops := by
  cases x with
  | stops => rfl
  | reports e =>
    rcases explained with never | ⟨s, left, failed⟩
    · exact never.elim
    · exact absurd failed (crashes s left)

omit [DecidableEq ν] in
theorem Explained.interrupts (explained : Explained env False (.stops : Interruption ε)) : env.Interrupts :=
  explained.resolve_left id

theorem removeFile_ends (crashes : env.CrashOnly) (name : ν) (d : Disk ν β) : Ends (removeFile P env e dir name) d
    (fun _ d' => d' = eraseFile P dir name d ∧ env.turn (.remove dir name) = .works) fun x d' => x = .stops ∧
    d' = d ∧ env.turn (.remove dir name) ≠ .works := by
  refine step_ends (fun works d' done => ?_) (fun _ refused => by cases refused)
    (fun left failed => absurd failed (crashes _ left))
    fun left stopped => ⟨rfl, rfl, by simp only [stopped, ne_eq, reduceCtorEq, not_false_eq_true]⟩
  cases done
  exact ⟨rfl, works⟩

theorem removeFiles_works : ∀ (names : List ν) {D : Directory ν β} {d : Disk ν β}, directory P d dir = some D →
    (∀ f ∈ names, env.turn (.remove dir f) = .works) → env.CrashOnly →
    Ends (removeFiles P env e dir names) d (fun _ d' => Trimmed P dir d d') fun _ _ => False
  | [], D, d, there, _, _ => Ends.pure (trimmed_refl there)
  | name :: rest, D, d, there, works, crashes => by
    refine Ends.bind ((removeFile_ends crashes name d).mono ?_ fun x d' left =>
      left.2.2 (works name List.mem_cons_self))
    rintro _ d₁ ⟨rfl, -⟩
    have first := trimmed_eraseFile name there
    obtain ⟨-, -, D₁, -, still, -⟩ := first
    exact (removeFiles_works rest still (fun f member => works f (List.mem_cons_of_mem _ member)) crashes).mono
      (fun _ _ second => (trimmed_eraseFile name there).trans second) fun _ _ never => never

/-- The files in front of the marker, the marker and the others. -/
theorem removeFiles_spares {rest : List ν} (crashes : env.CrashOnly) :
    ∀ (before : List ν) {D : Directory ν β} {d : Disk ν β},
    directory P d dir = some D → marker ∉ before →
    ((∀ f ∈ before, env.turn (.remove dir f) = .works) → env.turn (.remove dir marker) = .works →
      ∀ f ∈ rest, env.turn (.remove dir f) = .works) →
    Ends (removeFiles P env e dir (before ++ marker :: rest)) d
      (fun _ d' => Trimmed P dir d d' ∧ (∀ f ∈ before, env.turn (.remove dir f) = .works) ∧
        env.turn (.remove dir marker) = .works)
      fun x d' => x = .stops ∧ Trimmed P dir d d' ∧ file P d' dir marker = file P d dir marker
  | [], D, d, there, _, spares => by
    refine Ends.bind ((removeFile_ends crashes marker d).mono ?_ ?_)
    · rintro _ d₁ ⟨rfl, works⟩
      obtain ⟨-, -, D₁, -, still, -⟩ := trimmed_eraseFile marker there
      exact (removeFiles_works rest still (spares nofun works) crashes).mono
        (fun _ _ second => ⟨(trimmed_eraseFile marker there).trans second, nofun, works⟩)
        fun _ _ never => never.elim
    · rintro x d₁ ⟨rfl, rfl, -⟩
      exact ⟨rfl, trimmed_refl there, rfl⟩
  | name :: before, D, d, there, absent, spares => by
    have apart : marker ≠ name := fun same => absent (same ▸ List.mem_cons_self)
    refine Ends.bind ((removeFile_ends crashes name d).mono ?_ ?_)
    · rintro _ d₁ ⟨rfl, works⟩
      have first := trimmed_eraseFile name there
      obtain ⟨-, -, D₁, -, still, -⟩ := first
      have every (others : ∀ f ∈ before, env.turn (.remove dir f) = .works) : ∀ f ∈ name :: before,
          env.turn (.remove dir f) = .works :=
        List.forall_mem_cons.mpr ⟨works, others⟩
      refine (removeFiles_spares crashes before still (fun member => absent (List.mem_cons_of_mem _ member))
        fun others => spares (every others)).mono ?_ ?_
      · rintro _ d₂ ⟨second, others, last⟩
        exact ⟨(trimmed_eraseFile name there).trans second, every others, last⟩
      · rintro x d₂ ⟨stopped, second, kept⟩
        exact ⟨stopped, (trimmed_eraseFile name there).trans second, kept.trans (file_eraseFile_ne apart)⟩
    · rintro x d₁ ⟨rfl, rfl, -⟩
      exact ⟨rfl, trimmed_refl there, rfl⟩

/-- The directory is gone, or it still has its marker. -/
theorem removeAll_spares (crashes : env.CrashOnly) (spares : env.Spares dir marker)
    (marked : (file P d dir marker).isSome) : Ends (removeAll P env e dir) d (fun _ d' => Erased P dir d d')
      fun x d' => x = .stops ∧ env.Interrupts ∧ Trimmed P dir d d' ∧
      file P d' dir marker = file P d dir marker := by
  have explained := (removeAll_ends P env e dir d).2
  suffices ends : Ends (removeAll P env e dir) d (fun _ d' => Erased P dir d d')
      fun x d' => x = .stops ∧ Trimmed P dir d d' ∧ file P d' dir marker = file P d dir marker from
    ⟨ends.1, fun x d' run => by
      obtain ⟨rfl, left⟩ := ends.2 x d' run
      exact ⟨rfl, (explained _ d' run).2.interrupts, left⟩⟩
  refine Ends.get ?_
  split
  next missing =>
    rw [file_of_none missing] at marked
    cases marked
  next D there =>
    rw [file_of_directory there] at marked
    have member : marker ∈ env.order dir D.files.keys :=
      (env.lists dir _).mem_iff.mpr (AList.mem_keys.mpr (AList.lookup_isSome.mp marked))
    have nodup : (env.order dir D.files.keys).Nodup := (env.lists dir _).nodup_iff.mpr D.files.nodupKeys
    obtain ⟨before, rest, split⟩ := List.append_of_mem member
    have absent : marker ∉ before := by
      rw [split, List.nodup_append] at nodup
      exact fun inside => nodup.2.2 marker inside marker List.mem_cons_self rfl
    rw [split]
    refine Ends.bind ((removeFiles_spares crashes before there absent fun first works =>
      (spares _ _ _ split first works).1).mono ?_ fun _ _ left => left)
    rintro _ d₁ ⟨trimmed, first, works⟩
    have last := (spares _ _ _ split first works).2
    refine step_ends (fun _ d' done => ?_) (fun _ refused => by cases refused)
      (fun left failed => absurd failed (crashes _ left))
      fun left stopped => ?_
    · cases done
      exact trimmed.erase
    · rw [last] at stopped
      cases stopped

end Removal
end Files
