import VectorForge.Lib.Interleaving

/-! What programs return whatever they are answered, and that no thread takes steps for ever. -/

namespace Prog
variable {Op : Type} {Ret : Op → Type} {α β : Type} {answers : (o : Op) → Ret o → Prop} {post weaker : α → Prop}

/-- Operations that answer like this make the program return nothing but such values. -/
def Returns (answers : (o : Op) → Ret o → Prop) : Prog Op Ret α → (α → Prop) → Prop
  | done a, post => post a
  | call o next, post => ∀ r, answers o r → (next r).Returns answers post

theorem Returns.mono {p : Prog Op Ret α} (returns : p.Returns answers post) (imp : ∀ a, post a → weaker a) :
    p.Returns answers weaker := by
  induction p with
  | done a => exact imp a returns
  | call o next ih => exact fun r answered => ih r (returns r answered)

theorem Returns.bind {p : Prog Op Ret α} {f : α → Prog Op Ret β} {after : β → Prop}
    (first : p.Returns answers fun a => (f a).Returns answers after) : (p >>= f).Returns answers after := by
  induction p with
  | done a => exact first
  | call o next ih => exact fun r answered => ih r (first r answered)

/-- `p` is what one answer leaves of `q`. -/
def Below (p q : Prog Op Ret α) : Prop := ∃ o next r, q = call o next ∧ p = next r

theorem below_wf : WellFounded (Below : Prog Op Ret α → Prog Op Ret α → Prop) := by
  refine ⟨fun p => ?_⟩
  induction p with
  | done a =>
    refine ⟨_, ?_⟩
    rintro _ ⟨_, _, _, same, _⟩
    cases same
  | call o next ih =>
    refine ⟨_, ?_⟩
    rintro _ ⟨_, _, r, same, rfl⟩
    cases same
    exact ih r

end Prog

namespace Discipline
variable {Op : Type} {Ret : Op → Type} {σ Γ α : Type} {D : Discipline Op Ret σ Γ} {i : Nat}
  {post : α → σ → Γ → Prop} {s : σ} {γ : Γ} {allowed : Nat → Op → σ → Prop}

section Preconditions

/-- The same operations under other preconditions. -/
def allowing (D : Discipline Op Ret σ Γ) (allowed : Nat → Op → σ → Prop) :
    Discipline Op Ret σ Γ := { D with allowed }

theorem Ok.allowing {p : Prog Op Ret α} (ok : D.Ok i p post s γ) (weaker : ∀ o s, D.allowed i o s → allowed i o s) :
    (D.allowing allowed).Ok i p post s γ := by
  induction p generalizing s γ with
  | done a => exact ok
  | call o next ih =>
    intro s₁ γ₁ rely inv
    obtain ⟨may, each⟩ := ok s₁ γ₁ rely inv
    refine ⟨weaker o s₁ may, fun r s₂ does => ?_⟩
    obtain ⟨γ₂, inv₂, others, rest⟩ := each r s₂ does
    exact ⟨γ₂, inv₂, others, ih r rest⟩

theorem Step.allowing {a b : σ × (Nat → Prog Op Ret α)} (step : D.Step a b) : (D.allowing allowed).Step a b := by
  cases step with
  | run at_ does => exact .run at_ does

theorem Runs.allowing {a b : σ × (Nat → Prog Op Ret α)} (runs : D.Runs a b) : (D.allowing allowed).Runs a b :=
  Relation.ReflTransGen.mono (fun _ _ step => step.allowing) _ _ runs

end Preconditions

/-- What a program is sure to return is added to what it is good for. `keeps` is what neither the program nor the
others change. -/
theorem Ok.returns {p : Prog Op Ret α} {answers : (o : Op) → Ret o → Prop} {value : α → Prop} (keeps : σ → Prop)
    (ok : D.Ok i p post s γ) (stable : ∀ s γ s' γ', D.rely i s γ s' γ' → keeps s → keeps s')
    (answered : ∀ o s r s', keeps s → D.allowed i o s → D.does i o s r s' → keeps s' ∧
      answers o r) (start : keeps s)
    (returns : p.Returns answers value) : D.Ok i p (fun a s γ => post a s γ ∧ value a) s γ := by
  induction p generalizing s γ with
  | done a => exact fun s₁ γ₁ rely inv => ⟨ok s₁ γ₁ rely inv, returns⟩
  | call o next ih =>
    intro s₁ γ₁ rely inv
    obtain ⟨may, each⟩ := ok s₁ γ₁ rely inv
    refine ⟨may, fun r s₂ does => ?_⟩
    obtain ⟨γ₂, inv₂, others, rest⟩ := each r s₂ does
    obtain ⟨kept, answer⟩ := answered o s₁ r s₂ (stable s γ s₁ γ₁ rely start) may does
    exact ⟨γ₂, inv₂, others, ih r rest kept (returns r answer)⟩

/-- A step replaces the program of one thread by what is left of it. -/
theorem Step.below {a b : σ × (Nat → Prog Op Ret α)} (step : D.Step a b) (i : Nat) : b.2 i = a.2 i ∨
    (b.2 i).Below (a.2 i) := by
  cases step with
  | @run pool j o next s s' r at_ does =>
    by_cases mine : i = j
    · subst mine
      refine .inr ⟨o, next, r, at_, ?_⟩
      exact Function.update_self i (next r) pool
    · exact .inl (Function.update_of_ne mine _ _)

/-- In an endless interleaving every thread comes to rest. -/
theorem settles {c : Nat → σ × (Nat → Prog Op Ret α)} (steps : ∀ n, D.Step (c n) (c (n + 1))) (i : Nat) :
    ∃ last, ∀ n, last ≤ n → (c n).2 i = (c last).2 i := by
  have each : ∀ p : Prog Op Ret α, ∀ m, (c m).2 i = p → ∃ last, ∀ n, last ≤ n → (c n).2 i = (c last).2 i := by
    intro p
    induction p using Prog.below_wf.induction with
    | h p ih =>
      intro m at_
      by_cases rests : ∀ n, m ≤ n → (c n).2 i = (c m).2 i
      · exact ⟨m, rests⟩
      · -- the first moment after `m` at which the thread has moved on
        simp only [not_forall] at rests
        obtain ⟨n, after, moved⟩ := rests
        induction n, after using Nat.le_induction with
        | base => exact absurd rfl moved
        | succ n after further =>
          by_cases still : (c n).2 i = (c m).2 i
          · rcases (steps n).below i with same | below
            · exact absurd (same.trans still) moved
            · rw [still, at_] at below
              exact ih _ below (n + 1) rfl
          · exact further still
  exact each ((c 0).2 i) 0 rfl

end Discipline
