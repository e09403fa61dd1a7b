import Mathlib

/-! Systems that take steps, and what holds along all their runs. -/

/-- Where a system may start and what one step can do. -/
structure Machine (σ : Type) where
  start : σ → Prop
  Step : σ → σ → Prop

namespace Machine
variable {σ : Type} {M : Machine σ} {s t : σ}

/-- Any number of steps. -/
abbrev Runs (M : Machine σ) : σ → σ → Prop := Relation.ReflTransGen M.Step

def Reachable (M : Machine σ) (s : σ) : Prop := ∃ s₀, M.start s₀ ∧ M.Runs s₀ s

theorem Reachable.step (reachable : M.Reachable s) (step : M.Step s t) : M.Reachable t := by
  obtain ⟨s₀, start, runs⟩ := reachable
  exact ⟨s₀, start, runs.tail step⟩

theorem Reachable.runs (reachable : M.Reachable s) (more : M.Runs s t) : M.Reachable t := by
  obtain ⟨s₀, start, runs⟩ := reachable
  exact ⟨s₀, start, runs.trans more⟩

/-- What every step preserves, every run preserves. -/
theorem Runs.keeps {holds : σ → Prop} (step : ∀ {s t}, M.Step s t → holds s → holds t) (runs : M.Runs s t)
    (now : holds s) : holds t := by
  induction runs with
  | refl => exact now
  | tail _ last ih => exact step last ih

/-- What holds at the start and is preserved by every step holds in every reachable state. -/
theorem Reachable.invariant {holds : σ → Prop} (start : ∀ s, M.start s → holds s)
    (step : ∀ {s t}, M.Step s t → holds s → holds t) (reachable : M.Reachable s) : holds s := by
  obtain ⟨s₀, first, runs⟩ := reachable
  exact Runs.keeps step runs (start s₀ first)

/-- A machine that takes fewer steps reaches fewer states. -/
theorem Reachable.of_restricted {N : Machine σ} (start : ∀ s, N.start s → M.start s)
    (step : ∀ {s t}, N.Step s t → M.Step s t) (reachable : N.Reachable s) : M.Reachable s :=
  Reachable.invariant (fun s first => ⟨s, start s first, .refl⟩)
    (fun taken before => before.step (step taken)) reachable

end Machine
