import Mathlib

/-! Sequences of actions on a state, and when their order makes no difference. -/

namespace Commuting
variable {σ : Type} {a b : List (σ → σ)} {all all' : List (List (σ → σ))}

/-- The actions one after the other. -/
def perform (actions : List (σ → σ)) (s : σ) : σ := actions.foldl (fun s action => action s) s

/-- The sequences one after the other. -/
def performAll (all : List (List (σ → σ))) (s : σ) : σ := all.foldl (fun s actions => perform actions s) s

theorem perform_append (a b : List (σ → σ)) (s : σ) : perform (a ++ b) s = perform b (perform a s) :=
  List.foldl_append ..

theorem perform_flatten (all : List (List (σ → σ))) (s : σ) : perform all.flatten s = performAll all s := by
  induction all generalizing s with
  | nil => rfl
  | cons a all ih =>
    rw [List.flatten_cons, perform_append]
    exact ih _

/-- No action of the one sees the difference that an action of the other makes. -/
def Apart (a b : List (σ → σ)) : Prop := ∀ f ∈ a, ∀ g ∈ b, ∀ s, f (g s) = g (f s)

theorem Apart.symm (apart : Apart a b) : Apart b a := fun g inB f inA s => (apart f inA g inB s).symm

instance : Std.Symm (Apart (σ := σ)) := ⟨fun _ _ => Apart.symm⟩

theorem Apart.mono {a' b' : List (σ → σ)} (apart : Apart a b) (left : a' ⊆ a) (right : b' ⊆ b) : Apart a' b' :=
  fun f inA g inB => apart f (left inA) g (right inB)

theorem Apart.action {g : σ → σ} (apart : Apart a [g]) (s : σ) : perform a (g s) = g (perform a s) := by
  induction a generalizing s with
  | nil => rfl
  | cons f a ih =>
    have first := apart f List.mem_cons_self g List.mem_cons_self s
    have rest := ih (apart.mono (List.subset_cons_self f a) (List.Subset.refl _)) (f s)
    calc perform (f :: a) (g s) = perform a (g (f s)) := congrArg (perform a) first
      _ = g (perform (f :: a) s) := rest

theorem Apart.perform (apart : Apart a b) (s : σ) : perform b (perform a s) = perform a (perform b s) := by
  induction b generalizing s with
  | nil => rfl
  | cons g b ih =>
    have first := Apart.action (apart.mono (List.Subset.refl _) (List.cons_subset_cons g (List.nil_subset b))) s
    have rest := ih (apart.mono (List.Subset.refl _) (List.subset_cons_self g b)) (g s)
    calc Commuting.perform (g :: b) (Commuting.perform a s) = Commuting.perform b (Commuting.perform a (g s)) :=
          congrArg (Commuting.perform b) first.symm
      _ = Commuting.perform a (Commuting.perform (g :: b) s) := rest

theorem pairwise_perm (same : all.Perm all') (apart : all.Pairwise Apart) : all'.Pairwise Apart :=
  (same.pairwise_iff fun {_ _} => Apart.symm).mp apart

/-- Sequences that are pairwise apart may be performed in any order. -/
theorem performAll_perm (same : all.Perm all') (apart : all.Pairwise Apart) (s : σ) :
    performAll all s = performAll all' s := by
  refine List.Perm.foldl_eq' same (fun a inA b inB s => ?_) s
  by_cases equal : a = b
  · rw [equal]
  · exact (apart.forall inA inB equal).perform s

end Commuting
