import VectorForge.Lib.Commuting
import VectorForge.Concurrency.ParallelFor

/-! Where no chunk sees what another one does, `parallel_for` leaves the memory as if the chunks had run in
their order. -/

namespace VectorForge
namespace ThreadPool
open Commuting
variable {σ E : Type} {call : Call σ E} {writes : Nat → List (σ → σ)} {sh sh' : Shared σ E}
  {here there : InChunks σ E} {others members : List (InChunks σ E)} {target memory : σ} {s t : State σ E}

/-- The actions that a thread has yet to perform for its chunk. -/
def InChunks.rest (writes : Nat → List (σ → σ)) : InChunks σ E → List (σ → σ)
  | .enter chunk => writes chunk
  | .body _ rest => rest
  | _ => []

def unclaimed (call : Call σ E) (writes : Nat → List (σ → σ)) (sh : Shared σ E) : List (List (σ → σ)) :=
  (List.range' sh.next (call.chunks - sh.next)).map writes

def pending (call : Call σ E) (writes : Nat → List (σ → σ)) (sh : Shared σ E) (members : List (InChunks σ E)) :
    List (List (σ → σ)) :=
  members.map (InChunks.rest writes) ++ unclaimed call writes sh

/-- What is pending leads to the target, in any order. -/
structure Progress (call : Call σ E) (writes : Nat → List (σ → σ)) (target : σ) (sh : Shared σ E)
    (members : List (InChunks σ E)) : Prop where
  apart : (pending call writes sh members).Pairwise Apart
  ends : performAll (pending call writes sh members) sh.memory = target

/-- Every call of the body performs the actions of its chunk. -/
structure Writes (call : Call σ E) (writes : Nat → List (σ → σ)) : Prop where
  body : ∀ chunk actions, call.body (call.lo chunk) (call.hi chunk) actions → actions = writes chunk
  whole : ∀ actions, call.body call.start call.stop actions →
    ∀ s, perform actions s = performAll ((List.range call.chunks).map writes) s
  apart : ∀ c d, c ≠ d → Apart (writes c) (writes d)

namespace Progress

theorem perm (progress : Progress call writes target sh members) (same : members.Perm others) :
    Progress call writes target sh others := by
  have pending := (same.map (InChunks.rest writes)).append_right (unclaimed call writes sh)
  exact ⟨pairwise_perm pending progress.apart,
    (performAll_perm pending progress.apart sh.memory).symm.trans progress.ends⟩

theorem begin_ (progress : Progress call writes target sh members) :
    Progress call writes target sh (.test :: members) :=
  ⟨List.pairwise_cons.mpr ⟨fun _ _ => nofun, progress.apart⟩, progress.ends⟩

theorem end_ (progress : Progress call writes target sh (.left :: members)) :
    Progress call writes target sh members :=
  ⟨(List.pairwise_cons.mp progress.apart).2, progress.ends⟩

theorem start (exact_ : Writes call writes) (memory : σ) :
    Progress call writes (performAll ((List.range call.chunks).map writes) memory) { memory } [] := by
  have all : pending call writes { memory } ([] : List (InChunks σ E)) = (List.range call.chunks).map writes := by
    rw [pending, unclaimed, List.range_eq_range']
    rfl
  refine ⟨?_, by rw [all]⟩
  rw [all]
  exact List.pairwise_map.mpr (List.nodup_range.imp fun {c d} other => exact_.apart c d other)

theorem step (exact_ : Writes call writes) (progress : Progress call writes target sh (here :: others))
    (step : ChunkStep call (sh, here) (sh', there)) (fine : sh'.thrown = []) :
    Progress call writes target sh' (there :: others) := by
  obtain ⟨apart, ends⟩ := progress
  cases step with
  | goOn => exact ⟨apart, ends⟩
  | giveUp => exact ⟨apart, ends⟩
  | claim more =>
    have next : unclaimed call writes sh = writes sh.next ::
        unclaimed call writes { sh with next := sh.next + 1 } := by
      rw [unclaimed, show call.chunks - sh.next = call.chunks - (sh.next + 1) + 1 by omega, List.range'_succ]
      rfl
    have same : (pending call writes sh others).Perm
        (pending call writes { sh with next := sh.next + 1 } (.enter sh.next :: others)) := by
      rw [pending, next]
      exact List.perm_middle
    have smaller := (List.pairwise_cons.mp apart).2
    exact ⟨pairwise_perm same smaller, (performAll_perm same smaller sh.memory).symm.trans ends⟩
  | finish all =>
    have none : unclaimed call writes { sh with next := sh.next + 1 } = unclaimed call writes sh := by
      rw [unclaimed, unclaimed, show call.chunks - sh.next = 0 by
        omega, show call.chunks - (sh.next + 1) = 0 by omega]
      rfl
    have same : pending call writes { sh with next := sh.next + 1 } (.left :: others) = pending call writes sh
        (.claim :: others) :=
      congrArg (_ ++ ·) none
    exact ⟨same ▸ apart, same ▸ ends⟩
  | enter body =>
    rw [exact_.body _ _ body]
    exact ⟨apart, ends⟩
  | @act _ _ a rest =>
    obtain ⟨first, further⟩ := List.pairwise_cons.mp apart
    refine ⟨List.pairwise_cons.mpr ⟨fun b inB => ?_, further⟩, ends⟩
    exact (first b inB).mono (List.subset_cons_self a rest) (List.Subset.refl b)
  | returns => exact ⟨apart, ends⟩
  | throws => cases fine
  | store => exact ⟨apart, ends⟩

end Progress

/-- Where the memory stands at every place of the caller, unless something was thrown. -/
def Midway (call : Call σ E) (writes : Nat → List (σ → σ)) (target : σ) (s : State σ E) : Caller σ E → Prop
  | .entry => Progress call writes target s.shared [] ∧ s.shared.next = 0
  | .inline rest => perform rest s.shared.memory = target
  | .returned => s.shared.memory = target
  | .threw _ => True
  | _ => s.shared.thrown = [] → Progress call writes target s.shared s.threads

theorem ChunkStep.thrown (step : ChunkStep call (sh, here) (sh', there)) (fine : sh'.thrown = []) :
    sh.thrown = [] := by
  cases step with
  | throws => cases fine
  | _ => exact fine

/-- The bookkeeping does not matter. -/
theorem Progress.runningHelpers {n : Nat} (progress : Progress call writes target sh members) :
    Progress call writes target { sh with runningHelpers := n } members := ⟨progress.apart, progress.ends⟩

theorem Progress.move (exact_ : Writes call writes) (same : t.caller = s.caller) (move : PoolMove call s t)
    (progress : s.shared.thrown = [] → Progress call writes target s.shared s.threads)
    (fine : t.shared.thrown = []) : Progress call writes target t.shared t.threads := by
  cases move with
  | still _ helping shared =>
    rw [shared] at fine ⊢
    rw [State.threads, same]
    exact (progress fine).perm (helping.symm.append_left _)
  | begins _ helping shared =>
    rw [shared] at fine ⊢
    rw [State.threads, same]
    exact (progress fine).begin_.perm (List.perm_middle.symm.trans (helping.symm.append_left _))
  | helps _ before after step =>
    rw [State.threads, same]
    have here := (progress (step.thrown fine)).perm ((before.append_left _).trans List.perm_middle)
    exact (here.step exact_ step fine).perm (List.perm_middle.symm.trans (after.symm.append_left _))
  | ends _ helping shared =>
    rw [shared] at fine ⊢
    rw [State.threads, same]
    exact (Progress.end_ ((progress fine).perm ((helping.append_left _).trans List.perm_middle))).runningHelpers

theorem Midway.move {c : Caller σ E} (exact_ : Writes call writes) (same : t.caller = c) (here : s.caller = c)
    (stage : Stage call s c)
    (move : PoolMove call s t) (midway : Midway call writes target s c) : Midway call writes target t c := by
  have unmoved (alone : s.Alone) : t.shared = s.shared := by
    cases move with
    | still _ _ shared => exact shared
    | begins queued => exact absurd (alone.1.symm.trans queued) (by omega)
    | helps _ before => exact absurd (alone.2 ▸ before) (List.not_perm_nil_cons _ _)
    | ends _ helping => exact absurd (alone.2 ▸ helping) (List.not_perm_nil_cons _ _)
  cases c with
  | entry => rw [Midway, unmoved stage.1]; exact midway
  | inline rest => rw [Midway, unmoved stage.1]; exact midway
  | returned => rw [Midway, unmoved stage.1]; exact midway
  | threw e => trivial
  | _ => exact Progress.move exact_ (same.trans here.symm) move midway

theorem CallerStep.midway (exact_ : Writes call writes) (step : CallerStep call s t) (stage : Stage call s s.caller)
    (midway : Midway call writes target s s.caller) : Midway call writes target t t.caller := by
  cases step with
  | nothing at_ none =>
    rw [at_] at midway
    obtain ⟨⟨_, ends⟩, next⟩ := midway
    rw [pending, unclaimed, chunks_eq_zero none, Nat.zero_sub] at ends
    exact ends
  | @inline actions at_ _ _ body =>
    rw [at_] at midway
    obtain ⟨⟨_, ends⟩, next⟩ := midway
    rw [pending, unclaimed, next, Nat.sub_zero, ← List.range_eq_range'] at ends
    exact (exact_.whole actions body s.shared.memory).trans ends
  | inlineAct at_ =>
    rw [at_] at midway
    exact midway
  | inlineReturns at_ =>
    rw [at_] at midway
    exact midway
  | inlineThrows => trivial
  | lacks => trivial
  | shares at_ =>
    rw [at_] at midway stage
    intro _
    change Progress call writes target s.shared ([] ++ s.helping)
    rw [stage.1.2]
    exact midway.1
  | announce at_ =>
    rw [at_] at midway
    change s.shared.thrown = [] → Progress call writes target s.shared s.threads at midway
    rw [State.threads, at_] at midway
    exact fun fine => (midway fine).runningHelpers
  | spawned at_ =>
    rw [at_] at midway
    change s.shared.thrown = [] → Progress call writes target s.shared s.threads at midway
    rw [State.threads, at_] at midway
    exact fun fine => (midway fine).begin_
  | enqueue at_ =>
    rw [at_] at midway
    change s.shared.thrown = [] → Progress call writes target s.shared s.threads at midway
    rw [State.threads, at_] at midway
    exact midway
  | refused at_ =>
    rw [at_] at midway
    change s.shared.thrown = [] → Progress call writes target s.shared s.threads at midway
    rw [State.threads, at_] at midway
    exact midway
  | retract at_ =>
    rw [at_] at midway
    change s.shared.thrown = [] → Progress call writes target s.shared s.threads at midway
    rw [State.threads, at_] at midway
    exact fun fine => (midway fine).begin_.runningHelpers
  | chunks at_ step =>
    rw [at_] at midway
    change s.shared.thrown = [] → Progress call writes target s.shared s.threads at midway
    rw [State.threads, at_] at midway
    exact fun fine => Progress.step exact_ (midway (step.thrown fine)) step fine
  | returns at_ alone fine =>
    rw [at_] at stage midway
    obtain ⟨quiet, _, all, stored⟩ := stage.through at_ alone
    have none : s.shared.thrown = [] := Classical.byContradiction fun some => stored some fine
    have unfailed : call.chunks ≤ s.shared.next := all.resolve_left fun failed => stage.books.failed failed fine
    have ends := (midway none).ends
    rw [pending, unclaimed, State.threads, at_, quiet.2, Nat.sub_eq_zero_of_le unfailed] at ends
    exact ends
  | rethrows => trivial

/-- The memory when `parallel_for` returns. -/
theorem memory_of_returned (exact_ : Writes call writes) (reachable : (runRanges call memory).Reachable s)
    (at_ : s.caller = .returned) : s.shared.memory = performAll ((List.range call.chunks).map writes) memory := by
  let holds (s : State σ E) : Prop := Stage call s s.caller ∧
    Midway call writes (performAll ((List.range call.chunks).map writes) memory) s s.caller
  have all : holds s := by
    refine Machine.Reachable.invariant ?_ ?_ reachable
    · intro s start
      refine ⟨stage_start start, ?_⟩
      rw [start.caller, Midway, start.shared]
      exact ⟨Progress.start exact_ memory, rfl⟩
    · rintro s t step ⟨stage, midway⟩
      refine ⟨Step.stage step stage, ?_⟩
      rcases step with step | step
      · exact step.midway exact_ stage midway
      · obtain ⟨same, move⟩ := step.moves
        rw [same]
        exact Midway.move exact_ same rfl stage move midway
  have here := all.2
  rw [at_] at here
  exact here

end ThreadPool
end VectorForge
