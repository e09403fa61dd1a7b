import VectorForge.Concurrency.ParallelFor

/-! However far `parallel_for` has come, it can still be completed. -/

namespace VectorForge
namespace ThreadPool
variable {σ E : Type} {call : Call σ E} {chosen : Nat → List (σ → σ)} {whole : List (σ → σ)} {sh sh' : Shared σ E}
  {here there : InChunks σ E} {s t : State σ E} {memory : σ}

/-- What the body may do in every chunk, and in the whole range. -/
structure Performs (call : Call σ E) (chosen : Nat → List (σ → σ)) (whole : List (σ → σ)) : Prop where
  body : ∀ chunk, call.body (call.lo chunk) (call.hi chunk) (chosen chunk)
  whole : call.body call.start call.stop whole

/-- How many steps a thread may take before it has to come for a chunk again. -/
def InChunks.stepsLeft (chosen : Nat → List (σ → σ)) : InChunks σ E → Nat
  | .test => 4
  | .claim => 3
  | .enter chunk => (chosen chunk).length + 6
  | .body _ rest => rest.length + 5
  | .caught _ => 1
  | .left => 0

/-- The steps that come with the chunks that nobody came for. -/
def Shared.ahead (call : Call σ E) (chosen : Nat → List (σ → σ)) (sh : Shared σ E) : Nat :=
  ((List.range' sh.next (call.chunks - sh.next)).map fun chunk => (chosen chunk).length + 4).sum

def Worker.stepsLeft (chosen : Nat → List (σ → σ)) : Worker σ E → Nat
  | .helper at_ => at_.stepsLeft chosen + 1
  | .other => 1
  | _ => 0

def Task.stepsLeft : Task → Nat
  | .helper => 6
  | .other => 2

def Caller.stepsLeft (chosen : Nat → List (σ → σ)) (whole : List (σ → σ)) : Caller σ E → Nat
  | .entry => whole.length + 10
  | .inline rest => rest.length + 1
  | .spawn _ => 8
  | .enqueue _ => 7
  | .retract => 6
  | .chunks at_ => at_.stepsLeft chosen + 1
  | _ => 0

def State.stepsLeft (call : Call σ E) (chosen : Nat → List (σ → σ)) (whole : List (σ → σ)) (s : State σ E) : Nat :=
  s.caller.stepsLeft chosen whole + (s.workers.map (Worker.stepsLeft chosen)).sum +
    (s.queue.map Task.stepsLeft).sum + s.shared.ahead call chosen

variable (sh) in
theorem exists_chunkStep (performs : Performs call chosen whole) (active : here ≠ .left) : ∃ sh' there,
    ChunkStep call (sh, here) (sh', there) ∧ sh'.thrown = sh.thrown ∧
      there.stepsLeft chosen + sh'.ahead call chosen < here.stepsLeft chosen + sh.ahead call chosen := by
  cases here with
  | test => exact ⟨sh, .claim, .goOn, rfl, by simp only [InChunks.stepsLeft]; omega⟩
  | claim =>
    by_cases more : sh.next < call.chunks
    · refine ⟨_, _, .claim more, rfl, ?_⟩
      have next : sh.ahead call chosen = (chosen sh.next).length + 4 +
          Shared.ahead call chosen { sh with next := sh.next + 1 } := by
        rw [Shared.ahead, show call.chunks - sh.next = call.chunks - (sh.next + 1) + 1 by omega, List.range'_succ]
        rfl
      simp only [InChunks.stepsLeft]
      omega
    · refine ⟨_, _, .finish (Nat.le_of_not_lt more), rfl, ?_⟩
      have none : Shared.ahead call chosen { sh with next := sh.next + 1 } = 0 := by
        rw [Shared.ahead, show call.chunks - (sh.next + 1) = 0 by omega]
        rfl
      simp only [InChunks.stepsLeft]
      omega
  | enter chunk =>
    refine ⟨_, _, .enter (performs.body chunk), rfl, ?_⟩
    have same : Shared.ahead call chosen { sh with calls := sh.calls ++ [chunk] } = sh.ahead call chosen := rfl
    simp only [InChunks.stepsLeft]
    omega
  | body chunk rest =>
    cases rest with
    | nil => exact ⟨sh, .test, .returns, rfl, by simp only [InChunks.stepsLeft, List.length_nil]; omega⟩
    | cons a rest =>
      refine ⟨_, _, .act, rfl, ?_⟩
      have same : Shared.ahead call chosen { sh with memory := a sh.memory } = sh.ahead call chosen := rfl
      simp only [InChunks.stepsLeft, List.length_cons]
      omega
  | caught e =>
    refine ⟨_, _, .store, rfl, ?_⟩
    have same : Shared.ahead call chosen { sh with error := sh.error.or (some e), failed := true } =
        sh.ahead call chosen := rfl
    simp only [InChunks.stepsLeft]
    omega
  | left => exact absurd rfl active

theorem sum_set {α : Type} (weight : α → Nat) {l : List α} {w : Nat} {old : α} (at_ : l[w]? = some old) (new : α) :
    ((l.set w new).map weight).sum + weight old = (l.map weight).sum + weight new := by
  obtain ⟨inside, rfl⟩ := List.getElem?_eq_some_iff.mp at_
  have after := ((List.set_perm_cons_eraseIdx inside new).map weight).sum_nat
  have before := ((List.getElem_cons_eraseIdx_perm inside).map weight).sum_nat
  rw [List.map_cons, List.sum_cons] at after before
  omega

/-- Helpers are only queued on pools that have workers, and no worker exits while they are. -/
structure Served (call : Call σ E) (s : State σ E) : Prop where
  size : s.workers.length = call.size
  some : 0 < s.queued ∨ (∃ h, s.caller = .enqueue h) → 0 < call.size
  drained : .exited ∈ s.workers → s.stopping = true ∧ s.queue = []

theorem Served.step (step : Step call s t) (served : Served call s) : Served call t := by
  obtain ⟨size, some, drained⟩ := served
  have kept {w : Nat} {old new : Worker σ E} (_ : s.workers[w]? = .some old) (other : new ≠ .exited) :
      .exited ∈ s.workers.set w new → s.stopping = true ∧ s.queue = [] := by
    intro member
    rcases List.mem_or_eq_of_mem_set member with here | same
    · exact drained here
    · exact absurd same.symm other
  rcases step with step | step
  · cases step with
    | @announce h at_ more =>
      refine ⟨size, fun _ => ?_, drained⟩
      rw [Call.helpers] at more
      omega
    | enqueue at_ open_ =>
      refine ⟨size, fun _ => some (.inr ⟨_, at_⟩), fun exited => ?_⟩
      rw [(drained exited).1] at open_
      cases open_
    | spawned at_ =>
      exact ⟨size, fun waits => some (waits.imp_right fun held => by cases held.choose_spec), drained⟩
    | _ at_ => exact ⟨size, fun waits => some (waits.imp_right fun held => by cases held.choose_spec), drained⟩
  · cases step with
    | @take w task rest idle front =>
      refine ⟨(List.length_set ..).trans size, fun waits => some (waits.imp_left fun queued => ?_),
        fun exited => ?_⟩
      · rw [State.queued, front]
        exact Nat.lt_of_lt_of_le queued List.count_le_count_cons
      · have other : Worker.start task ≠ (.exited : Worker σ E) := by cases task <;> (intro same; cases same)
        rw [front] at kept
        cases (kept idle other exited).2
    | help at_ => exact ⟨(List.length_set ..).trans size, some, kept at_ fun same => by cases same⟩
    | leave at_ => exact ⟨(List.length_set ..).trans size, some, kept at_ fun same => by cases same⟩
    | otherEnds at_ => exact ⟨(List.length_set ..).trans size, some, kept at_ fun same => by cases same⟩
    | submit open_ =>
      refine ⟨size, fun waits => some (waits.imp_left fun queued => ?_), fun exited => ?_⟩
      · rw [State.queued, List.count_append] at queued
        exact queued
      · rw [(drained exited).1] at open_
        cases open_
    | shutdown => exact ⟨size, some, fun exited => ⟨rfl, (drained exited).2⟩⟩
    | exit idle stopping empty => exact ⟨(List.length_set ..).trans size, some, fun _ => ⟨stopping, empty⟩⟩

theorem served_of_reachable (reachable : (runRanges call memory).Reachable s) : Served call s := by
  refine Machine.Reachable.invariant ?_ ?_ reachable
  · intro s start
    have none : s.queued = 0 := List.count_eq_zero_of_not_mem fun member => nomatch start.queue _ member
    refine ⟨start.size, ?_, start.drained⟩
    rintro (queued | ⟨h, at_⟩)
    · omega
    · rw [start.caller] at at_
      cases at_
  · exact fun step served => served.step step

/-- As long as the call is not over, a step is possible that brings it closer to its end. -/
theorem exists_step (performs : Performs call chosen whole) (reachable : (runRanges call memory).Reachable s)
    (open_ : ¬s.caller.Ended) :
    ∃ t, Step call s t ∧ t.shared.thrown = s.shared.thrown ∧ (∀ e, t.caller = .threw e → e ∈ s.shared.thrown) ∧
      t.stepsLeft call chosen whole < s.stepsLeft call chosen whole := by
  have still {t : State σ E} (same : t.caller = s.caller) (e : E) (at_ : t.caller = .threw e) :
      e ∈ s.shared.thrown := by
    rw [← same, at_] at open_
    exact absurd trivial open_
  have stage := stage_of_reachable reachable
  have served := served_of_reachable reachable
  cases at_ : s.caller with
  | returned => rw [at_] at open_; exact absurd trivial open_
  | threw => rw [at_] at open_; exact absurd trivial open_
  | entry =>
    by_cases some : call.start < call.stop
    · by_cases alone : call.chunks = 1 ∨ call.onWorkerThread = true
      · refine ⟨_, .caller (.inline at_ some alone performs.whole), rfl, nofun, ?_⟩
        simp only [State.stepsLeft, at_, Caller.stepsLeft, Shared.ahead]
        omega
      · refine ⟨_, .caller (.shares at_ some (fun one => alone (.inl one)) ?_), rfl, nofun, ?_⟩
        · exact Bool.eq_false_iff.mpr fun worker => alone (.inr worker)
        · simp only [State.stepsLeft, at_, Caller.stepsLeft]
          omega
    · refine ⟨_, .caller (.nothing at_ (Nat.le_of_not_lt some)), rfl, nofun, ?_⟩
      simp only [State.stepsLeft, at_, Caller.stepsLeft]
      omega
  | inline rest =>
    cases rest with
    | nil =>
      refine ⟨_, .caller (.inlineReturns at_), rfl, nofun, ?_⟩
      simp only [State.stepsLeft, at_, Caller.stepsLeft]
      omega
    | cons a rest =>
      refine ⟨_, .caller (.inlineAct at_), rfl, nofun, ?_⟩
      simp only [State.stepsLeft, at_, Caller.stepsLeft, Shared.ahead, List.length_cons]
      omega
  | spawn h =>
    by_cases more : h < call.helpers
    · refine ⟨_, .caller (.announce at_ more), rfl, nofun, ?_⟩
      simp only [State.stepsLeft, at_, Caller.stepsLeft, Shared.ahead]
      omega
    · refine ⟨_, .caller (.spawned at_ (Nat.le_of_not_lt more)), rfl, nofun, ?_⟩
      simp only [State.stepsLeft, at_, Caller.stepsLeft, InChunks.stepsLeft]
      omega
  | enqueue h =>
    refine ⟨_, .caller (.refused at_), rfl, nofun, ?_⟩
    simp only [State.stepsLeft, at_, Caller.stepsLeft]
    omega
  | retract =>
    refine ⟨_, .caller (.retract at_), rfl, nofun, ?_⟩
    simp only [State.stepsLeft, at_, Caller.stepsLeft, InChunks.stepsLeft, Shared.ahead]
    omega
  | chunks here =>
    by_cases active : here = .left
    · subst active
      by_cases alone : s.shared.runningHelpers = 0
      · cases error : s.shared.error with
        | none =>
          refine ⟨_, .caller (.returns at_ alone error), rfl, nofun, ?_⟩
          simp only [State.stepsLeft, at_, Caller.stepsLeft]
          omega
        | some e =>
          refine ⟨_, .caller (.rethrows at_ alone error), rfl, fun e' same => ?_, ?_⟩
          · cases same
            rw [at_] at stage
            exact (Running.books stage).error e error
          · simp only [State.stepsLeft, at_, Caller.stepsLeft]
            omega
      · have running : Running call s := by
          rw [at_] at stage
          exact stage
        have helpers := running.helpers
        rw [at_] at helpers
        by_cases idle : s.helping = []
        · -- All that helps is still queued, so a worker is free or comes to be.
          have queued : 0 < s.queued := by
            rw [idle] at helpers
            change _ = s.queued + 0 + 0 at helpers
            omega
          obtain ⟨task, rest, front⟩ : ∃ task rest, s.queue = task :: rest := by
            cases known : s.queue with
            | nil =>
              rw [State.queued, known] at queued
              exact absurd queued (Nat.lt_irrefl 0)
            | cons task rest => exact ⟨task, rest, rfl⟩
          have inside : 0 < s.workers.length := served.size ▸ served.some (.inl queued)
          have first : s.workers[0]? = some s.workers[0] := List.getElem?_eq_getElem inside
          cases worker : s.workers[0] with
          | idle =>
            rw [worker] at first
            refine ⟨_, .pool (.take first front), rfl, still rfl, ?_⟩
            have weights := sum_set (Worker.stepsLeft chosen) first (.start task)
            simp only [State.stepsLeft, front, List.map_cons, List.sum_cons]
            cases task <;> (simp only [Worker.start, Worker.stepsLeft, InChunks.stepsLeft,
              Task.stepsLeft] at weights ⊢; omega)
          | other =>
            rw [worker] at first
            refine ⟨_, .pool (.otherEnds first), rfl, still rfl, ?_⟩
            have weights := sum_set (Worker.stepsLeft chosen) first .idle
            simp only [State.stepsLeft]
            simp only [Worker.stepsLeft] at weights
            omega
          | helper inner =>
            rw [worker] at first
            have member := (State.helping_at first).mem_iff.mpr
              (List.mem_append_left _ (List.mem_singleton_self inner))
            rw [idle] at member
            cases member
          | exited =>
            have member : Worker.exited ∈ s.workers := worker ▸ List.getElem_mem inside
            rw [(served.drained member).2] at front
            cases front
        · obtain ⟨inner, member⟩ := List.exists_mem_of_ne_nil _ idle
          obtain ⟨worker, inWorkers, same⟩ := List.mem_filterMap.mp member
          obtain ⟨w, inside, at_⟩ := List.getElem_of_mem inWorkers
          have busy : s.workers[w]? = some (.helper inner) := by
            rw [List.getElem?_eq_getElem inside, at_]
            cases worker with
            | helper => cases same; rfl
            | _ => cases same
          by_cases through : inner = .left
          · subst through
            refine ⟨_, .pool (.leave busy), rfl, still rfl, ?_⟩
            have weights := sum_set (Worker.stepsLeft chosen) busy .idle
            simp only [State.stepsLeft, Shared.ahead]
            simp only [Worker.stepsLeft, InChunks.stepsLeft] at weights
            omega
          · obtain ⟨sh', there, step, thrown, less⟩ := exists_chunkStep s.shared performs through
            refine ⟨_, .pool (.help busy step), thrown, still rfl, ?_⟩
            have weights := sum_set (Worker.stepsLeft chosen) busy (.helper there)
            simp only [State.stepsLeft]
            simp only [Worker.stepsLeft] at weights
            omega
    · obtain ⟨sh', there, step, thrown, less⟩ := exists_chunkStep s.shared performs active
      refine ⟨_, .caller (.chunks at_ step), thrown, nofun, ?_⟩
      simp only [State.stepsLeft, at_, Caller.stepsLeft]
      omega

/-- From wherever it is, the call can be completed, and nothing new is thrown. -/
theorem can_end (performs : Performs call chosen whole) (reachable : (runRanges call memory).Reachable s) :
    ∃ t, (runRanges call memory).Runs s t ∧ t.caller.Ended ∧ ∀ e, t.caller = .threw e → s.caller = .threw e ∨
    e ∈ s.shared.thrown := by
  induction measure : s.stepsLeft call chosen whole using Nat.strongRecOn generalizing s with
  | _ n ih =>
    by_cases ended : s.caller.Ended
    · exact ⟨s, .refl, ended, fun e at_ => .inl at_⟩
    · obtain ⟨t, step, thrown, fresh, closer⟩ := exists_step performs reachable ended
      obtain ⟨u, runs, over_, old⟩ := ih _ (measure ▸ closer) (reachable.step step) rfl
      refine ⟨u, .head step runs, over_, fun e at_ => .inr ?_⟩
      rcases old e at_ with before | member
      · exact fresh e before
      · exact thrown ▸ member

end ThreadPool
end VectorForge
