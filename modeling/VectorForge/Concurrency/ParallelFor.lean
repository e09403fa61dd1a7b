import VectorForge.Concurrency.ThreadPool

/-! Every chunk is passed to the body once, by one thread, while the caller waits. -/

namespace VectorForge
namespace ThreadPool
variable {σ E : Type} {call : Call σ E} {sh sh' : Shared σ E} {here there : InChunks σ E}
  {others members : List (InChunks σ E)}

theorem mem_tail {α : Type} {x y : α} {l : List α} (member : x ∈ y :: l) (other : x ≠ y) : x ∈ l :=
  List.mem_of_ne_of_mem other member

def InChunks.entering : InChunks σ E → Option Nat
  | .enter chunk => some chunk
  | _ => none

/-- What holds of the shared data while `threads` are in `run_chunks`. -/
structure Books (call : Call σ E) (sh : Shared σ E) (threads : List (InChunks σ E)) : Prop where
  claimed : (threads.filterMap InChunks.entering ++ sh.calls).Perm (List.range (min sh.next call.chunks))
  error : ∀ e, sh.error = some e → e ∈ sh.thrown
  failed : sh.failed = true → sh.error ≠ none
  thrown : sh.thrown ≠ [] → sh.error ≠ none ∨ ∃ e, .caught e ∈ threads
  caught : ∀ e, .caught e ∈ threads → e ∈ sh.thrown
  through : .left ∈ threads → sh.failed = true ∨ call.chunks ≤ sh.next

namespace Books

theorem start (memory : σ) : Books call { memory } [] where
  claimed := by rw [Nat.zero_min]; rfl
  error := nofun
  failed := nofun
  thrown := fun some => absurd rfl some
  caught := nofun
  through := nofun

theorem perm (books : Books call sh members) (same : members.Perm others) : Books call sh others where
  claimed := ((same.filterMap _).symm.append_right _).trans books.claimed
  error := books.error
  failed := books.failed
  thrown := fun some => (books.thrown some).imp_right fun ⟨e, member⟩ => ⟨e, same.mem_iff.mp member⟩
  caught := fun e member => books.caught e (same.mem_iff.mpr member)
  through := fun member => books.through (same.mem_iff.mpr member)

theorem begin_ (books : Books call sh members) : Books call sh (.test :: members) where
  claimed := books.claimed
  error := books.error
  failed := books.failed
  thrown := fun some => (books.thrown some).imp_right fun ⟨e, member⟩ => ⟨e, List.mem_cons_of_mem _ member⟩
  caught := fun e member => books.caught e (mem_tail member nofun)
  through := fun member => books.through (mem_tail member nofun)

theorem end_ (books : Books call sh (.left :: members)) : Books call sh members where
  claimed := books.claimed
  error := books.error
  failed := books.failed
  thrown := fun some => (books.thrown some).imp_right fun ⟨e, member⟩ => ⟨e, mem_tail member nofun⟩
  caught := fun e member => books.caught e (List.mem_cons_of_mem _ member)
  through := fun member => books.through (List.mem_cons_of_mem _ member)

/-- One step of one of the threads. -/
theorem step (books : Books call sh (here :: others)) (step : ChunkStep call (sh, here) (sh', there)) :
    Books call sh' (there :: others) := by
  -- The others are as they were, and `there` is in the handler or through only where the step says so.
  have stays {x y : InChunks σ E} (member : x ∈ y :: others) (other : x ≠ y) : x ∈ here :: others :=
    List.mem_cons_of_mem _ (mem_tail member other)
  have still {e : E} (other : here ≠ .caught e) (member : .caught e ∈ here :: others) :
      .caught e ∈ there :: others :=
    List.mem_cons_of_mem _ (mem_tail member (Ne.symm other))
  cases step with
  | goOn =>
    exact ⟨books.claimed, books.error, books.failed, fun some => (books.thrown some).imp_right fun ⟨e, member⟩ =>
      ⟨e, still nofun member⟩,
      fun e member => books.caught e (stays member nofun), fun member => books.through (stays member nofun)⟩
  | giveUp failed =>
    exact ⟨books.claimed, books.error, books.failed, fun some => (books.thrown some).imp_right fun ⟨e, member⟩ =>
      ⟨e, still nofun member⟩,
      fun e member => books.caught e (stays member nofun), fun _ => .inl failed⟩
  | claim more =>
    refine ⟨?_, books.error, books.failed, fun some => (books.thrown some).imp_right fun ⟨e, member⟩ =>
      ⟨e, still nofun member⟩,
      fun e member => books.caught e (stays member nofun), fun member =>
      (books.through (stays member nofun)).imp_right Nat.le_succ_of_le⟩
    have claimed := books.claimed
    rw [Nat.min_eq_left (Nat.le_of_lt more)] at claimed
    rw [Nat.min_eq_left (show sh.next + 1 ≤ call.chunks from more), List.range_succ]
    exact (claimed.cons sh.next).trans (List.perm_append_singleton sh.next _).symm
  | finish all =>
    refine ⟨?_, books.error, books.failed, fun some => (books.thrown some).imp_right fun ⟨e, member⟩ =>
      ⟨e, still nofun member⟩,
      fun e member => books.caught e (stays member nofun), fun _ => .inr (Nat.le_succ_of_le all)⟩
    have claimed := books.claimed
    rw [Nat.min_eq_right all] at claimed
    rw [Nat.min_eq_right (show call.chunks ≤ sh.next + 1 by omega)]
    exact claimed
  | enter =>
    refine ⟨?_, books.error, books.failed, fun some => (books.thrown some).imp_right fun ⟨e, member⟩ =>
      ⟨e, still nofun member⟩,
      fun e member => books.caught e (stays member nofun), fun member => books.through (stays member nofun)⟩
    refine List.Perm.trans ?_ books.claimed
    change (others.filterMap InChunks.entering ++ (sh.calls ++ [_])).Perm
      (_ :: (others.filterMap InChunks.entering ++ sh.calls))
    rw [← List.append_assoc]
    exact List.perm_append_singleton _ _
  | act =>
    exact ⟨books.claimed, books.error, books.failed, fun some => (books.thrown some).imp_right fun ⟨e, member⟩ =>
      ⟨e, still nofun member⟩,
      fun e member => books.caught e (stays member nofun), fun member => books.through (stays member nofun)⟩
  | returns =>
    exact ⟨books.claimed, books.error, books.failed, fun some => (books.thrown some).imp_right fun ⟨e, member⟩ =>
      ⟨e, still nofun member⟩,
      fun e member => books.caught e (stays member nofun), fun member => books.through (stays member nofun)⟩
  | @throws _ _ _ e _ =>
    refine ⟨books.claimed, fun e' stored => List.mem_cons_of_mem e (books.error e' stored), books.failed,
      fun _ => .inr ⟨e, List.mem_cons_self⟩, ?_, fun member => books.through (stays member nofun)⟩
    intro e' member
    rcases List.mem_cons.mp member with same | other
    · cases same
      exact List.mem_cons_self
    · exact List.mem_cons_of_mem e (books.caught e' (List.mem_cons_of_mem _ other))
  | @store _ e =>
    have stored : sh.error.or (some e) ≠ none := by cases sh.error <;> nofun
    refine ⟨books.claimed, ?_, fun _ => stored, fun _ => .inl stored,
      fun e' member => books.caught e' (stays member nofun), fun _ => .inl rfl⟩
    intro e' same
    cases known : sh.error with
    | none =>
      rw [known] at same
      cases same
      exact books.caught e List.mem_cons_self
    | some old =>
      rw [known] at same
      cases same
      exact books.error _ known

end Books

section States
variable {s t : State σ E} {memory : σ}

def Worker.inside : Worker σ E → Option (InChunks σ E)
  | .helper at_ => some at_
  | _ => none

def Caller.inside : Caller σ E → List (InChunks σ E)
  | .chunks at_ => [at_]
  | _ => []

/-- The helper that was counted and is not yet queued or given up. -/
def Caller.announced : Caller σ E → Nat
  | .enqueue _ => 1
  | .retract => 1
  | _ => 0

namespace State

/-- The workers that help. -/
def helping (s : State σ E) : List (InChunks σ E) := s.workers.filterMap Worker.inside

/-- The threads in `run_chunks`. -/
def threads (s : State σ E) : List (InChunks σ E) := s.caller.inside ++ s.helping

/-- The helpers that are still queued. -/
def queued (s : State σ E) : Nat := s.queue.count .helper

/-- Nobody runs chunks and nobody can begin to. -/
def Alone (s : State σ E) : Prop := s.queued = 0 ∧ s.helping = []

theorem helping_at {w : Nat} {worker : Worker σ E} (at_ : s.workers[w]? = some worker) :
    s.helping.Perm (worker.inside.toList ++ (s.workers.eraseIdx w).filterMap Worker.inside) := by
  obtain ⟨inside, rfl⟩ := List.getElem?_eq_some_iff.mp at_
  refine ((List.getElem_cons_eraseIdx_perm inside).symm.filterMap Worker.inside).trans ?_
  rw [List.filterMap_cons]
  cases Worker.inside s.workers[w] <;> exact .refl _

theorem helping_set {w : Nat} {worker : Worker σ E} (at_ : s.workers[w]? = some worker) (new : Worker σ E) :
    ((s.workers.set w new).filterMap Worker.inside).Perm
      (new.inside.toList ++ (s.workers.eraseIdx w).filterMap Worker.inside) := by
  obtain ⟨inside, _⟩ := List.getElem?_eq_some_iff.mp at_
  refine ((List.set_perm_cons_eraseIdx inside new).filterMap Worker.inside).trans ?_
  rw [List.filterMap_cons]
  cases new.inside <;> exact .refl _

end State

/-- What a step of the pool is for the call. -/
inductive PoolMove (call : Call σ E) (s t : State σ E) : Prop where
  | still (queued : t.queued = s.queued) (helping : t.helping.Perm s.helping) (shared : t.shared = s.shared)
  | begins (queued : s.queued = t.queued + 1) (helping : t.helping.Perm (.test :: s.helping))
      (shared : t.shared = s.shared)
  | helps {here there : InChunks σ E} {others : List (InChunks σ E)} (queued : t.queued = s.queued)
      (before : s.helping.Perm (here :: others))
      (after : t.helping.Perm (there :: others)) (step : ChunkStep call (s.shared, here) (t.shared, there))
  | ends (queued : t.queued = s.queued) (helping : s.helping.Perm (.left :: t.helping))
      (shared : t.shared = { s.shared with runningHelpers := s.shared.runningHelpers - 1 })

theorem PoolStep.moves (step : PoolStep call s t) : t.caller = s.caller ∧ PoolMove call s t := by
  refine ⟨by cases step <;> rfl, ?_⟩
  cases step with
  | @take w task rest idle front =>
    have before := State.helping_at idle
    have after := State.helping_set idle (.start task)
    cases task with
    | helper =>
      refine .begins ?_ (after.trans (before.symm.cons _)) rfl
      rw [State.queued, front, List.count_cons_self]
      rfl
    | other =>
      refine .still ?_ (after.trans before.symm) rfl
      rw [State.queued, State.queued, front]
      exact (List.count_cons_of_ne (by decide)).symm
  | help at_ step => exact .helps rfl (State.helping_at at_) (State.helping_set at_ _) step
  | leave at_ => exact .ends rfl ((State.helping_at at_).trans ((State.helping_set at_ .idle).symm.cons _)) rfl
  | otherEnds at_ => exact .still rfl ((State.helping_set at_ _).trans (State.helping_at at_).symm) rfl
  | submit =>
    refine .still ?_ (.refl _) rfl
    rw [State.queued, State.queued, List.count_append, List.count_singleton]
    rfl
  | shutdown => exact .still rfl (.refl _) rfl
  | exit idle => exact .still rfl ((State.helping_set idle _).trans (State.helping_at idle).symm) rfl

theorem ChunkStep.runningHelpers (step : ChunkStep call (sh, here) (sh', there)) :
    sh'.runningHelpers = sh.runningHelpers := by
  cases step <;> rfl

/-- While the call is under way. -/
structure Running (call : Call σ E) (s : State σ E) : Prop where
  helpers : s.shared.runningHelpers = s.queued + s.helping.length + s.caller.announced
  books : Books call s.shared s.threads

/-- What holds at every place of the caller. -/
def Stage (call : Call σ E) (s : State σ E) : Caller σ E → Prop
  | .entry =>
    s.Alone ∧ s.shared.runningHelpers = 0 ∧ s.shared.calls = [] ∧ s.shared.thrown = [] ∧ Books call s.shared []
  | .inline _ => s.Alone ∧ s.shared.calls = List.range call.chunks ∧ s.shared.thrown = []
  | .returned => s.Alone ∧ s.shared.calls.Perm (List.range call.chunks) ∧ s.shared.thrown = []
  | .threw e => s.Alone ∧ s.shared.calls.Nodup ∧ (∀ c ∈ s.shared.calls, c < call.chunks) ∧
      (e ∈ s.shared.thrown ∨ e = call.badAlloc ∧ s.shared.calls = [] ∧ s.shared.thrown = [])
  | _ => Running call s

namespace Running

theorem move (running : Running call s) (same : t.caller = s.caller) (move : PoolMove call s t) :
    Running call t := by
  obtain ⟨helpers, books⟩ := running
  cases move with
  | still queued helping shared =>
    refine ⟨?_, ?_⟩
    · rw [shared, queued, helping.length_eq, same, helpers]
    · rw [shared, State.threads, same]
      exact books.perm (helping.symm.append_left _)
  | begins queued helping shared =>
    refine ⟨?_, ?_⟩
    · rw [shared, helping.length_eq, same, helpers, queued, List.length_cons]
      omega
    · rw [shared, State.threads, same]
      exact books.begin_.perm (List.perm_middle.symm.trans (helping.symm.append_left _))
  | helps queued before after step =>
    refine ⟨?_, ?_⟩
    · rw [step.runningHelpers, queued, same, after.length_eq, helpers, before.length_eq]
      rfl
    · rw [State.threads, same]
      refine Books.perm (Books.step (books.perm ((before.append_left _).trans List.perm_middle)) step) ?_
      exact List.perm_middle.symm.trans (after.symm.append_left _)
  | ends queued helping shared =>
    refine ⟨?_, ?_⟩
    · rw [shared, queued, same]
      dsimp only
      rw [helpers, helping.length_eq, List.length_cons]
      omega
    · rw [State.threads, same]
      have less := Books.end_ (books.perm ((helping.append_left _).trans List.perm_middle))
      rw [shared]
      exact ⟨less.claimed, less.error, less.failed, less.thrown, less.caught, less.through⟩

end Running

theorem Stage.move {c : Caller σ E} (same : t.caller = c) (here : s.caller = c) (move : PoolMove call s t)
    (stage : Stage call s c) : Stage call t c := by
  have unmoved (alone : s.Alone) : t.Alone ∧ t.shared = s.shared := by
    cases move with
    | still queued helping shared => exact ⟨⟨queued.trans alone.1, List.perm_nil.mp (alone.2 ▸ helping)⟩, shared⟩
    | begins queued => exact absurd (alone.1.symm.trans queued) (by omega)
    | helps _ before => exact absurd (alone.2 ▸ before) (List.not_perm_nil_cons _ _)
    | ends _ helping => exact absurd (alone.2 ▸ helping) (List.not_perm_nil_cons _ _)
  cases c with
  | entry =>
    obtain ⟨alone, rest⟩ := stage
    obtain ⟨still, shared⟩ := unmoved alone
    exact ⟨still, shared.symm ▸ rest⟩
  | inline rest =>
    obtain ⟨alone, calls⟩ := stage
    obtain ⟨still, shared⟩ := unmoved alone
    exact ⟨still, shared.symm ▸ calls⟩
  | returned =>
    obtain ⟨alone, calls⟩ := stage
    obtain ⟨still, shared⟩ := unmoved alone
    exact ⟨still, shared.symm ▸ calls⟩
  | threw e =>
    obtain ⟨alone, calls⟩ := stage
    obtain ⟨still, shared⟩ := unmoved alone
    exact ⟨still, shared.symm ▸ calls⟩
  | _ => exact Running.move stage (same.trans here.symm) move

/-- Whether `run_ranges` is over. -/
def Caller.Ended : Caller σ E → Prop
  | .returned => True
  | .threw _ => True
  | _ => False

theorem chunks_eq_zero (none : call.stop ≤ call.start) : call.chunks = 0 := by
  have count : call.count = 0 := Nat.sub_eq_zero_of_le none
  rw [Call.chunks, count, Nat.zero_div, Nat.zero_mod]
  rfl

/-- The last helper ended, and the caller is through, too. -/
theorem Running.through (running : Running call s) (at_ : s.caller = .chunks .left)
    (alone : s.shared.runningHelpers = 0) :
    s.Alone ∧ s.shared.calls.Perm (List.range (min s.shared.next call.chunks)) ∧
      (s.shared.failed = true ∨ call.chunks ≤ s.shared.next) ∧ (s.shared.thrown ≠ [] → s.shared.error ≠ none) := by
  obtain ⟨helpers, books⟩ := running
  rw [at_, alone] at helpers
  have none : s.helping = [] := List.length_eq_zero_iff.mp (by omega)
  have one : s.threads = [.left] := by rw [State.threads, at_, none]; rfl
  rw [one] at books
  refine ⟨⟨by omega, none⟩, books.claimed, books.through List.mem_cons_self, fun some => ?_⟩
  rcases books.thrown some with stored | ⟨e, member⟩
  · exact stored
  · exact absurd (List.mem_singleton.mp member) nofun

theorem CallerStep.stage (step : CallerStep call s t) (stage : Stage call s s.caller) : Stage call t t.caller := by
  cases step with
  | nothing at_ none =>
    rw [at_] at stage
    obtain ⟨alone, _, calls, thrown, _⟩ := stage
    refine ⟨alone, ?_, thrown⟩
    change s.shared.calls.Perm _
    rw [calls, chunks_eq_zero none]
    rfl
  | inline at_ =>
    rw [at_] at stage
    exact ⟨stage.1, rfl, stage.2.2.2.1⟩
  | inlineAct at_ =>
    rw [at_] at stage
    exact stage
  | inlineReturns at_ =>
    rw [at_] at stage
    exact ⟨stage.1, .of_eq stage.2.1, stage.2.2⟩
  | inlineThrows at_ =>
    rw [at_] at stage
    obtain ⟨alone, calls, _⟩ := stage
    refine ⟨alone, ?_, ?_, .inl List.mem_cons_self⟩
    · exact calls ▸ List.nodup_range
    · exact fun c member => List.mem_range.mp (calls ▸ member)
  | lacks at_ =>
    rw [at_] at stage
    obtain ⟨alone, _, calls, thrown, _⟩ := stage
    refine ⟨alone, calls ▸ List.nodup_nil, fun c member => ?_, .inr ⟨rfl, calls, thrown⟩⟩
    rw [calls] at member
    cases member
  | shares at_ =>
    rw [at_] at stage
    obtain ⟨alone, zero, _, _, books⟩ := stage
    refine ⟨?_, ?_⟩
    · change s.shared.runningHelpers = s.queued + s.helping.length + 0
      rw [zero, alone.1, alone.2]
      rfl
    · change Books call s.shared ([] ++ s.helping)
      rw [alone.2]
      exact books
  | announce at_ =>
    rw [at_] at stage
    obtain ⟨helpers, books⟩ := stage
    rw [State.threads, at_] at books
    rw [at_] at helpers
    exact ⟨congrArg (· + 1) helpers, books.claimed, books.error, books.failed, books.thrown,
      books.caught, books.through⟩
  | spawned at_ =>
    rw [at_] at stage
    obtain ⟨helpers, books⟩ := stage
    rw [State.threads, at_] at books
    rw [at_] at helpers
    exact ⟨helpers, books.begin_⟩
  | enqueue at_ =>
    rw [at_] at stage
    obtain ⟨helpers, books⟩ := stage
    rw [State.threads, at_] at books
    rw [at_] at helpers
    refine ⟨?_, books⟩
    change s.shared.runningHelpers = (s.queue ++ [Task.helper]).count .helper + s.helping.length + 0
    rw [helpers, State.queued, List.count_append]
    change s.queue.count Task.helper + s.helping.length + 1 = s.queue.count Task.helper + 1 + s.helping.length + 0
    omega
  | refused at_ =>
    rw [at_] at stage
    obtain ⟨helpers, books⟩ := stage
    rw [State.threads, at_] at books
    rw [at_] at helpers
    exact ⟨helpers, books⟩
  | retract at_ =>
    rw [at_] at stage
    obtain ⟨helpers, books⟩ := stage
    rw [State.threads, at_] at books
    rw [at_] at helpers
    refine ⟨congrArg (· - 1) helpers, ?_⟩
    exact ⟨books.begin_.claimed, books.error, books.failed, books.begin_.thrown, books.begin_.caught,
      books.begin_.through⟩
  | @chunks _ here there at_ step =>
    rw [at_] at stage
    obtain ⟨helpers, books⟩ := stage
    rw [State.threads, at_] at books
    rw [at_] at helpers
    exact ⟨step.runningHelpers.trans helpers, Books.step books step⟩
  | returns at_ alone fine =>
    rw [at_] at stage
    obtain ⟨quiet, calls, all, stored⟩ := stage.through at_ alone
    have none : s.shared.thrown = [] := Classical.byContradiction fun some => stored some fine
    have unfailed : call.chunks ≤ s.shared.next := all.resolve_left fun failed => stage.books.failed failed fine
    rw [Nat.min_eq_right unfailed] at calls
    exact ⟨quiet, calls, none⟩
  | rethrows at_ alone error =>
    rw [at_] at stage
    obtain ⟨quiet, calls, _⟩ := stage.through at_ alone
    refine ⟨quiet, calls.nodup_iff.mpr List.nodup_range, fun c member => ?_, .inl (stage.books.error _ error)⟩
    have below := List.mem_range.mp (calls.mem_iff.mp member)
    omega

theorem stage_start (start : Start call memory s) : Stage call s s.caller := by
  obtain ⟨shared, caller, queue, _, workers, _⟩ := start
  have none : s.helping = [] := by
    rw [State.helping, List.filterMap_eq_nil_iff]
    intro worker member
    rcases workers worker member with rfl | rfl | rfl <;> rfl
  rw [caller, Stage, shared]
  refine ⟨⟨List.count_eq_zero_of_not_mem fun member => ?_, none⟩, rfl, rfl, rfl, Books.start memory⟩
  cases queue _ member

theorem Step.stage (step : Step call s t) (stage : Stage call s s.caller) : Stage call t t.caller := by
  rcases step with step | step
  · exact step.stage stage
  · obtain ⟨same, move⟩ := step.moves
    rw [same]
    exact Stage.move same rfl move stage

theorem stage_of_reachable (reachable : (runRanges call memory).Reachable s) : Stage call s s.caller := by
  let holds (s : State σ E) : Prop := Stage call s s.caller
  refine show holds s from Machine.Reachable.invariant ?_ ?_ reachable
  · exact fun _ => stage_start
  · exact fun {_ _} step => Step.stage step

/-- No call of the body is under way. -/
def State.Quiet (s : State σ E) : Prop := (∀ rest, s.caller ≠ .inline rest) ∧ s.threads = []

theorem Stage.alone (stage : Stage call s s.caller) (ended : s.caller.Ended) : s.Alone := by
  cases at_ : s.caller with
  | returned => exact (at_ ▸ stage).1
  | threw e => exact (at_ ▸ stage).1
  | _ => rw [at_] at ended; cases ended

theorem Stage.quiet (stage : Stage call s s.caller) (ended : s.caller.Ended) : s.Quiet := by
  refine ⟨fun rest at_ => ?_, ?_⟩
  · rw [at_] at ended
    cases ended
  · have none : s.caller.inside = [] := by
      cases at_ : s.caller with
      | chunks => rw [at_] at ended; cases ended
      | _ => rfl
    rw [State.threads, none, (stage.alone ended).2]
    rfl

theorem ended_step (step : Step call s t) (stage : Stage call s s.caller) (ended : s.caller.Ended) :
    t.caller = s.caller ∧ t.shared = s.shared := by
  have alone := stage.alone ended
  rcases step with step | step
  · cases step with
    | _ at_ => rw [at_] at ended; cases ended
  · obtain ⟨same, move⟩ := step.moves
    refine ⟨same, ?_⟩
    cases move with
    | still _ _ shared => exact shared
    | begins queued => exact absurd (alone.1.symm.trans queued) (by omega)
    | helps _ before => exact absurd (alone.2 ▸ before) (List.not_perm_nil_cons _ _)
    | ends _ helping => exact absurd (alone.2 ▸ helping) (List.not_perm_nil_cons _ _)

theorem ended_runs (reachable : (runRanges call memory).Reachable s) (ended : s.caller.Ended)
    (runs : (runRanges call memory).Runs s t) : t.caller = s.caller ∧ t.shared = s.shared := by
  induction runs with
  | refl => exact ⟨rfl, rfl⟩
  | tail before step ih =>
    obtain ⟨same, shared⟩ := ih
    obtain ⟨same', shared'⟩ := ended_step step (stage_of_reachable (reachable.runs before)) (same ▸ ended)
    exact ⟨same'.trans same, shared'.trans shared⟩

section Bound

/-- Whether the thread may still come for a chunk. -/
def InChunks.active : InChunks σ E → Bool
  | .left => false
  | _ => true

/-- How many threads the caller may still add to those that run chunks, itself included. -/
def Caller.toSpawn (call : Call σ E) : Caller σ E → Nat
  | .entry => call.helpers + 1
  | .inline _ => call.helpers + 1
  | .spawn h => call.helpers - h + 1
  | .enqueue h => call.helpers - h + 1
  | .retract => 1
  | _ => 0

/-- Every thread comes once in vain. -/
structure Bounded (call : Call σ E) (s : State σ E) : Prop where
  spent : ∃ spent, s.shared.next ≤ call.chunks + spent ∧
    spent + s.threads.countP InChunks.active + s.queued + s.caller.toSpawn call ≤ call.helpers + 1
  more : ∀ h, s.caller = .enqueue h → h < call.helpers

theorem ChunkStep.spends (others : List (InChunks σ E)) (step : ChunkStep call (sh, here) (sh', there))
    {spent : Nat} (next : sh.next ≤ call.chunks + spent) : ∃ spent', sh'.next ≤ call.chunks + spent' ∧
      spent' + (there :: others).countP InChunks.active ≤ spent + (here :: others).countP InChunks.active := by
  cases step with
  | claim more => exact ⟨spent, by change sh.next + 1 ≤ _; omega, Nat.le_refl _⟩
  | finish all =>
    refine ⟨spent + 1, by change sh.next + 1 ≤ _; omega, ?_⟩
    rw [List.countP_cons_of_neg Bool.false_ne_true, List.countP_cons_of_pos (by rfl)]
    omega
  | giveUp =>
    refine ⟨spent, next, ?_⟩
    rw [List.countP_cons_of_neg Bool.false_ne_true, List.countP_cons_of_pos (by rfl)]
    omega
  | store =>
    refine ⟨spent, next, ?_⟩
    rw [List.countP_cons_of_neg Bool.false_ne_true, List.countP_cons_of_pos (by rfl)]
    omega
  | _ => exact ⟨spent, next, Nat.le_refl _⟩

theorem PoolMove.bounded (same : t.caller = s.caller) (move : PoolMove call s t) (bounded : Bounded call s) :
    Bounded call t := by
  obtain ⟨⟨spent, next, few⟩, more⟩ := bounded
  refine ⟨?_, same ▸ more⟩
  rw [State.threads, List.countP_append] at few
  cases move with
  | still queued helping shared =>
    refine ⟨spent, shared ▸ next, ?_⟩
    rw [State.threads, List.countP_append, same, helping.countP_eq, queued]
    exact few
  | begins queued helping shared =>
    refine ⟨spent, shared ▸ next, ?_⟩
    rw [State.threads, List.countP_append, same, helping.countP_eq, List.countP_cons_of_pos (by rfl)]
    omega
  | @helps _ _ others queued before after step =>
    obtain ⟨spent', next', less⟩ := step.spends others next
    refine ⟨spent', next', ?_⟩
    rw [before.countP_eq] at few
    rw [State.threads, List.countP_append, same, after.countP_eq, queued]
    omega
  | ends queued helping shared =>
    refine ⟨spent, by rw [shared]; exact next, ?_⟩
    rw [helping.countP_eq, List.countP_cons_of_neg Bool.false_ne_true] at few
    rw [State.threads, List.countP_append, same, queued]
    exact few

theorem CallerStep.bounded (step : CallerStep call s t) (bounded : Bounded call s) : Bounded call t := by
  obtain ⟨⟨spent, next, few⟩, more⟩ := bounded
  rw [State.threads, List.countP_append] at few
  cases step with
  | announce at_ more =>
    rw [at_] at few
    exact ⟨⟨spent, next, by rw [State.threads, List.countP_append]; exact few⟩, fun h same => by
      cases same; exact more⟩
  | spawned at_ all =>
    rw [at_] at few
    refine ⟨⟨spent, next, ?_⟩, nofun⟩
    change spent + (InChunks.test :: s.helping).countP InChunks.active + s.queued + 0 ≤ _
    rw [List.countP_cons_of_pos (by rfl)]
    simp only [Caller.inside, Caller.toSpawn, List.countP_nil] at few
    omega
  | @enqueue h at_ =>
    have below := more h at_
    rw [at_] at few
    refine ⟨⟨spent, next, ?_⟩, nofun⟩
    change spent + s.helping.countP InChunks.active + (s.queue ++ [Task.helper]).count .helper +
      (call.helpers - (h + 1) + 1) ≤ _
    rw [List.count_append, List.count_singleton_self]
    simp only [Caller.inside, Caller.toSpawn, List.countP_nil, State.queued] at few
    omega
  | refused at_ =>
    rw [at_] at few
    refine ⟨⟨spent, next, ?_⟩, nofun⟩
    change spent + s.helping.countP InChunks.active + s.queued + 1 ≤ _
    simp only [Caller.inside, Caller.toSpawn, List.countP_nil] at few
    omega
  | retract at_ =>
    rw [at_] at few
    refine ⟨⟨spent, next, ?_⟩, nofun⟩
    change spent + (InChunks.test :: s.helping).countP InChunks.active + s.queued + 0 ≤ _
    rw [List.countP_cons_of_pos (by rfl)]
    simp only [Caller.inside, Caller.toSpawn, List.countP_nil] at few
    omega
  | @chunks _ here there at_ step =>
    rw [at_] at few
    obtain ⟨spent', next', less⟩ := step.spends s.helping next
    refine ⟨⟨spent', next', ?_⟩, nofun⟩
    change spent' + (there :: s.helping).countP InChunks.active + s.queued + 0 ≤ _
    simp only [Caller.inside, Caller.toSpawn, List.countP_nil, List.countP_cons] at few less ⊢
    omega
  | _ at_ =>
    rw [at_] at few
    refine ⟨⟨spent, next, ?_⟩, nofun⟩
    rw [State.threads, List.countP_append]
    simp only [Caller.inside, Caller.toSpawn, List.countP_nil, State.helping, State.queued] at few ⊢
    omega

/-- The counter stays below the number of chunks and of threads. -/
theorem next_le (reachable : (runRanges call memory).Reachable s) :
    s.shared.next ≤ call.chunks + call.helpers + 1 := by
  have bounded : Bounded call s := by
    refine Machine.Reachable.invariant ?_ ?_ reachable
    · intro s start
      have none : s.helping = [] := by
        obtain ⟨alone, _⟩ := start.caller ▸ stage_start start
        exact alone.2
      have empty : s.queued = 0 := by
        obtain ⟨alone, _⟩ := start.caller ▸ stage_start start
        exact alone.1
      refine ⟨⟨0, by rw [start.shared]; exact Nat.zero_le _, ?_⟩, fun h at_ => ?_⟩
      · rw [State.threads, none, empty, start.caller]
        exact Nat.le_of_eq (Nat.zero_add _)
      · rw [start.caller] at at_
        cases at_
    · intro s t step bounded
      rcases step with step | step
      · exact step.bounded bounded
      · obtain ⟨same, move⟩ := step.moves
        exact move.bounded same bounded
  obtain ⟨⟨spent, next, few⟩, _⟩ := bounded
  omega

end Bound

/-- `parallel_for`: every chunk is passed to the body at most once, and exactly once when nothing is
thrown; the call is over only when nobody is or comes to be in the body; and what is rethrown, once and
in the caller, was thrown by the body. -/
theorem parallel_for_protocol (reachable : (runRanges call memory).Reachable s) :
    s.shared.calls.Nodup ∧ (∀ chunk ∈ s.shared.calls, chunk < call.chunks) ∧
    (s.caller = .returned → s.shared.thrown = [] ∧ ∀ chunk < call.chunks, s.shared.calls.count chunk = 1) ∧
    (∀ e, s.caller = .threw e → e ∈ s.shared.thrown ∨ e = call.badAlloc ∧ s.shared.calls = [] ∧
      s.shared.thrown = []) ∧
    (s.caller.Ended → s.Quiet ∧ (s.shared.thrown ≠ [] → ∃ e ∈ s.shared.thrown, s.caller = .threw e) ∧
      ∀ t, (runRanges call memory).Runs s t → t.caller = s.caller ∧ t.shared = s.shared ∧ t.Quiet) := by
  have stage := stage_of_reachable reachable
  have exact_ {calls : List Nat} (all : calls.Perm (List.range call.chunks)) :
      calls.Nodup ∧ (∀ chunk ∈ calls, chunk < call.chunks) ∧ ∀ chunk < call.chunks, calls.count chunk = 1 := by
    have nodup := all.nodup_iff.mpr List.nodup_range
    exact ⟨nodup, fun chunk member => List.mem_range.mp (all.mem_iff.mp member), fun chunk below =>
      List.count_eq_one_of_mem nodup (all.mem_iff.mpr (List.mem_range.mpr below))⟩
  have running (run : Running call s) : s.shared.calls.Nodup ∧ ∀ chunk ∈ s.shared.calls, chunk < call.chunks := by
    have claimed := run.books.claimed
    have part : s.shared.calls.Sublist (s.threads.filterMap InChunks.entering ++ s.shared.calls) :=
      List.sublist_append_right _ _
    refine ⟨(claimed.nodup_iff.mpr List.nodup_range).sublist part, fun chunk member => ?_⟩
    have below := List.mem_range.mp (claimed.mem_iff.mp (part.subset member))
    omega
  have counted : s.shared.calls.Nodup ∧ ∀ chunk ∈ s.shared.calls, chunk < call.chunks := by
    cases at_ : s.caller with
    | entry =>
      obtain ⟨_, _, calls, _⟩ := at_ ▸ stage
      rw [calls]
      exact ⟨List.nodup_nil, nofun⟩
    | inline =>
      obtain ⟨_, calls, _⟩ := at_ ▸ stage
      obtain ⟨nodup, below, _⟩ := exact_ (.of_eq calls)
      exact ⟨nodup, below⟩
    | returned =>
      obtain ⟨_, calls, _⟩ := at_ ▸ stage
      obtain ⟨nodup, below, _⟩ := exact_ calls
      exact ⟨nodup, below⟩
    | threw =>
      obtain ⟨_, nodup, below, _⟩ := at_ ▸ stage
      exact ⟨nodup, below⟩
    | _ =>
      rw [at_] at stage
      exact running stage
  refine ⟨counted.1, counted.2, ?_, ?_, ?_⟩
  · intro at_
    obtain ⟨_, calls, thrown⟩ := at_ ▸ stage
    exact ⟨thrown, (exact_ calls).2.2⟩
  · intro e at_
    exact (at_ ▸ stage).2.2.2
  · intro ended
    refine ⟨stage.quiet ended, fun some => ?_, fun t runs => ?_⟩
    · cases at_ : s.caller with
      | returned => exact absurd (at_ ▸ stage).2.2 some
      | threw e =>
        rcases (at_ ▸ stage).2.2.2 with thrown | ⟨_, _, none⟩
        · exact ⟨e, thrown, rfl⟩
        · exact absurd none some
      | _ => rw [at_] at ended; cases ended
    · obtain ⟨same, shared⟩ := ended_runs reachable ended runs
      exact ⟨same, shared, (stage_of_reachable (reachable.runs runs)).quiet (same ▸ ended)⟩

section TwoChunks

/-- Two chunks on a pool of one thread; the body may throw in the second. -/
def twoChunks : Call Unit Nat where
  start := 0
  stop := 2
  grain := 1
  size := 1
  onWorkerThread := false
  body := fun _ _ actions => actions = []
  throws := fun lo _ e => lo = 1 ∧ e = 7
  badAlloc := 0

/-- A helper runs the first chunk, and the caller throws in the second. -/
theorem parallel_for_protocol_rethrows : ∃ s, (runRanges twoChunks ()).Reachable s ∧ s.caller = .threw 7 ∧
    s.shared.calls = [0, 1] ∧
    s.shared.calls.Nodup ∧ s.Quiet := by
  have start : Start twoChunks () ⟨{ memory := () }, .entry, [], false, [.idle]⟩ :=
    ⟨rfl, rfl, nofun, rfl, fun _ member => .inl (List.mem_singleton.mp member),
      fun member => nomatch List.mem_singleton.mp member⟩
  have idle : (runRanges twoChunks ()).Reachable _ := ⟨_, start, .refl⟩
  have queued := ((idle.step (.caller (.shares rfl (by decide) (by decide) rfl))).step
    (.caller (.announce (h := 0) rfl (by decide)))).step (.caller (.enqueue rfl rfl))
  have helping := (queued.step (.caller (.spawned rfl (by decide)))).step (.pool (.take (w := 0) rfl rfl))
  have first := ((helping.step (.pool (.help (w := 0) rfl .goOn))).step
    (.pool (.help (w := 0) rfl (.claim (by decide))))).step
    (.pool (.help (w := 0) rfl (.enter rfl)))
  have second := ((first.step (.caller (.chunks rfl .goOn))).step (.caller (.chunks rfl (.claim (by decide))))).step
    (.caller (.chunks rfl (.enter rfl)))
  have failed := (second.step (.caller (.chunks rfl (.throws ⟨rfl, rfl⟩)))).step (.caller (.chunks rfl .store))
  have alone := ((failed.step (.pool (.help (w := 0) rfl .returns))).step
    (.pool (.help (w := 0) rfl (.giveUp rfl)))).step
    (.pool (.leave (w := 0) rfl))
  have over_ := alone.step (.caller (.rethrows rfl rfl rfl))
  obtain ⟨nodup, _, _, _, ended⟩ := parallel_for_protocol over_
  exact ⟨_, over_, rfl, rfl, nodup, (ended trivial).1⟩

end TwoChunks

end States
end ThreadPool
end VectorForge
