import VectorForge.Concurrency.BatchCalls

/-! When a batch call can wait forever for helpers that nobody takes, and when it cannot. -/

namespace VectorForge
namespace BatchCalls
variable {use : Use} {s s' : State} {t : Nat} {shared shared' : Shared} {th th' : Thread}
  {P : List Lock → Action → Prop}

section Along

/-- `P` holds before every action, and no lock is left in the end. -/
def Along (P : List Lock → Action → Prop) : List Lock → List Action → Prop
  | held, [] => held = []
  | held, a :: rest => P held a ∧ Along P (a.holds held) rest

theorem Along.append {q : List Action} (second : Along P [] q) : ∀ {p : List Action} {held : List Lock},
    Along P held p → Along P held (p ++ q)
  | [], _, first => by
    rw [show _ = ([] : List Lock) from first]
    exact second
  | _ :: _, _, first => ⟨first.1, second.append first.2⟩

theorem Along.flatMap {α : Type} {f : α → List Action} : ∀ {l : List α}, (∀ x ∈ l, Along P [] (f x)) →
    Along P [] (l.flatMap f)
  | [], _ => rfl
  | x :: l, each => by
    rw [List.flatMap_cons]
    obtain ⟨first, others⟩ := List.forall_mem_cons.mp each
    exact (Along.flatMap others).append first

/-- What a thread is doing and what it still has to do belong together. -/
def Thread.Placed (th : Thread) : Prop :=
  match th.place with
  | .running => True
  | .waitsShared => ∃ rest, th.rest = .lockShared :: rest
  | .waitsExclusive => ∃ rest, th.rest = .lock :: rest
  | .spawning _ | .chunks | .joining => ∃ n rest, th.rest = .parallelFor n :: rest ∧ 1 < n
  | .helping _ | .elsewhere => th.rest = []

structure Fits (P : List Lock → Action → Prop) (th : Thread) : Prop where
  placed : th.Placed
  along : Along P th.held th.rest

theorem Fits.after {a : Action} {rest : List Action} (fits : Fits P th) (next : th.rest = a :: rest) :
    Fits P (th.after a rest) := by
  have along := fits.along
  rw [next] at along
  exact ⟨trivial, along.2⟩

theorem Act.fits (act : Act use t shared th shared' th')
    (calls : use.size ≤ t → ∀ m, use.calls m → Along P [] m.program) (fits : Fits P th) : Fits P th' := by
  have placed := fits.placed
  have along := fits.along
  cases act with
  | call client idle may =>
    have free : th.held = [] := by
      rw [idle.2] at along
      exact along
    refine ⟨?_, ?_⟩
    · rw [Thread.Placed, idle.1]
      trivial
    · change Along P th.held _
      rw [free]
      exact calls client _ may
  | submit => exact fits
  | submitOther => exact fits
  | acquire at_ next => exact fits.after next
  | release at_ next => exact fits.after next
  | lockShared at_ next => exact fits.after next
  | queueShared at_ next => exact ⟨⟨_, next⟩, along⟩
  | enterShared at_ next => exact fits.after next
  | unlockShared at_ next => exact fits.after next
  | lock at_ next => exact fits.after next
  | queue at_ next => exact ⟨⟨_, next⟩, along⟩
  | enter at_ next => exact fits.after next
  | unlock at_ next => exact fits.after next
  | inline at_ next => exact fits.after next
  | lacks at_ next => exact fits.after next
  | shares at_ next many => exact ⟨⟨_, _, next, many⟩, along⟩
  | enqueue at_ | refused at_ | spawned at_ | finish at_ =>
    simp only [Thread.Placed, at_] at placed
    exact ⟨placed, along⟩
  | join at_ next => exact fits.after next
  | takeHelper worker idle => exact ⟨idle.2, along⟩
  | takeOther worker idle => exact ⟨idle.2, along⟩
  | otherEnds at_ => exact ⟨trivial, along⟩

/-- The threads `on` which the invariant is kept all call such methods only. -/
theorem Step.fits {on : Nat → Prop} (step : Step use s s')
    (calls : ∀ t, on t → use.size ≤ t → ∀ m, use.calls m → Along P [] m.program)
    (tasks : ∀ t, on t → t < use.size → ∀ m, use.tasks m → Along P [] m.program)
    (queued : ∀ methods, .task methods ∈ s.shared.queue → ∀ m ∈ methods, use.tasks m)
    (fits : ∀ t, on t → Fits P (s.threads t)) : ∀ t, on t → Fits P (s'.threads t) := by
  intro u chosen
  cases step with
  | @act t shared th act =>
    by_cases same : u = t
    · subst same
      simp only [Function.update_self]
      exact act.fits (calls u chosen) (fits u chosen)
    · simp only [Function.update_of_ne same]
      exact fits u chosen
  | @take w methods rest worker idle front =>
    by_cases same : u = w
    · subst same
      have along := (fits u chosen).along
      rw [idle.2] at along
      have free : (s.threads u).held = [] := along
      simp only [Function.update_self]
      refine ⟨?_, ?_⟩
      · rw [Thread.Placed, idle.1]
        trivial
      · change Along P (s.threads u).held _
        rw [free]
        refine Along.flatMap fun m member => tasks u chosen worker m (queued methods ?_ m member)
        rw [front]
        exact List.mem_cons_self
    · simp only [Function.update_of_ne same]
      exact fits u chosen
  | @leave w caller at_ =>
    by_cases same : u = w
    · subst same
      simp only [Function.update_self]
      exact ⟨trivial, (fits u chosen).along⟩
    · simp only [Function.update_of_ne same]
      by_cases here : u = caller
      · subst here
        simp only [Function.update_self]
        exact ⟨(fits u chosen).placed, (fits u chosen).along⟩
      · simp only [Function.update_of_ne here]
        exact fits u chosen

/-- The tasks in the queue call only what tasks call. -/
theorem Step.queued (step : Step use s s')
    (queued : ∀ methods, .task methods ∈ s.shared.queue → ∀ m ∈ methods, use.tasks m) :
    ∀ methods, .task methods ∈ s'.shared.queue → ∀ m ∈ methods, use.tasks m := by
  intro methods member
  cases step with
  | @act t shared th act =>
    cases act with
    | submit may =>
      rcases List.mem_append.mp member with old | new
      · exact queued methods old
      · cases List.mem_singleton.mp new
        exact may
    | submitOther =>
      rcases List.mem_append.mp member with old | new
      · exact queued methods old
      · cases List.mem_singleton.mp new
    | enqueue =>
      rcases List.mem_append.mp member with old | new
      · exact queued methods old
      · cases List.mem_singleton.mp new
    | takeHelper _ _ front =>
      refine queued methods ?_
      rw [front]
      exact List.mem_cons_of_mem _ member
    | takeOther _ _ front =>
      refine queued methods ?_
      rw [front]
      exact List.mem_cons_of_mem _ member
    | _ => exact queued methods member
  | take _ _ front =>
    refine queued methods ?_
    rw [front]
    exact List.mem_cons_of_mem _ member
  | leave => exact queued methods member

theorem reachable_fits (on : Nat → Prop)
    (calls : ∀ t, on t → use.size ≤ t → ∀ m, use.calls m → Along P [] m.program)
    (tasks : ∀ t, on t → t < use.size → ∀ m, use.tasks m → Along P [] m.program)
    (reachable : (machine use).Reachable s) : ∀ t, on t → Fits P (s.threads t) := by
  let holds (s : State) : Prop :=
    (∀ methods, .task methods ∈ s.shared.queue → ∀ m ∈ methods, use.tasks m) ∧ ∀ t, on t → Fits P (s.threads t)
  suffices whole : holds s from whole.2
  refine reachable.invariant ?_ ?_
  · rintro s rfl
    exact ⟨nofun, fun _ _ => ⟨trivial, rfl⟩⟩
  · intro s s' step before
    exact ⟨Step.queued step before.1, Step.fits step calls tasks before.1 before.2⟩

end Along

section Methods
variable (locks : ∀ held a, (∀ n, a ≠ .parallelFor n) → P held a)

include locks

theorem along_exclusive {held : List Lock} {rest : List Action} (more : Along P held rest) :
    Along P held (exclusive ++ rest) :=
  ⟨locks _ _ nofun, locks _ _ nofun, by rw [Action.holds, Action.holds, List.erase_cons_head]; exact more⟩

omit locks in
theorem along_onPool {pool : Bool} {n : Nat} {held : List Lock} {rest : List Action}
    (shared : pool = true → P held (.parallelFor n))
    (more : Along P held rest) : Along P held (onPool pool n ++ rest) := by
  cases pool with
  | false => exact more
  | true => exact ⟨shared rfl, more⟩

theorem along_slices {held : List Lock} {rest : List Action} (more : Along P held rest) :
    ∀ n : Nat, Along P held ((List.replicate n exclusive).flatten ++ rest)
  | 0 => more
  | n + 1 => by
    rw [List.replicate_succ, List.flatten_cons, List.append_assoc]
    exact along_exclusive locks (along_slices more n)

theorem along_round {pool : Bool} {r : Round} {held : List Lock} {rest : List Action}
    (shared : (pool && decide (r.grown > 1)) = true → P (.rw :: .link :: held) (.parallelFor r.grown))
    (more : Along P held rest) : Along P held (r.program pool ++ rest) := by
  have last : Along P (.link :: held) ((if r.abandons then exclusive else []) ++ (.release .link :: rest)) := by
    have release : Along P (.link :: held) (.release .link :: rest) := by
      refine ⟨locks _ _ nofun, ?_⟩
      rw [Action.holds, List.erase_cons_head]
      exact more
    split
    · exact along_exclusive locks release
    · exact release
  have middle : Along P (.link :: held) ((if r.grown = 0 then [] else
      .lockShared :: (onPool (pool && decide (r.grown > 1)) r.grown ++ [.unlockShared])) ++
      ((if r.abandons then exclusive else []) ++ (.release .link :: rest))) := by
    split
    · exact last
    · rw [List.cons_append, List.append_assoc]
      refine ⟨locks _ _ nofun, along_onPool shared ⟨locks _ _ nofun, ?_⟩⟩
      rw [Action.holds, Action.holds, List.erase_cons_head]
      exact last
  simp only [Round.program, List.cons_append, List.append_assoc, List.nil_append]
  exact ⟨locks _ _ nofun, along_exclusive locks middle⟩

theorem along_rounds {pool : Bool} {held : List Lock} {rest : List Action} (more : Along P held rest) :
    ∀ {rounds : List Round},
    (∀ r ∈ rounds, (pool && decide (r.grown > 1)) = true → P (.rw :: .link :: held) (.parallelFor r.grown)) →
    Along P held ((rounds.map (Round.program pool)).flatten ++ rest)
  | [], _ => more
  | r :: rounds, shared => by
    obtain ⟨first, others⟩ := List.forall_mem_cons.mp shared
    rw [List.map_cons, List.flatten_cons, List.append_assoc]
    exact along_round locks first (along_rounds more others)

/-- Every method gives back what it takes, and only some ask for helpers while they hold a lock. -/
theorem Method.along (m : Method) (alone : ∀ n, P [] (.parallelFor n))
    (shared : ∀ held n, (1 < n → m.sharesWork = true) → P held (.parallelFor n)) : Along P [] m.program := by
  have release : Along P [.writers] [.release .writers] := ⟨locks _ _ nofun, rfl⟩
  have mutation : Along P [] Method.mutation := ⟨locks _ _ nofun, along_exclusive locks release⟩
  cases m with
  | add => exact mutation
  | remove => exact mutation
  | search => exact ⟨locks _ _ nofun, locks _ _ nofun, rfl⟩
  | save => exact ⟨locks _ _ nofun, locks _ _ nofun, locks _ _ nofun, locks _ _ nofun, rfl⟩
  | compact rebuilds =>
    refine ⟨locks _ _ nofun, locks _ _ nofun, locks _ _ nofun, ?_⟩
    cases rebuilds with
    | false => exact release
    | true => exact along_exclusive locks release
  | searchBatch queries pool =>
    refine ⟨locks _ _ nofun, along_onPool (fun given => shared _ _ fun many => ?_) ⟨locks _ _ nofun, rfl⟩⟩
    simp only [Method.sharesWork, given, many, decide_true, Bool.and_self]
  | addBatch rows normalizes pool slices =>
    refine along_onPool (fun _ => alone _)
      ⟨locks _ _ nofun, along_exclusive locks (along_slices locks release slices)⟩
  | addBatchConcurrent rows normalizes pool rounds =>
    refine along_onPool (fun _ => alone _)
      ⟨locks _ _ nofun, along_exclusive locks (along_rounds locks release fun r member given => ?_)⟩
    refine shared _ _ fun _ => ?_
    obtain ⟨given, many⟩ := Bool.and_eq_true_iff.mp given
    simp only [Method.sharesWork, given, Bool.true_and]
    exact List.any_eq_true.mpr ⟨r, member, many⟩

end Methods

/-- Nothing is promised of the actions but that they give back what they take. -/
def anything (_ : List Lock) (_ : Action) : Prop := True

theorem reachable_placed (reachable : (machine use).Reachable s) (t : Nat) : (s.threads t).Placed := by
  have each (m : Method) : Along anything [] m.program :=
    Method.along (fun _ _ _ => trivial) m (fun _ => trivial) fun _ _ _ => trivial
  exact (reachable_fits (fun _ => True) (fun _ _ _ m _ => each m) (fun _ _ _ m _ => each m)
    reachable t trivial).placed

section Few

theorem Act.rest_ne_nil (act : Act use t shared th shared' th') (worker : t < use.size)
    (some : th'.rest ≠ []) : th.rest ≠ [] := by
  have cons {a : Action} {rest : List Action} (next : th.rest = a :: rest) : th.rest ≠ [] := by
    rw [next]
    exact List.cons_ne_nil a rest
  cases act with
  | call client => omega
  | acquire _ next | release _ next | lockShared _ next | enterShared _ next | unlockShared _ next
  | lock _ next | enter _ next
  | unlock _ next | inline _ next | lacks _ next | join _ next => exact cons next
  | _ => exact some

/-- The bound on the tasks that run at the same time is kept. -/
theorem busy_le (reachable : (machine use).Reachable s) : s.busy use ≤ use.limit := by
  let holds (s : State) : Prop := s.busy use ≤ use.limit
  suffices few : holds s from few
  refine reachable.invariant ?_ ?_
  · rintro s rfl
    have none : ({} : State).busy use = 0 :=
      Finset.card_eq_zero.mpr (Finset.filter_false_of_mem fun _ _ some => some rfl)
    omega
  · intro s s' step before
    -- a step that lets no worker begin
    have fewer {s' : State} (idle : ∀ w, w < use.size → (s'.threads w).rest ≠ [] → (s.threads w).rest ≠ []) :
        s'.busy use ≤ use.limit := by
      refine (Finset.card_le_card ?_).trans before
      intro w member
      obtain ⟨worker, some⟩ := Finset.mem_filter.mp member
      exact Finset.mem_filter.mpr ⟨worker, idle w (Finset.mem_range.mp worker) some⟩
    cases step with
    | @act t shared th act =>
      refine fewer fun w worker some => ?_
      by_cases same : w = t
      · subst same
        simp only [Function.update_self] at some
        exact act.rest_ne_nil worker some
      · simpa only [Function.update_of_ne same] using some
    | @take w methods rest worker idle front few =>
      refine le_trans (Finset.card_le_card
        (t := insert w ((Finset.range use.size).filter fun w => (s.threads w).rest ≠ [])) ?_)
        ((Finset.card_insert_le _ _).trans few)
      intro v member
      obtain ⟨inside, some⟩ := Finset.mem_filter.mp member
      by_cases same : v = w
      · exact Finset.mem_insert.mpr (.inl same)
      · simp only [Function.update_of_ne same] at some
        exact Finset.mem_insert_of_mem (Finset.mem_filter.mpr ⟨inside, some⟩)
    | @leave w caller at_ =>
      refine fewer fun v worker some => ?_
      by_cases same : v = w
      · subst same
        simpa only [Function.update_self] using some
      · simp only [Function.update_of_ne same] at some
        by_cases here : v = caller
        · subst here
          simpa only [Function.update_self] using some
        · simpa only [Function.update_of_ne here] using some

/-- Who waits has something to do. -/
theorem Waits.rest_ne_nil {l : Lock} (waits : Waits s t l) (placed : (s.threads t).Placed) :
    (s.threads t).rest ≠ [] := by
  cases waits with
  | mutex _ next =>
    rw [next]
    exact List.cons_ne_nil _ _
  | shared at_ | exclusive at_ =>
    simp only [Thread.Placed, at_] at placed
    obtain ⟨rest, next⟩ := placed
    rw [next]
    exact List.cons_ne_nil _ _

theorem Awaits.waits {c : Nat} (awaits : Awaits s c t) : ∃ l, Waits s t l := by
  cases awaits with
  | here waits => exact ⟨_, waits⟩
  | through waits => exact ⟨_, waits⟩

/-- With a worker to spare somebody takes the helpers. -/
theorem not_deadlocked_of_spare (spare : use.limit < use.size) (reachable : (machine use).Reachable s) (c : Nat) :
    ¬Deadlocked use s c := by
  intro deadlocked
  have all : s.busy use = use.size := by
    have every : ((Finset.range use.size).filter fun w => (s.threads w).rest ≠ []) = Finset.range use.size := by
      refine Finset.filter_true_of_mem fun w member => ?_
      obtain ⟨l, waits⟩ := (deadlocked.blocked w (Finset.mem_range.mp member)).waits
      exact waits.rest_ne_nil (reachable_placed reachable w)
    rw [State.busy, every, Finset.card_range]
  have few := busy_le reachable
  omega

end Few

section Reading

/-- Before an action of a method that locks nothing exclusively. -/
def reading (held : List Lock) (a : Action) : Prop :=
  a ≠ .lock ∧ a ≠ .acquire .rw ∧ ∀ n, a = .parallelFor n → ∀ l ∈ held, l = .rw

theorem Method.along_reading {m : Method} (shared : m.locksExclusively = false) : Along reading [] m.program := by
  cases m with
  | search => simp [Method.program, Along, reading, Action.holds]
  | save => simp [Method.program, Along, reading, Action.holds]
  | compact rebuilds =>
    cases rebuilds with
    | false => simp [Method.program, Along, reading, Action.holds]
    | true => cases shared
  | searchBatch queries pool => cases pool <;> simp [Method.program, onPool, Along, reading, Action.holds]
  | _ => cases shared

theorem Act.open_ (act : Act use t shared th shared' th') (fits : Fits reading th)
    (before : shared.rw.writerActive = false ∧ shared.rw.waitingWriters = 0) :
    shared'.rw.writerActive = false ∧ shared'.rw.waitingWriters = 0 := by
  have never {rest : List Action} (next : th.rest = .lock :: rest) : False := by
    have along := fits.along
    rw [next] at along
    exact along.1.1 rfl
  cases act with
  | lock _ next | queue _ next | enter _ next => exact (never next).elim
  | unlock => exact ⟨rfl, before.2⟩
  | _ => exact before

variable (harmless : ∀ m, use.tasks m ∨ use.calls m → m.locksExclusively = false)
  (reachable : (machine use).Reachable s)
include harmless reachable

theorem reachable_reading (t : Nat) : Fits reading (s.threads t) :=
  reachable_fits (fun _ => True) (fun _ _ _ m may => Method.along_reading (harmless m (.inr may)))
    (fun _ _ _ m may => Method.along_reading (harmless m (.inl may))) reachable t trivial

/-- Nobody ever asks for the lock exclusively. -/
theorem reachable_open : s.shared.rw.writerActive = false ∧ s.shared.rw.waitingWriters = 0 := by
  let holds (s : State) : Prop := (machine use).Reachable s ∧ s.shared.rw.writerActive = false ∧
    s.shared.rw.waitingWriters = 0
  suffices whole : holds s from whole.2
  refine reachable.invariant ?_ ?_
  · exact fun s start => ⟨⟨s, start, .refl⟩, by rw [show s = {} from start]; exact ⟨rfl, rfl⟩⟩
  · rintro s s' step ⟨before, free⟩
    refine ⟨before.step step, ?_⟩
    cases step with
    | act act => exact act.open_ (reachable_reading harmless before _) free
    | take => exact free
    | leave => exact free

/-- The lock is open to all readers, so nobody waits for a caller. -/
theorem not_deadlocked_of_shared (c : Nat) : ¬Deadlocked use s c := by
  intro deadlocked
  obtain ⟨inactive, none⟩ := reachable_open harmless reachable
  have fits := reachable_reading harmless reachable
  have only (l : Lock) (held : l ∈ (s.threads c).held) : l = .rw := by
    have placed := (fits c).placed
    simp only [Thread.Placed, deadlocked.joining] at placed
    obtain ⟨n, rest, next, _⟩ := placed
    have along := (fits c).along
    rw [next] at along
    exact along.1.2.2 n rfl l held
  have free (t : Nat) : ¬Waits s t .rw := by
    intro waits
    generalize rw : Lock.rw = l at waits
    cases waits with
    | mutex at_ next =>
      have along := (fits t).along
      rw [next, ← rw] at along
      exact along.1.2.1 rfl
    | shared at_ refuses =>
      rw [FairSharedMutex.admitsReader, inactive, none] at refuses
      cases refuses
    | exclusive at_ =>
      have placed := (fits t).placed
      simp only [Thread.Placed, at_] at placed
      obtain ⟨rest, next⟩ := placed
      have along := (fits t).along
      rw [next] at along
      exact along.1.1 rfl
  have never {t : Nat} (awaits : Awaits s c t) : False := by
    induction awaits with
    | here waits held => exact free _ (only _ held ▸ waits)
    | through _ _ _ ih => exact ih
  exact never (deadlocked.blocked 0 use.positive)

end Reading

section Alone

/-- No helpers are asked for while a lock is held. -/
def alone (held : List Lock) (a : Action) : Prop := ∀ n, a = .parallelFor n → 1 < n → held = []

/-- Who joins holds nothing. -/
theorem not_deadlocked_of_alone (apart : ∀ m, use.calls m → m.sharesWork = false)
    (reachable : (machine use).Reachable s) (c : Nat) : ¬Deadlocked use s c := by
  intro deadlocked
  have calls (m : Method) (may : use.calls m) : Along alone [] m.program := by
    refine Method.along (fun _ a other n same => absurd same (other n)) m (fun _ _ _ _ => rfl)
      fun held n many k same more => ?_
    cases same
    exact absurd (many more) (by rw [apart m may]; exact Bool.false_ne_true)
  have fits := reachable_fits (fun t => use.size ≤ t) (fun _ _ _ => calls) (fun _ high low => by omega)
    reachable c deadlocked.client
  have placed := fits.placed
  simp only [Thread.Placed, deadlocked.joining] at placed
  obtain ⟨n, rest, next, many⟩ := placed
  have along := fits.along
  rw [next] at along
  exact deadlocked.holds (along.1 n rfl many)

end Alone

/-- Batch calls on a pool go on, if one worker is always free of tasks that call the collection, or nobody changes
the collection, or nobody asks for helpers while it holds a lock. -/
theorem batch_calls_are_not_blocked
    (condition : use.limit < use.size ∨ (∀ m, use.tasks m ∨ use.calls m → m.locksExclusively = false) ∨
    ∀ m, use.calls m → m.sharesWork = false) (reachable : (machine use).Reachable s) (c :
    Nat) : ¬Deadlocked use s c := by
  rcases condition with spare | harmless | apart
  · exact not_deadlocked_of_spare spare reachable c
  · exact not_deadlocked_of_shared harmless reachable c
  · exact not_deadlocked_of_alone apart reachable c

section Single

/-- One worker, tasks that add a row, and other threads that search for 32 vectors at a time. -/
def singleWorker : Use where
  size := 1
  positive := Nat.one_pos
  tasks m := m = .add
  calls m := m = .searchBatch 32 true
  limit := 1

/-- The worker, one more thread, and others that do nothing. -/
def couple (shared : Shared) (worker caller : Thread) : State where
  shared := shared
  threads t := if t = 0 then worker else if t = 1 then caller else {}

theorem couple_worker {worker caller worker' : Thread} (act : Act singleWorker 0 shared worker shared' worker') :
    Step singleWorker (couple shared worker caller) (couple shared' worker' caller) := by
  have same : couple shared' worker' caller =
      { shared := shared', threads := Function.update (couple shared worker caller).threads 0 worker' } := by
    refine congrArg (State.mk shared') (funext fun t => ?_)
    by_cases first : t = 0
    · subst first
      rfl
    · rw [Function.update_of_ne first, if_neg first]
      exact (if_neg first).symm
  rw [same]
  exact .act act

theorem couple_caller {worker caller caller' : Thread} (act : Act singleWorker 1 shared caller shared' caller') :
    Step singleWorker (couple shared worker caller) (couple shared' worker caller') := by
  have same : couple shared' worker caller' =
      { shared := shared', threads := Function.update (couple shared worker caller).threads 1 caller' } := by
    refine congrArg (State.mk shared') (funext fun t => ?_)
    by_cases second : t = 1
    · subst second
      rfl
    · rw [Function.update_of_ne second, if_neg second]
      change _ = if t = 0 then worker else if t = 1 then caller else {}
      rw [if_neg second]
  rw [same]
  exact .act act

/-- The worker takes a task that adds a row. -/
theorem couple_take {caller : Thread} {rw : FairSharedMutex} :
    Step singleWorker (couple { rw, queue := [.task [.add]] } {} caller)
      (couple { rw } { rest := Method.mutation } caller) := by
  have same : couple { rw } { rest := Method.mutation } caller = State.mk { rw }
      (Function.update (couple { rw, queue := [.task [.add]] } {} caller).threads 0
        { rest := [Method.add].flatMap Method.program }) := by
    refine congrArg (State.mk { rw }) (funext fun t => ?_)
    by_cases first : t = 0
    · subst first
      rfl
    · rw [Function.update_of_ne first, if_neg first]
      exact (if_neg first).symm
  have idle : (couple { rw, queue := [.task [.add]] } {} caller).busy singleWorker < singleWorker.limit := by
    have none : (couple { rw, queue := [.task [.add]] } {} caller).busy singleWorker = 0 :=
      Finset.card_eq_zero.mpr (Finset.filter_false_of_mem fun w member some => by
        obtain rfl : w = 0 := Nat.lt_one_iff.mp (Finset.mem_range.mp member)
        exact some rfl)
    rw [none]
    exact Nat.one_pos
  rw [same]
  exact .take (w := 0) Nat.one_pos ⟨rfl, rfl⟩ rfl idle

/-- The worker waits for the caller that waits for the worker. -/
theorem search_batch_waits_for_blocked_worker : ∃ s, (machine singleWorker).Reachable s ∧
    Deadlocked singleWorker s 1 := by
  have blank : couple {} {} {} = {} := by
    refine congrArg (State.mk {}) (funext fun t => ?_)
    simp only [ite_self]
  have reach : (machine singleWorker).Reachable (couple {} {} {}) := ⟨{}, rfl, blank ▸ .refl⟩
  have reach := reach.step (couple_caller (.submit fun m (member : m ∈ [Method.add]) =>
    List.mem_singleton.mp member))
  have reach := reach.step couple_take
  have reach := reach.step (couple_worker (.acquire rfl rfl rfl))
  have reach := reach.step (couple_caller (.call (le_refl _) ⟨rfl, rfl⟩ rfl))
  have reach := reach.step (couple_caller (.lockShared rfl rfl rfl))
  have reach := reach.step (couple_worker (.queue rfl rfl rfl))
  have reach := reach.step (couple_caller (.shares rfl rfl (by decide) (le_refl _)))
  have reach := reach.step (couple_caller (.enqueue rfl))
  have reach := reach.step (couple_caller (.spawned rfl))
  have reach := reach.step (couple_caller (.finish rfl))
  refine ⟨_, reach, le_refl _, rfl, List.cons_ne_nil _ _, List.mem_cons_self, fun w worker => ?_⟩
  obtain rfl : w = 0 := Nat.lt_one_iff.mp worker
  exact .here (.exclusive rfl rfl) List.mem_cons_self

/-- With a second worker the same calls go on. -/
theorem batch_calls_are_not_blocked_two : ∃ use : Use, use.limit = 1 ∧ use.size = 2 ∧
    ∀ s, (machine use).Reachable s → ∀ c, ¬Deadlocked use s c :=
  ⟨{ singleWorker with size := 2, positive := Nat.two_pos }, rfl, rfl, fun _ reachable =>
    batch_calls_are_not_blocked (.inl Nat.one_lt_two) reachable⟩

end Single
end BatchCalls
end VectorForge
