import VectorForge.Concurrency.FairSharedMutex

/-! The methods of a collection as they use its locks and a thread pool, called by any number of threads
and by the tasks of the pool. Everything that a method does in between waits for nobody. -/

namespace VectorForge
namespace BatchCalls

/-- The locks of a collection, in the order in which they are taken. -/
inductive Lock where
  | writers
  | link
  | rw
  deriving DecidableEq, Repr

inductive Action where
  /-- `writers` or `link`. -/
  | acquire (mutex : Lock)
  | release (mutex : Lock)
  | lockShared
  | unlockShared
  | lock
  | unlock
  | parallelFor (chunks : Nat)
  deriving DecidableEq, Repr

/-- The locks that a thread holds after an action. -/
def Action.holds : Action → List Lock → List Lock
  | .acquire mutex, held => mutex :: held
  | .release mutex, held => held.erase mutex
  | .lockShared, held => .rw :: held
  | .unlockShared, held => held.erase .rw
  | .lock, held => .rw :: held
  | .unlock, held => held.erase .rw
  | .parallelFor _, held => held

def kSearchGrain : Nat := 16
def kNormalizeGrain : Nat := 256

def chunksOf (count grain : Nat) : Nat := count / grain + if count % grain ≠ 0 then 1 else 0

/-- One round of `add_batch_concurrent`: the rows that were grown, and whether some could not be linked. -/
structure Round where
  grown : Nat
  abandons : Bool
  deriving DecidableEq, Repr

def exclusive : List Action := [.lock, .unlock]

/-- A call of `parallel_for` if there is a pool, or else the same work without it. -/
def onPool (pool : Bool) (chunks : Nat) : List Action := if pool then [.parallelFor chunks] else []

def Round.program (pool : Bool) (r : Round) : List Action :=
  .acquire .link :: (exclusive ++ ((if r.grown = 0 then [] else
    .lockShared :: (onPool (pool && decide (r.grown > 1)) r.grown ++ [.unlockShared])) ++
    ((if r.abandons then exclusive else []) ++ [.release .link])))

/-- A call of a method that gets as far as its first lock. The parameters are what the number of its
sections depends on: the sizes of the arguments, the clock and what fails. -/
inductive Method where
  | add
  | remove
  | search
  | save
  | compact (rebuilds : Bool)
  | searchBatch (queries : Nat) (pool : Bool)
  /-- `slices` exclusive sections after the one of the checks. -/
  | addBatch (rows : Nat) (normalizes pool : Bool) (slices : Nat)
  | addBatchConcurrent (rows : Nat) (normalizes pool : Bool) (rounds : List Round)
  deriving DecidableEq, Repr

namespace Method

def mutation : List Action := .acquire .writers :: (exclusive ++ [.release .writers])

def normalization (rows : Nat) (normalizes pool : Bool) : List Action :=
  onPool (normalizes && pool) (chunksOf rows kNormalizeGrain)

def program : Method → List Action
  | add => mutation
  | remove => mutation
  | search => [.lockShared, .unlockShared]
  | save => [.acquire .link, .lockShared, .unlockShared, .release .link]
  | compact rebuilds => .acquire .writers :: .lockShared :: .unlockShared :: ((if rebuilds then exclusive else
    []) ++ [.release .writers])
  | searchBatch queries pool => .lockShared :: (onPool pool (chunksOf queries kSearchGrain) ++ [.unlockShared])
  | addBatch rows normalizes pool slices => normalization rows normalizes pool ++
      (.acquire .writers :: (exclusive ++ ((List.replicate slices exclusive).flatten ++ [.release .writers])))
  | addBatchConcurrent rows normalizes pool rounds => normalization rows normalizes pool ++
      (.acquire .writers :: (exclusive ++ ((rounds.map (Round.program pool)).flatten ++ [.release .writers])))

def locksExclusively : Method → Bool
  | search => false
  | save => false
  | compact rebuilds => rebuilds
  | searchBatch _ _ => false
  | _ => true

/-- Whether helpers of the pool are asked for while a lock is held. -/
def sharesWork : Method → Bool
  | searchBatch queries pool => pool && decide (1 < chunksOf queries kSearchGrain)
  | addBatchConcurrent _ _ pool rounds => pool && rounds.any fun r => decide (r.grown > 1)
  | _ => false

end Method

/-- Where a thread is. -/
inductive Place where
  /-- Before the next of its actions. -/
  | running
  /-- Queued at `rw`. -/
  | waitsShared
  | waitsExclusive
  /-- In `run_ranges`, with so many helpers still to enqueue. -/
  | spawning (left : Nat)
  | chunks
  /-- In its wait for the helpers. -/
  | joining
  /-- A worker with a helper of this caller, or with a task that has nothing to do with the collection. -/
  | helping (caller : Nat)
  | elsewhere
  deriving DecidableEq, Repr

structure Thread where
  place : Place := .running
  rest : List Action := []
  held : List Lock := []
  runningHelpers : Nat := 0
  deriving DecidableEq, Repr

/-- After the next action. -/
def Thread.after (th : Thread) (a : Action) (rest : List Action) : Thread :=
  { th with place := .running, rest, held := a.holds th.held }

/-- What is in the queue of the pool. -/
inductive Job where
  | task (methods : List Method)
  | helper (caller : Nat)
  | other
  deriving DecidableEq, Repr

structure Shared where
  rw : FairSharedMutex := {}
  /-- Who has `writers` and `link`. -/
  owner : Lock → Option Nat := fun _ => none
  queue : List Job := []

/-- The pool, what its tasks and the other threads call, and how many tasks that call the collection may run at
the same time. -/
structure Use where
  size : Nat
  positive : 0 < size
  tasks : Method → Prop
  calls : Method → Prop
  limit : Nat

structure State where
  shared : Shared := {}
  /-- The first `size` of them are the workers of the pool. -/
  threads : Nat → Thread := fun _ => {}

/-- What thread `t` does on its own. -/
inductive Act (use : Use) (t : Nat) : Shared → Thread → Shared → Thread → Prop where
  | call {s : Shared} {th : Thread} {m : Method} (client : use.size ≤ t) (idle : th.place = .running ∧ th.rest = [])
      (may : use.calls m) : Act use t s th s { th with rest := m.program }
  /-- `submit` of a task that calls these methods. -/
  | submit {s : Shared} {th : Thread} {methods : List Method} (may : ∀ m ∈ methods, use.tasks m) :
      Act use t s th { s with queue := s.queue ++ [.task methods] } th
  | submitOther {s : Shared} {th : Thread} : Act use t s th { s with queue := s.queue ++ [.other] } th
  | acquire {s : Shared} {th : Thread} {mutex : Lock} {rest : List Action} (at_ : th.place = .running)
      (next : th.rest = .acquire mutex :: rest) (free : s.owner mutex = none) :
      Act use t s th { s with owner := Function.update s.owner mutex (some t) } (th.after (.acquire mutex) rest)
  | release {s : Shared} {th : Thread} {mutex : Lock} {rest : List Action} (at_ : th.place = .running)
      (next : th.rest = .release mutex :: rest) :
      Act use t s th { s with owner := Function.update s.owner mutex none } (th.after (.release mutex) rest)
  | lockShared {s : Shared} {th : Thread} {rest : List Action} (at_ : th.place = .running)
      (next : th.rest = .lockShared :: rest) (admits : s.rw.queueReader.admitsReader = true) :
      Act use t s th { s with rw := s.rw.queueReader.enterReader } (th.after .lockShared rest)
  | queueShared {s : Shared} {th : Thread} {rest : List Action} (at_ : th.place = .running)
      (next : th.rest = .lockShared :: rest)
      (refuses : s.rw.queueReader.admitsReader = false) : Act use t s th { s with rw := s.rw.queueReader }
      { th with place := .waitsShared }
  | enterShared {s : Shared} {th : Thread} {rest : List Action} (at_ : th.place = .waitsShared)
      (next : th.rest = .lockShared :: rest)
      (admits : s.rw.admitsReader = true) : Act use t s th { s with rw := s.rw.enterReader }
      (th.after .lockShared rest)
  | unlockShared {s : Shared} {th : Thread} {rest : List Action} (at_ : th.place = .running)
      (next : th.rest = .unlockShared :: rest) :
      Act use t s th { s with rw := s.rw.leaveReader } (th.after .unlockShared rest)
  | lock {s : Shared} {th : Thread} {rest : List Action} (at_ : th.place = .running)
      (next : th.rest = .lock :: rest) (admits : s.rw.queueWriter.admitsWriter = true) :
      Act use t s th { s with rw := s.rw.queueWriter.enterWriter } (th.after .lock rest)
  | queue {s : Shared} {th : Thread} {rest : List Action} (at_ : th.place = .running)
      (next : th.rest = .lock :: rest)
      (refuses : s.rw.queueWriter.admitsWriter = false) : Act use t s th { s with rw := s.rw.queueWriter }
      { th with place := .waitsExclusive }
  | enter {s : Shared} {th : Thread} {rest : List Action} (at_ : th.place = .waitsExclusive)
      (next : th.rest = .lock :: rest)
      (admits : s.rw.admitsWriter = true) : Act use t s th { s with rw := s.rw.enterWriter } (th.after .lock rest)
  | unlock {s : Shared} {th : Thread} {rest : List Action} (at_ : th.place = .running)
      (next : th.rest = .unlock :: rest) : Act use t s th { s with rw := s.rw.leaveWriter } (th.after .unlock rest)
  /-- A worker runs everything itself. -/
  | inline {s : Shared} {th : Thread} {n : Nat} {rest : List Action} (at_ : th.place = .running)
      (next : th.rest = .parallelFor n :: rest)
      (alone : n ≤ 1 ∨ t < use.size) : Act use t s th s (th.after (.parallelFor n) rest)
  /-- No memory for what is shared with helpers. -/
  | lacks {s : Shared} {th : Thread} {n : Nat} {rest : List Action} (at_ : th.place = .running)
      (next : th.rest = .parallelFor n :: rest) : Act use t s th s (th.after (.parallelFor n) rest)
  | shares {s : Shared} {th : Thread} {n : Nat} {rest : List Action} (at_ : th.place = .running)
      (next : th.rest = .parallelFor n :: rest) (many : 1 < n) (client : use.size ≤ t) :
      Act use t s th s { th with place := .spawning (min (n - 1) use.size) }
  | enqueue {s : Shared} {th : Thread} {left : Nat} (at_ : th.place = .spawning (left + 1)) :
      Act use t s th { s with queue := s.queue ++ [.helper t] }
      { th with place := .spawning left, runningHelpers := th.runningHelpers + 1 }
  /-- The pool is shut down, or there is no memory for the helper. -/
  | refused {s : Shared} {th : Thread} {left : Nat} (at_ : th.place = .spawning (left + 1)) :
      Act use t s th s { th with place := .chunks }
  | spawned {s : Shared} {th : Thread} (at_ : th.place = .spawning 0) :
      Act use t s th s { th with place := .chunks }
  | finish {s : Shared} {th : Thread} (at_ : th.place = .chunks) : Act use t s th s { th with place := .joining }
  | join {s : Shared} {th : Thread} {n : Nat} {rest : List Action} (at_ : th.place = .joining)
      (next : th.rest = .parallelFor n :: rest)
      (alone : th.runningHelpers = 0) : Act use t s th s (th.after (.parallelFor n) rest)
  | takeHelper {s : Shared} {th : Thread} {caller : Nat} {rest : List Job} (worker : t < use.size)
      (idle : th.place = .running ∧ th.rest = [])
      (front : s.queue = .helper caller :: rest) : Act use t s th { s with queue := rest }
      { th with place := .helping caller }
  | takeOther {s : Shared} {th : Thread} {rest : List Job} (worker : t < use.size)
      (idle : th.place = .running ∧ th.rest = [])
      (front : s.queue = .other :: rest) : Act use t s th { s with queue := rest } { th with place := .elsewhere }
  | otherEnds {s : Shared} {th : Thread} (at_ : th.place = .elsewhere) :
      Act use t s th s { th with place := .running }

/-- The workers with a task that calls the collection. -/
def State.busy (use : Use) (s : State) : Nat :=
  ((Finset.range use.size).filter fun w => (s.threads w).rest ≠ []).card

inductive Step (use : Use) : State → State → Prop where
  | act {s : State} {t : Nat} {shared : Shared} {th : Thread} (act : Act use t s.shared (s.threads t) shared th) :
      Step use s { shared, threads := Function.update s.threads t th }
  | take {s : State} {w : Nat} {methods : List Method} {rest : List Job} (worker : w < use.size)
      (idle : (s.threads w).place = .running ∧ (s.threads w).rest = [])
      (front : s.shared.queue = .task methods :: rest) (few : s.busy use < use.limit) :
      Step use s { shared := { s.shared with queue := rest }
                   threads := Function.update s.threads w
                     { s.threads w with rest := methods.flatMap Method.program } }
  /-- A helper is done with the last chunk. -/
  | leave {s : State} {w caller : Nat} (at_ : (s.threads w).place = .helping caller) :
      Step use s { s with threads := Function.update (Function.update s.threads caller { s.threads caller with
        runningHelpers := (s.threads caller).runningHelpers - 1 }) w { s.threads w with place := .running } }

/-- The pool and the other threads, as they use one collection. -/
def machine (use : Use) : Machine State where
  start s := s = {}
  Step := Step use

/-- What a thread cannot go on without. -/
inductive Waits (s : State) (t : Nat) : Lock → Prop where
  | mutex {l : Lock} {rest : List Action} (at_ : (s.threads t).place = .running)
      (next : (s.threads t).rest = .acquire l :: rest) (taken : s.shared.owner l ≠ none) : Waits s t l
  | shared (at_ : (s.threads t).place = .waitsShared) (refuses : s.shared.rw.admitsReader = false) : Waits s t .rw
  | exclusive (at_ : (s.threads t).place = .waitsExclusive)
      (refuses : s.shared.rw.admitsWriter = false) : Waits s t .rw

/-- The thread waits for a lock of `c`, or for one of a thread that does so. -/
inductive Awaits (s : State) (c : Nat) : Nat → Prop where
  | here {t : Nat} {l : Lock} (waits : Waits s t l) (held : l ∈ (s.threads c).held) : Awaits s c t
  | through {t u : Nat} {l : Lock} (waits : Waits s t l) (held : l ∈ (s.threads u).held)
      (awaits : Awaits s c u) : Awaits s c t

/-- A caller that holds a lock waits for a helper that no worker will ever take. -/
structure Deadlocked (use : Use) (s : State) (c : Nat) : Prop where
  client : use.size ≤ c
  joining : (s.threads c).place = .joining
  holds : (s.threads c).held ≠ []
  queued : .helper c ∈ s.shared.queue
  blocked : ∀ w, w < use.size → Awaits s c w

end BatchCalls
end VectorForge
