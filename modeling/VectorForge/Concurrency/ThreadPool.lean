import VectorForge.Lib.Machine

/-! The thread pool, and one call of `parallel_for` on it from a thread that is not one of its own
or from one that is. -/

namespace VectorForge
namespace ThreadPool

/-- `parallel_for(start, stop, grain, body)`. A call of the body is a sequence of actions on a memory that
all threads share, and it may throw after any of them. -/
structure Call (σ E : Type) where
  start : Nat
  stop : Nat
  grain : Nat
  /-- The number of worker threads. -/
  size : Nat
  onWorkerThread : Bool
  body : Nat → Nat → List (σ → σ) → Prop
  throws : Nat → Nat → E → Prop
  badAlloc : E

namespace Call
variable {σ E : Type} (call : Call σ E)

def count : Nat := call.stop - call.start

def step : Nat := max call.grain 1

def chunks : Nat := call.count / call.step + if call.count % call.step ≠ 0 then 1 else 0

/-- One helper per worker at most; the caller takes part too. -/
def helpers : Nat := min (call.chunks - 1) call.size

def lo (chunk : Nat) : Nat := call.start + chunk * call.step

def hi (chunk : Nat) : Nat := min call.stop ((call.lo chunk + call.step) % 2 ^ 64)

end Call

/-- Where a thread is in `run_chunks`. -/
inductive InChunks (σ E : Type) where
  | test
  | claim
  | enter (chunk : Nat)
  | body (chunk : Nat) (rest : List (σ → σ))
  | caught (e : E)
  | left

/-- What the helpers share with the caller, the memory that the body works on, and a record of the
calls of the body. -/
structure Shared (σ E : Type) where
  /-- Every thread that runs chunks adds one at most once after the last chunk (`next_le`). -/
  next : Nat := 0
  failed : Bool := false
  runningHelpers : Nat := 0
  error : Option E := none
  memory : σ
  /-- The chunks that were passed to the body. -/
  calls : List Nat := []
  /-- What calls of the body threw. -/
  thrown : List E := []

inductive ChunkStep {σ E : Type} (call : Call σ E) : Shared σ E × InChunks σ E →
    Shared σ E × InChunks σ E → Prop where
  /-- The load is relaxed: it may miss that another thread failed. -/
  | goOn {s : Shared σ E} : ChunkStep call (s, .test) (s, .claim)
  | giveUp {s : Shared σ E} (failed : s.failed = true) : ChunkStep call (s, .test) (s, .left)
  | claim {s : Shared σ E} (more : s.next < call.chunks) : ChunkStep call (s, .claim)
      ({ s with next := s.next + 1 }, .enter s.next)
  | finish {s : Shared σ E} (all : call.chunks ≤ s.next) : ChunkStep call (s, .claim)
      ({ s with next := s.next + 1 }, .left)
  | enter {s : Shared σ E} {chunk : Nat} {actions : List (σ → σ)}
      (body : call.body (call.lo chunk) (call.hi chunk) actions) :
      ChunkStep call (s, .enter chunk) ({ s with calls := s.calls ++ [chunk] }, .body chunk actions)
  | act {s : Shared σ E} {chunk : Nat} {a : σ → σ} {rest : List (σ → σ)} :
      ChunkStep call (s, .body chunk (a :: rest)) ({ s with memory := a s.memory }, .body chunk rest)
  | returns {s : Shared σ E} {chunk : Nat} : ChunkStep call (s, .body chunk []) (s, .test)
  | throws {s : Shared σ E} {chunk : Nat} {rest : List (σ → σ)} {e : E}
      (may : call.throws (call.lo chunk) (call.hi chunk) e) :
      ChunkStep call (s, .body chunk rest) ({ s with thrown := e :: s.thrown }, .caught e)
  /-- The first exception is the one that is kept. -/
  | store {s : Shared σ E} {e : E} :
      ChunkStep call (s, .caught e) ({ s with error := s.error.or (some e), failed := true }, .left)

/-- A helper of the call, or a task of anybody else. -/
inductive Task where
  | helper
  | other
  deriving DecidableEq, Repr

/-- What a worker thread does. -/
inductive Worker (σ E : Type) where
  | idle
  | helper (at_ : InChunks σ E)
  | other
  | exited

def Worker.start {σ E : Type} : Task → Worker σ E
  | .helper => .helper .test
  | .other => .other

/-- Where the caller is in `run_ranges`. -/
inductive Caller (σ E : Type) where
  | entry
  | inline (rest : List (σ → σ))
  | spawn (h : Nat)
  | enqueue (h : Nat)
  | retract
  | chunks (at_ : InChunks σ E)
  | returned
  | threw (e : E)

structure State (σ E : Type) where
  shared : Shared σ E
  caller : Caller σ E := .entry
  queue : List Task
  stopping : Bool
  workers : List (Worker σ E)

/-- A step of the thread that calls. -/
inductive CallerStep {σ E : Type} (call : Call σ E) : State σ E → State σ E → Prop where
  | nothing {s : State σ E} (at_ : s.caller = .entry) (none : call.stop ≤ call.start) :
      CallerStep call s { s with caller := .returned }
  | inline {s : State σ E} {actions : List (σ → σ)} (at_ : s.caller = .entry) (some : call.start < call.stop)
      (alone : call.chunks = 1 ∨ call.onWorkerThread = true) (body : call.body call.start call.stop actions) :
      CallerStep call s
      { s with caller := .inline actions, shared := { s.shared with calls := List.range call.chunks } }
  | inlineAct {s : State σ E} {a : σ → σ} {rest : List (σ → σ)} (at_ : s.caller = .inline (a :: rest)) :
      CallerStep call s { s with caller := .inline rest, shared := { s.shared with memory := a s.shared.memory } }
  | inlineReturns {s : State σ E} (at_ : s.caller = .inline []) : CallerStep call s { s with caller := .returned }
  | inlineThrows {s : State σ E} {rest : List (σ → σ)} {e : E} (at_ : s.caller = .inline rest)
      (may : call.throws call.start call.stop e) :
      CallerStep call s { s with caller := .threw e, shared := { s.shared with thrown := e :: s.shared.thrown } }
  /-- No memory for what is shared. -/
  | lacks {s : State σ E} (at_ : s.caller = .entry) (some : call.start < call.stop) (many : call.chunks ≠ 1)
      (free : call.onWorkerThread = false) : CallerStep call s { s with caller := .threw call.badAlloc }
  | shares {s : State σ E} (at_ : s.caller = .entry) (some : call.start < call.stop) (many : call.chunks ≠ 1)
      (free : call.onWorkerThread = false) : CallerStep call s { s with caller := .spawn 0 }
  | announce {s : State σ E} {h : Nat} (at_ : s.caller = .spawn h) (more : h < call.helpers) :
      CallerStep call s
      { s with caller := .enqueue h, shared := { s.shared with runningHelpers := s.shared.runningHelpers + 1 } }
  | spawned {s : State σ E} {h : Nat} (at_ : s.caller = .spawn h) (all : call.helpers ≤ h) :
      CallerStep call s { s with caller := .chunks .test }
  | enqueue {s : State σ E} {h : Nat} (at_ : s.caller = .enqueue h) (open_ : s.stopping = false) :
      CallerStep call s { s with caller := .spawn (h + 1), queue := s.queue ++ [.helper] }
  /-- The pool is shut down, or there is no memory for the task. -/
  | refused {s : State σ E} {h : Nat} (at_ : s.caller = .enqueue h) :
      CallerStep call s { s with caller := .retract }
  | retract {s : State σ E} (at_ : s.caller = .retract) :
      CallerStep call s
      { s with caller := .chunks .test, shared := { s.shared with runningHelpers := s.shared.runningHelpers - 1 } }
  | chunks {s : State σ E} {sh : Shared σ E} {here there : InChunks σ E} (at_ : s.caller = .chunks here)
      (step : ChunkStep call (s.shared, here) (sh, there)) :
      CallerStep call s { s with caller := .chunks there, shared := sh }
  | returns {s : State σ E} (at_ : s.caller = .chunks .left) (alone : s.shared.runningHelpers = 0)
      (fine : s.shared.error = none) : CallerStep call s { s with caller := .returned }
  | rethrows {s : State σ E} {e : E} (at_ : s.caller = .chunks .left) (alone : s.shared.runningHelpers = 0)
      (error : s.shared.error = some e) : CallerStep call s { s with caller := .threw e }

/-- A step of a worker, of a thread that submits a task of its own, or of one that shuts the pool down. -/
inductive PoolStep {σ E : Type} (call : Call σ E) : State σ E → State σ E → Prop where
  | take {s : State σ E} {w : Nat} {task : Task} {rest : List Task} (idle : s.workers[w]? = some .idle)
      (front : s.queue = task :: rest) :
      PoolStep call s { s with workers := s.workers.set w (.start task), queue := rest }
  | help {s : State σ E} {w : Nat} {sh : Shared σ E} {here there : InChunks σ E}
      (at_ : s.workers[w]? = some (.helper here)) (step : ChunkStep call (s.shared, here) (sh, there)) :
      PoolStep call s { s with workers := s.workers.set w (.helper there), shared := sh }
  | leave {s : State σ E} {w : Nat} (at_ : s.workers[w]? = some (.helper .left)) :
      PoolStep call s { s with
        workers := s.workers.set w .idle
        shared := { s.shared with runningHelpers := s.shared.runningHelpers - 1 } }
  | otherEnds {s : State σ E} {w : Nat} (at_ : s.workers[w]? = some .other) :
      PoolStep call s { s with workers := s.workers.set w .idle }
  | submit {s : State σ E} (open_ : s.stopping = false) : PoolStep call s { s with queue := s.queue ++ [.other] }
  | shutdown {s : State σ E} : PoolStep call s { s with stopping := true }
  | exit {s : State σ E} {w : Nat} (idle : s.workers[w]? = some .idle) (stopping : s.stopping = true)
      (drained : s.queue = []) : PoolStep call s { s with workers := s.workers.set w .exited }

inductive Step {σ E : Type} (call : Call σ E) (s t : State σ E) : Prop where
  | caller (step : CallerStep call s t)
  | pool (step : PoolStep call s t)

/-- A pool on which anybody else's tasks may be queued and running. -/
structure Start {σ E : Type} (call : Call σ E) (memory : σ) (s : State σ E) : Prop where
  shared : s.shared = { memory }
  caller : s.caller = .entry
  queue : ∀ task ∈ s.queue, task = .other
  size : s.workers.length = call.size
  workers : ∀ worker ∈ s.workers, worker = .idle ∨ worker = .other ∨ worker = .exited
  /-- Workers drain the queue before they exit. -/
  drained : .exited ∈ s.workers → s.stopping = true ∧ s.queue = []

/-- `run_ranges` on a pool, with any number of other threads that use the pool. -/
def runRanges {σ E : Type} (call : Call σ E) (memory : σ) : Machine (State σ E) where
  start := Start call memory
  Step := Step call

end ThreadPool
end VectorForge
