import VectorForge.Collection.State
import VectorForge.Core.VectorOps
import VectorForge.Hnsw.LinkDiscipline
import VectorForge.Lib.Effect

/-! The state that the operations of a collection change, and everything that decides how they go
on besides it: memory, time, scheduling and leftover scratch memory. -/

namespace VectorForge

/-- How an operation ends without a value. `fault` is an access or a check that must never fail,
`stuck` an insertion that does not finish under the given schedule. -/
inductive Exit where
  | status (s : Status)
  | threw
  | fault (f : Fault)
  | stuck
  deriving DecidableEq, Repr

/-- What `catch (...)` and the checks of a returned status see. -/
def Exit.caught : Exit → Bool
  | status _ | threw => true
  | fault _ | stuck => false

/-- What the environment does next. `memory` says whether the coming allocations succeed, and all
do when it is used up; `clock` whether the time slice is over each time it is looked at; each
schedule is the interleaving of one section of links; `scratch` is the visited set that the
insertion of a node finds in its scratch memory. -/
structure World where
  memory : List Bool := []
  clock : List Bool := []
  schedules : List (List Nat) := []
  scratch : Nat → VisitedSet := fun _ => {}
  settled : ∀ i, (scratch i).Settled := by exact fun _ => VisitedSet.settled_empty

structure Session where
  state : CollectionState
  world : World := {}

abbrev Op (α : Type) := Effect Session Exit α

namespace Op
variable {α : Type}

def state : Op CollectionState := fun σ => (.ok σ.state, σ)

def setState (s : CollectionState) : Op Unit := Effect.modify fun σ => { σ with state := s }

def lift : Result α → Op α
  | .ok a => pure a
  | .error e => Effect.leave (.status e)

def checked : Checked α → Op α
  | .ok a => pure a
  | .error (.error e) => Effect.leave (.status e)
  | .error (.fault f) => Effect.leave (.fault f)

/-- One allocation. -/
def allocate : Op Unit := fun σ =>
  let rest := { σ with world := { σ.world with memory := σ.world.memory.tail } }
  if σ.world.memory.headD true then (.ok (), rest) else (.error .threw, rest)

/-- `std::chrono::steady_clock::now() >= slice_end`. -/
def sliceOver : Op Bool := fun σ =>
  (.ok (σ.world.clock.headD false), { σ with world := { σ.world with clock := σ.world.clock.tail } })

/-- Runs on a state of its own; the state of the collection stays where it is. -/
def apart (start : CollectionState) (p : Op α) : Op (α × CollectionState) := fun σ =>
  match p { σ with state := start } with
  | (.ok a, τ) => (.ok (a, τ.state), { τ with state := σ.state })
  | (.error e, τ) => (.error e, { τ with state := σ.state })

end Op

/-- A step of the insertion of node `i` in a session, where memory is that of the world. -/
def answerIn (i : Nat) : (o : GraphOp) → SharedGraph × World → Option (o.Ret × (SharedGraph × World))
  | .allocate, (s, w) => some (w.memory.headD true, s, { w with memory := w.memory.tail })
  | o, (s, w) => (SharedGraph.answer true i o s).map fun (r, s) => (r, s, w)

end VectorForge
