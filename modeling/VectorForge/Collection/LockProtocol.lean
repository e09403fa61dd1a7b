import VectorForge.Lib.Critical
import VectorForge.Collection.Runs

/-! The locks of the mutations. `writers` is the turn and `link` the gate of the protocol: mutations hold `writers`,
and a batch that is inserted in sections holds `link` from growing rows to the end of linking them. -/

namespace VectorForge
namespace Collection
open Op CollectionState

/-- What a mutation does under which lock. -/
abbrev Steps := Critical.Script CollectionState (Except Exit Reply)

def stuck {α : Type} : Except Exit α → Bool
  | .error e => decide (e = .stuck)
  | .ok _ => false

/-- What needs no lock: it may allocate, and does not touch the collection. -/
abbrev Local (α : Type) := Effect World Exit α

namespace Local
variable {α : Type}

def lift : Result α → Local α
  | .ok a => pure a
  | .error e => Effect.leave (.status e)

def allocate : Local Unit := fun w =>
  let rest := { w with memory := w.memory.tail }
  if w.memory.headD true then (.ok (), rest) else (.error .threw, rest)

end Local

section Locks
variable {α β : Type}

/-- `p` as a section in the environment `w`. -/
def inSection (mode : Critical.Mode) (p : Op α) (w : World) (next : Except Exit α → World → Steps) : Steps :=
  .critical mode (fun s => if stuck (p ⟨s, w⟩).1 then none else some (p ⟨s, w⟩).2.state) fun s =>
    next (p ⟨s, w⟩).1 (p ⟨s, w⟩).2.world

/-- Goes on with the value, if there is one. -/
def onward (next : Except Exit β → World → Steps) (f : α → World → Steps) : Except Exit α → World → Steps
  | .ok a, w => f a w
  | .error e, w => next (.error e) w

/-- The end of the scope of `writer`. -/
def finish (result : Except Exit Reply) : Steps := .drop .turn (.ret result)

/-- The end of the scope of `link_guard`. -/
def unlink (next : Except Exit α → World → Steps) (result : Except Exit α) (w : World) : Steps :=
  .drop .gate (next result w)

end Locks

section Scripts
variable (k : KernelTable)

/-- `add` before it locks. -/
def storedRow (config : CollectionConfig) (vector : List F32) : Local (List F32) := do
  Local.lift (validateVector vector config.dim.toNat)
  if config.effectiveNormalize then do
    Local.allocate
    Local.lift (normalizeInplace k vector)
  else return vector

/-- `add` from its locks on. -/
def insertLocked (id : ExternalId) (row : List F32) (upsert : Bool) : Op Unit := do
  let reservation ← reserveId id upsert
  insertReserved reservation row (backendAdd k)

def addScript (config : CollectionConfig) (id : ExternalId) (vector : List F32) (upsert : Bool)
    (w : World) : Steps :=
  match storedRow k config vector w with
  | (.error e, _) => .ret (.error e)
  | (.ok row, w) => .take .turn (inSection .exclusive (insertLocked k id row upsert) w fun result _ =>
    finish (result.map fun _ => .done))

def removeScript (id : ExternalId) (w : World) : Steps :=
  .take .turn (inSection .exclusive (remove id) w fun result _ => finish (result.map fun _ => .done))

/-- `compact` under its shared lock: the new state, if there is to be one. -/
def rebuild : Op (CompactStats × Option CollectionState) := do
  let old ← state
  let stats : CompactStats :=
    { rowsBefore := old.vectors.size, removedRows := old.deleted.count, rowsAfter := old.vectors.size }
  if old.deleted.count = 0 then return (stats, none)
  else do
    let vectors ← lift (VectorStore.create { dim := old.config.dim.toNat })
    allocate
    let backend ← lift (attachBackend old.config)
    let empty : CollectionState :=
      { config := old.config, vectors, backend, creator := old.creator, createdUnixMs := old.createdUnixMs }
    let (_, rebuilt) ← apart empty do
      reserveVectors old.ids.size
      allocate
      ensureSize old.ids.size
      reinsertRows k old old.vectors.size 0
    return ({ stats with rowsAfter := rebuilt.vectors.size }, some rebuilt)

/-- The exchange of the states. -/
def exchange (w : World) : CompactStats × Option CollectionState → Steps
  | (stats, none) => finish (.ok (.compacted stats))
  | (stats, some rebuilt) =>
    inSection .exclusive (setState rebuilt) w fun result _ => finish (result.map fun _ => .compacted stats)

def compactScript (w : World) : Steps :=
  .take .turn (inSection .shared (rebuild k) w
    (onward (fun result _ => finish result) fun built w => exchange w built))

/-- The rows whose `link` threw, if there are any. -/
def settleScript (grown : Grown) (next : Except Exit (Nat × Nat) → World → Steps) (linked : List Bool)
    (w : World) : Steps :=
  if linked.contains false then
    inSection .exclusive (abandonRows grown.first grown.rows linked) w
      (onward (unlink next) fun _ w => unlink next (sectionResult grown linked) w)
  else unlink next (sectionResult grown linked) w

def linkScript (b : Batch) (next : Except Exit (Nat × Nat) → World → Steps) (grown : Grown) (w : World) : Steps :=
  if grown.rows.length = 0 then settleScript grown next [] w
  else inSection .shared (linkSection k b grown) w (onward (unlink next) (settleScript grown next))

/-- One round of `while (done < n)` in `add_batch_concurrent`. -/
def sectionScript (b : Batch) (done : Nat) (w : World) (next : Except Exit (Nat × Nat) → World → Steps) : Steps :=
  .take .gate (inSection .exclusive (growSection b done) w (onward (unlink next) (linkScript k b next)))

def sectionsScript (b : Batch) : (fuel done inserted : Nat) → World → Steps
  | fuel, done, inserted, w =>
    if done < b.ids.length then
      match fuel with
      | 0 => finish (.error (.fault .outOfBounds))
      | fuel + 1 => sectionScript k b done w (onward (fun result _ => finish result) fun counts w =>
          sectionsScript b fuel (done + counts.1) (inserted + counts.2) w)
    else finish (.ok (.inserted inserted))

/-- `while (inserted < n)` in `add_batch`, with a new lock each time. -/
def slicesScript (b : Batch) : (fuel inserted : Nat) → World → Steps
  | fuel, inserted, w =>
    if inserted < b.ids.length then
      match fuel with
      | 0 => finish (.error (.fault .outOfBounds))
      | fuel + 1 => inSection .exclusive (addSlice k b (b.ids.length - inserted) inserted) w (onward
        (fun result _ => finish result)
          fun inserted w => slicesScript b fuel inserted w)
    else finish (.ok (.inserted inserted))

/-- `add_batch` before it locks; there is nothing to insert if there is no row. -/
def batchRows (config : CollectionConfig) (ids : List ExternalId) (rows : List F32) :
    Local (Option (List F32)) := do
  Local.lift (validateBatch rows ids.length config.dim.toNat)
  if ids.length = 0 then return none
  else do
    Local.allocate
    Local.lift (checkKeys ids)
    if config.effectiveNormalize then do
      Local.allocate
      let data ← Local.lift (normalizeRows k rows config.dim.toNat ids.length 0)
      return some data
    else return some rows

/-- The checks and reservations under the first exclusive lock. -/
def admitLocked (ids : List ExternalId) (upsert : Bool) : Op Unit := do
  let s ← state
  admitBatch ids upsert
  reserveVectors (s.vectors.size + ids.length)
  allocate
  ensureSize (s.vectors.size + ids.length)

/-- The rows of an admitted batch. -/
def rowsScript (config : CollectionConfig) (b : Batch) (w : World) : Steps :=
  if config.Sectioned then
    match Local.allocate w with
    | (.error e, _) => finish (.error e)
    | (.ok _, w) => sectionsScript k b b.ids.length 0 0 w
  else slicesScript k b b.ids.length 0 w

def batchScript (config : CollectionConfig) (ids : List ExternalId) (rows : List F32) (upsert : Bool)
    (pool : Option ThreadPool) (w : World) : Steps :=
  match batchRows k config ids rows w with
  | (.error e, _) => .ret (.error e)
  | (.ok none, _) => .ret (.ok (.inserted 0))
  | (.ok (some data), w) => .take .turn (inSection .exclusive (admitLocked ids upsert) w
      (onward (fun result _ => finish result) fun _ w =>
        rowsScript k config (batchOf config ids data upsert pool) w))

def Command.script (config : CollectionConfig) : Command → World → Steps
  | .add id vector upsert => addScript k config id vector upsert
  | .addBatch ids rows upsert pool => batchScript k config ids rows upsert pool
  | .remove id => removeScript id
  | .compact => compactScript k

end Scripts

section Alone
variable {k : KernelTable} {α β : Type} {mode : Critical.Mode} {p : Op α} {w : World} {s u : CollectionState}
  {held closed : Critical.Held} {b : Batch}

/-- How a mutation ends, if it is not stuck. -/
def outcome (x : Except Exit α × Session) : Option (Except Exit α × CollectionState) :=
  if stuck x.1 then none else some (x.1, x.2.state)

/-- What comes behind something that ended so. -/
def proceed (next : Except Exit α → World → Steps) (x : Except Exit α × Session) :
    Option (Except Exit Reply × CollectionState) :=
  if stuck x.1 then none else (next x.1 x.2.world).run x.2.state

/-- The states between sections behind something that ended so. -/
def PausesAfter (next : Except Exit α → World → Steps) (held : Critical.Held) (x : Except Exit α × Session)
    (u : CollectionState) : Prop :=
  stuck x.1 = false ∧ (next x.1 x.2.world).Pauses held x.2.state u

theorem inSection_run (next : Except Exit α → World → Steps) :
    (inSection mode p w next).run s = proceed next (p ⟨s, w⟩) := by
  rw [inSection, Critical.Script.run, proceed]
  cases stuck (p ⟨s, w⟩).1 <;> rfl

theorem inSection_pauses {next : Except Exit α → World → Steps} : (inSection mode p w next).Pauses held s u ↔
    (held .gate = false ∧ u = s ∨ PausesAfter next held (p ⟨s, w⟩) u) := by
  rw [inSection, Critical.Script.Pauses, PausesAfter]
  cases stuck (p ⟨s, w⟩).1 <;> simp

/-- What follows goes through a bind, if exits lead to the same. -/
theorem proceed_onward {γ : Type} {f : α → Op β} {next : Except Exit β → World → Steps}
    {exits : Except Exit γ → World → Steps} {g : α → World → Steps}
    (each : ∀ a τ, (g a τ.world).run τ.state = proceed next (f a τ))
    (leaves : ∀ e w s, (exits (.error e) w).run s = (next (.error e) w).run s)
    (σ : Session) : proceed (onward exits g) (p σ) = proceed next ((p >>= f) σ) := by
  cases ran : p σ with
  | mk result τ =>
    cases result with
    | ok a =>
      rw [Effect.bind_of_ok ran]
      exact each a τ
    | error e =>
      rw [Effect.bind_of_error ran]
      simp only [proceed, onward, leaves]
      rfl

theorem pausesAfter_onward {γ : Type} {f : α → Op β} {next : Except Exit β → World → Steps}
    {exits : Except Exit γ → World → Steps} {g : α → World → Steps} {σ : Session}
    (each : ∀ a τ, (g a τ.world).Pauses held τ.state u → PausesAfter next closed (f a τ) u)
    (leaves : ∀ e w s, (exits (.error e) w).Pauses held s u → (next (.error e) w).Pauses closed s u)
    (pauses : PausesAfter (onward exits g) held (p σ) u) : PausesAfter next closed ((p >>= f) σ) u := by
  cases ran : p σ with
  | mk result τ =>
    rw [ran] at pauses
    cases result with
    | ok a =>
      rw [Effect.bind_of_ok ran]
      exact each a τ pauses.2
    | error e =>
      rw [Effect.bind_of_error ran]
      exact ⟨pauses.1, leaves e _ _ pauses.2⟩

theorem proceed_finish (f : α → Reply) (σ : Session) : proceed (fun result _ => finish (result.map f)) (p σ) =
    outcome ((do let a ← p; return f a : Op Reply) σ) := by
  cases ran : p σ with
  | mk result τ =>
    cases result with
    | ok a => rw [Effect.bind_of_ok ran]; rfl
    | error e =>
      rw [Effect.bind_of_error ran]
      cases e <;> rfl

end Alone

section Sections
variable {k : KernelTable} {b : Batch} {grown : Grown} {linked : List Bool} {w : World} {s u : CollectionState}
  {next : Except Exit (Nat × Nat) → World → Steps}

/-- The end of a section. -/
def settle (grown : Grown) (linked : List Bool) : Op (Nat × Nat) := do
  if linked.contains false then abandonRows grown.first grown.rows linked
  fun σ => (sectionResult grown linked, σ)

theorem batchSection_eq (done : Nat) : batchSection k b done = (do
    let grown ← growSection b done
    let linked ← linkSection k b grown
    settle grown linked) := by
  rw [batchSection]
  refine congrArg _ (funext fun grown => congrArg _ (funext fun linked => ?_))
  have contains : linked.contains false = true ↔ false ∈ linked := by simp
  rw [settle, sectionResult]
  cases failed : linked.contains false with
  | true =>
    rw [if_pos (contains.mp failed)]
    simp only [if_true]
    refine congrArg _ (funext fun _ => ?_)
    split <;> rfl
  | false =>
    have none : false ∉ linked := fun yes => by rw [contains.mpr yes] at failed; cases failed
    rw [if_neg none]
    simp only [Bool.false_eq_true, if_false]
    cases grown.stop with
    | none => rfl
    | some e =>
      dsimp only
      split
      next threw =>
        cases threw
        rfl
      next => rfl

/-- An error that ends a grow section was caught. -/
theorem growRows_stop {done : Nat} :
    ∀ {left : Nat} {rows rows' : List IdMap.Reservation} {stop : Option Exit} {σ τ : Session},
    growRows b done left rows σ = (.ok (rows', stop), τ) → ∀ e ∈ stop, e.caught = true := by
  intro left
  induction left with
  | zero =>
    intro rows rows' stop σ τ run
    cases run
    nofun
  | succ left ih =>
    intro rows rows' stop σ τ run
    rw [growRows] at run
    obtain ⟨tried, σ₁, attempt, run⟩ := Effect.ok_of_bind run
    cases tried with
    | error e =>
      cases run
      intro e' same
      cases same
      rw [Effect.attempt] at attempt
      split at attempt
      next => cases attempt
      next e' σ' _ =>
        split at attempt
        next caught =>
          cases attempt
          exact caught
        next => cases attempt
    | ok reservation =>
      obtain ⟨over_, σ₂, _, run⟩ := Effect.ok_of_bind run
      cases over_ with
      | true =>
        cases run
        nofun
      | false => exact ih run

theorem growSection_stop {done : Nat} {σ τ : Session} (run : growSection b done σ = (.ok grown, τ)) :
    stuck (sectionResult grown linked) = false := by
  rw [growSection] at run
  obtain ⟨_, _, _, run⟩ := Effect.ok_of_bind run
  obtain ⟨_, _, _, run⟩ := Effect.ok_of_bind run
  obtain ⟨_, _, _, run⟩ := Effect.ok_of_bind run
  obtain ⟨⟨rows, stop⟩, σ₁, grew, run⟩ := Effect.ok_of_bind run
  cases run
  have caught := growRows_stop grew
  rw [sectionResult]
  split
  · rfl
  · cases stop with
    | none => rfl
    | some e =>
      have known := caught e rfl
      cases e <;> first | rfl | cases known

theorem linkSection_none (empty : grown.rows.length = 0) (σ : Session) : linkSection k b grown σ = (.ok [], σ) := by
  rw [linkSection]
  simp only [empty, if_true]
  rfl

theorem settleScript_run (fine : stuck (sectionResult grown linked) = false) :
    (settleScript grown next linked w).run s = proceed next (settle grown linked ⟨s, w⟩) := by
  have last (σ : Session) : (unlink next (sectionResult grown linked) σ.world).run σ.state =
      proceed next (sectionResult grown linked, σ) := by
    rw [proceed, fine]
    rfl
  rw [settleScript, settle]
  cases linked.contains false with
  | true =>
    simp only [if_true, inSection_run]
    refine proceed_onward ?_ ?_ _
    · exact fun _ τ => last τ
    · exact fun _ _ _ => rfl
  | false => exact last ⟨s, w⟩

theorem linkScript_run (fine : ∀ linked, stuck (sectionResult grown linked) = false) :
    (linkScript k b next grown w).run s = proceed next ((linkSection k b grown >>= settle grown) ⟨s, w⟩) := by
  rw [linkScript]
  split
  next empty =>
    rw [Effect.bind_of_ok (linkSection_none empty _)]
    exact settleScript_run (fine [])
  next =>
    rw [inSection_run]
    refine proceed_onward ?_ ?_ _
    · exact fun linked _ => settleScript_run (fine linked)
    · exact fun _ _ _ => rfl

/-- A section alone is `batchSection`. -/
theorem sectionScript_run {done : Nat} :
    (sectionScript k b done w next).run s = proceed next (batchSection k b done ⟨s, w⟩) := by
  rw [sectionScript, batchSection_eq, Critical.Script.run, inSection_run]
  cases grew : growSection b done ⟨s, w⟩ with
  | mk result τ =>
    cases result with
    | ok grown =>
      rw [Effect.bind_of_ok grew]
      exact linkScript_run fun linked => growSection_stop grew
    | error e =>
      rw [Effect.bind_of_error grew]
      rfl

/-- The locks of a mutation outside of link sections. -/
def writing : Critical.Held := Function.update Critical.nothing .turn true

/-- And in a link section. -/
def linking : Critical.Held := Function.update writing .gate true

theorem unlink_pauses {α : Type} {next : Except Exit α → World → Steps} (result : Except Exit α) (w : World)
    (s : CollectionState)
    (pauses : (unlink next result w).Pauses linking s u) : (next result w).Pauses writing s u := by
  have closed : Function.update linking .gate false = writing := by
    funext x
    cases x <;> rfl
  rcases pauses with ⟨free, _⟩ | pauses
  · cases free
  · rwa [closed] at pauses

theorem inSection_linking {α : Type} {mode : Critical.Mode} {p : Op α} {next : Except Exit α → World → Steps}
    (pauses : (inSection mode p w next).Pauses linking s u) : PausesAfter next linking (p ⟨s, w⟩) u := by
  rcases inSection_pauses.mp pauses with ⟨free, _⟩ | pauses
  · cases free
  · exact pauses

theorem settleScript_pauses (fine : stuck (sectionResult grown linked) = false)
    (pauses : (settleScript grown next linked w).Pauses linking s u) :
    PausesAfter next writing (settle grown linked ⟨s, w⟩) u := by
  rw [settleScript] at pauses
  rw [settle]
  cases failed : linked.contains false with
  | true =>
    rw [failed] at pauses
    exact pausesAfter_onward (fun _ τ here => ⟨fine, unlink_pauses _ _ _ here⟩)
      (fun e w s => unlink_pauses (.error e) w s) (inSection_linking pauses)
  | false =>
    rw [failed] at pauses
    exact ⟨fine, unlink_pauses _ _ _ pauses⟩

theorem linkScript_pauses (fine : ∀ linked, stuck (sectionResult grown linked) = false)
    (pauses : (linkScript k b next grown w).Pauses linking s u) :
    PausesAfter next writing ((linkSection k b grown >>= settle grown) ⟨s, w⟩) u := by
  rw [linkScript] at pauses
  split at pauses
  next empty =>
    rw [Effect.bind_of_ok (linkSection_none empty _)]
    exact settleScript_pauses (fine []) pauses
  next =>
    exact pausesAfter_onward (fun linked _ here => settleScript_pauses (fine linked) here)
      (fun e w s => unlink_pauses (.error e) w s)
      (inSection_linking pauses)

/-- Nobody sees the state inside of a section. -/
theorem sectionScript_pauses {done : Nat} (pauses : (sectionScript k b done w next).Pauses writing s u) :
    u = s ∨ PausesAfter next writing (batchSection k b done ⟨s, w⟩) u := by
  rw [sectionScript, batchSection_eq] at *
  rcases pauses with ⟨_, same⟩ | pauses
  · exact .inl same
  have after := inSection_linking pauses
  refine .inr ?_
  cases grew : growSection b done ⟨s, w⟩ with
  | mk result τ =>
    rw [grew] at after
    cases result with
    | ok grown =>
      rw [Effect.bind_of_ok grew]
      exact linkScript_pauses (fun linked => growSection_stop grew) after.2
    | error e =>
      rw [Effect.bind_of_error grew]
      exact ⟨after.1, unlink_pauses _ _ _ after.2⟩

end Sections

section Loops
variable {k : KernelTable} {b : Batch} {w : World} {s : CollectionState}

/-- The reply to a batch. -/
def batchReply (result : Except Exit Nat) (_ : World) : Steps := finish (result.map .inserted)

theorem sectionsScript_run : ∀ {fuel done inserted : Nat} {w : World} {s : CollectionState},
    (sectionsScript k b fuel done inserted w).run s = proceed batchReply
      (batchSections k b fuel done inserted ⟨s, w⟩) := by
  intro fuel
  induction fuel with
  | zero =>
    intro done inserted w s
    rw [sectionsScript, batchSections]
    split <;> rfl
  | succ fuel ih =>
    intro done inserted w s
    rw [sectionsScript, batchSections]
    split
    · rw [sectionScript_run]
      refine proceed_onward ?_ ?_ _
      · exact fun counts τ => ih
      · exact fun _ _ _ => rfl
    · rfl

theorem slicesScript_run : ∀ {fuel inserted : Nat} {w : World} {s : CollectionState},
    (slicesScript k b fuel inserted w).run s = proceed batchReply (addSlices k b fuel inserted ⟨s, w⟩) := by
  intro fuel
  induction fuel with
  | zero =>
    intro inserted w s
    rw [slicesScript, addSlices]
    split <;> rfl
  | succ fuel ih =>
    intro inserted w s
    rw [slicesScript, addSlices]
    split
    · rw [inSection_run]
      refine proceed_onward ?_ ?_ _
      · exact fun inserted τ => ih
      · exact fun _ _ _ => rfl
    · rfl

/-- The rows of an admitted batch, as one operation. -/
def insertRows (k : KernelTable) (config : CollectionConfig) (b : Batch) : Op Nat :=
  if config.Sectioned then addBatchConcurrent k b else addSlices k b b.ids.length 0

theorem rowsScript_run {config : CollectionConfig} :
    (rowsScript k config b w).run s = proceed batchReply (insertRows k config b ⟨s, w⟩) := by
  rw [rowsScript, insertRows]
  split
  · rw [addBatchConcurrent, Local.allocate]
    cases room : w.memory.headD true with
    | true =>
      rw [Effect.bind_of_ok (show allocate ⟨s, w⟩ = (.ok (), ⟨s, { w with memory := w.memory.tail }⟩) by
        rw [allocate]; simp only [room, if_true])]
      exact sectionsScript_run
    | false =>
      rw [Effect.bind_of_error (show allocate ⟨s, w⟩ = (.error .threw, ⟨s, { w with memory := w.memory.tail }⟩) by
        rw [allocate]; simp only [room, Bool.false_eq_true, if_false])]
      rfl
  · exact slicesScript_run

end Loops

section Before
variable {k : KernelTable} {w w' : World} {s : CollectionState} {α : Type}

/-- What is local leaves the collection alone. -/
def Local.op (p : Local α) : Op α := fun σ => ((p σ.world).1, { σ with world := (p σ.world).2 })

theorem Local.op_bind {β : Type} (p : Local α) (f : α → Local β) : Local.op (p >>= f) = Local.op p >>= fun a =>
    Local.op (f a) := by
  funext σ
  cases ran : p σ.world with
  | mk result w =>
    cases result with
    | ok a =>
      have here : Local.op p σ = (.ok a, { σ with world := w }) := by rw [Local.op, ran]
      rw [Effect.bind_of_ok here, Local.op, Effect.bind_of_ok ran]
      rfl
    | error e =>
      have here : Local.op p σ = (.error e, { σ with world := w }) := by rw [Local.op, ran]
      rw [Effect.bind_of_error here, Local.op, Effect.bind_of_error ran]

theorem Local.op_lift (result : Result α) : Local.op (Local.lift result) = Op.lift result := by
  cases result <;> rfl

theorem Local.op_allocate : Local.op Local.allocate = Op.allocate := by
  funext σ
  rw [Local.op, Local.allocate, Op.allocate]
  cases σ.world.memory.headD true <;> rfl

theorem add_eq (id : ExternalId) (vector : List F32) (upsert : Bool) : add k id vector upsert ⟨s, w⟩ =
    (Local.op (storedRow k s.config vector) >>= fun row => insertLocked k id row upsert) ⟨s, w⟩ := by
  rw [add, storedRow, Local.op_bind, Local.op_lift, Effect.bind_assoc]
  change (Op.lift _ >>= _) _ = _
  refine congrFun (congrArg _ (funext fun _ => ?_)) _
  dsimp only
  split
  · rw [Local.op_bind, Local.op_allocate, Effect.bind_assoc]
    refine congrArg _ (funext fun _ => ?_)
    rw [Local.op_lift]
    rfl
  · rfl

theorem Local.bind_congr {β : Type} {p : Local α} {f g : α → Op β} (same : ∀ a w', f a ⟨s, w'⟩ = g a ⟨s, w'⟩) :
    (Local.op p >>= f) ⟨s, w⟩ = (Local.op p >>= g) ⟨s, w⟩ := by
  have ran : Local.op p ⟨s, w⟩ = ((p w).1, ⟨s, (p w).2⟩) := rfl
  cases result : (p w).1 with
  | ok a =>
    rw [result] at ran
    rw [Effect.bind_of_ok ran, Effect.bind_of_ok ran]
    exact same a _
  | error e =>
    rw [result] at ran
    rw [Effect.bind_of_error ran, Effect.bind_of_error ran]

/-- An admitted batch. -/
def insertAdmitted (k : KernelTable) (config : CollectionConfig) (ids : List ExternalId) (upsert : Bool)
    (pool : Option ThreadPool) : Option (List F32) → Op Nat
  | none => return 0
  | some data => do
    admitLocked ids upsert
    insertRows k config (batchOf config ids data upsert pool)

theorem addBatch_eq (ids : List ExternalId) (rows : List F32) (upsert : Bool) (pool : Option ThreadPool) :
    addBatch k ids rows upsert pool ⟨s, w⟩ =
      (Local.op (batchRows k s.config ids rows) >>= insertAdmitted k s.config ids upsert pool) ⟨s, w⟩ := by
  have admitting (data : List F32) (w' : World) :
      insertAdmitted k s.config ids upsert pool (some data) ⟨s, w'⟩ = (do
      admitBatch ids upsert
      let b : Batch := { ids, data, dim := s.config.dim.toNat, upsert, pool }
      reserveVectors (s.vectors.size + ids.length)
      allocate
      ensureSize (s.vectors.size + ids.length)
      if s.config.index = .hnsw ∧ s.config.concurrency = .concurrent then addBatchConcurrent k b
      else addSlices k b ids.length 0 : Op Nat) ⟨s, w'⟩ := by
    simp only [insertAdmitted, admitLocked, Effect.bind_assoc]
    rfl
  rw [addBatch, batchRows, Local.op_bind, Local.op_lift, Effect.bind_assoc]
  change (Op.lift _ >>= _) _ = _
  rw [← Local.op_lift]
  refine Local.bind_congr fun _ w₁ => ?_
  dsimp only
  split
  · rfl
  · simp only [prepareBatch, Local.op_bind, Effect.bind_assoc, Local.op_lift, Local.op_allocate]
    rw [← Local.op_allocate]
    refine Local.bind_congr fun _ w₂ => ?_
    rw [← Local.op_lift]
    refine Local.bind_congr fun _ w₃ => ?_
    split
    · simp only [Local.op_bind, Effect.bind_assoc, Local.op_lift, Local.op_allocate]
      rw [← Local.op_allocate]
      refine Local.bind_congr fun _ w₄ => ?_
      rw [← Local.op_lift]
      refine Local.bind_congr fun data w₅ => ?_
      rw [Local.op_allocate]
      exact (admitting data w₅).symm
    · rw [Local.op_allocate]
      exact (admitting rows w₃).symm

theorem compact_eq : compact k = rebuild k >>= fun built => match built with
    | (stats, none) => return stats
    | (stats, some rebuilt) => do
      setState rebuilt
      return stats := by
  funext σ
  rw [compact, rebuild]
  rw [Effect.bind_assoc]
  refine congrFun (congrArg _ (funext fun old => ?_)) σ
  dsimp only
  split
  · rfl
  · simp only [Effect.bind_assoc]
    rfl

/-- The state stays. -/
def Keeps (p : Op α) : Prop := ∀ σ, (p σ).2.state = σ.state

theorem Keeps.bind {β : Type} {p : Op α} {f : α → Op β} (first : Keeps p) (rest : ∀ a, Keeps (f a)) :
    Keeps (p >>= f) := by
  intro σ
  have same := first σ
  cases ran : p σ with
  | mk result τ =>
    rw [ran] at same
    cases result with
    | ok a =>
      rw [Effect.bind_of_ok ran]
      exact (rest a τ).trans same
    | error e =>
      rw [Effect.bind_of_error ran]
      exact same

theorem keeps_pure (a : α) : Keeps (pure a : Op α) := fun _ => rfl

theorem keeps_op (p : Local α) : Keeps (Local.op p) := fun _ => rfl

theorem keeps_apart (start : CollectionState) (p : Op α) : Keeps (apart start p) := by
  intro σ
  rw [apart]
  cases p { σ with state := start } with
  | mk result τ => cases result <;> rfl

/-- Rebuilding happens beside the state. -/
theorem keeps_rebuild : Keeps (rebuild k) := by
  rw [rebuild]
  refine Keeps.bind (fun _ => rfl) fun old => ?_
  dsimp only
  split
  · exact keeps_pure _
  · simp only [← Local.op_lift, ← Local.op_allocate]
    refine (keeps_op _).bind fun vectors => (keeps_op _).bind fun _ => (keeps_op _).bind fun backend =>
      (keeps_apart _ _).bind fun built => ?_
    exact keeps_pure _

/-- No exit of `p` is that of an insertion that does not finish. -/
def Local.Ends (p : Local α) : Prop := ∀ w, stuck (p w).1 = false

theorem Local.Ends.bind {β : Type} {p : Local α} {f : α → Local β} (first : Local.Ends p)
    (rest : ∀ a, Local.Ends (f a)) : Local.Ends (p >>= f) := by
  intro w
  have ends := first w
  cases ran : p w with
  | mk result w' =>
    rw [ran] at ends
    cases result with
    | ok a =>
      rw [Effect.bind_of_ok ran]
      exact rest a w'
    | error e =>
      rw [Effect.bind_of_error ran]
      exact ends

theorem Local.ends_pure (a : α) : Local.Ends (pure a : Local α) := fun _ => rfl

theorem Local.ends_lift (result : Result α) : Local.Ends (Local.lift result) := by
  intro w
  cases result <;> rfl

theorem Local.ends_allocate : Local.Ends Local.allocate := by
  intro w
  rw [Local.allocate]
  cases w.memory.headD true <;> rfl

theorem ends_storedRow (config : CollectionConfig) (vector : List F32) :
    Local.Ends (storedRow k config vector) := by
  refine (Local.ends_lift _).bind fun _ => ?_
  split
  · exact Local.ends_allocate.bind fun _ => Local.ends_lift _
  · exact Local.ends_pure _

theorem ends_batchRows (config : CollectionConfig) (ids : List ExternalId) (rows : List F32) :
    Local.Ends (batchRows k config ids rows) := by
  refine (Local.ends_lift _).bind fun _ => ?_
  split
  · exact Local.ends_pure _
  · refine Local.ends_allocate.bind fun _ => (Local.ends_lift _).bind fun _ => ?_
    split
    · exact Local.ends_allocate.bind fun _ => (Local.ends_lift _).bind fun _ => Local.ends_pure _
    · exact Local.ends_pure _

end Before

section Mutations
variable {k : KernelTable} {w : World} {s : CollectionState}

theorem addScript_run (id : ExternalId) (vector : List F32) (upsert : Bool) :
    (addScript k s.config id vector upsert w).run s = outcome ((Command.add id vector upsert).run k ⟨s, w⟩) := by
  have whole : (Command.add id vector upsert).run k ⟨s, w⟩ = (do
      let row ← Local.op (storedRow k s.config vector)
      insertLocked k id row upsert
      return Reply.done : Op Reply) ⟨s, w⟩ := by
    rw [← Effect.bind_assoc, Command.run]
    cases ran : Collection.add k id vector upsert ⟨s, w⟩ with
    | mk result τ =>
      have same := (add_eq (k := k) (w := w) (s := s) id vector upsert).symm.trans ran
      cases result with
      | ok a => rw [Effect.bind_of_ok ran, Effect.bind_of_ok same]
      | error e => rw [Effect.bind_of_error ran, Effect.bind_of_error same]
  rw [whole, addScript]
  have ends := ends_storedRow (k := k) s.config vector w
  have here : Local.op (storedRow k s.config vector) ⟨s, w⟩ =
      ((storedRow k s.config vector w).1, ⟨s, (storedRow k s.config vector w).2⟩) := rfl
  cases ran : storedRow k s.config vector w with
  | mk result w' =>
    rw [ran] at ends here
    cases result with
    | ok row =>
      rw [Effect.bind_of_ok here]
      dsimp only
      rw [Critical.Script.run, inSection_run]
      exact proceed_finish _ _
    | error e =>
      rw [Effect.bind_of_error here, outcome, show stuck (Except.error e : Except Exit Reply) = false from ends]
      rfl

theorem removeScript_run (id : ExternalId) :
    (removeScript id w).run s = outcome ((Command.remove id).run k ⟨s, w⟩) := by
  rw [removeScript, Critical.Script.run, inSection_run]
  exact proceed_finish _ _

theorem compactScript_run : (compactScript k w).run s = outcome (Command.compact.run k ⟨s, w⟩) := by
  rw [compactScript, Critical.Script.run, inSection_run, Command.run, compact_eq]
  refine Eq.trans ?_ (proceed_finish _ _)
  refine proceed_onward ?_ ?_ _
  · rintro ⟨stats, _ | rebuilt⟩ τ
    · rfl
    · rw [exchange, inSection_run]
      rfl
  · exact fun _ _ _ => rfl

theorem batchScript_run (ids : List ExternalId) (rows : List F32) (upsert : Bool) (pool : Option ThreadPool) :
    (batchScript k s.config ids rows upsert pool w).run s =
      outcome ((Command.addBatch ids rows upsert pool).run k ⟨s, w⟩) := by
  rw [Command.run]
  refine Eq.trans ?_ (proceed_finish _ _)
  rw [addBatch_eq, batchScript]
  have ends := ends_batchRows (k := k) s.config ids rows w
  have here : Local.op (batchRows k s.config ids rows) ⟨s, w⟩ =
      ((batchRows k s.config ids rows w).1, ⟨s, (batchRows k s.config ids rows w).2⟩) := rfl
  cases ran : batchRows k s.config ids rows w with
  | mk result w' =>
    rw [ran] at ends here
    cases result with
    | ok data =>
      rw [Effect.bind_of_ok here]
      cases data with
      | none => rfl
      | some data =>
        dsimp only
        rw [Critical.Script.run, inSection_run]
        refine proceed_onward ?_ ?_ _
        · exact fun _ τ => rowsScript_run
        · exact fun _ _ _ => rfl
    | error e =>
      rw [Effect.bind_of_error here, proceed, show stuck (Except.error e : Except Exit Nat) = false from ends]
      rfl

/-- Alone, a mutation does under its locks what it does without. -/
theorem Command.script_run (c : Command) : (c.script k s.config w).run s = outcome (c.run k ⟨s, w⟩) := by
  cases c with
  | add id vector upsert => exact addScript_run id vector upsert
  | addBatch ids rows upsert pool => exact batchScript_run ids rows upsert pool
  | remove id => exact removeScript_run id
  | compact => exact compactScript_run

end Mutations

section Locked
variable {k : KernelTable} {α β : Type} {w : World} {b : Batch} {held : Critical.Held}

theorem finish_locked (result : Except Exit Reply) : (finish result).WellLocked writing := by
  refine ⟨rfl, fun _ => ⟨result, rfl⟩, ?_⟩
  funext x
  cases x <;> rfl

theorem unlink_locked {next : Except Exit α → World → Steps} (locked : ∀ r w, (next r w).WellLocked writing)
    (result : Except Exit α) (w : World) : (unlink next result w).WellLocked linking := by
  have closed : Function.update linking .gate false = writing := by
    funext x
    cases x <;> rfl
  refine ⟨rfl, nofun, ?_⟩
  rw [closed]
  exact locked result w

theorem exclusive_locked {p : Op α} {next : Except Exit α → World → Steps} (turn : held .turn = true)
    (locked : ∀ r w, (next r w).WellLocked held) : (inSection .exclusive p w next).WellLocked held :=
  ⟨turn, .inl rfl, fun _ => locked _ _⟩

theorem onward_locked {next : Except Exit β → World → Steps} {f : α → World → Steps}
    (leaves : ∀ e w, (next (.error e) w).WellLocked held)
    (locked : ∀ a w, (f a w).WellLocked held) (result : Except Exit α) (w : World) :
    (onward next f result w).WellLocked held := by
  cases result with
  | ok a => exact locked a w
  | error e => exact leaves e w

theorem sectionScript_locked {done : Nat} {next : Except Exit (Nat × Nat) → World → Steps}
    (locked : ∀ r w, (next r w).WellLocked writing) : (sectionScript k b done w next).WellLocked writing := by
  have settle (grown : Grown) (linked : List Bool) (w : World) :
      (settleScript grown next linked w).WellLocked linking := by
    rw [settleScript]
    split
    · exact exclusive_locked rfl (onward_locked (fun e => unlink_locked locked _) fun _ => unlink_locked locked _)
    · exact unlink_locked locked _ _
  refine ⟨rfl, fun _ => rfl, exclusive_locked rfl
    (onward_locked (fun e => unlink_locked locked _) fun grown w => ?_)⟩
  rw [linkScript]
  split
  · exact settle grown [] w
  · exact ⟨rfl, .inr (.inl rfl), fun _ => onward_locked (fun e => unlink_locked locked _) (settle grown) _ _⟩

theorem sectionsScript_locked : ∀ {fuel done inserted : Nat} {w : World},
    (sectionsScript k b fuel done inserted w).WellLocked writing := by
  intro fuel
  induction fuel with
  | zero =>
    intro done inserted w
    rw [sectionsScript]
    split <;> exact finish_locked _
  | succ fuel ih =>
    intro done inserted w
    rw [sectionsScript]
    split
    · exact sectionScript_locked (onward_locked (fun _ _ => finish_locked _) fun _ _ => ih)
    · exact finish_locked _

theorem slicesScript_locked : ∀ {fuel inserted : Nat} {w : World},
    (slicesScript k b fuel inserted w).WellLocked writing := by
  intro fuel
  induction fuel with
  | zero =>
    intro inserted w
    rw [slicesScript]
    split <;> exact finish_locked _
  | succ fuel ih =>
    intro inserted w
    rw [slicesScript]
    split
    · exact exclusive_locked rfl (onward_locked (fun _ _ => finish_locked _) fun _ _ => ih)
    · exact finish_locked _

/-- The mutations keep to the protocol. -/
theorem Command.script_locked (config : CollectionConfig) (c : Command) (w : World) :
    (c.script k config w).WellLocked Critical.nothing := by
  have turn {next : Steps} (locked : next.WellLocked writing) :
      (Critical.Script.take .turn next).WellLocked Critical.nothing :=
    ⟨rfl, nofun, locked⟩
  cases c with
  | add id vector upsert =>
    rw [Command.script, addScript]
    split
    · rfl
    · exact turn (exclusive_locked rfl fun _ _ => finish_locked _)
  | addBatch ids rows upsert pool =>
    rw [Command.script, batchScript]
    split
    · rfl
    · rfl
    · refine turn (exclusive_locked rfl (onward_locked (fun _ _ => finish_locked _) fun _ w => ?_))
      rw [rowsScript]
      split
      · split
        · exact finish_locked _
        · exact sectionsScript_locked
      · exact slicesScript_locked
  | remove id => exact turn (exclusive_locked rfl fun _ _ => finish_locked _)
  | compact =>
    refine turn ⟨rfl, .inr (.inr fun s t ends => ?_), fun _ => onward_locked (fun _ _ => finish_locked _) ?_ _ _⟩
    · dsimp only at ends
      split at ends
      · cases ends
      · exact (Option.some.inj ends).symm.trans (keeps_rebuild _)
    · rintro ⟨stats, _ | rebuilt⟩ w
      · exact finish_locked _
      · exact exclusive_locked rfl fun _ _ => finish_locked _

end Locked

end Collection
end VectorForge
