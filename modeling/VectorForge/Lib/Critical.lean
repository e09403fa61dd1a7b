import VectorForge.Lib.Machine

/-! Operations made of critical sections. A read-write lock guards the state, the mutex `turn` is held by one
operation at a time, and while an operation holds the mutex `gate` nobody begins to watch the state. -/

namespace Critical

inductive Mutex where
  | turn
  | gate
  deriving DecidableEq

inductive Mode where
  | exclusive
  | shared
  deriving DecidableEq

/-- Which mutexes somebody holds. -/
abbrev Held := Mutex → Bool

def nothing : Held := fun _ => false

/-- The locks that an operation takes and drops, and its critical sections. A section ends in a state that depends
on the one it began with, and does not end where `change` has none. -/
inductive Script (σ α : Type) where
  | ret (a : α)
  | take (x : Mutex) (next : Script σ α)
  | drop (x : Mutex) (next : Script σ α)
  | critical (mode : Mode) (change : σ → Option σ) (next : σ → Script σ α)

namespace Script
variable {σ α : Type} {s t : σ} {held : Held}

/-- Alone, from start to end. -/
def run : Script σ α → σ → Option (α × σ)
  | ret a, s => some (a, s)
  | take _ next, s => next.run s
  | drop _ next, s => next.run s
  | critical _ change next, s => (change s).bind (next s).run

/-- Alone, the operation comes through `t` between two sections while it does not hold the gate. -/
def Pauses : Script σ α → Held → σ → σ → Prop
  | ret _, held, s, t => held .gate = false ∧ t = s
  | take x next, held, s, t => held .gate = false ∧ t = s ∨ next.Pauses (Function.update held x true) s t
  | drop x next, held, s, t => held .gate = false ∧ t = s ∨ next.Pauses (Function.update held x false) s t
  | critical _ change next, held, s, t =>
    held .gate = false ∧ t = s ∨ ∃ u, change s = some u ∧ (next s).Pauses held u t

/-- The state is changed under the turn only, and exclusively or behind the gate. Nothing comes after the turn. -/
def WellLocked : Script σ α → Held → Prop
  | ret _, held => held = nothing
  | take x next, held =>
    held x = false ∧ (x = .gate → held .turn = true) ∧ next.WellLocked (Function.update held x true)
  | drop x next, held =>
    held x = true ∧ (x = .turn → ∃ a, next = ret a) ∧ next.WellLocked (Function.update held x false)
  | critical mode change next, held => held .turn = true ∧
      (mode = .exclusive ∨ held .gate = true ∨ ∀ s t, change s = some t → t = s) ∧ ∀ s, (next s).WellLocked held

/-- The operation leaves the gate alone. -/
def Ungated : Script σ α → Prop
  | ret _ => True
  | take x next => x ≠ .gate ∧ next.Ungated
  | drop x next => x ≠ .gate ∧ next.Ungated
  | critical _ _ next => ∀ s, (next s).Ungated

theorem pauses_here (p : Script σ α) (out : held .gate = false) (s : σ) : p.Pauses held s s := by
  cases p with
  | ret a => exact ⟨out, rfl⟩
  | take x next => exact .inl ⟨out, rfl⟩
  | drop x next => exact .inl ⟨out, rfl⟩
  | critical mode change next => exact .inl ⟨out, rfl⟩

end Script

/-- A look at the state at several moments, and what is made of it. -/
inductive Watch (σ β : Type) where
  | made (b : β)
  | look (next : σ → Watch σ β)

/-- What is made of a state that stays as it is. -/
def Watch.eval {σ β : Type} : Watch σ β → σ → β
  | made b, _ => b
  | look next, s => (next s).eval s

/-- The operations that there are, and what watchers do for each question, which may be to wait for the gate
first. -/
structure System (σ ι α κ β : Type) where
  script : ι → Script σ α
  watch : κ → Watch σ β
  gated : κ → Bool
  locked : ∀ op, (script op).WellLocked nothing

/-- Where a thread is. -/
inductive Client (σ ι α κ β : Type) where
  | idle
  | running (op : ι) (held : Held) (rest : Script σ α)
  | inside (op : ι) (held : Held) (mode : Mode) (start : σ) (change : σ → Option σ) (next : σ → Script σ α)
  | waiting (question : κ)
  | watching (question : κ) (gate : Bool) (left : Watch σ β)
  | leaving

namespace Client
variable {σ ι α κ β : Type}

def holds (x : Mutex) : Client σ ι α κ β → Bool
  | running _ held _ => held x
  | inside _ held _ _ _ _ => held x
  | waiting _ | leaving => decide (x = .gate)
  | watching _ gate _ => gate && decide (x = .gate)
  | idle => false

/-- How a thread holds the read-write lock. -/
def mode? : Client σ ι α κ β → Option Mode
  | inside _ _ mode _ _ _ => some mode
  | watching _ _ _ => some .shared
  | idle | running _ _ _ | waiting _ | leaving => none

end Client

/-- An answer, with the operations that had dropped the turn before it was given. -/
structure View (ι α κ β : Type) where
  log : List (ι × α)
  question : κ
  answer : β

/-- The state and the threads, with a record: the operations that have dropped the turn, the state after them, and
the answers so far. -/
structure State (σ ι α κ β : Type) where
  data : σ
  threads : Nat → Client σ ι α κ β
  base : σ
  log : List (ι × α) := []
  views : List (View ι α κ β) := []

namespace State
variable {σ ι α κ β : Type}

def move (m : State σ ι α κ β) (i : Nat) (c : Client σ ι α κ β) : State σ ι α κ β :=
  { m with threads := Function.update m.threads i c }

def Free (m : State σ ι α κ β) (x : Mutex) : Prop := ∀ j, (m.threads j).holds x = false

/-- The read-write lock can be taken. -/
def Grants (m : State σ ι α κ β) : Mode → Prop
  | .exclusive => ∀ j, (m.threads j).mode? = none
  | .shared => ∀ j, (m.threads j).mode? ≠ some .exclusive

end State

variable {σ ι α κ β : Type}

inductive Step (S : System σ ι α κ β) : State σ ι α κ β → State σ ι α κ β → Prop where
  | call {m : State σ ι α κ β} {i : Nat} {op : ι} (at_ : m.threads i = .idle) :
      Step S m (m.move i (.running op nothing (S.script op)))
  | take {m : State σ ι α κ β} {i : Nat} {op : ι} {held : Held} {x : Mutex} {next : Script σ α}
      (at_ : m.threads i = .running op held (.take x next)) (free : m.Free x) :
      Step S m (m.move i (.running op (Function.update held x true) next))
  | openGate {m : State σ ι α κ β} {i : Nat} {op : ι} {held : Held} {next : Script σ α}
      (at_ : m.threads i = .running op held (.drop .gate next)) :
      Step S m (m.move i (.running op (Function.update held .gate false) next))
  | endTurn {m : State σ ι α κ β} {i : Nat} {op : ι} {held : Held} {a : α}
      (at_ : m.threads i = .running op held (.drop .turn (.ret a))) :
      Step S m { m.move i (.running op (Function.update held .turn false)
        (.ret a)) with base := m.data, log := m.log ++ [(op, a)] }
  | enter {m : State σ ι α κ β} {i : Nat} {op : ι} {held : Held} {mode : Mode} {change : σ → Option σ}
      {next : σ → Script σ α}
      (at_ : m.threads i = .running op held (.critical mode change next)) (granted : m.Grants mode) :
      Step S m (m.move i (.inside op held mode m.data change next))
  /-- In the middle of a section that may change it, the state is anything. -/
  | disturb {m : State σ ι α κ β} {i : Nat} {op : ι} {held : Held} {mode : Mode} {start : σ} {change : σ → Option σ}
      {next : σ → Script σ α}
      (at_ : m.threads i = .inside op held mode start change next) (may : mode = .exclusive ∨
        held .gate = true) (s : σ) :
      Step S m { m with data := s }
  | leave {m : State σ ι α κ β} {i : Nat} {op : ι} {held : Held} {mode : Mode} {start t : σ} {change : σ → Option σ}
      {next : σ → Script σ α}
      (at_ : m.threads i = .inside op held mode start change next) (ends : change start = some t) :
      Step S m { m.move i (.running op held (next start)) with data := t }
  | returns {m : State σ ι α κ β} {i : Nat} {op : ι} {held : Held} {a : α}
      (at_ : m.threads i = .running op held (.ret a)) : Step S m (m.move i .idle)
  | knock {m : State σ ι α κ β} {i : Nat} {q : κ} (at_ : m.threads i = .idle) (gated : S.gated q = true)
      (free : m.Free .gate) : Step S m (m.move i (.waiting q))
  | watch {m : State σ ι α κ β} {i : Nat} {q : κ} (at_ : m.threads i = .waiting q) (gated : S.gated q = true)
      (granted : m.Grants .shared) : Step S m (m.move i (.watching q true (S.watch q)))
  | peek {m : State σ ι α κ β} {i : Nat} {q : κ} (at_ : m.threads i = .idle) (gated : S.gated q = false)
      (granted : m.Grants .shared) : Step S m (m.move i (.watching q false (S.watch q)))
  | see {m : State σ ι α κ β} {i : Nat} {q : κ} {gate : Bool} {next : σ → Watch σ β}
      (at_ : m.threads i = .watching q gate (.look next)) : Step S m (m.move i (.watching q gate (next m.data)))
  | answer {m : State σ ι α κ β} {i : Nat} {q : κ} {gate : Bool} {b : β}
      (at_ : m.threads i = .watching q gate (.made b)) :
      Step S m { m.move i (if gate then .leaving else .idle) with views := m.views ++ [⟨m.log, q, b⟩] }
  | goHome {m : State σ ι α κ β} {i : Nat} (at_ : m.threads i = .leaving) : Step S m (m.move i .idle)

/-- Any number of threads, all of them idle at first. -/
def machine (S : System σ ι α κ β) (start : σ) : Machine (State σ ι α κ β) where
  start := fun m => m = { data := start, threads := fun _ => .idle, base := start }
  Step := Step S

/-- One operation after the other. -/
inductive Whole (script : ι → Script σ α) : σ → List (ι × α) → σ → Prop
  | nil {s : σ} : Whole script s [] s
  | snoc {s t u : σ} {log : List (ι × α)} {op : ι} {a : α} (before : Whole script s log t)
      (run : (script op).run t = some (a, u)) : Whole script s (log ++ [(op, a)]) u

/-- The answer is about the state after the operations before it and, possibly, a part of a further one. -/
def Explained (S : System σ ι α κ β) (start : σ) (v : View ι α κ β) : Prop :=
  ∃ base s, Whole S.script start v.log base ∧ (s = base ∨ ∃ op, (S.script op).Pauses nothing base s) ∧
    v.answer = (S.watch v.question).eval s

/-- Who watches with or without the gate sees no section from the inside. -/
def System.Sees (S : System σ ι α κ β) (gate : Bool) : Prop := gate = true ∨ ∀ op, (S.script op).Ungated

section Invariant
variable {S : System σ ι α κ β} {first base data s t : σ} {whole rest : Script σ α} {held : Held}
  {m : State σ ι α κ β} {i j : Nat} {c : Client σ ι α κ β}

/-- What is still to come of `rest` from `s` is to come of the whole from `base`. -/
structure Ahead (whole : Script σ α) (base : σ) (rest : Script σ α) (held : Held) (s : σ) : Prop where
  run : ∀ a t, rest.run s = some (a, t) → whole.run base = some (a, t)
  pauses : ∀ t, rest.Pauses held s t → whole.Pauses nothing base t

theorem Ahead.start (whole : Script σ α) (s : σ) : Ahead whole s whole nothing s :=
  ⟨fun _ _ run => run, fun _ pauses => pauses⟩

theorem Ahead.take {x : Mutex} {next : Script σ α} (ahead : Ahead whole base (.take x next) held s) :
    Ahead whole base next (Function.update held x true) s :=
  ⟨fun a t run => ahead.run a t run, fun t pauses => ahead.pauses t (.inr pauses)⟩

theorem Ahead.drop {x : Mutex} {next : Script σ α} (ahead : Ahead whole base (.drop x next) held s) :
    Ahead whole base next (Function.update held x false) s :=
  ⟨fun a t run => ahead.run a t run, fun t pauses => ahead.pauses t (.inr pauses)⟩

theorem Ahead.leave {mode : Mode} {change : σ → Option σ} {next : σ → Script σ α}
    (ahead : Ahead whole base (.critical mode change next) held s)
    (ends : change s = some t) : Ahead whole base (next s) held t := by
  refine ⟨fun a u run => ahead.run a u ?_, fun u pauses => ahead.pauses u (.inr ⟨t, ends, pauses⟩)⟩
  rw [Script.run, ends]
  exact run

/-- How far an operation is that is not in a section. -/
inductive Position (whole : Script σ α) (base data : σ) (held : Held) (rest : Script σ α) : Prop
  | before (free : held .turn = false) (ahead : ∀ s, Ahead whole s rest held s)
  | during (mine : held .turn = true) (ahead : Ahead whole base rest held data)
  | after {a : α} (free : held .turn = false) (done : rest = .ret a)

/-- An operation that leaves the gate alone does not have it. -/
def Tame (whole rest : Script σ α) (held : Held) : Prop := whole.Ungated → rest.Ungated ∧ held .gate = false

/-- What is known of a thread. -/
def Good (S : System σ ι α κ β) (base data : σ) : Client σ ι α κ β → Prop
  | .running op held rest =>
    rest.WellLocked held ∧ Tame (S.script op) rest held ∧ Position (S.script op) base data held rest
  | .inside op held mode start change next => (Script.critical mode change next).WellLocked held ∧
      Tame (S.script op) (.critical mode change next) held ∧
      Ahead (S.script op) base (.critical mode change next) held start ∧
      ((mode = .exclusive ∨ held .gate = true) ∨ data = start)
  | .watching q gate left => gate = S.gated q ∧ (S.Sees gate → left.eval data = (S.watch q).eval data)
  | .idle | .waiting _ | .leaving => True

/-- Not one who could tell. -/
def Blind (S : System σ ι α κ β) (c : Client σ ι α κ β) : Prop :=
  ∀ q gate left, c = .watching q gate left → ¬S.Sees gate

/-- Who does not have the turn cares about the state only while watching it. -/
theorem Good.elsewhere {base' data' : σ} (good : Good S base data c) (free : c.holds .turn = false)
    (blind : data' = data ∨ Blind S c) : Good S base' data' c := by
  cases c with
  | running op held rest =>
    refine ⟨good.1, good.2.1, ?_⟩
    cases good.2.2 with
    | before free ahead => exact .before free ahead
    | during mine ahead => exact absurd (mine.symm.trans free) (by decide)
    | after free done => exact .after free done
  | inside op held mode start change next => exact absurd (good.1.1.symm.trans free) (by decide)
  | watching q gate left =>
    rcases blind with rfl | blind
    · exact good
    · exact ⟨good.1, fun sees => absurd sees (blind q gate left rfl)⟩
  | idle => trivial
  | waiting q => trivial
  | leaving => trivial

structure Inv (S : System σ ι α κ β) (first : σ) (m : State σ ι α κ β) : Prop where
  good : ∀ i, Good S m.base m.data (m.threads i)
  single : ∀ x i j, (m.threads i).holds x = true → (m.threads j).holds x = true → i = j
  apart : ∀ i j, (m.threads i).mode? = some .exclusive → (m.threads j).mode? ≠ none → i = j
  whole : Whole S.script first m.log m.base
  still : m.Free .turn → m.data = m.base
  early : ∀ v ∈ m.views, v.log <+: m.log
  ordered : m.views.Pairwise fun v v' => v.log <+: v'.log
  views : ∀ v ∈ m.views, S.Sees (S.gated v.question) → Explained S first v

@[simp] theorem State.move_same : (m.move i c).threads i = c := by
  rw [State.move]
  exact Function.update_self i c m.threads

theorem State.move_other (other : j ≠ i) : (m.move i c).threads j = m.threads j := by
  rw [State.move]
  exact Function.update_of_ne other c m.threads

/-- A thread gets no more locks than it has or can take. -/
structure Allowed (m : State σ ι α κ β) (i : Nat) (c : Client σ ι α κ β) : Prop where
  holds : ∀ x, c.holds x = true → (m.threads i).holds x = true ∨ m.Free x
  mode : ∀ d, c.mode? = some d → (m.threads i).mode? = some d ∨ m.Grants d

theorem Inv.single_move (inv : Inv S first m) (allowed : Allowed m i c) (x : Mutex) (j l : Nat)
    (one : ((m.move i c).threads j).holds x = true) (second : ((m.move i c).threads l).holds x = true) : j = l := by
  have other {j l : Nat} (one : ((m.move i c).threads j).holds x = true)
      (second : ((m.move i c).threads l).holds x = true) (here : j = i) (there : l ≠ i) : j = l := by
    subst here
    rw [State.move_same] at one
    rw [State.move_other there] at second
    rcases allowed.holds x one with mine | free
    · exact inv.single x j l mine second
    · exact absurd ((free l).symm.trans second) (by decide)
  by_cases here : j = i
  · by_cases there : l = i
    · exact here.trans there.symm
    · exact other one second here there
  · by_cases there : l = i
    · exact (other second one there here).symm
    · rw [State.move_other here] at one
      rw [State.move_other there] at second
      exact inv.single x j l one second

theorem Inv.apart_move (inv : Inv S first m) (allowed : Allowed m i c) (j l : Nat)
    (one : ((m.move i c).threads j).mode? = some .exclusive)
    (second : ((m.move i c).threads l).mode? ≠ none) : j = l := by
  by_cases here : j = i
  · by_cases there : l = i
    · exact here.trans there.symm
    · subst here
      rw [State.move_same] at one
      rw [State.move_other there] at second
      rcases allowed.mode _ one with mine | granted
      · exact inv.apart j l mine second
      · exact absurd (granted l) second
  · rw [State.move_other here] at one
    by_cases there : l = i
    · subst there
      rw [State.move_same] at second
      obtain ⟨d, has⟩ := Option.ne_none_iff_exists'.mp second
      rcases allowed.mode d has with mine | granted
      · exact inv.apart j l one (by rw [mine]; exact Option.some_ne_none d)
      · cases d with
        | exclusive => exact absurd (one.symm.trans (granted j)) (Option.some_ne_none _)
        | shared => exact absurd one (granted j)
    · rw [State.move_other there] at second
      exact inv.apart j l one second

/-- A thread goes on, and the state stays. -/
theorem Inv.moves (inv : Inv S first m) (allowed : Allowed m i c) (good : Good S m.base m.data c)
    (turn : (m.threads i).holds .turn = true → c.holds .turn = true) : Inv S first (m.move i c) where
  good := by
    intro j
    by_cases here : j = i
    · subst here
      rw [State.move_same]
      exact good
    · rw [State.move_other here]
      exact inv.good j
  single := inv.single_move allowed
  apart := inv.apart_move allowed
  whole := inv.whole
  still := by
    intro free
    refine inv.still fun j => ?_
    by_cases here : j = i
    · subst here
      have mine := free j
      rw [State.move_same] at mine
      exact Bool.eq_false_iff.mpr fun held => absurd ((turn held).symm.trans mine) (by decide)
    · have others := free j
      rwa [State.move_other here] at others
  early := inv.early
  ordered := inv.ordered
  views := inv.views

/-- While a section may change the state, nobody else has the turn or could tell. -/
theorem Inv.alone {op : ι} {mode : Mode} {begun : σ} {change : σ → Option σ} {next : σ → Script σ α}
    (inv : Inv S first m) (at_ : m.threads i = .inside op held mode begun change next)
    (may : mode = .exclusive ∨ held .gate = true) (other : j ≠ i) :
    (m.threads j).holds .turn = false ∧ Blind S (m.threads j) := by
  have mine := inv.good i
  rw [at_] at mine
  constructor
  · refine Bool.eq_false_iff.mpr fun held => other (inv.single .turn j i held ?_)
    rw [at_]
    exact mine.1.1
  · intro q gate left watching sees
    rcases may with rfl | closed
    · refine other (inv.apart i j (by rw [at_]; rfl) ?_).symm
      rw [watching]
      exact Option.some_ne_none _
    · rcases sees with rfl | ungated
      · refine other (inv.single .gate j i ?_ ?_)
        · rw [watching]
          rfl
        · rw [at_]
          exact closed
      · exact absurd (closed.symm.trans (mine.2.1 (ungated op)).2) (by decide)

/-- What a watcher looks at is the state between two sections. -/
theorem Inv.quiet {q : κ} {gate : Bool} {left : Watch σ β} (inv : Inv S first m)
    (at_ : m.threads i = .watching q gate left) (sees : S.Sees gate) :
    m.data = m.base ∨ ∃ op, (S.script op).Pauses nothing m.base m.data := by
  by_cases turn : m.Free .turn
  · exact .inl (inv.still turn)
  obtain ⟨j, mine⟩ := not_forall.mp turn
  rw [Bool.not_eq_false] at mine
  have open_ {whole rest : Script σ α} {held : Held} (other : j ≠ i) (has : (m.threads j).holds .gate = held .gate)
      (tame : Tame whole rest held) (member : ∃ op, whole = S.script op) : held .gate = false := by
    rcases sees with rfl | ungated
    · refine Bool.eq_false_iff.mpr fun closed => other (inv.single .gate j i (has.trans closed) ?_)
      rw [at_]
      rfl
    · obtain ⟨op, rfl⟩ := member
      exact (tame (ungated op)).2
  have good := inv.good j
  cases there : m.threads j with
  | running op held rest =>
    rw [there] at good mine
    have other : j ≠ i := fun same => by rw [same, at_] at there; cases there
    cases good.2.2 with
    | before free _ => exact absurd (free.symm.trans mine) (by decide)
    | during _ ahead =>
      exact .inr ⟨op, ahead.pauses _ (rest.pauses_here (open_ other (by rw [there]; rfl) good.2.1 ⟨op, rfl⟩) _)⟩
    | after free _ => exact absurd (free.symm.trans mine) (by decide)
  | inside op held mode begun change next =>
    rw [there] at good
    have other : j ≠ i := fun same => by rw [same, at_] at there; cases there
    rcases good.2.2.2 with may | same
    · exact absurd sees ((inv.alone there may other.symm).2 q gate left at_)
    · rw [same]
      exact .inr ⟨op, good.2.2.1.pauses _
        (Script.pauses_here _ (open_ other (by rw [there]; rfl) good.2.1 ⟨op, rfl⟩) _)⟩
  | watching q gate left => rw [there] at mine; cases gate <;> cases mine
  | idle => rw [there] at mine; cases mine
  | waiting q => rw [there] at mine; cases mine
  | leaving => rw [there] at mine; cases mine

/-- Everybody but the thread that goes on is as before. -/
theorem State.good_move {base' data' : σ} (good : Good S base' data' c)
    (others : ∀ j, j ≠ i → Good S base' data' (m.threads j)) (j : Nat) :
    Good S base' data' ((m.move i c).threads j) := by
  by_cases here : j = i
  · subst here
    rw [State.move_same]
    exact good
  · rw [State.move_other here]
    exact others j here

theorem Inv.endTurn {op : ι} {a : α} (inv : Inv S first m)
    (at_ : m.threads i = .running op held (.drop .turn (.ret a))) :
    Inv S first { m.move i (.running op (Function.update held .turn false)
      (.ret a)) with base := m.data, log := m.log ++ [(op, a)] } := by
  have mine := inv.good i
  rw [at_] at mine
  obtain ⟨⟨turn, _, locked⟩, tame, position⟩ := mine
  have allowed : Allowed m i (.running op (Function.update held .turn false) (.ret a)) := by
    refine ⟨fun x has => ?_, fun d has => by cases has⟩
    rw [Client.holds, show Function.update held .turn false = nothing from locked] at has
    cases has
  have ahead : Ahead (S.script op) m.base (.drop .turn (.ret a)) held m.data := by
    cases position with
    | before free _ => exact absurd (free.symm.trans turn) (by decide)
    | during _ ahead => exact ahead
    | after _ done => cases done
  exact {
    good := State.good_move ⟨locked, fun ungated => ⟨trivial, congrFun locked .gate⟩,
      .after (Function.update_self ..) rfl⟩ fun j other =>
      (inv.good j).elsewhere (Bool.eq_false_iff.mpr fun held =>
        other (inv.single .turn j i held (by rw [at_]; exact turn))) (.inl rfl)
    single := inv.single_move allowed
    apart := inv.apart_move allowed
    whole := inv.whole.snoc (ahead.run a m.data rfl)
    still := fun _ => rfl
    early := fun v made => (inv.early v made).trans (List.prefix_append _ _)
    ordered := inv.ordered
    views := inv.views }

theorem Inv.leave {op : ι} {mode : Mode} {begun : σ} {change : σ → Option σ} {next : σ → Script σ α}
    (inv : Inv S first m)
    (at_ : m.threads i = .inside op held mode begun change next) (ends : change begun = some t) :
    Inv S first { m.move i (.running op held (next begun)) with data := t } := by
  have mine := inv.good i
  rw [at_] at mine
  obtain ⟨⟨turn, safe, locked⟩, tame, ahead, here⟩ := mine
  have allowed : Allowed m i (.running op held (next begun)) := by
    refine ⟨fun x has => .inl ?_, fun d has => by cases has⟩
    rw [at_]
    exact has
  exact {
    good := by
      refine State.good_move ⟨locked begun, fun ungated => ⟨(tame ungated).1 begun, (tame ungated).2⟩,
        .during turn (ahead.leave ends)⟩ fun j other => ?_
      refine (inv.good j).elsewhere (Bool.eq_false_iff.mpr fun held =>
        other (inv.single .turn j i held (by rw [at_]; exact turn))) ?_
      -- either the section keeps the watchers out, or it only reads
      rcases here with may | same
      · exact .inr (inv.alone at_ may other).2
      · rcases safe with exclusive | gate | reads
        · exact .inr (inv.alone at_ (.inl exclusive) other).2
        · exact .inr (inv.alone at_ (.inr gate) other).2
        · exact .inl ((reads begun t ends).trans same.symm)
    single := inv.single_move allowed
    apart := inv.apart_move allowed
    whole := inv.whole
    still := by
      intro free
      have mine := free i
      dsimp only at mine
      rw [State.move_same] at mine
      exact absurd (mine.symm.trans turn) (by decide)
    early := inv.early
    ordered := inv.ordered
    views := inv.views }

theorem Inv.disturb {op : ι} {mode : Mode} {begun : σ} {change : σ → Option σ} {next : σ → Script σ α}
    (inv : Inv S first m) (at_ : m.threads i = .inside op held mode begun change next)
    (may : mode = .exclusive ∨ held .gate = true) (s : σ) : Inv S first { m with data := s } := by
  have mine := inv.good i
  rw [at_] at mine
  refine { inv with good := fun j => ?_, still := fun free => ?_ }
  · dsimp only
    by_cases here : j = i
    · rw [here, at_]
      exact ⟨mine.1, mine.2.1, mine.2.2.1, .inl may⟩
    · exact (inv.good j).elsewhere (inv.alone at_ may here).1 (.inr (inv.alone at_ may here).2)
  · have none := free i
    dsimp only at none
    rw [at_] at none
    exact absurd (none.symm.trans mine.1.1) (by decide)

theorem Inv.answer {q : κ} {gate : Bool} {b : β} (inv : Inv S first m)
    (at_ : m.threads i = .watching q gate (.made b)) :
    Inv S first { m.move i (if gate then .leaving else .idle) with views := m.views ++ [⟨m.log, q, b⟩] } := by
  have made := inv.good i
  rw [at_] at made
  have turn (has : (m.threads i).holds .turn = true) : False := by
    rw [at_, Client.holds] at has
    cases gate <;> cases has
  have moved : Inv S first (m.move i (if gate then .leaving else .idle)) := by
    cases gate with
    | true => exact inv.moves ⟨fun x has => .inl (by rw [at_]; exact has),
      fun d has => by cases has⟩ trivial fun has => (turn has).elim
    | false =>
      exact inv.moves ⟨fun x has => (by cases has), fun d has => by cases has⟩ trivial fun has => (turn has).elim
  refine { moved with early := fun v known => ?_, ordered := ?_, views := fun v known => ?_ }
  · rcases List.mem_append.mp known with old | new
    · exact inv.early v old
    · rw [List.mem_singleton.mp new]
      exact List.prefix_refl _
  · refine List.pairwise_append.mpr ⟨inv.ordered, List.pairwise_singleton _ _, fun v old v' new => ?_⟩
    rw [List.mem_singleton.mp new]
    exact inv.early v old
  · rcases List.mem_append.mp known with old | new
    · exact inv.views v old
    · rw [List.mem_singleton.mp new]
      intro sees
      rw [← made.1] at sees
      exact ⟨m.base, m.data, inv.whole, inv.quiet at_ sees, made.2 sees⟩

theorem Inv.take {op : ι} {x : Mutex} {next : Script σ α} (inv : Inv S first m)
    (at_ : m.threads i = .running op held (.take x next))
    (free : m.Free x) : Inv S first (m.move i (.running op (Function.update held x true) next)) := by
  have mine := inv.good i
  rw [at_] at mine
  obtain ⟨⟨out, order, locked⟩, tame, position⟩ := mine
  refine inv.moves ⟨fun y has => ?_, fun d has => by cases has⟩ ⟨locked, fun ungated => ?_, ?_⟩ fun has => ?_
  · rw [at_]
    by_cases same : y = x
    · exact .inr (same ▸ free)
    · have before : Function.update held x true y = true := has
      rw [Function.update_of_ne same] at before
      exact .inl before
  · obtain ⟨⟨other, more⟩, free⟩ := tame ungated
    exact ⟨more, (Function.update_of_ne (Ne.symm other) true held).trans free⟩
  · cases position with
    | before early ahead =>
      cases x with
      | turn =>
        refine .during (Function.update_self ..) ?_
        rw [inv.still free]
        exact (ahead m.base).take
      | gate => exact absurd (early.symm.trans (order rfl)) (by decide)
    | during turn ahead =>
      cases x with
      | turn => exact absurd (out.symm.trans turn) (by decide)
      | gate => exact .during ((Function.update_of_ne (by decide) true held).trans turn) ahead.take
    | after _ done => cases done
  · rw [at_] at has
    by_cases same : x = .turn
    · exact same ▸ Function.update_self ..
    · exact (Function.update_of_ne (Ne.symm same) true held).trans has

theorem Inv.openGate {op : ι} {next : Script σ α} (inv : Inv S first m)
    (at_ : m.threads i = .running op held (.drop .gate next)) :
    Inv S first (m.move i (.running op (Function.update held .gate false) next)) := by
  have mine := inv.good i
  rw [at_] at mine
  obtain ⟨⟨_, _, locked⟩, tame, position⟩ := mine
  have turn : Function.update held .gate false .turn = held .turn := Function.update_of_ne (by decide) false held
  refine inv.moves ⟨fun y has => .inl ?_, fun d has => by cases has⟩
    ⟨locked, fun ungated => absurd rfl (tame ungated).1.1, ?_⟩ fun has => ?_
  · rw [at_]
    cases y with
    | turn => exact turn.symm.trans has
    | gate =>
      have lost : Function.update held .gate false .gate = true := has
      rw [Function.update_self] at lost
      cases lost
  · cases position with
    | before early ahead => exact .before (turn.trans early) fun s => (ahead s).drop
    | during mine ahead => exact .during (turn.trans mine) ahead.drop
    | after _ done => cases done
  · rw [at_] at has
    exact turn.trans has

theorem Inv.enter {op : ι} {mode : Mode} {change : σ → Option σ} {next : σ → Script σ α} (inv : Inv S first m)
    (at_ : m.threads i = .running op held (.critical mode change next)) (granted : m.Grants mode) :
    Inv S first (m.move i (.inside op held mode m.data change next)) := by
  have mine := inv.good i
  rw [at_] at mine
  obtain ⟨locked, tame, position⟩ := mine
  refine inv.moves ⟨fun y has => .inl (by rw [at_]; exact has), fun d has => by cases has; exact .inr granted⟩
    ⟨locked, tame, ?_, .inr rfl⟩
    fun _ => locked.1
  cases position with
  | before early _ => exact absurd (early.symm.trans locked.1) (by decide)
  | during _ ahead => exact ahead
  | after _ done => cases done

theorem Inv.step {m' : State σ ι α κ β} (step : Step S m m') (inv : Inv S first m) : Inv S first m' := by
  have idle {i : Nat} : Allowed m i .idle := ⟨fun x has => (by cases has), fun d has => by cases has⟩
  cases step with
  | @call i op at_ =>
    refine inv.moves ⟨fun x has => (by cases has), fun d has => by cases has⟩
      ⟨S.locked op, fun ungated => ⟨ungated, rfl⟩, .before rfl (.start _)⟩ fun has => ?_
    rw [at_] at has
    cases has
  | take at_ free => exact inv.take at_ free
  | openGate at_ => exact inv.openGate at_
  | endTurn at_ => exact inv.endTurn at_
  | enter at_ granted => exact inv.enter at_ granted
  | disturb at_ may s => exact inv.disturb at_ may s
  | leave at_ ends => exact inv.leave at_ ends
  | @returns i op held a at_ =>
    refine inv.moves idle trivial fun has => ?_
    have mine := inv.good i
    rw [at_] at mine has
    rw [Client.holds, show held = nothing from mine.1] at has
    cases has
  | knock at_ gated free =>
    refine inv.moves ⟨fun x has => .inr ?_, fun d has => by cases has⟩ trivial fun has => by
      rw [at_] at has; cases has
    rw [of_decide_eq_true has]
    exact free
  | @watch i q at_ gated granted =>
    refine inv.moves ⟨fun x has => .inl (by rw [at_]; exact has), fun d has => ?_⟩ ⟨gated.symm, fun _ => rfl⟩
      fun has => by rw [at_] at has; exact has
    cases has
    exact .inr granted
  | @peek i q at_ gated granted =>
    refine inv.moves ⟨fun x has => (by cases has), fun d has => ?_⟩ ⟨gated.symm, fun _ => rfl⟩ fun has => by
      rw [at_] at has; cases has
    cases has
    exact .inr granted
  | @see i q gate next at_ =>
    have mine := inv.good i
    rw [at_] at mine
    exact inv.moves ⟨fun x has => .inl (by rw [at_]; exact has), fun d has => .inl (by rw [at_]; exact has)⟩ mine
      fun has => by rw [at_] at has; exact has
  | answer at_ => exact inv.answer at_
  | goHome at_ => exact inv.moves idle trivial fun has => by rw [at_] at has; cases has

/-- In every interleaving: the operations have happened one after the other, and who sees no section from the
inside gets answers about the states between two sections of them. -/
theorem inv_of_reachable (reachable : (machine S first).Reachable m) : Inv S first m := by
  refine reachable.invariant (fun m start => ?_) fun step inv => Inv.step step inv
  obtain rfl : m = _ := start
  exact {
    good := fun _ => trivial
    single := fun _ _ _ none => by cases none
    apart := fun _ _ none => by cases none
    whole := .nil
    still := fun _ => rfl
    early := nofun
    ordered := .nil
    views := nofun }

end Invariant
end Critical
