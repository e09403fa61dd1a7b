import Mathlib

/-! Programs as trees of atomic operations, the interleavings of any number of them, and
rely-guarantee reasoning with auxiliary state. -/

/-- A program that returns `α`. Between two operations any other thread may run; what an
operation returns decides how the program goes on. Programs are finite in depth for every
sequence of answers, so loops have to be justified where they are written. -/
inductive Prog (Op : Type) (Ret : Op → Type) (α : Type) where
  | done (a : α)
  | call (o : Op) (next : Ret o → Prog Op Ret α)

namespace Prog
variable {Op : Type} {Ret : Op → Type} {α β : Type}

def bind : Prog Op Ret α → (α → Prog Op Ret β) → Prog Op Ret β
  | done a, f => f a
  | call o next, f => call o fun r => (next r).bind f

instance : Monad (Prog Op Ret) where
  pure := done
  bind := bind

/-- One operation. -/
def op (o : Op) : Prog Op Ret (Ret o) := call o done

@[simp] theorem pure_eq_done (a : α) : (pure a : Prog Op Ret α) = done a := rfl

@[simp] theorem done_bind (a : α) (f : α → Prog Op Ret β) : (done a >>= f) = f a := rfl

@[simp] theorem call_bind (o : Op) (next : Ret o → Prog Op Ret α) (f : α → Prog Op Ret β) :
    (call o next >>= f) = call o fun r => next r >>= f := rfl

@[simp] theorem op_bind (o : Op) (f : Ret o → Prog Op Ret β) : (op o >>= f) = call o f := rfl

theorem bind_assoc {γ : Type} (p : Prog Op Ret α) (f : α → Prog Op Ret β) (g : β → Prog Op Ret γ) :
    (p >>= f) >>= g = p >>= fun a => f a >>= g := by
  induction p with
  | done a => rfl
  | call o next ih => exact congrArg (call o) (funext ih)

/-- The program alone, with a function that answers its operations. -/
def run {σ : Type} (answer : (o : Op) → σ → Option (Ret o × σ)) : Prog Op Ret α → σ → Option (α × σ)
  | done a, s => some (a, s)
  | call o next, s => (answer o s).bind fun (r, s) => (next r).run answer s

/-- The value of a program that only looks at something that stays as it is. -/
def eval (answers : (o : Op) → Option (Ret o)) : Prog Op Ret α → Option α
  | done a => some a
  | call o next => (answers o).bind fun r => (next r).eval answers

theorem eval_bind (answers : (o : Op) → Option (Ret o)) (p : Prog Op Ret α) (f : α → Prog Op Ret β) :
    (p >>= f).eval answers = (p.eval answers).bind fun a => (f a).eval answers := by
  induction p with
  | done a => rfl
  | call o next ih =>
    rw [call_bind, eval, eval, Option.bind_assoc]
    exact congrArg (Option.bind (answers o)) (funext ih)

/-- In states that answer so and stay so, the program runs to its value. -/
theorem run_of_eval {σ : Type} {answers : (o : Op) → Option (Ret o)}
    {answer : (o : Op) → σ → Option (Ret o × σ)} {still : σ → Prop}
    (agree : ∀ o r s, answers o = some r → still s → ∃ s', answer o s = some (r, s') ∧ still s')
    {p : Prog Op Ret α} {a : α} :
    ∀ {s : σ}, p.eval answers = some a → still s → ∃ s', p.run answer s = some (a, s') ∧ still s' := by
  induction p with
  | done b =>
    intro s value holds
    cases value
    exact ⟨s, rfl, holds⟩
  | call o next ih =>
    intro s value holds
    obtain ⟨r, answered, value⟩ := Option.bind_eq_some_iff.mp value
    obtain ⟨s₁, step, holds⟩ := agree o r s answered holds
    obtain ⟨s', run, holds⟩ := ih r value holds
    refine ⟨s', ?_, holds⟩
    rw [Prog.run, step]
    exact run

end Prog

/-- One step of thread `i`, if it can take one. -/
def Prog.stepThread {Op : Type} {Ret : Op → Type} {α τ : Type}
    (answer : Nat → (o : Op) → τ → Option (Ret o × τ)) (i : Nat)
    (state : τ × (Nat → Prog Op Ret α)) : τ × (Nat → Prog Op Ret α) :=
  match state.2 i with
  | .done _ => state
  | .call o next => match answer i o state.1 with
    | none => state
    | some (r, t) => (t, Function.update state.2 i (next r))

/-- The threads take steps in the order of the schedule. -/
def Prog.runSchedule {Op : Type} {Ret : Op → Type} {α τ : Type} (answer : Nat → (o : Op) → τ → Option (Ret o × τ)) :
    List Nat → τ × (Nat → Prog Op Ret α) → τ × (Nat → Prog Op Ret α)
  | [], state => state
  | i :: rest, state => runSchedule answer rest (Prog.stepThread answer i state)

def Prog.result? {Op : Type} {Ret : Op → Type} {α : Type} : Prog Op Ret α → Option α
  | .done a => some a
  | .call _ _ => none

theorem Prog.eq_done_of_result? {Op : Type} {Ret : Op → Type} {α : Type} {p : Prog Op Ret α} {a : α}
    (result : p.result? = some a) : p = .done a := by
  cases p with
  | done b => cases result; rfl
  | call o next => cases result

/-- A thread that is done stays so. -/
theorem Prog.runSchedule_done {Op : Type} {Ret : Op → Type} {α τ : Type}
    {answer : Nat → (o : Op) → τ → Option (Ret o × τ)}
    {i : Nat} {a : α} : ∀ {schedule : List Nat} {state : τ × (Nat → Prog Op Ret α)}, state.2 i = .done a →
      (Prog.runSchedule answer schedule state).2 i = .done a := by
  intro schedule
  induction schedule with
  | nil => exact id
  | cons j rest ih =>
    intro state ended
    refine ih ?_
    simp only [Prog.stepThread]
    split
    next => exact ended
    next o next at_ =>
      split
      next => exact ended
      next r t _ =>
        have other : i ≠ j := by
          rintro rfl
          rw [ended] at at_
          cases at_
        exact (Function.update_of_ne other _ _).trans ended

/-- What operations do to the shared state `σ`, and what the threads may assume of each other
with the help of auxiliary state `Γ`. -/
structure Discipline (Op : Type) (Ret : Op → Type) (σ Γ : Type) where
  /-- What thread `i` may get and leave behind. -/
  does : Nat → (o : Op) → σ → Ret o → σ → Prop
  /-- The operations that make sense in a state. -/
  allowed : Nat → Op → σ → Prop
  inv : σ → Γ → Prop
  /-- What thread `i` knows of whatever the other threads do. -/
  rely : Nat → σ → Γ → σ → Γ → Prop
  refl : ∀ i s γ, rely i s γ s γ
  trans : ∀ {i s γ s₁ γ₁ s₂ γ₂}, rely i s γ s₁ γ₁ → rely i s₁ γ₁ s₂ γ₂ → rely i s γ s₂ γ₂

namespace Discipline
variable {Op : Type} {Ret : Op → Type} {σ Γ α β : Type} (D : Discipline Op Ret σ Γ) {i : Nat}

/-- One operation of one thread of the pool. -/
inductive Step : σ × (Nat → Prog Op Ret α) → σ × (Nat → Prog Op Ret α) → Prop where
  | run {pool : Nat → Prog Op Ret α} {i : Nat} {o : Op} {next : Ret o → Prog Op Ret α} {s s' : σ} {r : Ret o}
      (at_ : pool i = .call o next) (does : D.does i o s r s') :
      Step (s, pool) (s', Function.update pool i (next r))

/-- Any number of steps of any threads. -/
def Runs (a b : σ × (Nat → Prog Op Ret α)) : Prop := Relation.ReflTransGen D.Step a b

/-- Thread `i` is allowed every operation it may come to, keeps the invariant and what the other
threads rely on, and returns only with the postcondition, whatever the others do meanwhile. -/
def Ok (i : Nat) : Prog Op Ret α → (α → σ → Γ → Prop) → σ → Γ → Prop
  | .done a, post, s, γ => ∀ s₁ γ₁, D.rely i s γ s₁ γ₁ → D.inv s₁ γ₁ → post a s₁ γ₁
  | .call o next, post, s, γ => ∀ s₁ γ₁, D.rely i s γ s₁ γ₁ → D.inv s₁ γ₁ →
      D.allowed i o s₁ ∧ ∀ r s₂, D.does i o s₁ r s₂ →
        ∃ γ₂, D.inv s₂ γ₂ ∧ (∀ j, j ≠ i → D.rely j s₁ γ₁ s₂ γ₂) ∧ Ok i (next r) post s₂ γ₂

variable {D} {post : α → σ → Γ → Prop} {s s₁ s₂ : σ} {γ γ₁ γ₂ : Γ}

theorem Ok.later {p : Prog Op Ret α} (ok : D.Ok i p post s γ) (rely : D.rely i s γ s₁ γ₁) :
    D.Ok i p post s₁ γ₁ := by
  cases p with
  | done a => exact fun s₂ γ₂ more => ok s₂ γ₂ (D.trans rely more)
  | call o next => exact fun s₂ γ₂ more => ok s₂ γ₂ (D.trans rely more)

theorem Ok.mono {p : Prog Op Ret α} {weaker : α → σ → Γ → Prop} (ok : D.Ok i p post s γ)
    (imp : ∀ a s γ, D.inv s γ → post a s γ → weaker a s γ) : D.Ok i p weaker s γ := by
  induction p generalizing s γ with
  | done a =>
    intro s₁ γ₁ rely inv
    exact imp a s₁ γ₁ inv (ok s₁ γ₁ rely inv)
  | call o next ih =>
    intro s₁ γ₁ rely inv
    obtain ⟨allowed, each⟩ := ok s₁ γ₁ rely inv
    refine ⟨allowed, ?_⟩
    intro r s₂ does
    obtain ⟨γ₂, inv₂, others, rest⟩ := each r s₂ does
    exact ⟨γ₂, inv₂, others, ih r rest⟩

/-- Sequencing: what the first program leaves behind is what the second starts from. -/
theorem Ok.bind {p : Prog Op Ret α} {f : α → Prog Op Ret β} {after : β → σ → Γ → Prop}
    (first : D.Ok i p (fun a s γ => D.Ok i (f a) after s γ) s γ) (inv : D.inv s γ) :
    D.Ok i (p >>= f) after s γ := by
  induction p generalizing s γ with
  | done a => exact first s γ (D.refl i s γ) inv
  | call o next ih =>
    intro s₁ γ₁ rely inv₁
    obtain ⟨allowed, each⟩ := first s₁ γ₁ rely inv₁
    refine ⟨allowed, ?_⟩
    intro r s₂ does
    obtain ⟨γ₂, inv₂, others, rest⟩ := each r s₂ does
    exact ⟨γ₂, inv₂, others, ih r rest inv₂⟩

/-- A finished program has its postcondition. -/
theorem Ok.finished {a : α} (ok : D.Ok i (.done a) post s γ) (inv : D.inv s γ) : post a s γ :=
  ok s γ (D.refl i s γ) inv

theorem Ok.next_allowed {o : Op} {next : Ret o → Prog Op Ret α} (ok : D.Ok i (.call o next) post s γ)
    (inv : D.inv s γ) : D.allowed i o s :=
  (ok s γ (D.refl i s γ) inv).1

section Pool
variable {pool pool' : Nat → Prog Op Ret α} {posts : Nat → α → σ → Γ → Prop}

/-- A step of one thread leaves every thread as good as it was. -/
theorem Ok.step (inv : D.inv s γ) (all : ∀ i, D.Ok i (pool i) (posts i) s γ) (step : D.Step (s, pool) (s₁, pool')) :
    ∃ γ₁, D.inv s₁ γ₁ ∧ ∀ i, D.Ok i (pool' i) (posts i) s₁ γ₁ := by
  cases step with
  | @run _ i o next _ _ r at_ does =>
    have mine := all i
    rw [at_] at mine
    obtain ⟨_, each⟩ := mine s γ (D.refl i s γ) inv
    obtain ⟨γ₁, inv₁, others, rest⟩ := each r s₁ does
    refine ⟨γ₁, inv₁, ?_⟩
    intro j
    by_cases same : j = i
    · subst same
      rw [Function.update_self]
      exact rest
    · rw [Function.update_of_ne same]
      exact (all j).later (others j same)

/-- Soundness: along every interleaving the invariant holds and every thread stays good. -/
theorem Ok.runs (inv : D.inv s γ) (all : ∀ i, D.Ok i (pool i) (posts i) s γ) (runs : D.Runs (s, pool) (s₁, pool')) :
    ∃ γ₁, D.inv s₁ γ₁ ∧ ∀ i, D.Ok i (pool' i) (posts i) s₁ γ₁ := by
  generalize target : (s₁, pool') = b at runs
  induction runs generalizing s₁ pool' with
  | refl =>
    cases target
    exact ⟨γ, inv, all⟩
  | @tail b c _ step ih =>
    subst target
    obtain ⟨sb, poolB⟩ := b
    obtain ⟨γb, invB, allB⟩ := ih rfl
    exact Ok.step invB allB step

end Pool

section Answers
variable {τ : Type} {t t₁ : τ}

/-- While the others stand still, a thread of a pool runs as it runs alone. The answers may depend
on more than the shared state, which is the `view` of the state they are given from; `keeps` is
what all of them preserve. -/
theorem runs_of_run (view : τ → σ) (keeps : τ → Prop) {p : Prog Op Ret α} {a : α}
    {answer : (o : Op) → τ → Option (Ret o × τ)} {pool : Nat → Prog Op Ret α}
    (sound : ∀ o t r t', keeps t → answer o t = some (r, t') → D.does i o (view t) r (view t') ∧
      keeps t') (start : keeps t)
    (run : p.run answer t = some (a, t₁)) (at_ : pool i = p) :
    D.Runs (view t, pool) (view t₁, Function.update pool i (.done a)) ∧ keeps t₁ := by
  induction p generalizing t pool with
  | done b =>
    cases run
    rw [← at_, Function.update_eq_self]
    exact ⟨Relation.ReflTransGen.refl, start⟩
  | call o next ih =>
    simp only [Prog.run, Option.bind_eq_some_iff] at run
    obtain ⟨⟨r, t₂⟩, answered, rest⟩ := run
    obtain ⟨does, kept⟩ := sound o t r t₂ start answered
    have first : D.Step (view t, pool) (view t₂, Function.update pool i (next r)) := Step.run at_ does
    obtain ⟨more, last⟩ := ih r kept rest (Function.update_self i (next r) pool)
    rw [Function.update_idem] at more
    exact ⟨Relation.ReflTransGen.head first more, last⟩

/-- A schedule is one of the interleavings. -/
theorem runs_of_schedule (view : τ → σ) (keeps : τ → Prop) {answer : Nat → (o : Op) → τ → Option (Ret o × τ)}
    (sound : ∀ i o t r t', keeps t → answer i o t = some (r, t') → D.does i o (view t) r (view t') ∧ keeps t')
    (schedule : List Nat) : ∀ (t : τ) (pool : Nat → Prog Op Ret α), keeps t →
      D.Runs (view t, pool)
        (view (Prog.runSchedule answer schedule (t, pool)).1, (Prog.runSchedule answer schedule (t, pool)).2) ∧
      keeps (Prog.runSchedule answer schedule (t, pool)).1 := by
  induction schedule with
  | nil => exact fun _ _ start => ⟨Relation.ReflTransGen.refl, start⟩
  | cons i rest ih =>
    intro t pool start
    rw [Prog.runSchedule]
    simp only [Prog.stepThread]
    split
    next => exact ih t pool start
    next o next at_ =>
      split
      next => exact ih t pool start
      next r t' answered =>
        obtain ⟨does, kept⟩ := sound i o t r t' start answered
        obtain ⟨more, last⟩ := ih t' (Function.update pool i (next r)) kept
        exact ⟨Relation.ReflTransGen.head (Step.run at_ does) more, last⟩

end Answers

end Discipline
