import Mathlib

/-! Computations that change a state and may leave early, with rules for what they end in. -/

/-- A computation over the state `σ`. When it leaves with `ε`, the state reached so far is kept. -/
def Effect (σ ε α : Type) : Type := σ → Except ε α × σ

namespace Effect
variable {σ ε α β : Type}

/-- Goes on with the value, if there is one. -/
def andThen (p : Effect σ ε α) (f : α → Effect σ ε β) : Effect σ ε β := fun s =>
  match p s with
  | (.ok a, s) => f a s
  | (.error e, s) => (.error e, s)

instance : Monad (Effect σ ε) where
  pure a := fun s => (.ok a, s)
  bind := andThen

def get : Effect σ ε σ := fun s => (.ok s, s)

def modify (f : σ → σ) : Effect σ ε Unit := fun s => (.ok (), f s)

def leave (e : ε) : Effect σ ε α := fun s => (.error e, s)

/-- `cleanup` runs when `p` leaves with one of the exits that can be caught, which then goes on. -/
def undo (caught : ε → Bool) (cleanup : Effect σ ε Unit) (p : Effect σ ε α) : Effect σ ε α := fun s =>
  match p s with
  | (.ok a, s) => (.ok a, s)
  | (.error e, s) => if caught e then andThen cleanup (fun _ => leave e) s else (.error e, s)

/-- The exit of `p` as a value, if it can be caught. -/
def attempt (caught : ε → Bool) (p : Effect σ ε α) : Effect σ ε (Except ε α) := fun s =>
  match p s with
  | (.ok a, s) => (.ok (.ok a), s)
  | (.error e, s) => if caught e then (.ok (.error e), s) else (.error e, s)

section Runs
variable {p : Effect σ ε α} {f : α → Effect σ ε β} {s s' : σ} {a : α} {e : ε}

theorem bind_of_ok (run : p s = (.ok a, s')) : (p >>= f) s = f a s' := by
  change andThen p f s = f a s'
  simp only [andThen, run]

theorem bind_of_error (run : p s = (.error e, s')) : (p >>= f) s = (.error e, s') := by
  change andThen p f s = (.error e, s')
  simp only [andThen, run]

theorem bind_assoc {γ : Type} (p : Effect σ ε α) (f : α → Effect σ ε β) (g : β → Effect σ ε γ) :
    (p >>= f) >>= g = p >>= fun a => f a >>= g := by
  funext s
  change andThen (andThen p f) g s = andThen p (fun a => andThen (f a) g) s
  simp only [andThen]
  cases p s with
  | mk result s' => cases result <;> rfl

theorem ok_of_bind {b : β} (run : (p >>= f) s = (.ok b, s')) : ∃ a s₁, p s = (.ok a, s₁) ∧
    f a s₁ = (.ok b, s') := by
  cases first : p s with
  | mk result s₁ =>
    cases result with
    | ok a => exact ⟨a, s₁, rfl, (bind_of_ok first).symm.trans run⟩
    | error e => cases (bind_of_error first).symm.trans run

end Runs

/-- From `s` the computation ends with a value in `post` or leaves as `exits` says. -/
def Ends (p : Effect σ ε α) (s : σ) (post : α → σ → Prop) (exits : ε → σ → Prop) : Prop :=
  (∀ a s', p s = (.ok a, s') → post a s') ∧ ∀ e s', p s = (.error e, s') → exits e s'

namespace Ends
variable {p : Effect σ ε α} {s : σ} {post : α → σ → Prop} {exits : ε → σ → Prop}

theorem pure {a : α} (holds : post a s) : Ends (Pure.pure a : Effect σ ε α) s post exits := by
  constructor
  · intro b s' run
    cases run
    exact holds
  · intro e s' run
    cases run

theorem leave {e : ε} (holds : exits e s) : Ends (Effect.leave e : Effect σ ε α) s post exits := by
  constructor
  · intro b s' run
    cases run
  · intro f s' run
    cases run
    exact holds

theorem mono {weaker : α → σ → Prop} {more : ε → σ → Prop} (ends : Ends p s post exits)
    (imp : ∀ a s, post a s → weaker a s) (fails : ∀ e s, exits e s → more e s) : Ends p s weaker more :=
  ⟨fun a s' run => imp a s' (ends.1 a s' run), fun e s' run => fails e s' (ends.2 e s' run)⟩

/-- A computation that has no way to leave returns. -/
theorem returns (ends : Ends p s post exits) (never : ∀ e s', ¬exits e s') :
    ∃ a s', p s = (.ok a, s') ∧ post a s' := by
  cases known : p s with
  | mk result s' =>
    cases result with
    | ok a => exact ⟨a, s', rfl, ends.1 a s' known⟩
    | error e => exact absurd (ends.2 e s' known) (never e s')

/-- Two computations that run the same end the same. -/
theorem of_eq {p' : Effect σ ε α} {s' : σ} (same : p s = p' s') (rest : Ends p' s' post exits) :
    Ends p s post exits :=
  ⟨fun a s'' run => rest.1 a s'' (same.symm.trans run), fun e s'' run => rest.2 e s'' (same.symm.trans run)⟩

theorem of_ok {f : α → Effect σ ε β} {after : β → σ → Prop} {a : α} {s' : σ} (run : p s = (.ok a, s'))
    (rest : Ends (f a) s' after exits) : Ends (p >>= f) s after exits :=
  of_eq (bind_of_ok run) rest

theorem of_error {f : α → Effect σ ε β} {after : β → σ → Prop} {e : ε} {s' : σ} (run : p s = (.error e, s'))
    (holds : exits e s') : Ends (p >>= f) s after exits := by
  have same : (p >>= f) s = (Effect.leave e : Effect σ ε β) s' := bind_of_error run
  exact of_eq same (leave holds)

theorem bind {f : α → Effect σ ε β} {after : β → σ → Prop}
    (first : Ends p s (fun a s' => Ends (f a) s' after exits) exits) : Ends (p >>= f) s after exits := by
  cases known : p s with
  | mk result s' =>
    cases result with
    | ok a => exact of_ok known (first.1 a s' known)
    | error e => exact of_error known (first.2 e s' known)

/-- Two computations in a row may be taken as one. -/
theorem assoc {γ : Type} {f : α → Effect σ ε β} {g : β → Effect σ ε γ} {after : γ → σ → Prop}
    (ends : Ends ((p >>= f) >>= g) s after exits) : Ends (p >>= fun a => f a >>= g) s after exits := by
  refine of_eq ?_ ends
  cases known : p s with
  | mk result s' =>
    cases result with
    | ok a =>
      rw [bind_of_ok known]
      change _ = andThen (p >>= f) g s
      simp only [andThen, bind_of_ok known]
      rfl
    | error e =>
      rw [bind_of_error known]
      change _ = andThen (p >>= f) g s
      simp only [andThen, bind_of_error known]

theorem get {f : σ → Effect σ ε β} {after : β → σ → Prop} (rest : Ends (f s) s after exits) :
    Ends (Effect.get >>= f) s after exits := rest

theorem modify {g : σ → σ} {f : Unit → Effect σ ε β} {after : β → σ → Prop} (rest : Ends (f ()) (g s) after exits) :
    Ends (Effect.modify g >>= f) s after exits := rest

/-- With a cleanup that brings back what the exits have to promise. -/
theorem undo {caught : ε → Bool} {cleanup : Effect σ ε Unit} {broken : ε → σ → Prop} (ends : Ends p s post broken)
    (clean : ∀ e s', broken e s' → caught e = true → Ends cleanup s' (fun _ => exits e) exits)
    (others : ∀ e s', broken e s' → caught e = false → exits e s') :
    Ends (Effect.undo caught cleanup p) s post exits := by
  cases known : p s with
  | mk result s' =>
    cases result with
    | ok a =>
      have same : Effect.undo caught cleanup p s = (.ok a, s') := by simp only [Effect.undo, known]
      constructor
      · intro b s'' run
        rw [same] at run
        cases run
        exact ends.1 a s' known
      · intro e s'' run
        rw [same] at run
        cases run
    | error e =>
      have left := ends.2 e s' known
      cases catches : caught e with
      | true =>
        have same : Effect.undo caught cleanup p s = (cleanup >>= fun _ => Effect.leave e) s' := by
          simp only [Effect.undo, known, catches, if_true]
          rfl
        have after : Ends (cleanup >>= fun _ => Effect.leave (α := α) e) s' post exits :=
          Ends.bind ((clean e s' left catches).mono (fun _ _ holds => Ends.leave holds) fun _ _ holds => holds)
        constructor
        · intro b s'' run
          rw [same] at run
          exact after.1 b s'' run
        · intro f s'' run
          rw [same] at run
          exact after.2 f s'' run
      | false =>
        have same : Effect.undo caught cleanup p s = (.error e, s') := by
          simp only [Effect.undo, known, catches, Bool.false_eq_true, if_false]
        constructor
        · intro b s'' run
          rw [same] at run
          cases run
        · intro f s'' run
          rw [same] at run
          cases run
          exact others e s' left catches

theorem attempt {caught : ε → Bool} {q : Except ε α → σ → Prop}
    (ends : Ends p s (fun a => q (.ok a)) fun e s' => if caught e then q (.error e) s' else exits e s') :
    Ends (Effect.attempt caught p) s q exits := by
  cases known : p s with
  | mk result s' =>
    cases result with
    | ok a =>
      have same : Effect.attempt caught p s = (.ok (.ok a), s') := by simp only [Effect.attempt, known]
      constructor
      · intro b s'' run
        rw [same] at run
        cases run
        exact ends.1 a s' known
      · intro e s'' run
        rw [same] at run
        cases run
    | error e =>
      have left : if caught e then q (.error e) s' else exits e s' := ends.2 e s' known
      cases catches : caught e with
      | true =>
        rw [if_pos catches] at left
        have same : Effect.attempt caught p s = (.ok (.error e), s') := by
          simp only [Effect.attempt, known, catches, if_true]
        constructor
        · intro b s'' run
          rw [same] at run
          cases run
          exact left
        · intro f s'' run
          rw [same] at run
          cases run
      | false =>
        rw [if_neg (by rw [catches]; exact Bool.false_ne_true)] at left
        have same : Effect.attempt caught p s = (.error e, s') := by
          simp only [Effect.attempt, known, catches, Bool.false_eq_true, if_false]
        constructor
        · intro b s'' run
          rw [same] at run
          cases run
        · intro f s'' run
          rw [same] at run
          cases run
          exact left

end Ends
end Effect
