import Mathlib

/-- A step that a program must never take: the memory access or the arithmetic
is not what the source text means by it, or an always-on check aborts. -/
inductive Fault where
  | outOfBounds
  | wrapped
  | checkFailed (message : String)
  deriving DecidableEq, Repr

/-- Why a computation ended without a value. Errors are reported to the caller;
faults are not supposed to exist at all. -/
inductive Stop (ε : Type) where
  | error (e : ε)
  | fault (f : Fault)
  deriving DecidableEq, Repr

/-- Fallible code whose illegal steps are visible outcomes of their own. -/
abbrev Outcome (ε α : Type) := Except (Stop ε) α

namespace Outcome
variable {ε α β : Type}

def fail (e : ε) : Outcome ε α := .error (.error e)

def crash (f : Fault) : Outcome ε α := .error (.fault f)

/-- A result without illegal steps, used where faults are tracked. -/
def lift : Except ε α → Outcome ε α
  | .ok a => .ok a
  | .error e => fail e

/-- An always-on assertion. -/
def check (condition : Bool) (message : String) : Outcome ε Unit :=
  if condition then .ok () else crash (.checkFailed message)

/-- The subrange `[offset, offset + count)` of a view, or an access outside it. -/
def slice (view : List α) (offset count : Nat) : Outcome ε (List α) :=
  if offset + count ≤ view.length then .ok ((view.drop offset).take count) else crash .outOfBounds

def index (view : List α) (i : Nat) : Outcome ε α :=
  match view[i]? with
  | some a => .ok a
  | none => crash .outOfBounds

/-- A sum of machine words of `width` bits that is meant not to wrap. -/
def add (width a b : Nat) : Outcome ε Nat :=
  if a + b < 2 ^ width then .ok (a + b) else crash .wrapped

def mul (width a b : Nat) : Outcome ε Nat :=
  if a * b < 2 ^ width then .ok (a * b) else crash .wrapped

def sub (a b : Nat) : Outcome ε Nat :=
  if b ≤ a then .ok (a - b) else crash .wrapped

/-- `for (i = first; i < first + count; ++i) body`, with the loop's variables as state. -/
def loop {σ : Type} (body : Nat → σ → Outcome ε σ) : Nat → Nat → σ → Outcome ε σ
  | 0, _, s => .ok s
  | count + 1, first, s => body first s >>= loop body count (first + 1)

/-- Partial correctness with safety: no fault, and every value returned is good. -/
def Sat (o : Outcome ε α) (good : α → Prop) : Prop :=
  match o with
  | .ok a => good a
  | .error (.error _) => True
  | .error (.fault _) => False

/-- Total correctness: a value is returned, and it is good. -/
def Yields (o : Outcome ε α) (good : α → Prop) : Prop := ∃ a, o = .ok a ∧ good a

@[simp] theorem ok_bind (a : α) (k : α → Outcome ε β) : (Except.ok a >>= k) = k a := rfl

@[simp] theorem error_bind (s : Stop ε) (k : α → Outcome ε β) :
    ((Except.error s : Outcome ε α) >>= k) = Except.error s := rfl

@[simp] theorem fail_bind (e : ε) (k : α → Outcome ε β) :
    ((fail e : Outcome ε α) >>= k) = fail e := rfl

@[simp] theorem pure_eq_ok (a : α) : (pure a : Outcome ε α) = Except.ok a := rfl

@[simp] theorem lift_ok (a : α) : (lift (Except.ok a) : Outcome ε α) = .ok a := rfl

@[simp] theorem lift_error (e : ε) : (lift (Except.error e) : Outcome ε α) = fail e := rfl

theorem bind_eq_ok {o : Outcome ε α} {k : α → Outcome ε β} {b : β} (run : (o >>= k) = .ok b) :
    ∃ a, o = .ok a ∧ k a = .ok b := by
  cases o with
  | ok a => exact ⟨a, rfl, run⟩
  | error s => cases run

theorem lift_eq_ok {r : Except ε α} {a : α} (run : lift r = .ok a) : r = .ok a := by
  cases r with
  | ok b => cases run; rfl
  | error e => cases run

theorem slice_ok {view : List α} {offset count : Nat} (fits : offset + count ≤ view.length) :
    (slice view offset count : Outcome ε (List α)) = .ok ((view.drop offset).take count) :=
  if_pos fits

theorem index_ok {view : List α} {i : Nat} (inside : i < view.length) :
    (index view i : Outcome ε α) = .ok view[i] := by
  simp only [index, List.getElem?_eq_getElem inside]

theorem add_ok {width a b : Nat} (fits : a + b < 2 ^ width) :
    (add width a b : Outcome ε Nat) = .ok (a + b) := if_pos fits

theorem mul_ok {width a b : Nat} (fits : a * b < 2 ^ width) :
    (mul width a b : Outcome ε Nat) = .ok (a * b) := if_pos fits

theorem sub_ok {a b : Nat} (fits : b ≤ a) : (sub a b : Outcome ε Nat) = .ok (a - b) := if_pos fits

namespace Sat
variable {good : α → Prop} {done : β → Prop}

@[simp] theorem ok_iff {a : α} : Sat (Except.ok a : Outcome ε α) good ↔ good a := Iff.rfl

@[simp] theorem fail_iff {e : ε} : Sat (fail e : Outcome ε α) good ↔ True := Iff.rfl

@[simp] theorem error_iff {e : ε} : Sat (Except.error (.error e) : Outcome ε α) good ↔ True := Iff.rfl

theorem bind {o : Outcome ε α} {k : α → Outcome ε β} (first : Sat o good)
    (rest : ∀ a, o = .ok a → good a → Sat (k a) done) : Sat (o >>= k) done := by
  match o, first with
  | .ok a, holds => exact rest a rfl holds
  | .error (.error e), _ => exact True.intro

theorem mono {o : Outcome ε α} {better : α → Prop} (first : Sat o good)
    (weaker : ∀ a, good a → better a) : Sat o better := by
  match o, first with
  | .ok a, holds => exact weaker a holds
  | .error (.error e), _ => exact True.intro

theorem value {o : Outcome ε α} {a : α} (holds : Sat o good) (run : o = .ok a) : good a := by
  subst run
  exact holds

theorem lift (r : Except ε α) : Sat (Outcome.lift r) (fun a => r = .ok a) := by
  cases r with
  | ok a => exact rfl
  | error e => exact True.intro

theorem check {condition : Bool} {message : String} (holds : condition = true) :
    Sat (Outcome.check condition message : Outcome ε Unit) (fun _ => True) := by
  simp [Outcome.check, holds]

theorem slice {view : List α} {offset count : Nat} (fits : offset + count ≤ view.length) :
    Sat (Outcome.slice view offset count : Outcome ε (List α))
      (fun part => part = (view.drop offset).take count ∧ part.length = count) := by
  rw [slice_ok fits, ok_iff]
  refine ⟨rfl, ?_⟩
  simp only [List.length_take, List.length_drop]
  omega

theorem index {view : List α} {i : Nat} (inside : i < view.length) :
    Sat (Outcome.index view i : Outcome ε α) (fun a => view[i]? = some a) := by
  rw [index_ok inside, ok_iff]
  exact List.getElem?_eq_getElem inside

/-- What every turn of a loop keeps holds when the loop is done. -/
theorem loop {σ : Type} {f : Nat → σ → Outcome ε σ} (inv : Nat → σ → Prop) :
    ∀ {n i : Nat} {s : σ}, inv i s →
      (∀ k t, i ≤ k → k < i + n → inv k t → Sat (f k t) (inv (k + 1))) →
      Sat (Outcome.loop f n i s) (inv (i + n))
  | 0, _, _, start, _ => start
  | count + 1, first, s, start, step => by
    refine bind (step first s (Nat.le_refl _) (by omega) start) ?_
    intro t _ holds
    have rest := loop inv (n := count) (i := first + 1) holds
      (fun i u low high => step i u (by omega) (by omega))
    rwa [show first + 1 + count = first + (count + 1) by omega] at rest

end Sat

namespace Yields
variable {good : α → Prop} {done : β → Prop}

theorem ok {a : α} (holds : good a) : Yields (Except.ok a : Outcome ε α) good := ⟨a, rfl, holds⟩

theorem bind {o : Outcome ε α} {k : α → Outcome ε β} (first : Yields o good)
    (rest : ∀ a, good a → Yields (k a) done) : Yields (o >>= k) done := by
  obtain ⟨a, rfl, holds⟩ := first
  exact rest a holds

theorem mono {o : Outcome ε α} {better : α → Prop} (first : Yields o good)
    (weaker : ∀ a, good a → better a) : Yields o better := by
  obtain ⟨a, run, holds⟩ := first
  exact ⟨a, run, weaker a holds⟩

/-- What is known of every value also holds of the value returned. -/
theorem and_sat {o : Outcome ε α} {also : α → Prop} (first : Yields o good) (safe : Sat o also) :
    Yields o fun a => good a ∧ also a := by
  obtain ⟨a, rfl, holds⟩ := first
  exact ⟨a, rfl, holds, safe⟩

/-- A loop whose every turn succeeds and keeps the invariant succeeds. -/
theorem loop {σ : Type} {f : Nat → σ → Outcome ε σ} (inv : Nat → σ → Prop) :
    ∀ {n i : Nat} {s : σ}, inv i s →
      (∀ k t, i ≤ k → k < i + n → inv k t → Yields (f k t) (inv (k + 1))) →
      Yields (Outcome.loop f n i s) (inv (i + n))
  | 0, _, s, start, _ => ⟨s, rfl, start⟩
  | count + 1, first, s, start, step => by
    refine bind (step first s (Nat.le_refl _) (by omega) start) ?_
    intro t holds
    have rest := loop inv (n := count) (i := first + 1) holds
      (fun i u low high => step i u (by omega) (by omega))
    rwa [show first + 1 + count = first + (count + 1) by omega] at rest

end Yields
end Outcome
