/-!
# Stateful computations that can fail

Reading and evaluating are both computations `Run σ ε α`: functions on a state that end with a
value, with an error that leaves the state as it was reached, or not at all. The last ending is
kept apart from errors, since it says nothing about the input.
-/
set_option autoImplicit false

namespace Scriptlet

inductive Halt where
  /-- The bound on nested work was too small. -/
  | exhausted
  /-- A token was asked for after the last one. -/
  | pastEnd
deriving DecidableEq, Repr

inductive Outcome (σ ε α : Type) where
  | ok (value : α) (state : σ)
  | raised (error : ε) (state : σ)
  | halted (why : Halt)

/-- A computation over states `σ` with errors `ε` and values `α`. -/
def Run (σ ε α : Type) : Type :=
  σ → Outcome σ ε α

namespace Run

variable {σ ε α β : Type}

def exec (run : Run σ ε α) (state : σ) : Outcome σ ε α :=
  run state

protected def pure (value : α) : Run σ ε α :=
  fun state => .ok value state

protected def bind (run : Run σ ε α) (next : α → Run σ ε β) : Run σ ε β :=
  fun state =>
    match run state with
    | .ok value state => next value state
    | .raised error state => .raised error state
    | .halted why => .halted why

instance : Monad (Run σ ε) where
  pure := Run.pure
  bind := Run.bind

def raise (error : ε) : Run σ ε α :=
  fun state => .raised error state

def halt (why : Halt) : Run σ ε α :=
  fun _ => .halted why

def view (see : σ → α) : Run σ ε α :=
  fun state => .ok (see state) state

def step (change : σ → α × σ) : Run σ ε α :=
  fun state =>
    match change state with
    | (value, state) => .ok value state

def modify (change : σ → σ) : Run σ ε Unit :=
  fun state => .ok () (change state)

/-- Turns an error into a value; the state stays as the error left it. -/
def attempt (run : Run σ ε α) : Run σ ε (Except ε α) :=
  fun state =>
    match run state with
    | .ok value state => .ok (.ok value) state
    | .raised error state => .ok (.error error) state
    | .halted why => .halted why

def ofExcept : Except ε α → Run σ ε α
  | .ok value => Run.pure value
  | .error error => raise error

@[simp]
theorem pure_apply (value : α) (state : σ) : (pure value : Run σ ε α) state = .ok value state :=
  rfl

theorem bind_apply (run : Run σ ε α) (next : α → Run σ ε β) (state : σ) :
    (run >>= next) state =
      match run state with
      | .ok value state => next value state
      | .raised error state => .raised error state
      | .halted why => .halted why :=
  rfl

theorem bind_eq_ok {run : Run σ ε α} {next : α → Run σ ε β} {state final : σ} {result : β}
    (ran : (run >>= next) state = .ok result final) :
    ∃ value middle, run state = .ok value middle ∧ next value middle = .ok result final := by
  rw [bind_apply] at ran
  cases outcome : run state with
  | ok value middle =>
      rw [outcome] at ran
      exact ⟨value, middle, rfl, ran⟩
  | raised error middle =>
      rw [outcome] at ran
      cases ran
  | halted why =>
      rw [outcome] at ran
      cases ran

instance : LawfulMonad (Run σ ε) :=
  LawfulMonad.mk' (Run σ ε)
    (fun run => by
      funext state
      show Run.bind run (Run.pure ∘ id) state = run state
      unfold Run.bind
      cases run state <;> rfl)
    (fun _ _ => rfl)
    (fun run _ _ => by
      funext state
      simp only [bind_apply]
      cases run state <;> rfl)

end Run

end Scriptlet
