import Mathlib
/-!
# Loops whose state shrinks

A loop takes turns from a state. Each turn fails, finishes with an answer, or goes on from a
state that is smaller under a measure `μ`, together with what to make of the answer found from
there. As the measure cannot fall below zero, such a loop always finishes (`Loop.run`).

`Loop.within` takes the same turns on a budget and gives nothing when the budget runs out before
the loop ends. The main statement is `Loop.within_eq_run`: a budget of one turn more than the
measure of the start is enough, and it gives the loop's answer. `Loop.eq_run` recognises a loop:
a function that answers like one turn followed by itself is the loop of that turn, and so is
found within that budget (`Loop.within_eq`).
-/

namespace LangFront

/-- One turn of a loop on states that shrink under `μ`: it fails, finishes with an answer, or goes
on from a smaller state together with what to make of the answer found from there. -/
abbrev Turn {σ : Type} (μ : σ → Nat) (ε β : Type) (x : σ) :=
  Except ε (β ⊕ (β → β) × { y : σ // μ y < μ x })

namespace Loop

variable {σ ε β : Type} {μ : σ → Nat}

/-- Take turns from `x` until one fails or finishes. -/
def run (turn : (x : σ) → Turn μ ε β x) (x : σ) : Except ε β :=
  match turn x with
  | .error e => .error e
  | .ok (.inl b) => .ok b
  | .ok (.inr (k, ⟨y, _⟩)) => (run turn y).map k
termination_by μ x

/-- Take at most `fuel` turns from `x`: nothing if they run out before the loop ends. -/
def within (turn : (x : σ) → Turn μ ε β x) : Nat → σ → Option (Except ε β)
  | 0, _ => none
  | fuel + 1, x =>
    match turn x with
    | .error e => some (.error e)
    | .ok (.inl b) => some (.ok b)
    | .ok (.inr (k, ⟨y, _⟩)) => (within turn fuel y).map (Except.map k)

/-- What a loop answers after the turn `t` from `x`, when `f` answers from the state it goes on
from. -/
def after {x : σ} (f : σ → Except ε β) : Turn μ ε β x → Except ε β
  | .error e => .error e
  | .ok (.inl b) => .ok b
  | .ok (.inr (k, y)) => (f y.val).map k

variable {turn : (x : σ) → Turn μ ε β x} {x : σ}

@[simp] theorem after_next {f : σ → Except ε β} {k : β → β}
    {y : { y : σ // μ y < μ x }} :
    after f (.ok (.inr (k, y))) = (f y.val).map k := rfl

theorem run_eq_after (turn : (x : σ) → Turn μ ε β x) (x : σ) :
    run turn x = after (run turn) (turn x) := by
  rw [run]
  rcases turn x with e | b | ⟨k, y⟩ <;> rfl

/-- A budget of more turns than the measure of the start is enough, and it gives the loop's
answer. -/
theorem within_eq_run (turn : (x : σ) → Turn μ ε β x) :
    ∀ (fuel : Nat) (x : σ), μ x < fuel → within turn fuel x = some (run turn x)
  | 0, _, h => absurd h (Nat.not_lt_zero _)
  | fuel + 1, x, h => by
    rw [within, run_eq_after]
    rcases turn x with e | b | ⟨k, ⟨y, hy⟩⟩
    · rfl
    · rfl
    · show (within turn fuel y).map (Except.map k) = some ((run turn y).map k)
      rw [within_eq_run turn fuel y (by omega), Option.map_some]

/-- A function that answers like one turn followed by itself is the loop of that turn. -/
theorem eq_run {f : σ → Except ε β} (turn : (x : σ) → Turn μ ε β x)
    (hf : ∀ x, f x = after f (turn x)) (x : σ) : f x = run turn x := by
  rw [hf x, run_eq_after]
  rcases turn x with e | b | ⟨k, y⟩
  · rfl
  · rfl
  · -- the state the loop goes on from is smaller: induction on the measure
    have hy : μ y.val < μ x := y.property
    rw [after_next, after_next, eq_run turn hf y.val]
termination_by μ x

/-- A function that answers like one turn followed by itself is found within one turn more than
the measure of the start. -/
theorem within_eq {f : σ → Except ε β} (turn : (x : σ) → Turn μ ε β x)
    (hf : ∀ x, f x = after f (turn x)) (x : σ) : within turn (μ x + 1) x = some (f x) := by
  rw [eq_run turn hf x]
  exact within_eq_run turn _ x (Nat.lt_succ_self _)

end Loop

end LangFront
