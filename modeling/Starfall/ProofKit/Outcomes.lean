import Mathlib.Logic.Basic

/-! Computations on a state that return or throw.  What was done to the state stays done when the
computation throws. -/

namespace ProofKit.Outcomes

variable {E S α β : Type}

/-- What a computation returns or throws from a state on, and the state after it. -/
def outcome (x : ExceptT E (StateM S) α) (s : S) : Except E α × S := x.run.run s

section Steps

variable {x : ExceptT E (StateM S) α} {s s' : S}

theorem outcome_bind_ok {a : α} (h : outcome x s = (.ok a, s')) (f : α → ExceptT E (StateM S) β) :
    outcome (x >>= f) s = outcome (f a) s' := by
  show (ExceptT.bindCont f (outcome x s).1).run (outcome x s).2 = _
  rw [h]
  rfl

theorem outcome_bind_error {e : E} (h : outcome x s = (.error e, s'))
    (f : α → ExceptT E (StateM S) β) : outcome (x >>= f) s = (.error e, s') := by
  show (ExceptT.bindCont f (outcome x s).1).run (outcome x s).2 = _
  rw [h]
  rfl

end Steps

variable (s : S)

@[simp] theorem outcome_pure (a : α) :
    outcome (pure a : ExceptT E (StateM S) α) s = (.ok a, s) := rfl

@[simp] theorem outcome_throw (e : E) :
    outcome (throw e : ExceptT E (StateM S) α) s = (.error e, s) := rfl

@[simp] theorem outcome_bind (x : ExceptT E (StateM S) α) (f : α → ExceptT E (StateM S) β) :
    outcome (x >>= f) s =
      match outcome x s with
      | (.ok a, s) => outcome (f a) s
      | (.error e, s) => (.error e, s) := by
  split
  · rename_i h
    exact outcome_bind_ok h f
  · rename_i h
    exact outcome_bind_error h f

end ProofKit.Outcomes
