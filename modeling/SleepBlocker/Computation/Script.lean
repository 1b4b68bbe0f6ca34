import Mathlib.Logic.Basic

/-!
# Scripts that change a state and may raise

A script over a state `σ` keeps what it has done to the state when it raises, so that a
handler sees it. `exec` is what a script returns or raises, and the state it leaves; the
lemmas are its steps.
-/

set_option autoImplicit false

namespace SleepBlocker.Computation

/-- A script: it works on a state and may stop with an error. -/
abbrev Script (σ ε α : Type) := ExceptT ε (StateM σ) α

namespace Script

variable {σ ε α β : Type}

/-- The result of a script, and the state it leaves. -/
def exec (x : Script σ ε α) (s : σ) : Except ε α × σ := StateT.run (ExceptT.run x) s

/-- Returning leaves the state. -/
@[simp] theorem exec_pure (a : α) (s : σ) : exec (pure a : Script σ ε α) s = (.ok a, s) := rfl

/-- An error leaves the state as it is then. -/
@[simp] theorem exec_throw (e : ε) (s : σ) :
    exec (throw e : Script σ ε α) s = (.error e, s) := rfl

/-- Reading returns the state as it is. -/
@[simp] theorem exec_get (s : σ) : exec (get : Script σ ε σ) s = (.ok s, s) := rfl

/-- A modification succeeds. -/
@[simp] theorem exec_modify (f : σ → σ) (s : σ) :
    exec (modify f : Script σ ε Unit) s = (.ok (), f s) := rfl

/-- A script goes on from the state that its first part leaves, unless that raises. -/
theorem exec_bind (x : Script σ ε α) (f : α → Script σ ε β) (s : σ) :
    exec (x >>= f) s = match exec x s with
      | (.ok a, t) => exec (f a) t
      | (.error e, t) => (.error e, t) := by
  simp only [exec, ExceptT.run_bind, StateT.run_bind]
  cases (ExceptT.run x).run s with
  | mk result t => cases result <;> rfl

/-- A handler runs from the state that the raise has left. -/
theorem exec_tryCatch (x : Script σ ε α) (f : ε → Script σ ε α) (s : σ) :
    exec (tryCatch x f) s = match exec x s with
      | (.ok a, t) => (.ok a, t)
      | (.error e, t) => exec (f e) t := by
  show (ExceptT.run x >>= fun r => match r with
    | .ok a => pure (.ok a)
    | .error e => ExceptT.run (f e)).run s = _
  simp only [exec, StateT.run_bind]
  cases (ExceptT.run x).run s with
  | mk result t => cases result <;> rfl

/-- A pure computation that may raise. -/
def ofExcept (x : Except ε α) : Script σ ε α := MonadExcept.ofExcept x

/-- A result that has been computed leaves the state. -/
@[simp] theorem exec_ofExcept (x : Except ε α) (s : σ) :
    exec (ofExcept x : Script σ ε α) s = (x, s) := by
  cases x <;> rfl

end Script

end SleepBlocker.Computation
