import Mathlib.Data.List.Basic

/-!
# Computations that perform external effects and may unwind

`Effectful σ ε α` is imperative code over a state `σ` that performs effects `ε` on the
world outside. Its `Outcome` is the effects in the order performed, the state left
behind, and the value returned, `none` when a panic unwound out of it: the state and
the effects of an unwound computation are those it had when it was cut short.
-/

set_option autoImplicit false

namespace SleepBlocker.Computation

/-- What one run leaves behind; `value` is `none` when a panic unwound out of it. -/
structure Outcome (σ ε α : Type) where
  effects : List ε
  state : σ
  value : Option α

/-- A computation over a state `σ` that performs effects `ε`. -/
structure Effectful (σ ε α : Type) where
  run : σ → Outcome σ ε α

namespace Effectful

variable {σ ε α β : Type}

/-- Returns a value and does nothing else. -/
protected def pure (a : α) : Effectful σ ε α := ⟨fun s => ⟨[], s, some a⟩⟩

/-- Runs `x`, then `f` on its value from the state it left; unwinding skips `f`. -/
protected def bind (x : Effectful σ ε α) (f : α → Effectful σ ε β) : Effectful σ ε β :=
  ⟨fun s => match x.run s with
    | ⟨es, t, some a⟩ => ⟨es ++ ((f a).run t).effects, ((f a).run t).state, ((f a).run t).value⟩
    | ⟨es, t, none⟩ => ⟨es, t, none⟩⟩

/-- Effectful computations are sequenced by `bind`. -/
instance : Monad (Effectful σ ε) where
  pure := Effectful.pure
  bind := Effectful.bind

/-- Returns the state. -/
def read : Effectful σ ε σ := ⟨fun s => ⟨[], s, some s⟩⟩

/-- Changes the state. -/
def update (f : σ → σ) : Effectful σ ε Unit := ⟨fun s => ⟨[], f s, some ()⟩⟩

/-- Has an effect. -/
def emit (e : ε) : Effectful σ ε Unit := ⟨fun s => ⟨[e], s, some ()⟩⟩

/-- Unwinds: there is no value, and what would come next is not run. -/
def unwind : Effectful σ ε α := ⟨fun s => ⟨[], s, none⟩⟩

/-- Returning a value has no effect and leaves the state. -/
@[simp] theorem run_pure (a : α) (s : σ) :
    (pure a : Effectful σ ε α).run s = ⟨[], s, some a⟩ := rfl

/-- The effects of a sequence are those of its parts in order; where the first part unwinds, the
second is not run. -/
theorem run_bind (x : Effectful σ ε α) (f : α → Effectful σ ε β) (s : σ) :
    (x >>= f).run s = match x.run s with
      | ⟨es, t, some a⟩ =>
        ⟨es ++ ((f a).run t).effects, ((f a).run t).state, ((f a).run t).value⟩
      | ⟨es, t, none⟩ => ⟨es, t, none⟩ := rfl

/-- Reading returns the state as it is. -/
@[simp] theorem run_read (s : σ) : (read : Effectful σ ε σ).run s = ⟨[], s, some s⟩ := rfl

/-- An update has no effect other than the new state. -/
@[simp] theorem run_update (f : σ → σ) (s : σ) :
    (update f : Effectful σ ε Unit).run s = ⟨[], f s, some ()⟩ := rfl

/-- An effect leaves the state. -/
@[simp] theorem run_emit (e : ε) (s : σ) :
    (emit e : Effectful σ ε Unit).run s = ⟨[e], s, some ()⟩ := rfl

/-- Unwinding gives no value and leaves the state. -/
@[simp] theorem run_unwind (s : σ) : (unwind : Effectful σ ε α).run s = ⟨[], s, none⟩ := rfl

/-! ## Postconditions -/

/-- From `s` the computation returns, and the value, the effects and the state left behind
satisfy `Q`. -/
def Ensures (x : Effectful σ ε α) (s : σ) (Q : α → List ε → σ → Prop) : Prop :=
  ∃ a, (x.run s).value = some a ∧ Q a (x.run s).effects (x.run s).state

variable {s : σ} {Q : β → List ε → σ → Prop}

/-- Returning a value ensures what holds of it and the state. -/
theorem ensures_pure {b : β} (h : Q b [] s) : Ensures (pure b : Effectful σ ε β) s Q :=
  ⟨b, rfl, h⟩

/-- An update ensures what holds of the new state. -/
theorem ensures_update {g : σ → σ} {R : Unit → List ε → σ → Prop} (h : R () [] (g s)) :
    Ensures (update g) s R :=
  ⟨(), rfl, h⟩

/-- An effect ensures what holds with the effect in the log. -/
theorem ensures_emit {e : ε} {R : Unit → List ε → σ → Prop} (h : R () [e] s) :
    Ensures (emit e) s R :=
  ⟨(), rfl, h⟩

/-- Where a read comes first, the rest has to ensure it for the state as it is. -/
theorem ensures_read_bind {f : σ → Effectful σ ε β} (h : Ensures (f s) s Q) :
    Ensures (read >>= f) s Q := by
  obtain ⟨b, hb, hQ⟩ := h
  exact ⟨b, hb, hQ⟩

/-- Where an update comes first, the rest has to ensure it from the new state. -/
theorem ensures_update_bind {g : σ → σ} {f : Unit → Effectful σ ε β}
    (h : Ensures (f ()) (g s) Q) : Ensures (update g >>= f) s Q := by
  obtain ⟨b, hb, hQ⟩ := h
  exact ⟨b, hb, hQ⟩

/-- Where an effect comes first, the rest has to ensure it with the effect before its own. -/
theorem ensures_emit_bind {e : ε} {f : Unit → Effectful σ ε β}
    (h : Ensures (f ()) s fun b es t => Q b (e :: es) t) : Ensures (emit e >>= f) s Q := by
  obtain ⟨b, hb, hQ⟩ := h
  exact ⟨b, hb, hQ⟩

/-- The rule of sequencing: what follows starts from what the first part ensures. -/
theorem Ensures.bind {x : Effectful σ ε α} {f : α → Effectful σ ε β}
    {R : α → List ε → σ → Prop} (hx : Ensures x s R)
    (hf : ∀ a es t, R a es t → Ensures (f a) t fun b ks u => Q b (es ++ ks) u) :
    Ensures (x >>= f) s Q := by
  obtain ⟨a, ha, hR⟩ := hx
  obtain ⟨b, hb, hQ⟩ := hf a _ _ hR
  have hrun : (x >>= f).run s =
      ⟨(x.run s).effects ++ ((f a).run (x.run s).state).effects,
        ((f a).run (x.run s).state).state, ((f a).run (x.run s).state).value⟩ := by
    rw [run_bind]
    match hx : x.run s with
    | ⟨es, t, some a'⟩ =>
        have haa : a' = a := by
          simpa [hx] using ha
        rw [haa]
    | ⟨es, t, none⟩ => simp [hx] at ha
  refine ⟨b, ?_, ?_⟩
  · rw [hrun]
    exact hb
  · rw [hrun]
    exact hQ

end Effectful

end SleepBlocker.Computation
