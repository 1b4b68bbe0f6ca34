import Mathlib.Data.List.Basic

/-!
# Notification events

An event that one listener is registered with: notifications mark the listeners that are
registered, and a listener that waits blocks until it has been marked. Of an implementation
nothing is used but what `Documented` says of its one listener; `queue` is one that keeps the
listeners in their order and marks the first of them.
-/

set_option autoImplicit false

namespace SleepBlocker.Computation

/-- An event with states `ε`. `wait` is that of its listener, and `none` while it blocks. -/
structure Event (ε : Type) where
  new : ε
  listen : ε → ε
  /-- Notifies so many listeners. -/
  notify : ε → ℕ → ε
  wait : ε → Option ε

namespace Event

variable {ε : Type} {E : Event ε} {e : ε} {b : Bool}

/-- The listener returns from `wait` if and only if it has been notified since it listens. -/
structure Documented (E : Event ε) : Prop where
  wait : ∀ ns : List ℕ, (∀ n ∈ ns, 0 < n) →
    (E.wait (ns.foldl E.notify (E.listen E.new))).isSome = !ns.isEmpty

/-- The listener listens, and has been notified or not. -/
def Marked (E : Event ε) (b : Bool) (e : ε) : Prop :=
  ∃ ns : List ℕ, (∀ n ∈ ns, 0 < n) ∧ e = ns.foldl E.notify (E.listen E.new) ∧ b = !ns.isEmpty

/-- A listener that has just been made is not notified. -/
theorem marked_listen (E : Event ε) : E.Marked false (E.listen E.new) :=
  ⟨[], by simp, rfl, rfl⟩

/-- Notifying at least one listener notifies this one. -/
theorem Marked.notify (h : E.Marked b e) {n : ℕ} (hn : 0 < n) : E.Marked true (E.notify e n) := by
  obtain ⟨ns, hns, rfl, -⟩ := h
  refine ⟨ns ++ [n], ?_, by simp, by simp⟩
  intro m hm
  rcases List.mem_append.mp hm with hm | hm
  · exact hns m hm
  · rwa [List.mem_singleton.mp hm]

/-- A wait ends exactly when the listener is notified. -/
theorem Marked.wait (h : E.Marked b e) (hE : E.Documented) : (E.wait e).isSome = b := by
  obtain ⟨ns, hns, rfl, rfl⟩ := h
  exact hE.wait ns hns

/-- The listeners in the order they have registered, and whether each is notified. -/
def queue : Event (List Bool) where
  new := []
  listen l := l ++ [false]
  notify l n := (l.take n).map (fun _ => true) ++ l.drop n
  wait l := if l.getLast? = some true then some l.dropLast else none

end Event

end SleepBlocker.Computation
