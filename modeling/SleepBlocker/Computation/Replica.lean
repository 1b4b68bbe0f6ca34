import Mathlib.Logic.Function.Basic
import Mathlib.Data.List.Basic

/-!
# A replica fed by a queue of updates

A replica caches a value for every key and changes only by the updates delivered to it,
in the order they were sent. `told` is what it will hold once the queue is empty: sending
an update moves it at one key, and a delivery does not move it.
-/

set_option autoImplicit false

namespace SleepBlocker.Computation

/-- The cached values, and the updates sent but not delivered, oldest first. -/
structure Replica (κ ν : Type) where
  cache : κ → ν
  queue : List (κ × ν) := []

namespace Replica

variable {κ ν : Type} [DecidableEq κ]

/-- Updates are sent, behind those that are under way. -/
def push (r : Replica κ ν) (sent : List (κ × ν)) : Replica κ ν :=
  { r with queue := r.queue ++ sent }

/-- Delivers the oldest update. -/
def deliver (r : Replica κ ν) : Option (Replica κ ν) :=
  match r.queue with
  | [] => none
  | m :: rest => some ⟨Function.update r.cache m.1 m.2, rest⟩

/-- What the cache will be once everything sent has been delivered. -/
def told (r : Replica κ ν) : κ → ν :=
  r.queue.foldl (fun cache m => Function.update cache m.1 m.2) r.cache

/-- A replica with nothing under way holds what it has been told. -/
theorem told_of_queue_nil {r : Replica κ ν} (h : r.queue = []) : r.told = r.cache := by
  simp [told, h]

omit [DecidableEq κ] in
/-- Sending nothing changes nothing. -/
@[simp] theorem push_nil (r : Replica κ ν) : r.push [] = r := by
  simp [push]

/-- An update that is sent is the last word on its key. -/
theorem told_push_singleton (r : Replica κ ν) (k : κ) (v : ν) :
    (r.push [(k, v)]).told = Function.update r.told k v := by
  simp [told, push, List.foldl_append]

/-- A delivery leaves what the replica has been told. -/
theorem told_deliver {r t : Replica κ ν} (h : r.deliver = some t) : t.told = r.told := by
  unfold deliver at h
  cases hq : r.queue with
  | nil => simp [hq] at h
  | cons m rest =>
      simp only [hq, Option.some.injEq] at h
      subst h
      simp [told, hq]

end Replica

end SleepBlocker.Computation
