import Mathlib.Data.Option.Basic

/-!
# A well-known name on a message bus

At most one live connection owns the name. A request that may not queue is granted only
when nobody owns it, and a connection that closes gives up what it owns.
-/

set_option autoImplicit false

namespace SleepBlocker.Computation

/-- A name and the connection that owns it. -/
structure BusName (κ : Type) where
  owner : Option κ := none

namespace BusName

variable {κ : Type} [DecidableEq κ]

/-- A request without queueing: `none` when the name is taken. -/
def request (n : BusName κ) (c : κ) : Option (BusName κ) :=
  if n.owner = none then some ⟨some c⟩ else none

/-- The connection closes. -/
def close (n : BusName κ) (c : κ) : BusName κ :=
  if n.owner = some c then ⟨none⟩ else n

omit [DecidableEq κ] in
/-- A request is granted exactly when nobody owns the name. -/
theorem request_eq_some {n m : BusName κ} {c : κ} :
    n.request c = some m ↔ n.owner = none ∧ m = ⟨some c⟩ := by
  simp [request, eq_comm]

/-- Closing takes the name from nobody else. -/
theorem owner_close {n : BusName κ} {c d : κ} :
    (n.close c).owner = some d ↔ n.owner = some d ∧ d ≠ c := by
  unfold close
  split
  · rename_i h
    simp [h, eq_comm]
  · rename_i h
    constructor
    · intro hd
      refine ⟨hd, ?_⟩
      rintro rfl
      exact h hd
    · exact fun hd => hd.1

end BusName

end SleepBlocker.Computation
