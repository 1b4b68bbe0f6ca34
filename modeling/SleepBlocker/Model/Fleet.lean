import SleepBlocker.Computation.BusName
import SleepBlocker.Interface.DaemonSteps

/-!
# Daemon processes on one bus

Any number of `sleep-blockd` processes, each a `Daemon`, on one session bus with one
well-known name. A process asks for the name as the last step of its startup, a method
call to the name reaches the process that owns it, and a connection that closes, with
`main` returning or with the process, gives the name up. A click reaches the tray of any
process that has published one.
-/

set_option autoImplicit false

namespace SleepBlocker.Model

open SleepBlocker.Computation

/-- The processes, by number; one that has taken no step has not been launched. -/
structure Fleet where
  processes : ℕ → Daemon := fun _ => {}
  name : BusName ℕ := {}

namespace Fleet

/-- What the bus makes of a step of process `p`; `none` when it rules the step out. -/
def bus (f : Fleet) (p : ℕ) : Daemon.Label → Option (BusName ℕ)
  | .requestName .primaryOwner => f.name.request p
  | .requestName .otherReply | .requestName .nameTaken =>
    if f.name.owner = none then none else some f.name
  | .receive _ _ => if f.name.owner = some p then some f.name else none
  | .closeConnection | .exit | .crash => some (f.name.close p)
  | _ => some f.name

/-- One step of one daemon, where the bus lets it. -/
def step (f : Fleet) (a : ℕ × Daemon.Label) : Option Fleet :=
  match f.bus a.1 a.2, (f.processes a.1).step a.2 with
  | some name, some d => some ⟨Function.update f.processes a.1 d, name⟩
  | _, _ => none

/-- Process `p` is alive and holds an inhibitor. -/
def holds (f : Fleet) (p : ℕ) : Prop :=
  (f.processes p).stage ≠ .exited ∧ ¬ Free (f.processes p).state

/-- Whether a process holds an inhibitor can be evaluated. -/
instance (f : Fleet) (p : ℕ) : Decidable (f.holds p) := inferInstanceAs (Decidable (_ ∧ _))

/-- A step of the fleet: what it needs and what it leaves. -/
theorem step_eq_some {f g : Fleet} {a : ℕ × Daemon.Label} :
    f.step a = some g ↔ ∃ name d, f.bus a.1 a.2 = some name ∧
      (f.processes a.1).step a.2 = some d ∧ g = ⟨Function.update f.processes a.1 d, name⟩ := by
  unfold step
  cases f.bus a.1 a.2 <;> cases (f.processes a.1).step a.2 <;> simp [eq_comm]

end Fleet

/-- The fleet as a machine. -/
def fleet : Machine Fleet (ℕ × Daemon.Label) where
  step := Fleet.step

end SleepBlocker.Model
