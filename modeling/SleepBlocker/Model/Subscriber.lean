import SleepBlocker.Computation.Replica
import SleepBlocker.Model.Daemon

/-!
# A client that caches the properties

A D-Bus client beside the daemon that reads the properties once and from then on only
applies the `PropertiesChanged` signals, in the order the daemon sent them. Every signal
sent is delivered at some later step of its own.
-/

set_option autoImplicit false

namespace SleepBlocker.Model

open SleepBlocker.Computation

/-- The daemon, and the cache of one client with the signals on their way to it. -/
structure Subscriber where
  daemon : Daemon
  replica : Replica Property Bool

namespace Subscriber

/-- The client has just read every property. -/
def connect (d : Daemon) : Subscriber := ⟨d, ⟨d.state.snapshot.get, []⟩⟩

/-- A step of the daemon, or the delivery of a signal. -/
inductive Label where
  | daemon (l : Daemon.Label)
  | deliver

/-- A step of the daemon, or the delivery of the oldest signal. -/
def step (x : Subscriber) : Label → Option Subscriber
  | .daemon l =>
    (x.daemon.step l).map fun d =>
      ⟨d, x.replica.push (d.signals.drop x.daemon.signals.length)⟩
  | .deliver => x.replica.deliver.map fun r => { x with replica := r }

/-- No handler and no callback is in progress, and every signal has been delivered. -/
def Quiescent (x : Subscriber) : Prop :=
  (∀ h, x.daemon.handlers h = .idle) ∧ x.daemon.callback = .idle ∧ x.replica.queue = []

end Subscriber

/-- The subscriber as a machine. -/
def subscribed : Machine Subscriber Subscriber.Label where
  step := Subscriber.step

end SleepBlocker.Model
