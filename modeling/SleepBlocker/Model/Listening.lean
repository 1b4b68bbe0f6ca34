import SleepBlocker.Computation.Event
import SleepBlocker.Model.Daemon

/-!
# The shutdown event of the daemon

`daemon` keeps one flag for whether the shutdown event has been notified. Here `main` has the
event itself: it begins to listen before it starts the tray and serves the object, `quit` and
the tray's Quit notify `usize::MAX` listeners, and `done.wait()` returns once the listener has
been notified. The crate's event is a parameter.
-/

set_option autoImplicit false

namespace SleepBlocker.Model

open SleepBlocker.Computation

/-- `usize::MAX`, of 64 bits. -/
def usizeMax : ℕ := 18446744073709551615

/-- The daemon, its `done_event`, and whether `main` has its listener `done` yet. -/
structure Listening (ε : Type) where
  daemon : Daemon := {}
  event : ε
  listens : Bool := false

namespace Listening

variable {ε : Type} (E : Event ε)

/-- Before anything has happened nobody listens. -/
def start : Listening ε := { event := E.new }

/-- A step of the daemon, or the call that makes the listener. -/
inductive Label where
  /-- `let done = service.done.listen()`. -/
  | listen
  | daemon (a : Daemon.Label)
  deriving DecidableEq, Repr

/-- `done.notify(usize::MAX)`, of `Service::quit` or of the tray's Quit. -/
def notifies : Daemon.Label → Bool
  | .notify _ | .quitItemNotify => true
  | _ => false

/-- A step of the daemon in which `main` does not wait. -/
def stepDaemon (x : Listening ε) (a : Daemon.Label) : Option (Listening ε) :=
  (x.daemon.step a).map fun d =>
    { x with daemon := d, event := if notifies a then E.notify x.event usizeMax else x.event }

/-- The daemon's steps, with its flag kept by the event. -/
def step (x : Listening ε) : Label → Option (Listening ε)
  | .listen =>
    if x.daemon.stage = .starting ∧ x.listens = false then
      some { x with event := E.listen x.event, listens := true }
    else none
  | .daemon (.startTray found) =>
    if x.listens = true then x.stepDaemon E (.startTray found) else none
  | .daemon .wake =>
    if x.daemon.stage = .waiting then
      (E.wait x.event).map fun event =>
        { x with daemon := { x.daemon with stage := .returning }, event := event }
    else none
  | .daemon a => x.stepDaemon E a

end Listening

/-- The daemon with the event, as a machine. -/
def listening {ε : Type} (E : Event ε) : Machine (Listening ε) Listening.Label where
  step := Listening.step E

end SleepBlocker.Model
