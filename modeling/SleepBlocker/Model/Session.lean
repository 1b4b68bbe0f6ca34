import SleepBlocker.Model.App

/-!
# A window and its daemon

The daemon and the app of its window as one machine. A frame is `logic`, then the reads
and clicks of `ui`, and the frame in which a close was requested, by whomever, is the last
one; between any two of these the tray, the other clients and the main thread of the daemon
may move.
A Quit is dispatched to the daemon when it is sent, or lost when no daemon is on the bus,
and handled whenever the daemon gets to it. The requests of the window's own controls
reach the daemon as those of any other client do.
-/

set_option autoImplicit false

namespace SleepBlocker.Model

open SleepBlocker.Computation

/-- A daemon, and the app of a window on it. -/
structure Session where
  daemon : Daemon
  app : App
  reading : Reading := .idle
  /-- The `ui` of this frame has not returned. -/
  drawing : Bool := false
  /-- This frame is the last. -/
  closing : Bool := false

namespace Session

/-- A window that has just opened; the last property its client read is the window setting. -/
def start (daemon : Daemon) (hasTray sleepBlocked screenBlocked keepScreenAwake : Bool) :
    Session where
  daemon := daemon
  app := { client := ⟨hasTray, ⟨sleepBlocked, screenBlocked, keepScreenAwake,
    daemon.state.snapshot.keepRunningInTray⟩, false⟩ }

/-- A step of the daemon, or of the window's frame. -/
inductive Label where
  | daemon (l : Daemon.Label)
  /-- `logic`; a Quit that it sends is dispatched under this number. -/
  | logic (closeRequested : Bool) (h : ℕ)
  /-- `ui` reads its next property; the read may fail. -/
  | read (ok : Bool)
  /-- The Quit button; its Quit is dispatched under this number. -/
  | quitButton (h : ℕ)
  | endFrame
  deriving DecidableEq

/-- Dispatches what the window sends; only a Quit matters here. -/
def deliver (daemon : Daemon) (effects : List AppEffect) (h : ℕ) : Option Daemon :=
  if effects.contains (.request .quit) && daemon.connected then daemon.step (.receive h .quit)
  else some daemon

/-- A property read of `ui`; when `read_status` returns, `snapshot` records it. -/
def take (x : Session) (value : Option Bool) : Session :=
  match x.reading.take value with
  | .returned status =>
    { x with
      app := { x.app with client := x.app.client.snapshot status }
      reading := .returned status }
  | reading => { x with reading := reading }

/-- One step; the effects of the window reach the daemon as they are had. -/
def step (x : Session) : Label → Option Session
  | .daemon l => (x.daemon.step l).map fun d => { x with daemon := d }
  | .logic closeRequested h =>
    if x.drawing || x.closing then none
    else
      let o := (App.logic closeRequested).run x.app
      (deliver x.daemon o.effects h).map fun d =>
        { daemon := d, app := o.state, reading := .idle, drawing := true
          closing := closeRequested }
  | .read ok =>
    if x.drawing then
      if ok then
        if x.daemon.connected then
          some (x.take (some (x.daemon.state.snapshot.get x.reading.next)))
        else none
      else some (x.take none)
    else none
  | .quitButton h =>
    if x.drawing && !x.reading.underWay && x.app.client.cached.keepRunningInTray then
      let o := App.quitButton.run x.app
      (deliver x.daemon o.effects h).map fun d => { x with daemon := d, app := o.state }
    else none
  | .endFrame =>
    if x.drawing && !x.reading.underWay && x.reading != .idle then
      some { x with drawing := false }
    else none

end Session

/-- The session as a machine. -/
def sessions : Machine Session Session.Label where
  step := Session.step

end SleepBlocker.Model
