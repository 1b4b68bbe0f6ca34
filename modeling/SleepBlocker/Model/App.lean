import SleepBlocker.Computation.Effectful
import SleepBlocker.Model.Client

/-!
# The window

The model of `App` in `main.rs`. A frame is `logic` followed by `ui`, both computations
over the app that send requests to the daemon and commands to the viewport. What comes
from outside is the frame's input: whether the user asked to close, which controls were
clicked, and how each call went. A `Close` sent in one frame makes `close_requested` true
in the next, and the frame that sees it is the last. Layout, texts of labels and repaint
requests are left out.
-/

set_option autoImplicit false

namespace SleepBlocker.Model

open SleepBlocker.Computation

/-- The window: `App` of main.rs. -/
structure App where
  client : DaemonClient
  error : Option String := none
  quitting : Bool := false
  deriving DecidableEq, Repr

/-- What leaves the app: a request to the daemon, or `ViewportCommand::Close`. -/
inductive AppEffect where
  | request (r : Request)
  | close
  deriving DecidableEq, Repr

/-- A callback of the window: it works on the app and has effects outside it. -/
abbrev AppM (α : Type) := Effectful App AppEffect α

/-- How a call to the daemon went: its error, or `Ok` after a `snapshot` that read this. -/
abbrev CallOutcome := Except String (Option Status)

/-- The input of one frame. -/
structure Frame where
  userClose : Bool := false
  /-- The `read_status` at the top of `ui`. -/
  read : Option Status
  /-- The indicator was clicked. -/
  indicator : Option CallOutcome := none
  /-- "Also keep screen on" was changed. -/
  screenBox : Option CallOutcome := none
  /-- "Keep running in tray when closed" was changed, if it is enabled. -/
  trayBox : Option CallOutcome := none
  /-- "Quit" was clicked, if it is shown. -/
  quit : Bool := false
  deriving Repr

namespace App

/-- `DaemonClient::quit_daemon`; the answer is ignored. -/
def quitDaemon : AppM Unit := Effectful.emit (.request .quit)

/-- `App::logic`: the window closes when the daemon is gone, and a close quits the daemon unless
the cached status says to keep it running in the tray. -/
def logic (closeRequested : Bool) : AppM Unit := do
  let app ← Effectful.read
  if app.client.daemonGone then
    Effectful.emit .close
  else if closeRequested && !app.quitting && !app.client.cached.keepRunningInTray then
    quitDaemon

/-- A call to the daemon, and what it leaves in `error`. -/
def call (r : Request) (text : String → String) (outcome : CallOutcome) : AppM Unit := do
  Effectful.emit (.request r)
  Effectful.update fun app =>
    match outcome with
    | .ok read => { app with client := app.client.snapshot read, error := none }
    | .error e => { app with error := some (text e) }

/-- `App::toggle`. -/
def toggle (outcome : CallOutcome) : AppM Unit := call .toggle id outcome

/-- `App::set_keep_screen_awake`, which says what an error is about. -/
def setKeepScreenAwake (wanted : Bool) (outcome : CallOutcome) : AppM Unit :=
  call (.setKeepScreenAwake wanted) (fun e => "Screen lock not blocked: " ++ e) outcome

/-- `App::set_keep_running_in_tray`. -/
def setKeepRunningInTray (wanted : Bool) (outcome : CallOutcome) : AppM Unit :=
  call (.setKeepRunningInTray wanted) id outcome

/-- The Quit button. -/
def quitButton : AppM Unit := do
  Effectful.update fun app => { app with quitting := true }
  quitDaemon
  Effectful.emit .close

/-- A control of the window: if it was used, act, and go on with the cached status. -/
def control (status : Status) (used : Option CallOutcome) (act : CallOutcome → AppM Unit) :
    AppM Status :=
  match used with
  | none => return status
  | some outcome => do
    act outcome
    return (← Effectful.read).client.cached

/-- `App::ui`: a frame reads the status first, and each control goes on with the copy that the
one before it has left. -/
def ui (f : Frame) : AppM Unit := do
  Effectful.update fun app => { app with client := app.client.snapshot f.read }
  let status := (← Effectful.read).client.cached
  let status ← control status f.indicator toggle
  let status ← control status f.screenBox fun outcome => do
    Effectful.update fun app => { app with error := none }
    setKeepScreenAwake (!status.keepScreenAwake) outcome
  let hasTray := (← Effectful.read).client.hasTray
  let status ← control status (if hasTray then f.trayBox else none)
    (setKeepRunningInTray (!status.keepRunningInTray))
  if status.keepRunningInTray && f.quit then
    quitButton

end App

/-- A window: its app, who sent the `Close` that is pending, and whether it is gone. -/
structure Window where
  app : App
  closeByLogic : Bool := false
  closeByButton : Bool := false
  closed : Bool := false
  deriving DecidableEq, Repr

namespace Window

/-- A window that has just opened, on a client that has just connected. -/
def start (hasTray : Bool) (last : Status) : Window :=
  { app := { client := ⟨hasTray, last, false⟩ } }

/-- `close_requested()` in this frame. -/
def closeRequested (w : Window) (f : Frame) : Bool :=
  w.closeByLogic || w.closeByButton || f.userClose

/-- What `logic` does in this frame. -/
def logic (w : Window) (f : Frame) : Outcome App AppEffect Unit :=
  (App.logic (w.closeRequested f)).run w.app

/-- What `ui` does in this frame, after `logic`. -/
def ui (w : Window) (f : Frame) : Outcome App AppEffect Unit :=
  (App.ui f).run (w.logic f).state

/-- One frame of the window, which is gone after a frame that was asked to close it. -/
def step (w : Window) (f : Frame) : Option Window :=
  if w.closed then none
  else some {
    app := (w.ui f).state
    closeByLogic := (w.logic f).effects.contains .close
    closeByButton := (w.ui f).effects.contains .close
    closed := w.closeRequested f }

end Window

/-- The machine of a window; its labels are the inputs of the frames. -/
def window : Machine Window Frame where
  step := Window.step

end SleepBlocker.Model
