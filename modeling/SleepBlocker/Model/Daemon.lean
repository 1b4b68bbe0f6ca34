import Mathlib.Logic.Function.Basic
import SleepBlocker.Interface.CriticalSections

/-!
# The daemon

The model of `sleep-blockd.rs` and of the callbacks in `tray.rs`: a main thread that goes
through the startup steps and then waits for the shutdown event, D-Bus handlers that run
concurrently and interleave at their await points, and a tray whose callbacks run one at
a time. All of them share one `SleepBlock`, and every call into it is one step because
the mutex makes it one.

A handler that announces goes through the properties in order and for each of them reads
the value in one step and sends `PropertiesChanged` in the next; the change signal that
zbus emits after a property setter is the same pair of steps. `daemon` is the machine of
all these parties; a step whose acquire panics is left out of it, since what a panic does
to the thread of zbus or ksni it unwinds through is not the daemon's.
-/

set_option autoImplicit false

namespace SleepBlocker.Model

open SleepBlocker.Computation

/-- The properties that a mutation can move, in the order `announce` emits them. -/
inductive Property where
  | sleepBlocked
  | screenBlocked
  | keepScreenAwake
  | keepRunningInTray
  deriving DecidableEq, Repr

/-- The field of a status that a property publishes. -/
def Status.get (s : Status) : Property → Bool
  | .sleepBlocked => s.sleepBlocked
  | .screenBlocked => s.screenBlocked
  | .keepScreenAwake => s.keepScreenAwake
  | .keepRunningInTray => s.keepRunningInTray

/-- The D-Bus methods that reach `SleepBlock`, and the property setter. -/
inductive Request where
  | toggle
  | setKeepScreenAwake (wanted : Bool)
  | setKeepRunningInTray (wanted : Bool)
  | quit
  deriving DecidableEq, Repr

/-- The call into `SleepBlock` that a request's handler makes. -/
def Request.op : Request → Op
  | .toggle => .toggle
  | .setKeepScreenAwake wanted => .setKeepScreenAwake wanted
  | .setKeepRunningInTray wanted => .setKeepRunningInTray wanted
  | .quit => .releaseAll

/-- A method reply: the two lock states, `Failed` with the error's text, or nothing. -/
inductive Reply where
  | locks (sleepBlocked screenBlocked : Bool)
  | failed (text : String)
  | empty
  deriving DecidableEq, Repr

/-- The `match result` at the end of `Service::toggle` and `Service::set_keep_screen_awake`. -/
def Reply.of : Except Error Status → Reply
  | .ok s => .locks s.sleepBlocked s.screenBlocked
  | .error e => .failed e.toString

/-- Where the handler of a request is. -/
inductive Handler where
  /-- No request under this number. -/
  | idle
  | received (request : Request)
  /-- `SleepBlock` has been called; these properties are still to be announced. -/
  | announcing (todo : List Property) (reply : Reply)
  /-- This value has been read and is being sent. -/
  | sending (property : Property) (value : Bool) (todo : List Property) (reply : Reply)
  /-- `quit` has released the locks and is about to notify the main thread. -/
  | notifying
  deriving DecidableEq, Repr

/-- Where a handler stands once its call into `SleepBlock` has returned. -/
def Request.after (result : Option (Except Error Status)) : Request → Handler
  | .quit => .notifying
  | .setKeepRunningInTray _ => .announcing [.keepRunningInTray] .empty
  | .toggle | .setKeepScreenAwake _ =>
    .announcing [.sleepBlocked, .screenBlocked, .keepScreenAwake, .keepRunningInTray]
      (result.elim .empty Reply.of)

/-- Where the tray's one callback is. -/
inductive Callback where
  | idle
  /-- "Also keep screen on" has read the preference and will set its negation. -/
  | screenItem (wanted : Bool)
  /-- "Keep running in tray when closed" has read the setting and will set its negation. -/
  | runningItem (wanted : Bool)
  /-- "Quit" has released the locks and is about to notify the main thread. -/
  | quitItem
  deriving DecidableEq, Repr

/-- The answer to `request_name_with_flags(.., DoNotQueue)`. -/
inductive NameReply where
  | primaryOwner
  | otherReply
  | nameTaken
  | error
  deriving DecidableEq, Repr

/-- Where `main` is. -/
inductive Stage where
  | starting
  /-- `SleepTray::start` has returned and `has_tray` is stored. -/
  | trayStarted
  /-- The connection is up and the object is served. -/
  | serving
  /-- The name is owned; the thread is in `done.wait()`. -/
  | waiting
  /-- `main` is returning, with the connection still open. -/
  | returning
  /-- `main` is returning and the connection is gone, or never came up. -/
  | closed
  | exited
  deriving DecidableEq, Repr

/-- The daemon: the shared state with the main thread, the tray and the handlers. -/
structure Daemon where
  state : SleepBlock := .new
  stage : Stage := .starting
  hasTray : Bool := false
  /-- Whether the shutdown event has been notified. -/
  notified : Bool := false
  callback : Callback := .idle
  error : Option String := none
  handlers : ℕ → Handler := fun _ => .idle
  /-- The change signals sent, oldest first. -/
  signals : List (Property × Bool) := []
  /-- The replies sent, oldest first, each with the number of its request. -/
  replies : List (ℕ × Reply) := []

namespace Daemon

/-- Handlers run as long as the connection is up. -/
def connected (d : Daemon) : Bool :=
  d.stage == .serving || d.stage == .waiting || d.stage == .returning

/-- Callbacks run from the moment the tray is published until the process is gone. -/
def trayFree (d : Daemon) : Bool := d.hasTray && d.stage != .exited && d.callback == .idle

/-- One handler moves, the others stay. -/
def setHandler (d : Daemon) (h : ℕ) (x : Handler) : Daemon :=
  { d with handlers := Function.update d.handlers h x }

/-- `result.err().map(|e| e.to_string())`. -/
def errorOf (value : Option (Option (Except Error Status))) : Option String :=
  match value with
  | some (some (.error e)) => some e.toString
  | _ => none

/-- Who moves, and what the services answer. -/
inductive Label where
  /-- `SleepTray::start`, which may find no tray host. -/
  | startTray (found : Bool)
  /-- Building the connection and serving the object. -/
  | serve (ok : Bool)
  | requestName (reply : NameReply)
  /-- `done.wait()` returns. -/
  | wake
  /-- `main` drops the connection on its way out. -/
  | closeConnection
  | exit
  | crash
  /-- A D-Bus request is dispatched under a free number. -/
  | receive (h : ℕ) (request : Request)
  /-- The handler's call into `SleepBlock`. -/
  | handle (h : ℕ) (ans : Answers)
  | readProperty (h : ℕ)
  | sendSignal (h : ℕ)
  | notify (h : ℕ)
  | reply (h : ℕ)
  | activate (ans : Answers)
  | toggleItem (ans : Answers)
  | screenItemRead
  | screenItemSet (ans : Answers)
  | runningItemRead
  | runningItemSet (ans : Answers)
  /-- The menu's Quit item releases the locks. -/
  | quitItem (ans : Answers)
  | quitItemNotify
  deriving DecidableEq, Repr

/-- The two ways the tray toggles: `self.error = self.state.toggle().err()...`. -/
def trayToggle (d : Daemon) (ans : Answers) : Option Daemon :=
  if d.trayFree && ans.calm then
    let o := perform ⟨.toggle, ans⟩ d.state
    some { d with state := o.state, error := errorOf o.value }
  else none

/-- `activate`: a left click on the icon. -/
def activate (d : Daemon) (ans : Answers) : Option Daemon := d.trayToggle ans

/-- The menu's first item. -/
def toggleItem (d : Daemon) (ans : Answers) : Option Daemon := d.trayToggle ans

/-- "Also keep screen on", after its snapshot. -/
def screenItemSet (d : Daemon) (ans : Answers) : Option Daemon :=
  match d.callback with
  | .screenItem wanted =>
    if d.stage != .exited && ans.calm then
      let o := perform ⟨.setKeepScreenAwake wanted, ans⟩ d.state
      some { d with state := o.state, error := errorOf o.value, callback := .idle }
    else none
  | _ => none

/-- "Keep running in tray when closed", after its snapshot. -/
def runningItemSet (d : Daemon) (ans : Answers) : Option Daemon :=
  match d.callback with
  | .runningItem wanted =>
    if d.stage != .exited && ans.calm then
      let o := perform ⟨.setKeepRunningInTray wanted, ans⟩ d.state
      some { d with state := o.state, callback := .idle }
    else none
  | _ => none

/-- A handler calls into `SleepBlock`; no answer of a service panics here. -/
def handle (d : Daemon) (h : ℕ) (ans : Answers) : Option Daemon :=
  match d.handlers h with
  | .received request =>
    if d.connected && ans.calm then
      let o := perform ⟨request.op, ans⟩ d.state
      some ({ d with state := o.state }.setHandler h (request.after (o.value.getD none)))
    else none
  | _ => none

/-- A getter: the property is read off a snapshot. -/
def readProperty (d : Daemon) (h : ℕ) : Option Daemon :=
  match d.handlers h with
  | .announcing (p :: todo) reply =>
    if d.connected then some (d.setHandler h (.sending p (d.state.snapshot.get p) todo reply))
    else none
  | _ => none

/-- The value that was read is sent as a change signal. -/
def sendSignal (d : Daemon) (h : ℕ) : Option Daemon :=
  match d.handlers h with
  | .sending p value todo reply =>
    if d.connected then
      some ({ d with signals := d.signals ++ [(p, value)] }.setHandler h (.announcing todo reply))
    else none
  | _ => none

/-- A handler with nothing left to announce replies. -/
def reply (d : Daemon) (h : ℕ) : Option Daemon :=
  match d.handlers h with
  | .announcing [] r =>
    if d.connected then
      some ({ d with replies := d.replies ++ [(h, r)] }.setHandler h .idle)
    else none
  | _ => none

/-- `quit` notifies the event and has nothing to announce. -/
def notify (d : Daemon) (h : ℕ) : Option Daemon :=
  match d.handlers h with
  | .notifying =>
    if d.connected then some ({ d with notified := true }.setHandler h (.announcing [] .empty))
    else none
  | _ => none

/-- One step of one party. -/
def step (d : Daemon) : Label → Option Daemon
  | .startTray found =>
    if d.stage = .starting then some { d with stage := .trayStarted, hasTray := found } else none
  | .serve ok =>
    if d.stage = .trayStarted then
      some { d with stage := if ok then .serving else .closed }
    else none
  | .requestName reply =>
    if d.stage = .serving then
      some { d with stage := if reply = .primaryOwner then .waiting else .returning }
    else none
  | .wake =>
    if d.stage = .waiting ∧ d.notified = true then some { d with stage := .returning } else none
  | .closeConnection => if d.stage = .returning then some { d with stage := .closed } else none
  | .exit =>
    if d.stage = .returning ∨ d.stage = .closed then some { d with stage := .exited } else none
  | .crash => if d.stage = .exited then none else some { d with stage := .exited }
  | .receive h request =>
    if d.connected ∧ d.handlers h = .idle then some (d.setHandler h (.received request)) else none
  | .handle h ans => d.handle h ans
  | .readProperty h => d.readProperty h
  | .sendSignal h => d.sendSignal h
  | .notify h => d.notify h
  | .reply h => d.reply h
  | .activate ans => d.activate ans
  | .toggleItem ans => d.toggleItem ans
  | .screenItemRead =>
    if d.trayFree then
      some { d with callback := .screenItem (!d.state.snapshot.keepScreenAwake) }
    else none
  | .screenItemSet ans => d.screenItemSet ans
  | .runningItemRead =>
    if d.trayFree then
      some { d with callback := .runningItem (!d.state.snapshot.keepRunningInTray) }
    else none
  | .runningItemSet ans => d.runningItemSet ans
  | .quitItem ans =>
    if d.trayFree && ans.calm then
      some { d with state := (perform ⟨.releaseAll, ans⟩ d.state).state, callback := .quitItem }
    else none
  | .quitItemNotify =>
    if d.callback = .quitItem ∧ d.stage ≠ .exited then
      some { d with notified := true, callback := .idle }
    else none

end Daemon

/-- The daemon as a machine. -/
def daemon : Machine Daemon Daemon.Label where
  step := Daemon.step

end SleepBlocker.Model
