import SleepBlocker.Interface.DaemonSteps

/-!
# What the tray shows

The model of the reading half of `tray.rs`: the icon, the tooltip and the menu are computed
from a snapshot and the tray's error whenever they are published, which happens when the
tray is spawned and on `Handle::update`. The watcher thread of `SleepTray::start` polls the
status and pokes the handle when it differs from the one it saw last. Whether ksni also
publishes by itself after each callback is the parameter `republishes`: tray.rs says that it
does not, ksni 0.3.6, which the lock file pins, does. `panels` is the daemon with its tray
and its watcher; the three properties of one update are published one by one, each from a
snapshot of its own, and nothing is assumed of how ksni orders the watcher's update with a
callback and its own.
-/

set_option autoImplicit false

namespace SleepBlocker.Model

open SleepBlocker.Computation

/-- The two sets of icons compiled in. -/
inductive Pixmap where
  | active
  | idle
  deriving DecidableEq, Repr

/-- An item of the menu. -/
inductive MenuItem where
  | standard (label : String)
  | checkmark (label : String) (checked : Bool)
  | separator
  deriving DecidableEq, Repr

/-- The tooltip. -/
structure ToolTip where
  title : String
  description : String
  deriving DecidableEq, Repr

/-- `icon_pixmap`, by the set of icons it decodes. -/
def iconPixmap (s : Status) : Pixmap := if s.sleepBlocked then .active else .idle

/-- `tool_tip`. -/
def toolTip (s : Status) (error : Option String) : ToolTip where
  title := "Sleep Block"
  description :=
    match error, s.sleepBlocked, s.screenBlocked with
    | some e, _, _ => e
    | none, true, true => "Sleep and screen lock are blocked"
    | none, true, false => "Sleep is blocked"
    | none, false, _ => "The system can sleep normally"

/-- `menu`, without what its items do. -/
def menu (s : Status) : List MenuItem :=
  (if s.keepRunningInTray then [.standard "Show window", .separator] else []) ++
    [.standard (if s.sleepBlocked then "Allow sleeping" else "Keep system awake"),
      .checkmark "Also keep screen on" s.keepScreenAwake,
      .checkmark "Keep running in tray when closed" s.keepRunningInTray,
      .separator, .standard "Quit"]

/-- The properties that ksni publishes. -/
structure TrayView where
  icon : Pixmap
  toolTip : ToolTip
  menu : List MenuItem
  deriving DecidableEq, Repr

/-- Which of the properties. -/
inductive Part where
  | icon
  | toolTip
  | menu
  deriving DecidableEq, Repr

namespace TrayView

/-- The view that `SleepTray` computes from a status and its error. -/
def of (s : Status) (error : Option String) : TrayView :=
  ⟨iconPixmap s, Model.toolTip s error, Model.menu s⟩

/-- One property is published anew. -/
def put (v now : TrayView) : Part → TrayView
  | .icon => { v with icon := now.icon }
  | .toolTip => { v with toolTip := now.toolTip }
  | .menu => { v with menu := now.menu }

/-- The views agree in one property. -/
def Agrees (v w : TrayView) : Part → Prop
  | .icon => v.icon = w.icon
  | .toolTip => v.toolTip = w.toolTip
  | .menu => v.menu = w.menu

end TrayView

/-- Where the watcher thread is. -/
inductive Watcher where
  | absent
  /-- The thread has been spawned and has not taken its first snapshot. -/
  | starting
  /-- It sleeps; this is the status it saw last. -/
  | polling (published : Status)
  /-- It has seen a new status and is in `Handle::update`, with these properties to go. -/
  | updating (published : Status) (todo : List Part)
  /-- The update found the tray shut down. -/
  | stopped
  deriving DecidableEq, Repr

/-- A daemon, what its tray has published, and its watcher. -/
structure Panel where
  daemon : Daemon := {}
  shown : Option TrayView := none
  watcher : Watcher := .absent
  /-- The properties that ksni has still to publish by itself after the latest callback. -/
  due : List Part := []

namespace Panel

/-- The view that would be published now. -/
def view (x : Panel) : TrayView := .of x.daemon.state.snapshot x.daemon.error

/-- A step of the daemon, of ksni or of the watcher. -/
inductive Label where
  | daemon (l : Daemon.Label)
  /-- A callback that leaves the status and the error, such as "Show window". -/
  | otherCallback
  /-- After a callback ksni publishes a property by itself. -/
  | republish (part : Part)
  /-- `let mut published = state.snapshot()`. -/
  | firstSnapshot
  /-- 250 ms later: a snapshot, and the comparison. -/
  | poll
  /-- `Handle::update` publishes a property. -/
  | publish (part : Part)
  /-- `Handle::update` returns `None`. -/
  | updateFails
  /-- The tray service ends. -/
  | shutDown
  deriving DecidableEq, Repr

/-- What ksni has to publish once a callback has returned. -/
def dueAfter (republishes : Bool) (callback : Callback) : List Part :=
  if republishes && callback == .idle then [.icon, .toolTip, .menu] else []

/-- What a step of the daemon does to its tray: `SleepTray::start` publishes the view and
starts the watcher, and where a callback has returned ksni may publish anew. -/
def follow (republishes : Bool) (x : Panel) (d : Daemon) (l : Daemon.Label) : Panel :=
  if l = .startTray true then
    { daemon := d, shown := some (.of d.state.snapshot d.error), watcher := .starting }
  else if l.party = .tray then
    { x with daemon := d, due := dueAfter republishes d.callback }
  else { x with daemon := d }

/-- One step of one party. -/
def step (republishes : Bool) (x : Panel) : Label → Option Panel
  | .daemon l =>
    -- ksni runs no callback of a tray that is gone, and the next one when it is done with the last
    if l.party = .tray ∧ (x.shown = none ∨ x.due ≠ []) then none
    else (x.daemon.step l).map fun d => x.follow republishes d l
  | .otherCallback =>
    if x.daemon.trayFree = true ∧ x.shown ≠ none ∧ x.due = [] then
      some { x with due := dueAfter republishes x.daemon.callback }
    else none
  | .republish part =>
    match x.shown with
    | some v =>
      if part ∈ x.due ∧ x.daemon.stage ≠ .exited then
        some { x with shown := some (v.put x.view part), due := x.due.filter (· != part) }
      else none
    | none => none
  | .firstSnapshot =>
    if x.watcher = .starting ∧ x.daemon.stage ≠ .exited then
      some { x with watcher := .polling x.daemon.state.snapshot }
    else none
  | .poll =>
    match x.watcher with
    | .polling published =>
      if x.daemon.stage = .exited then none
      else if x.daemon.state.snapshot ≠ published then
        some { x with watcher := .updating x.daemon.state.snapshot [.icon, .toolTip, .menu] }
      else some x
    | _ => none
  | .publish part =>
    match x.watcher, x.shown with
    | .updating published todo, some v =>
      if part ∈ todo ∧ x.daemon.stage ≠ .exited then
        some { x with
          shown := some (v.put x.view part)
          watcher :=
            match todo.filter (· != part) with
            | [] => .polling published
            | rest => .updating published rest }
      else none
    | _, _ => none
  | .updateFails =>
    match x.watcher, x.shown with
    | .updating _ _, none => some { x with watcher := .stopped }
    | _, _ => none
  | .shutDown => some { x with shown := none, due := [] }

end Panel

/-- The panel as a machine. -/
def panels (republishes : Bool) : Machine Panel Panel.Label where
  step := Panel.step republishes

end SleepBlocker.Model
