import SleepBlocker.Model.Client
import SleepBlocker.Model.Fleet

/-!
# Window processes beside the daemons

The model of a window process from its launch to its end: `DaemonClient::connect` step by
step, the open window, and the exit. `desktop` puts any number of them on the bus of a
fleet of daemons. Every call to the bus is a step, with what it returns in the label; a
call to the daemon's name reaches the process that owns it at that instant and may always
fail, by the connection's timeout of two seconds if by nothing else. The daemons' only
clients are these windows.

A window draws its frames between these steps: it may read the status at any time and send
what its controls offer between two readings.
-/

set_option autoImplicit false

namespace SleepBlocker.Model

open SleepBlocker.Computation

/-- `ConnectError`. -/
inductive ConnectError where
  | alreadyRunning
  | daemonUnavailable
  | bus
  deriving DecidableEq, Repr

/-- Why a claim of the window's name failed; `none` is the only reply that means it did not. -/
def ConnectError.ofReply : NameReply → Option ConnectError
  | .primaryOwner => none
  | .otherReply | .nameTaken => some .alreadyRunning
  | .error => some .bus

/-- Where a window process is. -/
inductive GuiProcess where
  | absent
  /-- `main` has been entered. -/
  | launched
  /-- The session connection is up. -/
  | connected
  /-- The name is claimed; the daemon has not been probed. -/
  | claimed
  /-- A daemon has been started; this many polls are left. -/
  | polling (left : ℕ)
  /-- `connect` is in `read_status`. -/
  | reading (r : Reading)
  /-- `read_status` has returned this; `has_tray` is read next. -/
  | asking (last : Status)
  /-- The window is open. -/
  | opened (client : DaemonClient) (r : Reading)
  /-- `connect` has returned an error, and its connection is gone. -/
  | failed (e : ConnectError)
  /-- `run_native` has returned, and the client is gone. -/
  | closed
  /-- The process is gone. -/
  | gone
  deriving DecidableEq, Repr

/-- What the controls of a window offer; "Keep running in tray" is enabled by `has_tray`. -/
def DaemonClient.offers (c : DaemonClient) : Request → Bool
  | .toggle | .quit => true
  | .setKeepScreenAwake wanted => wanted == !c.cached.keepScreenAwake
  | .setKeepRunningInTray wanted => c.hasTray && wanted == !c.cached.keepRunningInTray

namespace GuiProcess

/-- The process is there. -/
def alive : GuiProcess → Bool
  | .absent | .gone => false
  | _ => true

/-- The process keeps a connection to the session bus. -/
def connection : GuiProcess → Bool
  | .connected | .claimed | .polling _ | .reading _ | .asking _ | .opened _ _ => true
  | _ => false

/-- The process is past a successful claim of the name. -/
def pastClaim : GuiProcess → Bool
  | .claimed | .polling _ | .reading _ | .asking _ | .opened _ _ => true
  | _ => false

/-- What a process does next, with what it gets back. -/
inductive Label where
  | launch
  | session (ok : Bool)
  | claim (reply : NameReply)
  /-- `uncached_proxy` and `sleep_blocked`, before a daemon is started. -/
  | probe (ok : Bool)
  /-- The same, after another 50 ms. -/
  | poll (ok : Bool)
  | read (value : Option Bool)
  | askTray (value : Option Bool)
  /-- A control sends a request, which a daemon may get under this number. -/
  | send (r : Request) (dispatched : Option ℕ)
  /-- The window closes. -/
  | close
  /-- The process exits or crashes. -/
  | die
  deriving DecidableEq, Repr

/-- How often `connect` polls for the daemon it has started. -/
def polls : ℕ := 40

/-- One step of a window process; a label that does not fit its place is not enabled. -/
def step : GuiProcess → Label → Option GuiProcess
  | .absent, .launch => some .launched
  | .launched, .session ok => some (if ok then .connected else .failed .bus)
  | .connected, .claim reply => some ((ConnectError.ofReply reply).elim .claimed .failed)
  | .claimed, .probe ok => some (if ok then .reading .idle else .polling polls)
  | .polling (left + 1), .poll ok =>
    some (if ok then .reading .idle
      else if left = 0 then .failed .daemonUnavailable else .polling left)
  | .reading r, .read value =>
    match r.take value with
    | .returned (some last) => some (.asking last)
    | .returned none => some (.failed .daemonUnavailable)
    | r' => some (.reading r')
  | .asking last, .askTray value => some (.opened ⟨value.getD false, last, false⟩ .idle)
  | .opened client r, .read value =>
    match r.take value with
    | .returned status => some (.opened (client.snapshot status) (.returned status))
    | r' => some (.opened client r')
  | .opened client r, .send request _ =>
    if !r.underWay && client.offers request then some (.opened client .idle) else none
  | .opened _ _, .close => some .closed
  | g, .die => if g.alive then some .gone else none
  | _, _ => none

/-- The step starts a daemon. -/
def spawnsDaemon : GuiProcess → Label → Bool
  | .claimed, .probe false => true
  | _, _ => false

/-- The step sends a message to the daemon's name. -/
def Label.callsDaemon : Label → Bool
  | .probe _ | .poll _ | .read _ | .askTray _ | .send _ _ => true
  | _ => false

end GuiProcess

/-- Daemons, and windows with the name that a window claims. -/
structure Desktop where
  fleet : Fleet := {}
  guis : ℕ → GuiProcess := fun _ => .absent
  guiName : BusName ℕ := {}

namespace Desktop

/-- A step of one process. -/
inductive Label where
  /-- A step of daemon `p`. -/
  | daemon (p : ℕ) (l : Daemon.Label)
  /-- A step of window process `w`. -/
  | gui (w : ℕ) (l : GuiProcess.Label)
  deriving DecidableEq, Repr

/-- The daemon that a call to the daemons' name reaches. -/
def answering (x : Desktop) : Option Daemon := x.fleet.name.owner.map x.fleet.processes

/-- The bus can let process `w` see this: a call that is answered is answered by the daemon
that owns the name, and a reply other than `PrimaryOwner` means that the name is taken. -/
def permits (x : Desktop) (w : ℕ) : GuiProcess.Label → Bool
  | .claim .primaryOwner => x.guiName.owner.isNone
  | .claim .otherReply | .claim .nameTaken => x.guiName.owner.isSome
  | .probe true | .poll true => x.answering.isSome
  | .read (some value) =>
    match x.guis w with
    | .reading r | .opened _ r =>
      x.answering.any fun d => d.state.snapshot.get r.next == value
    | _ => false
  | .askTray (some value) => x.answering.any fun d => d.hasTray == value
  | _ => true

/-- What a step of process `w` does to the daemons. -/
def deliver (x : Desktop) : GuiProcess.Label → Option Fleet
  | .send r (some h) => x.fleet.name.owner.bind fun p => x.fleet.step (p, .receive h r)
  | _ => some x.fleet

/-- The window's name after process `w`, now `g`, has taken a step: it is granted to a claim
and freed when the process gives its connection up. -/
def rename (x : Desktop) (w : ℕ) (g : GuiProcess) : GuiProcess.Label → BusName ℕ
  | .claim .primaryOwner => (x.guiName.request w).getD x.guiName
  | _ => if g.connection then x.guiName else x.guiName.close w

/-- One step of one process, with what it does to the bus and to the others. -/
def step (x : Desktop) : Label → Option Desktop
  | .daemon p l =>
    match l with
    -- only windows call the daemons
    | .receive _ _ => none
    | l => (x.fleet.step (p, l)).map fun f => { x with fleet := f }
  | .gui w l =>
    if x.permits w l then
      match (x.guis w).step l, x.deliver l with
      | some g, some f => some ⟨f, Function.update x.guis w g, x.rename w g l⟩
      | _, _ => none
    else none

/-- A step of a window process: what it needs and what it leaves. -/
theorem gui_eq_some {x y : Desktop} {w : ℕ} {l : GuiProcess.Label} :
    x.step (.gui w l) = some y ↔ x.permits w l = true ∧ ∃ g f, (x.guis w).step l = some g ∧
      x.deliver l = some f ∧ y = ⟨f, Function.update x.guis w g, x.rename w g l⟩ := by
  simp only [step]
  cases x.permits w l <;> cases (x.guis w).step l <;> cases x.deliver l <;> simp [eq_comm]

/-- A step of a daemon: what it needs and what it leaves. -/
theorem daemon_eq_some {x y : Desktop} {p : ℕ} {l : Daemon.Label} :
    x.step (.daemon p l) = some y ↔ (∀ h r, l ≠ .receive h r) ∧
      ∃ f, x.fleet.step (p, l) = some f ∧ y = { x with fleet := f } := by
  cases l <;> simp [step, eq_comm]

end Desktop

/-- The desktop as a machine. -/
def desktop : Machine Desktop Desktop.Label where
  step := Desktop.step

end SleepBlocker.Model
