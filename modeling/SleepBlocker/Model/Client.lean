import SleepBlocker.Model.Daemon

/-!
# The window's client

The model of the reading half of `client.rs`. `read_status` is four property reads in a
row, each answered by the daemon at an instant of its own, and gives up at the first that
fails; `DaemonClient` keeps the last status that came back whole. `reads` is the machine
of one window reading from a daemon while the tray, the other clients and the main thread
go on.
-/

set_option autoImplicit false

namespace SleepBlocker.Model

open SleepBlocker.Computation

/-- How far `read_status` is, with the values read so far. -/
inductive Reading where
  | idle
  | sleep (sleepBlocked : Bool)
  | screen (sleepBlocked screenBlocked : Bool)
  | keep (sleepBlocked screenBlocked keepScreenAwake : Bool)
  | returned (status : Option Status)
  deriving DecidableEq, Repr

namespace Reading

/-- A call is under way between its first read and its last. -/
def underWay : Reading → Bool
  | .sleep _ | .screen _ _ | .keep _ _ _ => true
  | .idle | .returned _ => false

/-- The property read next; a call that is not under way starts with the first. -/
def next : Reading → Property
  | .idle | .returned _ => .sleepBlocked
  | .sleep _ => .screenBlocked
  | .screen _ _ => .keepScreenAwake
  | .keep _ _ _ => .keepRunningInTray

/-- The read of the next property comes back, or fails. -/
def take (r : Reading) : Option Bool → Reading
  | none => .returned none
  | some value =>
    match r with
    | .idle | .returned _ => .sleep value
    | .sleep a => .screen a value
    | .screen a b => .keep a b value
    | .keep a b c => .returned (some ⟨a, b, c, value⟩)

end Reading

/-- `DaemonClient`: what it last read, and whether the daemon answered. -/
structure DaemonClient where
  hasTray : Bool
  last : Status
  daemonGone : Bool := false
  deriving DecidableEq, Repr

namespace DaemonClient

/-- `DaemonClient::snapshot`, given what `read_status` returned. -/
def snapshot (c : DaemonClient) : Option Status → DaemonClient
  | some status => { c with last := status, daemonGone := false }
  | none => { c with daemonGone := true }

/-- `DaemonClient::cached`. -/
def cached (c : DaemonClient) : Status := c.last

end DaemonClient

/-- A daemon, and a window that reads its status. -/
structure Reader where
  daemon : Daemon := {}
  reading : Reading := .idle

namespace Reader

/-- A step of the daemon or of the window. -/
inductive Label where
  | daemon (l : Daemon.Label)
  /-- The window reads its next property; the read may fail. -/
  | read (ok : Bool)
  deriving DecidableEq

/-- A step of the daemon, or one property read; only a daemon on the bus answers it. -/
def step (x : Reader) : Label → Option Reader
  | .daemon l => (x.daemon.step l).map fun d => { x with daemon := d }
  | .read true =>
    if x.daemon.connected then
      let value := x.daemon.state.snapshot.get x.reading.next
      some { x with reading := x.reading.take (some value) }
    else none
  | .read false => some { x with reading := x.reading.take none }

end Reader

/-- Reading beside the daemon. -/
def reads : Machine Reader Reader.Label where
  step := Reader.step

end SleepBlocker.Model
