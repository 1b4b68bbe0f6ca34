import SleepBlocker.Model.App
import SleepBlocker.Model.ToggleCalls

/-!
# One window alone with its daemon

The calls of `DaemonClient` when nobody else acts and the daemon answers each of them in
time. A call is then one exchange: the handler calls into `SleepBlock` and replies, and a
call that did not fail is followed by `read_status`, whose four reads all find the state
that the handler left.
-/

set_option autoImplicit false

namespace SleepBlocker.Model

open SleepBlocker.Computation

/-- `read_status` on a daemon that nobody else uses: four property reads in a row. -/
def readStatus (s : SleepBlock) : Option Status :=
  let read (r : Reading) : Reading := r.take (some (s.snapshot.get r.next))
  match read (read (read (read .idle))) with
  | .returned status => status
  | _ => none

/-- The reply to a request whose call into `SleepBlock` has this result. -/
def Request.reply (result : Option (Except Error Status)) (request : Request) : Reply :=
  match request.after result with
  | .announcing _ r | .sending _ _ _ r => r
  | .idle | .received _ | .notifying => .empty

/-- How a call went for the app, when this is the reply and what `read_status` returns. An error
reply is shown under its D-Bus name, that of `fdo::Error::Failed`. -/
def outcomeOf (read : Option Status) : Reply → CallOutcome
  | .failed text => .error ("org.freedesktop.DBus.Error.Failed: " ++ text)
  | .locks _ _ | .empty => .ok read

/-- The daemon's shared state, and the window's client. -/
structure WindowCalls where
  state : SleepBlock
  client : DaemonClient
  deriving DecidableEq, Repr

namespace WindowCalls

/-- What the window does. -/
inductive Label where
  /-- `DaemonClient::snapshot` at the top of a frame. -/
  | frame
  /-- `toggle`, `set_keep_screen_awake` or `set_keep_running_in_tray`. -/
  | call (request : Request) (ans : Answers)
  deriving DecidableEq, Repr

/-- One step; the call of a control is served before it returns. -/
def step (x : WindowCalls) : Label → Option WindowCalls
  | .frame => some { x with client := x.client.snapshot (readStatus x.state) }
  | .call request ans =>
    -- `quit` is no call that returns to the window, and a handler that panics does not answer
    if request ≠ .quit ∧ ans.calm = true then
      let o := perform ⟨request.op, ans⟩ x.state
      let reply := request.reply (o.value.getD none)
      some ⟨o.state, (x.client.toggled (readStatus o.state) reply).1⟩
    else none

end WindowCalls

/-- The window's calls as a machine. -/
def windowCalls : Machine WindowCalls WindowCalls.Label where
  step := WindowCalls.step

end SleepBlocker.Model
