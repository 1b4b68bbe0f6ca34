import SleepBlocker.Model.Client

/-!
# Toggles requested by one window

`DaemonClient::toggle` against the daemon's handler. A call sends its request and waits;
it returns with the daemon's reply, or with the connection's `method_timeout`, or with the
error of a request that could not be sent. The request itself is on the bus, then in a
handler, then answered, at the daemon's own pace and whether or not the call still waits.
No other party acts.
-/

set_option autoImplicit false

namespace SleepBlocker.Model

open SleepBlocker.Computation

/-- What `DaemonClient::toggle` returns: a status, or the error it passes on. -/
inductive CallResult where
  | ok (status : Status)
  /-- The daemon replied with `Failed`. -/
  | failed (text : String)
  /-- `method_timeout` ran out. -/
  | timedOut
  /-- The request never left. -/
  | notSent
  deriving DecidableEq, Repr

/-- The end of `DaemonClient::toggle`: a reply is followed by a `snapshot`, which reads
`read`; an error is passed on. -/
def DaemonClient.toggled (c : DaemonClient) (read : Option Status) :
    Reply → DaemonClient × CallResult
  | .failed text => (c, .failed text)
  | .locks _ _ | .empty => (c.snapshot read, .ok (c.snapshot read).last)

/-- A daemon and one window's calls, numbered in the order they are made. -/
structure ToggleCalls where
  daemon : Daemon
  client : DaemonClient
  made : ℕ := 0
  /-- The last call has not returned. -/
  waiting : Bool := false
  /-- The requests on their way to the daemon. -/
  bus : ℕ → Bool := fun _ => false
  results : ℕ → Option CallResult := fun _ => none

namespace ToggleCalls

/-- A step of the window's call, of the daemon's handler or of the connection. -/
inductive Label where
  | call (sent : Bool)
  | receive (n : ℕ)
  | handle (n : ℕ) (ans : Answers)
  | readProperty (n : ℕ)
  | sendSignal (n : ℕ)
  | reply (n : ℕ)
  | returns (read : Option Status)
  | timesOut
  deriving DecidableEq

/-- A daemon in service and a window connected to it. -/
def start (s : SleepBlock) (c : DaemonClient) : ToggleCalls :=
  { daemon := { state := s, stage := .waiting }, client := c }

/-- A step of the daemon beside the calls. -/
def serve (w : ToggleCalls) (l : Daemon.Label) : Option ToggleCalls :=
  (w.daemon.step l).map fun d => { w with daemon := d }

/-- One step; a window has at most one call under way. -/
def step (w : ToggleCalls) : Label → Option ToggleCalls
  | .call true =>
    if w.waiting then none
    else some { w with made := w.made + 1, waiting := true, bus := Function.update w.bus w.made true }
  | .call false =>
    if w.waiting then none
    else some { w with
      made := w.made + 1
      results := Function.update w.results w.made (some .notSent) }
  | .receive n =>
    if w.bus n then
      ({ w with bus := Function.update w.bus n false } : ToggleCalls).serve (.receive n .toggle)
    else none
  | .handle n ans => w.serve (.handle n ans)
  | .readProperty n => w.serve (.readProperty n)
  | .sendSignal n => w.serve (.sendSignal n)
  | .reply n => w.serve (.reply n)
  | .returns read =>
    if w.waiting then
      (w.daemon.replies.lookup (w.made - 1)).map fun r =>
        { w with
          client := (w.client.toggled read r).1
          waiting := false
          results := Function.update w.results (w.made - 1) (some (w.client.toggled read r).2) }
    else none
  | .timesOut =>
    if w.waiting then
      some { w with
        waiting := false
        results := Function.update w.results (w.made - 1) (some .timedOut) }
    else none

end ToggleCalls

/-- The calls as a machine. -/
def toggleCalls : Machine ToggleCalls ToggleCalls.Label where
  step := ToggleCalls.step

end SleepBlocker.Model
