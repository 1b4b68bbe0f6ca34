import SleepBlocker.Computation.Effectful

/-!
# The two inhibitor primitives

The model of `inhibit.rs`: `Inhibitor` blocks system sleep through logind and lives as
long as the descriptor it owns; `ScreenInhibitor` blocks screen locking through the
ScreenSaver service and must hand its cookie back. The services' answers are inputs,
and the calls that leave the process are the `Effect`s. A field that the code only keeps
alive, such as the session connection beside the cookie, is left out.
-/

set_option autoImplicit false

namespace SleepBlocker.Model

open SleepBlocker.Computation

/-- The descriptor logind hands out. -/
abbrev Fd := ℕ

/-- The cookie a ScreenSaver service hands out. -/
abbrev Cookie := UInt32

/-- Why an acquire failed; the texts are those of the underlying bus errors. -/
inductive Error where
  /-- Could not reach the bus or build the proxy. -/
  | connect (e : String)
  /-- The service refused or failed the Inhibit call. -/
  | inhibit (e : String)
  deriving DecidableEq, Repr

/-- The `Display` text, which names logind for both services. -/
def Error.toString : Error → String
  | .connect e => "cannot reach systemd-logind: " ++ e
  | .inhibit e => "logind refused the inhibitor: " ++ e

/-- What happens to one acquire: the service cannot be reached, refuses, grants, or the
call panics. Only a grant hands anything out. -/
inductive Answer (α : Type) where
  | unreachable (e : String)
  | refused (e : String)
  | granted (a : α)
  | panics
  deriving DecidableEq, Repr

/-- What the service grants, if it does. -/
def Answer.grant {α : Type} : Answer α → Option α
  | .granted a => some a
  | _ => none

/-- The service could not be reached or refused. -/
def Answer.fails {α : Type} : Answer α → Bool
  | .unreachable _ | .refused _ => true
  | _ => false

/-- Whether the acquire returns at all. -/
def Answer.calm {α : Type} : Answer α → Bool
  | .panics => false
  | _ => true

/-- What the services do during one call: the answers to the two acquires, should the
call make them, and whether the proxy that `Drop` needs can be built. -/
structure Answers where
  logind : Answer Fd
  screen : Answer Cookie
  saver : Bool := true
  deriving DecidableEq, Repr

/-- No service makes the call panic. -/
def Answers.calm (ans : Answers) : Bool := ans.logind.calm && ans.screen.calm

/-- The calls that reach the world outside. -/
inductive Effect where
  | inhibit (answer : Answer Fd)
  /-- The descriptor is closed, which releases the lock. -/
  | close (fd : Fd)
  | screenInhibit (answer : Answer Cookie)
  | unInhibit (cookie : Cookie)
  deriving DecidableEq, Repr

/-- `Inhibitor`: the lock is held as long as the descriptor is open. -/
structure Inhibitor where
  fd : Fd
  deriving DecidableEq, Repr

/-- `ScreenInhibitor`: the lock is held under this cookie. -/
structure ScreenInhibitor where
  cookie : Cookie
  deriving DecidableEq, Repr

variable {σ : Type}

/-- `Inhibitor::acquire`: the bus, the proxy, then the Inhibit call. -/
def Inhibitor.acquire (answer : Answer Fd) : Effectful σ Effect (Except Error Inhibitor) := do
  Effectful.emit (.inhibit answer)
  match answer with
  | .unreachable e => pure (.error (.connect e))
  | .refused e => pure (.error (.inhibit e))
  | .granted fd => pure (.ok ⟨fd⟩)
  | .panics => Effectful.unwind

/-- Dropping an inhibitor closes its descriptor. -/
def Inhibitor.drop (inhibitor : Inhibitor) : Effectful σ Effect Unit :=
  Effectful.emit (.close inhibitor.fd)

/-- `ScreenInhibitor::acquire`: the bus, the proxy, then the Inhibit call. -/
def ScreenInhibitor.acquire (answer : Answer Cookie) :
    Effectful σ Effect (Except Error ScreenInhibitor) := do
  Effectful.emit (.screenInhibit answer)
  match answer with
  | .unreachable e => pure (.error (.connect e))
  | .refused e => pure (.error (.inhibit e))
  | .granted cookie => pure (.ok ⟨cookie⟩)
  | .panics => Effectful.unwind

/-- `Drop for ScreenInhibitor`: best effort, so a saver that cannot be reached is not told. -/
def ScreenInhibitor.drop (saver : Bool) (screen : ScreenInhibitor) :
    Effectful σ Effect Unit :=
  if saver then Effectful.emit (.unInhibit screen.cookie) else pure ()

end SleepBlocker.Model
