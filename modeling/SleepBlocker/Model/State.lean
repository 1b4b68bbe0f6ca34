import SleepBlocker.Model.Inhibit

/-!
# The shared inhibitor state

The model of `state.rs`. Every public operation of `SleepBlock` is one critical section
of its mutex: `critical` takes the lock, recovering it when it is poisoned, runs the
body on the guarded `Inner`, and poisons the mutex if the body unwinds. A clone is
another handle to the same mutex, so calls on any clones from any threads are one
sequence of critical sections.
-/

set_option autoImplicit false

namespace SleepBlocker.Model

open SleepBlocker.Computation

/-- A snapshot of what is inhibited, for rendering. -/
structure Status where
  sleepBlocked : Bool
  screenBlocked : Bool
  keepScreenAwake : Bool
  keepRunningInTray : Bool
  deriving DecidableEq, Repr

/-- `Inner`: what the lock guards. -/
structure Inner where
  inhibitor : Option Inhibitor := none
  screen : Option ScreenInhibitor := none
  keepScreenAwake : Bool := false
  keepRunningInTray : Bool := false
  deriving DecidableEq, Repr

/-- `Inner::status`. -/
def statusOf (inner : Inner) : Status where
  sleepBlocked := inner.inhibitor.isSome
  screenBlocked := inner.screen.isSome
  keepScreenAwake := inner.keepScreenAwake
  keepRunningInTray := inner.keepRunningInTray

/-- A critical section: it works on what the lock guards. -/
abbrev Critical (α : Type) := Effectful Inner Effect α

/-- `inner.inhibitor = value`: the assignment drops what the place held. -/
def setInhibitor (value : Option Inhibitor) : Critical Unit := do
  match (← Effectful.read).inhibitor with
  | some old => old.drop
  | none => pure ()
  Effectful.update fun inner => { inner with inhibitor := value }

/-- `inner.screen = value`: the assignment drops what the place held. -/
def setScreen (saver : Bool) (value : Option ScreenInhibitor) : Critical Unit := do
  match (← Effectful.read).screen with
  | some old => old.drop saver
  | none => pure ()
  Effectful.update fun inner => { inner with screen := value }

/-- `inner.keep_screen_awake = value`. -/
def setPreference (value : Bool) : Critical Unit :=
  Effectful.update fun inner => { inner with keepScreenAwake := value }

/-- `Ok(inner.status())`. -/
def okStatus : Critical (Except Error Status) := do
  return .ok (statusOf (← Effectful.read))

/-- Acquires and stores the screen lock, resetting the preference on failure: the match
that `toggle` and `set_keep_screen_awake` share. -/
def acquireScreen (ans : Answers) : Critical (Except Error Status) := do
  match ← ScreenInhibitor.acquire ans.screen with
  | .ok screen =>
    setScreen ans.saver (some screen)
    okStatus
  | .error e =>
    setPreference false
    return .error e

/-- `SleepBlock::toggle`, under the lock. -/
def toggle (ans : Answers) : Critical (Except Error Status) := do
  if (← Effectful.read).inhibitor.isSome then
    setScreen ans.saver none
    setInhibitor none
    okStatus
  else
    match ← Inhibitor.acquire ans.logind with
    | .error e => return .error e
    | .ok inhibitor =>
      setInhibitor (some inhibitor)
      if (← Effectful.read).keepScreenAwake then
        acquireScreen ans
      else
        okStatus

/-- `SleepBlock::set_keep_screen_awake`, under the lock. -/
def setKeepScreenAwake (wanted : Bool) (ans : Answers) : Critical (Except Error Status) := do
  setPreference wanted
  let inner ← Effectful.read
  match wanted && inner.inhibitor.isSome, inner.screen.isSome with
  | true, false => acquireScreen ans
  | false, true =>
    setScreen ans.saver none
    okStatus
  | _, _ => okStatus

/-- `SleepBlock::set_keep_running_in_tray`, under the lock. -/
def setKeepRunningInTray (wanted : Bool) : Critical Status := do
  Effectful.update fun inner => { inner with keepRunningInTray := wanted }
  return statusOf (← Effectful.read)

/-- `SleepBlock::release_all`, under the lock. -/
def releaseAll (saver : Bool) : Critical Unit := do
  setScreen saver none
  setInhibitor none

/-- A mutex: the data it guards, and whether a holder panicked. -/
structure Mutex (α : Type) where
  data : α
  poisoned : Bool := false
  deriving DecidableEq, Repr

/-- `Mutex::lock`: a poisoned mutex answers with the data inside the error. -/
def Mutex.lock {α : Type} (m : Mutex α) : Except α α :=
  if m.poisoned then .error m.data else .ok m.data

/-- `SleepBlock`: the data behind its lock. -/
structure SleepBlock where
  inner : Mutex Inner := ⟨{}, false⟩
  deriving DecidableEq, Repr

namespace SleepBlock

/-- `SleepBlock::new`. -/
def new : SleepBlock := {}

/-- `SleepBlock::lock`: recovers from a poisoned mutex. -/
def lock (s : SleepBlock) : Inner :=
  match s.inner.lock with
  | .ok inner => inner
  | .error inner => inner

/-- One critical section: lock, run the body, and poison the mutex if it unwinds. -/
def critical {α : Type} (body : Critical α) (s : SleepBlock) : Outcome SleepBlock Effect α :=
  let o := body.run s.lock
  ⟨o.effects, ⟨⟨o.state, s.inner.poisoned || o.value.isNone⟩⟩, o.value⟩

/-- `SleepBlock::snapshot`. -/
def snapshot (s : SleepBlock) : Status := statusOf s.lock

/-- The lock is taken whether it is poisoned or not. -/
@[simp] theorem lock_eq (s : SleepBlock) : s.lock = s.inner.data := by
  unfold lock Mutex.lock
  cases s.inner.poisoned <;> rfl

/-- A snapshot is the status of the data. -/
theorem snapshot_eq (s : SleepBlock) : s.snapshot = statusOf s.inner.data := by
  simp [snapshot]

end SleepBlock

end SleepBlocker.Model
