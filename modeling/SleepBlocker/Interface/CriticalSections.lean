import SleepBlocker.Computation.Machine
import SleepBlocker.Model.State

/-!
# What each critical section does, branch by branch

One closed form per branch of `toggle`, `setKeepScreenAwake`, `setKeepRunningInTray` and
`releaseAll`: the effects in order, the state left behind and the value. Everything
later is proved from these forms and never unfolds the bodies.

`Calls` are the public operations as data, so that a history of calls is a list;
`perform` runs one of them.
-/

set_option autoImplicit false

namespace SleepBlocker.Model

open SleepBlocker.Computation

variable {ans : Answers} {s : Inner}

/-! ## The branches -/

/-- What dropping a stored screen inhibitor performs. -/
def dropped (saver : Bool) : Option ScreenInhibitor → List Effect
  | some screen => if saver then [.unInhibit screen.cookie] else []
  | none => []

/-- What closing a stored inhibitor performs. -/
def closed : Option Inhibitor → List Effect
  | some inhibitor => [.close inhibitor.fd]
  | none => []

/-- The value of a call whose acquire did not grant: the error, or `none` for a panic. -/
def ungranted {α β : Type} : Answer α → Option (Except Error β)
  | .unreachable e => some (.error (.connect e))
  | .refused e => some (.error (.inhibit e))
  | .granted _ | .panics => none

/-- Setting the screen lock drops the one that was held. -/
theorem setScreen_run (saver : Bool) (value : Option ScreenInhibitor) :
    (setScreen saver value).run s =
      ⟨dropped saver s.screen, { s with screen := value }, some ()⟩ := by
  cases hs : s.screen <;> cases saver <;>
    simp [setScreen, Effectful.run_bind, hs, dropped, ScreenInhibitor.drop]

/-- Setting the inhibitor closes the one that was held. -/
theorem setInhibitor_run (value : Option Inhibitor) :
    (setInhibitor value).run s =
      ⟨closed s.inhibitor, { s with inhibitor := value }, some ()⟩ := by
  cases hs : s.inhibitor <;>
    simp [setInhibitor, Effectful.run_bind, hs, closed, Inhibitor.drop]

/-- `release_all` drops what is held and forgets it. -/
theorem releaseAll_run (saver : Bool) :
    (releaseAll saver).run s =
      ⟨dropped saver s.screen ++ closed s.inhibitor,
        { s with inhibitor := none, screen := none }, some ()⟩ := by
  simp [releaseAll, Effectful.run_bind, setScreen_run, setInhibitor_run]

/-- `set_keep_running_in_tray` moves that flag and nothing else. -/
theorem setKeepRunningInTray_run (wanted : Bool) :
    (setKeepRunningInTray wanted).run s =
      ⟨[], { s with keepRunningInTray := wanted },
        some (statusOf { s with keepRunningInTray := wanted })⟩ := by
  simp [setKeepRunningInTray, Effectful.run_bind]

/-- A granted screen lock is stored; what was stored before is dropped after the grant. -/
theorem acquireScreen_run_granted {cookie : Cookie} (hg : ans.screen = .granted cookie) :
    (acquireScreen ans).run s =
      ⟨.screenInhibit ans.screen :: dropped ans.saver s.screen,
        { s with screen := some ⟨cookie⟩ },
        some (.ok (statusOf { s with screen := some ⟨cookie⟩ }))⟩ := by
  simp [acquireScreen, ScreenInhibitor.acquire, Effectful.run_bind, hg, setScreen_run, okStatus]

/-- A screen lock that fails resets the preference; one that panics leaves it. -/
theorem acquireScreen_run_ungranted (hg : ans.screen.grant = none) :
    (acquireScreen ans).run s =
      ⟨[.screenInhibit ans.screen],
        { s with keepScreenAwake := !ans.screen.fails && s.keepScreenAwake },
        ungranted ans.screen⟩ := by
  cases ha : ans.screen <;>
    simp_all [acquireScreen, ScreenInhibitor.acquire, Effectful.run_bind, setPreference,
      Answer.grant, Answer.fails, ungranted]

/-- `toggle` while sleep is blocked releases both locks, the screen lock first. -/
theorem toggle_run_held {i : Inhibitor} (h : s.inhibitor = some i) :
    (toggle ans).run s =
      ⟨dropped ans.saver s.screen ++ [.close i.fd], { s with inhibitor := none, screen := none },
        some (.ok (statusOf { s with inhibitor := none, screen := none }))⟩ := by
  simp [toggle, Effectful.run_bind, h, setScreen_run, setInhibitor_run, closed, okStatus]

/-- `toggle` without a descriptor from logind changes nothing. -/
theorem toggle_run_ungranted (h : s.inhibitor = none) (hg : ans.logind.grant = none) :
    (toggle ans).run s = ⟨[.inhibit ans.logind], s, ungranted ans.logind⟩ := by
  cases ha : ans.logind <;>
    simp_all [toggle, Inhibitor.acquire, Effectful.run_bind, Answer.grant, ungranted]

/-- `toggle` with a descriptor and no screen preference blocks sleep. -/
theorem toggle_run_granted {fd : Fd} (h : s.inhibitor = none) (hg : ans.logind = .granted fd)
    (hk : s.keepScreenAwake = false) :
    (toggle ans).run s =
      ⟨[.inhibit ans.logind], { s with inhibitor := some ⟨fd⟩ },
        some (.ok (statusOf { s with inhibitor := some ⟨fd⟩ }))⟩ := by
  simp [toggle, Inhibitor.acquire, Effectful.run_bind, h, hg, hk, setInhibitor_run, closed,
    okStatus]

/-- `toggle` with a descriptor and the screen preference goes on to the screen lock. -/
theorem toggle_run_granted_screen {fd : Fd} (h : s.inhibitor = none)
    (hg : ans.logind = .granted fd) (hk : s.keepScreenAwake = true) :
    (toggle ans).run s =
      ⟨.inhibit ans.logind :: ((acquireScreen ans).run { s with inhibitor := some ⟨fd⟩ }).effects,
        ((acquireScreen ans).run { s with inhibitor := some ⟨fd⟩ }).state,
        ((acquireScreen ans).run { s with inhibitor := some ⟨fd⟩ }).value⟩ := by
  simp [toggle, Inhibitor.acquire, Effectful.run_bind, h, hg, hk, setInhibitor_run, closed]

/-- The two cases of `set_keep_screen_awake`: it goes for the screen lock, or it only
records the preference. -/
theorem setKeepScreenAwake_split (wanted : Bool) (s : Inner) :
    ((wanted && s.inhibitor.isSome) = true ∧ s.screen = none) ∨
      ((wanted && s.inhibitor.isSome) = false ∨ s.screen.isSome = true) := by
  cases hw : (wanted && s.inhibitor.isSome)
  · exact Or.inr (Or.inl rfl)
  · cases hs : s.screen with
    | none => exact Or.inl ⟨rfl, rfl⟩
    | some screen => exact Or.inr (Or.inr rfl)

/-- `set_keep_screen_awake` acquires when the lock is wanted, possible and not yet held. -/
theorem setKeepScreenAwake_run_acquire {wanted : Bool}
    (h : (wanted && s.inhibitor.isSome) = true) (hs : s.screen = none) :
    (setKeepScreenAwake wanted ans).run s =
      (acquireScreen ans).run { s with keepScreenAwake := wanted } := by
  simp [setKeepScreenAwake, setPreference, Effectful.run_bind, h, hs]

/-- In every other case it records the preference, and drops a lock no longer wanted. -/
theorem setKeepScreenAwake_run_record {wanted : Bool}
    (h : (wanted && s.inhibitor.isSome) = false ∨ s.screen.isSome = true) :
    (setKeepScreenAwake wanted ans).run s =
      let screen := if wanted && s.inhibitor.isSome then s.screen else none
      ⟨if wanted && s.inhibitor.isSome then [] else dropped ans.saver s.screen,
        { s with keepScreenAwake := wanted, screen := screen },
        some (.ok (statusOf { s with keepScreenAwake := wanted, screen := screen }))⟩ := by
  rcases h with h | h
  · cases hs : s.screen <;>
      simp [setKeepScreenAwake, setPreference, Effectful.run_bind, setScreen_run, okStatus,
        dropped, h, hs]
  · obtain ⟨screen, hs⟩ := Option.isSome_iff_exists.mp h
    cases hw : (wanted && s.inhibitor.isSome) <;>
      simp [setKeepScreenAwake, setPreference, Effectful.run_bind, setScreen_run, okStatus,
        dropped, hw, hs]

/-! ## Calls as data -/

/-- The public operations of `SleepBlock`. -/
inductive Op where
  | toggle
  | setKeepScreenAwake (wanted : Bool)
  | setKeepRunningInTray (wanted : Bool)
  | releaseAll
  | snapshot
  deriving DecidableEq, Repr

/-- One call: the operation, and what the services do while it runs. -/
structure Call where
  op : Op
  answers : Answers
  deriving DecidableEq, Repr

/-- The critical section of an operation. `release_all` returns nothing and the operations
that cannot fail return a plain status. -/
def Op.body (ans : Answers) : Op → Critical (Option (Except Error Status))
  | .toggle => do return some (← Model.toggle ans)
  | .setKeepScreenAwake wanted => do return some (← Model.setKeepScreenAwake wanted ans)
  | .setKeepRunningInTray wanted => do return some (.ok (← Model.setKeepRunningInTray wanted))
  | .releaseAll => do Model.releaseAll ans.saver; return none
  | .snapshot => do return some (.ok (statusOf (← Effectful.read)))

/-- A call of `SleepBlock`: its body under the lock, with these answers of the services. -/
def perform (call : Call) (s : SleepBlock) :
    Outcome SleepBlock Effect (Option (Except Error Status)) :=
  s.critical (call.op.body call.answers)

/-- An operation with a result passes on the outcome of its body. -/
theorem run_return_some (x : Critical (Except Error Status)) :
    (do return some (← x) : Critical (Option (Except Error Status))).run s =
      ⟨(x.run s).effects, (x.run s).state, (x.run s).value.map some⟩ := by
  rw [Effectful.run_bind]
  match h : x.run s with
  | ⟨es, t, some a⟩ => simp
  | ⟨es, t, none⟩ => simp

/-- What `perform` does to the guarded data and what it returns, from the body's outcome. -/
theorem perform_eq (call : Call) (s : SleepBlock) :
    (perform call s).effects = ((call.op.body call.answers).run s.inner.data).effects ∧
      (perform call s).state.inner.data = ((call.op.body call.answers).run s.inner.data).state ∧
      (perform call s).value = ((call.op.body call.answers).run s.inner.data).value := by
  simp [perform, SleepBlock.critical]

/-- The calls on one `SleepBlock`, whichever clone and thread each comes from: the mutex
makes every run of them a list. -/
def calls : Machine SleepBlock Call where
  step s call := some (perform call s).state

/-- Every list of calls can be made. -/
theorem calls_run_total (history : List Call) (s : SleepBlock) :
    ∃ t, calls.run s history = some t := by
  induction history generalizing s with
  | nil => exact ⟨s, rfl⟩
  | cons call history ih => exact ih (perform call s).state

end SleepBlocker.Model
