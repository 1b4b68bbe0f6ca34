import SleepBlocker.Analysis.CloseCause
import SleepBlocker.Interface.DaemonSteps
import SleepBlocker.Model.Session

/-!
# Closing the window while the setting changes

`logic` decides on the setting that the window read last, and the daemon handles the Quit
later. `close_spares_daemon_iff` says when the two disagree: the setting was switched on
after that read, and not off again before the Quit is handled.
-/

set_option autoImplicit false

namespace SleepBlocker.Analysis

open SleepBlocker.Computation SleepBlocker.Model

/-- What happened to the setting, as far as closing the window goes. -/
structure CloseHistory where
  /-- The argument of the last `set_keep_running_in_tray` since the window's last read. -/
  stored : Option Bool := none
  /-- For every Quit of `logic` that waits to be handled: the argument of the last
  `set_keep_running_in_tray` since the read that `logic` went by. -/
  waiting : ℕ → Option (Option Bool) := fun _ => none
  /-- The setting at the moment each of these Quits was handled, oldest first. -/
  handled : List Bool := []

namespace CloseHistory

/-- A Quit of `logic` that is handled is entered with the setting there is. -/
def handle (g : CloseHistory) (d : Daemon) : Daemon.Label → CloseHistory
  | .handle h _ =>
    if (g.waiting h).isSome then
      { g with
        waiting := Function.update g.waiting h none
        handled := g.handled ++ [d.state.snapshot.keepRunningInTray] }
    else g
  | _ => g

/-- A `set_keep_running_in_tray` is entered for the window and for the Quits that wait. -/
def store (g : CloseHistory) : Option Bool → CloseHistory
  | some wanted =>
    { g with
      stored := some wanted
      waiting := fun h => (g.waiting h).map fun _ => some wanted }
  | none => g

/-- `logic` has sent these, and the daemon is on the bus or not. -/
def send (g : CloseHistory) (effects : List AppEffect) (connected : Bool) (h : ℕ) :
    CloseHistory :=
  if effects.contains (.request .quit) && connected then
    { g with waiting := Function.update g.waiting h (some g.stored) }
  else g

/-- A read that comes back whole shows what the daemon has stored. -/
def see (g : CloseHistory) : Reading → CloseHistory
  | .returned (some _) => { g with stored := none }
  | _ => g

/-- What the history records of a step. -/
def update (g : CloseHistory) (x : Session) : Session.Label → CloseHistory
  | .daemon l => (g.handle x.daemon l).store (x.daemon.stores l)
  | .logic closeRequested h =>
    g.send ((App.logic closeRequested).run x.app).effects x.daemon.connected h
  | .read true => g.see (x.reading.take (some (x.daemon.state.snapshot.get x.reading.next)))
  | .read false | .quitButton _ | .endFrame => g

end CloseHistory

/-- The session with the history of its closings. -/
def closings : Machine (Session × CloseHistory) Session.Label :=
  sessions.monitor CloseHistory.update

/-- The setting was off whenever a Quit of `logic` was handled. -/
def SparesDaemon (x : Session × CloseHistory) : Prop := ∀ setting ∈ x.2.handled, setting = false

/-- No Quit of `logic` is handled while the last `set_keep_running_in_tray` since the read
that `logic` went by is one that switched the setting on. -/
def NoLateSwitch (x : Session × CloseHistory) : Session.Label → Prop
  | .daemon (.handle h _) => x.2.waiting h ≠ some (some true)
  | _ => True

/-! ## What the steps do -/

/-- What the window sends changes no lock and no setting, and keeps what is waiting. -/
theorem deliver_spec {d t : Daemon} {effects : List AppEffect} {h : ℕ}
    (hd : Session.deliver d effects h = some t) :
    t.state = d.state ∧
      (∀ k request, d.handlers k = .received request → t.handlers k = .received request) ∧
      (effects.contains (.request .quit) = true → d.connected = true →
        t.handlers h = .received .quit) := by
  unfold Session.deliver at hd
  split at hd
  · refine ⟨?_, ?_, ?_⟩
    · rcases Daemon.step_cases hd with ⟨call, hcall, -⟩ | ⟨-, hstate⟩
      · cases hcall
      · exact hstate
    · intro k request hk
      exact Daemon.received_of_step hd hk (by simp)
    · intro _ _
      simp only [Daemon.step, Option.ite_none_right_eq_some, Option.some.injEq] at hd
      obtain ⟨-, rfl⟩ := hd
      exact Function.update_self h _ d.handlers
  · rename_i hidle
    cases hd
    refine ⟨rfl, fun k request hk => hk, ?_⟩
    intro hquit hconnected
    exact absurd (by rw [hquit, hconnected, Bool.and_true]) hidle

/-- A read that comes back whole has read the window setting last. -/
theorem take_returned {r : Reading} {s : Status} {status : Status}
    (h : r.take (some (s.get r.next)) = .returned (some status)) :
    status.keepRunningInTray = s.keepRunningInTray := by
  cases r with
  | keep a b c =>
      simp only [Reading.take, Reading.returned.injEq, Option.some.injEq] at h
      rw [← h]
      rfl
  | idle | sleep a | screen a b | returned status' => simp [Reading.take] at h

/-- What ties the daemon's setting to what the window has read and what was stored since. -/
structure InTouch (x : Session × CloseHistory) : Prop where
  setting : x.1.daemon.state.snapshot.keepRunningInTray =
    x.2.stored.getD x.1.app.client.last.keepRunningInTray
  waiting : ∀ h stored, x.2.waiting h = some stored →
    x.1.daemon.handlers h = .received .quit ∧
      x.1.daemon.state.snapshot.keepRunningInTray = stored.getD false

/-- Where the window has just connected they are in touch. -/
theorem inTouch_start (d : Daemon) (hasTray sleepBlocked screenBlocked keepScreenAwake : Bool) :
    InTouch (.start d hasTray sleepBlocked screenBlocked keepScreenAwake, {}) :=
  ⟨rfl, fun h stored hw => by cases hw⟩

/-- A step of the daemon keeps them in touch. -/
theorem inTouch_daemon {x : Session × CloseHistory} {d : Daemon} {l : Daemon.Label}
    (hs : x.1.daemon.step l = some d) (hx : InTouch x) :
    InTouch ({ x.1 with daemon := d }, x.2.update x.1 (.daemon l)) := by
  have hrunning := Daemon.running_of_step hs
  have hhandle : (x.2.handle x.1.daemon l).stored = x.2.stored := by
    unfold CloseHistory.handle
    split
    · split <;> rfl
    · rfl
  -- a Quit that still waits was waiting before, and is not the one handled now
  have hstill : ∀ h stored, (x.2.handle x.1.daemon l).waiting h = some stored →
      x.2.waiting h = some stored ∧ ∀ ans, l ≠ .handle h ans := by
    intro h stored hw
    unfold CloseHistory.handle at hw
    split at hw
    · rename_i k ans
      split at hw
      · rename_i hwait
        by_cases hk : h = k
        · simp [hk] at hw
        · simp only [Function.update_of_ne hk] at hw
          refine ⟨hw, ?_⟩
          intro ans' hl
          cases hl
          exact hk rfl
      · rename_i hwait
        refine ⟨hw, ?_⟩
        intro ans' hl
        cases hl
        simp [hw] at hwait
    · rename_i hl
      exact ⟨hw, hl h⟩
  have hreceived : ∀ h stored, (x.2.handle x.1.daemon l).waiting h = some stored →
      d.handlers h = .received .quit := by
    intro h stored hw
    obtain ⟨hbefore, hl⟩ := hstill h stored hw
    exact Daemon.received_of_step hs (hx.waiting h stored hbefore).1 hl
  cases hstores : x.1.daemon.stores l with
  | none =>
      rw [hstores] at hrunning
      have hupdate : x.2.update x.1 (.daemon l) = x.2.handle x.1.daemon l := by
        simp [CloseHistory.update, CloseHistory.store, hstores]
      rw [hupdate]
      constructor
      · rw [hhandle]
        exact hrunning.trans hx.setting
      · intro h stored hw
        obtain ⟨hbefore, -⟩ := hstill h stored hw
        exact ⟨hreceived h stored hw, hrunning.trans (hx.waiting h stored hbefore).2⟩
  | some wanted =>
      rw [hstores] at hrunning
      have hupdate : x.2.update x.1 (.daemon l) =
          (x.2.handle x.1.daemon l).store (some wanted) := by
        simp [CloseHistory.update, hstores]
      rw [hupdate]
      constructor
      · exact hrunning
      · intro h stored hw
        simp only [CloseHistory.store, Option.map_eq_some_iff] at hw
        obtain ⟨before, hw, rfl⟩ := hw
        exact ⟨hreceived h before hw, hrunning⟩

/-- A step of the window in which it sends something and reads nothing. -/
theorem inTouch_deliver {x : Session × CloseHistory} {y : Session} {effects : List AppEffect}
    {h : ℕ} (hd : Session.deliver x.1.daemon effects h = some y.daemon)
    (hlast : y.app.client.last = x.1.app.client.last) (hx : InTouch x) : InTouch (y, x.2) := by
  obtain ⟨hstate, hkeeps, -⟩ := deliver_spec hd
  constructor
  · rw [hstate, hlast]
    exact hx.setting
  · intro k stored hw
    obtain ⟨hreceived, hsetting⟩ := hx.waiting k stored hw
    exact ⟨hkeeps k _ hreceived, by rw [hstate]; exact hsetting⟩

/-- `logic` sends a Quit only while the window shows the setting off. -/
theorem inTouch_logic {x : Session × CloseHistory} {y : Session} {closeRequested : Bool} {h : ℕ}
    (hd : Session.deliver x.1.daemon ((App.logic closeRequested).run x.1.app).effects h =
      some y.daemon)
    (happ : y.app = ((App.logic closeRequested).run x.1.app).state) (hx : InTouch x) :
    InTouch (y, x.2.update x.1 (.logic closeRequested h)) := by
  obtain ⟨_, -, hsame, -, hquit⟩ := logic_ensures closeRequested x.1.app
  have hlast : y.app.client.last = x.1.app.client.last := by rw [happ, hsame]
  have hy := inTouch_deliver hd hlast hx
  obtain ⟨hstate, -, hnew⟩ := deliver_spec hd
  simp only [CloseHistory.update, CloseHistory.send]
  split
  · rename_i hsent
    simp only [Bool.and_eq_true] at hsent
    obtain ⟨hsent, hconnected⟩ := hsent
    refine ⟨hy.setting, ?_⟩
    intro k stored hw
    by_cases hk : k = h
    · subst hk
      simp only [Function.update_self, Option.some.injEq] at hw
      subst hw
      have hoff : x.1.app.client.last.keepRunningInTray = false := by
        rw [hquit] at hsent
        simp only [Bool.and_eq_true, Bool.not_eq_true'] at hsent
        exact hsent.2.2
      refine ⟨hnew hsent hconnected, ?_⟩
      rw [hstate, hx.setting, hoff]
    · simp only [Function.update_of_ne hk] at hw
      exact hy.waiting k stored hw
  · exact hy

/-- A read keeps them in touch. -/
theorem inTouch_read {x : Session × CloseHistory} (hx : InTouch x) :
    InTouch (x.1.take (some (x.1.daemon.state.snapshot.get x.1.reading.next)),
      x.2.update x.1 (.read true)) := by
  simp only [CloseHistory.update, Session.take]
  cases htake : x.1.reading.take (some (x.1.daemon.state.snapshot.get x.1.reading.next)) with
  | returned status =>
      cases status with
      | some status =>
          refine ⟨?_, hx.waiting⟩
          exact (take_returned htake).symm
      | none => exact ⟨hx.setting, hx.waiting⟩
  | idle | sleep a | screen a b | keep a b c => exact ⟨hx.setting, hx.waiting⟩

/-- Every step keeps them in touch. -/
theorem inTouch_step (x : Session × CloseHistory) (a : Session.Label)
    (y : Session × CloseHistory) (hs : closings.step x a = some y) (hx : InTouch x) :
    InTouch y := by
  obtain ⟨hw, hy⟩ := Machine.monitor_step_eq_some.mp hs
  obtain ⟨t, g⟩ := y
  simp only [sessions] at hw hy
  subst hy
  cases a with
  | daemon l =>
      simp only [Session.step, Option.map_eq_some_iff] at hw
      obtain ⟨d, hd, rfl⟩ := hw
      exact inTouch_daemon hd hx
  | logic closeRequested h =>
      simp only [Session.step, Option.ite_none_left_eq_some, Option.map_eq_some_iff] at hw
      obtain ⟨-, d, hd, rfl⟩ := hw
      exact inTouch_logic hd rfl hx
  | read ok =>
      simp only [Session.step, Option.ite_none_right_eq_some] at hw
      obtain ⟨-, hw⟩ := hw
      cases ok with
      | true =>
          simp only [if_true, Option.ite_none_right_eq_some, Option.some.injEq] at hw
          obtain ⟨-, rfl⟩ := hw
          exact inTouch_read hx
      | false =>
          simp only [Bool.false_eq_true, if_false, Option.some.injEq] at hw
          subst hw
          exact ⟨hx.setting, hx.waiting⟩
  | quitButton h =>
      simp only [Session.step, Option.ite_none_right_eq_some, Option.map_eq_some_iff] at hw
      obtain ⟨-, d, hd, rfl⟩ := hw
      exact inTouch_deliver hd rfl hx
  | endFrame =>
      simp only [Session.step, Option.ite_none_right_eq_some, Option.some.injEq] at hw
      obtain ⟨-, rfl⟩ := hw
      exact ⟨hx.setting, hx.waiting⟩

/-- Storing the setting handles no Quit. -/
@[simp] theorem store_handled (g : CloseHistory) (stored : Option Bool) :
    (g.store stored).handled = g.handled := by
  cases stored <;> rfl

/-- Only the handling of a waiting Quit is recorded. -/
theorem handled_update (g : CloseHistory) (x : Session) (a : Session.Label) :
    (g.update x a).handled = match a with
      | .daemon (.handle h _) => if (g.waiting h).isSome then
          g.handled ++ [x.daemon.state.snapshot.keepRunningInTray] else g.handled
      | _ => g.handled := by
  cases a with
  | daemon l =>
      simp only [CloseHistory.update, store_handled]
      cases l with
      | handle h ans =>
          simp only [CloseHistory.handle]
          split <;> rfl
      | _ => rfl
  | logic closeRequested h =>
      simp only [CloseHistory.update, CloseHistory.send]
      split <;> rfl
  | read ok =>
      cases ok with
      | false => rfl
      | true =>
          simp only [CloseHistory.update]
          unfold CloseHistory.see
          split <;> rfl
  | quitButton h => rfl
  | endFrame => rfl

/-- One step stops a daemon that should go on exactly when it comes after a late switch. -/
theorem sparesDaemon_step (x : Session × CloseHistory) (a : Session.Label)
    (y : Session × CloseHistory) (hs : closings.step x a = some y) (hx : InTouch x)
    (hspares : SparesDaemon x) : SparesDaemon y ↔ NoLateSwitch x a := by
  obtain ⟨-, hy⟩ := Machine.monitor_step_eq_some.mp hs
  have hhandled := handled_update x.2 x.1 a
  rw [← hy] at hhandled
  unfold NoLateSwitch
  split at hhandled
  · rename_i h ans
    cases hwait : x.2.waiting h with
    | none =>
        simp only [hwait, Option.isSome_none, Bool.false_eq_true, if_false] at hhandled
        simpa [SparesDaemon, hhandled] using hspares
    | some stored =>
        have hsetting := (hx.waiting h stored hwait).2
        simp only [hwait, Option.isSome_some, if_true] at hhandled
        have hspared : SparesDaemon y ↔ stored.getD false = false := by
          simp only [SparesDaemon, hhandled, List.forall_mem_append, List.forall_mem_singleton,
            hsetting]
          exact and_iff_right hspares
        rw [hspared]
        cases stored with
        | none => simp
        | some wanted => cases wanted <;> simp
  · have hspared : SparesDaemon y := by
      unfold SparesDaemon
      rw [hhandled]
      exact hspares
    exact iff_true_intro hspared

/-- **Closing the window spares a daemon that is to keep running, unless the option is
switched on late.** Take any daemon, any window that has just connected to it, and any order
of the window's frames, reads and close requests with the tray's callbacks, the other
clients' requests and the main thread. The setting is off whenever the daemon handles a Quit
that `logic` sent for a close, in every state the run visits, exactly when no such Quit is
handled while the last `set_keep_running_in_tray` since the read that `logic` went by is one
that switched the setting on.
SOURCE: main.rs:187-199, client.rs:137-192, tray.rs:208-216 -/
theorem close_spares_daemon_iff {d : Daemon}
    {hasTray sleepBlocked screenBlocked keepScreenAwake : Bool} {run : List Session.Label}
    {x : Session}
    (hr : sessions.run (.start d hasTray sleepBlocked screenBlocked keepScreenAwake) run =
      some x) :
    closings.Everywhere SparesDaemon
        (.start d hasTray sleepBlocked screenBlocked keepScreenAwake, {}) run ↔
      closings.Along NoLateSwitch
        (.start d hasTray sleepBlocked screenBlocked keepScreenAwake, {}) run := by
  apply Machine.monitor_iff_along inTouch_step sparesDaemon_step hr
  · exact inTouch_start d hasTray sleepBlocked screenBlocked keepScreenAwake
  · intro setting hmem
    cases hmem

/-- A daemon that is up and has a tray. -/
def waitingDaemon : Daemon := { stage := .waiting, hasTray := true }

/-- The user blocks sleep, switches the option on in the tray and closes the window, all
before the window reads again. -/
def lateSwitch : List Session.Label :=
  [.daemon (.activate ⟨.granted 3, .granted 6, true⟩), .daemon .runningItemRead,
    .daemon (.runningItemSet ⟨.granted 3, .granted 6, true⟩), .logic true 0]

/-- The lock is held and the option is on; the Quit of the close releases the lock. -/
theorem lateSwitch_stopped :
    ∃ x y, closings.run (.start waitingDaemon true false false false, {}) lateSwitch = some x ∧
      x.1.daemon.state.snapshot = ⟨true, false, false, true⟩ ∧
      closings.step x (.daemon (.handle 0 ⟨.granted 3, .granted 6, true⟩)) = some y ∧
      y.1.daemon.state.snapshot.sleepBlocked = false ∧ ¬ SparesDaemon y := by
  refine ⟨_, _, rfl, rfl, rfl, rfl, fun h => ?_⟩
  exact absurd (h true (List.mem_singleton.mpr rfl)) (by decide)

/-- The option is switched on in the tray, and the window reads before it is closed. -/
theorem close_spares_daemon_iff_seen :
    let run : List Session.Label :=
      [.logic false 0, .daemon .runningItemRead,
        .daemon (.runningItemSet ⟨.granted 3, .granted 6, true⟩), .read true, .read true,
        .read true, .read true, .endFrame, .logic true 0]
    (∃ x, sessions.run (.start waitingDaemon true false false false) run = some x) ∧
      (closings.Everywhere SparesDaemon (.start waitingDaemon true false false false, {}) run ↔
        closings.Along NoLateSwitch (.start waitingDaemon true false false false, {}) run) :=
  ⟨⟨_, rfl⟩, close_spares_daemon_iff rfl⟩

end SleepBlocker.Analysis
