import SleepBlocker.Computation.Amortized
import SleepBlocker.Interface.DaemonSteps
import SleepBlocker.Model.Listening

/-!
# A Quit always reaches the main thread

`main` begins to listen before anything can notify the event, so the notification of a Quit is
kept for it until it waits: `Heard` says that the listener is marked exactly when the event has
been notified. With that `listening` and `daemon` have the same runs, the main thread blocks
nowhere but in `done.wait()` and there no longer than until the first Quit, and from any state
in which somebody has asked for a Quit that Quit and the main thread bring the process to its
end on their own.
-/

set_option autoImplicit false

namespace SleepBlocker.Analysis

open SleepBlocker.Computation SleepBlocker.Model

/-! ## Steps of the daemon -/

/-- How many steps `main` has left once it listens. -/
def stepsLeft : Stage → ℕ
  | .starting => 6
  | .trayStarted => 5
  | .serving => 4
  | .waiting => 3
  | .returning => 2
  | .closed => 1
  | .exited => 0

/-- The step is one that `main` takes. -/
def ofMain : Daemon.Label → Bool
  | .crash => false
  | a => a.party == .main

variable {ε : Type} {E : Event ε} {d t : Daemon} {a : Daemon.Label} {x y : Listening ε}

/-- No step takes `main` back, and its own take it forward. -/
theorem stepsLeft_of_step (hs : d.step a = some t) :
    (ofMain a).toNat + stepsLeft t.stage ≤ stepsLeft d.stage := by
  by_cases hmain : a.party = .main
  · cases a <;> simp only [Daemon.Label.party, reduceCtorEq] at hmain
    case crash =>
      simp only [Daemon.step, Option.ite_none_left_eq_some, Option.some.injEq] at hs
      obtain ⟨-, rfl⟩ := hs
      simp [ofMain, stepsLeft]
    all_goals
      simp only [Daemon.step, Option.ite_none_right_eq_some, Option.some.injEq] at hs
      obtain ⟨hstage, rfl⟩ := hs
    case serve ok => cases ok <;> simp [ofMain, Daemon.Label.party, stepsLeft, hstage]
    case requestName reply => cases reply <;> simp [ofMain, Daemon.Label.party, stepsLeft, hstage]
    case wake => simp [ofMain, Daemon.Label.party, stepsLeft, hstage.1]
    case exit => rcases hstage with h | h <;> simp [ofMain, Daemon.Label.party, stepsLeft, h]
    all_goals simp [ofMain, Daemon.Label.party, stepsLeft, hstage]
  · have hstage := ((Daemon.frame_of_party hs).1 hmain).1
    have hother : ofMain a = false := by
      cases a <;> simp_all [ofMain, Daemon.Label.party]
    simp [hstage, hother]

/-- The flag says whether the event has been notified. -/
theorem notified_of_step (hs : d.step a = some t) :
    t.notified = (d.notified || Listening.notifies a) := by
  cases a with
  | handle h ans =>
      obtain ⟨request, -, -, -, rfl⟩ := Daemon.handle_eq_some.mp hs
      simp [Listening.notifies, Daemon.setHandler]
  | readProperty h =>
      obtain ⟨p, todo, r, -, -, rfl⟩ := Daemon.readProperty_eq_some.mp hs
      simp [Listening.notifies, Daemon.setHandler]
  | sendSignal h =>
      obtain ⟨p, value, todo, r, -, -, rfl⟩ := Daemon.sendSignal_eq_some.mp hs
      simp [Listening.notifies, Daemon.setHandler]
  | notify h =>
      obtain ⟨-, -, rfl⟩ := Daemon.notify_eq_some.mp hs
      simp [Listening.notifies, Daemon.setHandler]
  | reply h =>
      obtain ⟨r, -, -, rfl⟩ := Daemon.reply_eq_some.mp hs
      simp [Listening.notifies, Daemon.setHandler]
  | activate ans | toggleItem ans =>
      obtain ⟨-, -, rfl⟩ := Daemon.trayToggle_eq_some.mp hs
      simp [Listening.notifies]
  | screenItemSet ans =>
      obtain ⟨wanted, -, -, -, rfl⟩ := Daemon.screenItemSet_eq_some.mp hs
      simp [Listening.notifies]
  | runningItemSet ans =>
      obtain ⟨wanted, -, -, -, rfl⟩ := Daemon.runningItemSet_eq_some.mp hs
      simp [Listening.notifies]
  | quitItem ans =>
      obtain ⟨-, -, rfl⟩ := Daemon.quitItem_eq_some.mp hs
      simp [Listening.notifies]
  | crash =>
      simp only [Daemon.step, Option.ite_none_left_eq_some, Option.some.injEq] at hs
      obtain ⟨-, rfl⟩ := hs
      simp [Listening.notifies]
  | receive | startTray | serve | requestName | wake | closeConnection | exit | screenItemRead
  | runningItemRead | quitItemNotify =>
      simp only [Daemon.step, Option.ite_none_right_eq_some, Option.some.injEq] at hs
      obtain ⟨-, rfl⟩ := hs
      simp [Listening.notifies, Daemon.setHandler]

/-! ## The listener -/

/-- What a step does: `main` begins to listen, or is woken, or a step of the daemon takes place
in which it does not wait. -/
theorem listening_cases {b : Listening.Label} (hs : x.step E b = some y) :
    (b = .listen ∧ x.daemon.stage = .starting ∧ x.listens = false ∧
        y = { x with event := E.listen x.event, listens := true }) ∨
      (b = .daemon .wake ∧ x.daemon.stage = .waiting ∧ ∃ event, E.wait x.event = some event ∧
        y = { x with daemon := { x.daemon with stage := .returning }, event := event }) ∨
      ∃ a d, b = .daemon a ∧ a ≠ .wake ∧ x.daemon.step a = some d ∧
        ((∃ found, a = .startTray found) → x.listens = true) ∧
        y = { x with
          daemon := d
          event := if Listening.notifies a then E.notify x.event usizeMax else x.event } := by
  have hdaemon : ∀ {a}, x.stepDaemon E a = some y → ∃ d, x.daemon.step a = some d ∧
      y = { x with
        daemon := d
        event := if Listening.notifies a then E.notify x.event usizeMax else x.event } := by
    intro a ha
    obtain ⟨d, hd, rfl⟩ := Option.map_eq_some_iff.mp ha
    exact ⟨d, hd, rfl⟩
  cases b with
  | listen =>
      simp only [Listening.step, Option.ite_none_right_eq_some, Option.some.injEq] at hs
      obtain ⟨⟨hstage, hlistens⟩, rfl⟩ := hs
      exact Or.inl ⟨rfl, hstage, hlistens, rfl⟩
  | daemon a =>
      right
      by_cases hwake : a = .wake
      · subst hwake
        simp only [Listening.step, Option.ite_none_right_eq_some, Option.map_eq_some_iff] at hs
        obtain ⟨hstage, event, hevent, rfl⟩ := hs
        exact Or.inl ⟨rfl, hstage, event, hevent, rfl⟩
      · right
        by_cases hstart : ∃ found, a = .startTray found
        · obtain ⟨found, rfl⟩ := hstart
          simp only [Listening.step, Option.ite_none_right_eq_some] at hs
          obtain ⟨d, hd, hy⟩ := hdaemon hs.2
          exact ⟨_, d, rfl, hwake, hd, fun _ => hs.1, hy⟩
        · have hs : x.stepDaemon E a = some y := by
            cases a <;> first | exact hs | exact absurd rfl hwake | exact absurd ⟨_, rfl⟩ hstart
          obtain ⟨d, hd, hy⟩ := hdaemon hs
          exact ⟨a, d, rfl, hwake, hd, fun h => absurd h hstart, hy⟩

/-- Nothing has happened before `main` listens; from then on until it goes on its listener is
there, marked when the event has been notified. -/
structure Heard (E : Event ε) (x : Listening ε) : Prop where
  before : x.listens = false → (x.daemon.stage = .starting ∨ x.daemon.stage = .exited) ∧
    x.daemon.hasTray = false ∧ x.daemon.callback = .idle ∧ x.daemon.notified = false ∧
    x.event = E.new
  during : x.listens = true → 3 ≤ stepsLeft x.daemon.stage →
    E.Marked x.daemon.notified x.event

/-- Before `main` listens the daemon can only crash. -/
theorem crash_of_before (hx : Heard E x) (hlistens : x.listens = false) {a : Daemon.Label}
    {d : Daemon} (hs : x.daemon.step a = some d) (hstart : ∀ found, a ≠ .startTray found) :
    a = .crash := by
  obtain ⟨hstage, htray, hcallback, -⟩ := hx.before hlistens
  have hconnected : x.daemon.connected = false := by
    rcases hstage with h | h <;> simp [Daemon.connected, h]
  cases hparty : a.party with
  | tray => simpa [htray, hcallback] using Daemon.hasTray_of_tray hs hparty
  | handler =>
      have hh : ∃ h, a.handler = some h := by
        cases a <;> first | exact ⟨_, rfl⟩ | cases hparty
      obtain ⟨h, hh⟩ := hh
      simpa [hconnected] using (Daemon.connected_of_handler hs hh).1
  | main =>
      cases a <;> simp only [Daemon.Label.party, reduceCtorEq] at hparty
      case crash => rfl
      case startTray found => exact absurd rfl (hstart found)
      all_goals
        simp only [Daemon.step, Option.ite_none_right_eq_some] at hs
        rcases hstage with h | h <;> simp [h] at hs

/-- Every step keeps the listener marked as the daemon's flag says. -/
theorem heard_step {b : Listening.Label} (hs : x.step E b = some y) (hx : Heard E x) :
    Heard E y := by
  rcases listening_cases hs with ⟨-, hstage, hlistens, rfl⟩ |
    ⟨-, hstage, event, hevent, rfl⟩ | ⟨a, d, -, -, hd, hstart, rfl⟩
  · obtain ⟨-, -, -, hnotified, hnobody⟩ := hx.before hlistens
    refine ⟨fun h => (by cases h), fun _ _ => ?_⟩
    simpa only [hnobody, hnotified] using Event.marked_listen E
  · refine ⟨fun h => ?_, fun _ h => ?_⟩
    · have hstarting := (hx.before h).1
      simp [hstage] at hstarting
    · simp [stepsLeft] at h
  · constructor
    · intro (hlistens : x.listens = false)
      have hcrash : a = .crash := by
        apply crash_of_before hx hlistens hd
        rintro found rfl
        have hon := hstart ⟨found, rfl⟩
        rw [hlistens] at hon
        cases hon
      subst hcrash
      obtain ⟨-, htray, hcallback, hnotified, hnobody⟩ := hx.before hlistens
      simp only [Daemon.step, Option.ite_none_left_eq_some, Option.some.injEq] at hd
      obtain ⟨-, rfl⟩ := hd
      exact ⟨Or.inr rfl, htray, hcallback, hnotified, hnobody⟩
    · intro hlistens hleft
      have hmono : stepsLeft d.stage ≤ stepsLeft x.daemon.stage :=
        le_trans (Nat.le_add_left _ _) (stepsLeft_of_step hd)
      have hmarked := hx.during hlistens (le_trans hleft hmono)
      simp only [notified_of_step hd]
      cases hn : Listening.notifies a with
      | false => simpa using hmarked
      | true => simpa using hmarked.notify (by decide : 0 < usizeMax)

/-! ## The two machines -/

/-- And each step of `daemon` is one here, once `main` listens. -/
theorem listening_of_daemon (hE : E.Documented) (hs : x.daemon.step a = some d) (hx : Heard E x)
    (hlistens : x.listens = true) :
    ∃ y, x.step E (.daemon a) = some y ∧ y.daemon = d ∧ y.listens = true := by
  have hstep : ∀ {b}, x.daemon.step b = some d →
      ∃ y, x.stepDaemon E b = some y ∧ y.daemon = d ∧ y.listens = true := fun hd =>
    ⟨_, Option.map_eq_some_iff.mpr ⟨d, hd, rfl⟩, rfl, hlistens⟩
  cases a with
  | startTray found =>
      simp only [Listening.step, if_pos hlistens]
      exact hstep hs
  | wake =>
      simp only [Daemon.step, Option.ite_none_right_eq_some, Option.some.injEq] at hs
      obtain ⟨⟨hstage, hnotified⟩, rfl⟩ := hs
      have hmarked : (E.wait x.event).isSome = true := by
        rw [(hx.during hlistens (by simp [hstage, stepsLeft])).wait hE, hnotified]
      obtain ⟨event, hevent⟩ := Option.isSome_iff_exists.mp hmarked
      refine ⟨{ x with daemon := { x.daemon with stage := .returning }, event := event }, ?_, rfl,
        hlistens⟩
      simp only [Listening.step, if_pos hstage, hevent, Option.map_some]
  | _ => exact hstep hs

/-- Every run of `daemon` is one in which `main` listens first. -/
theorem daemon_runs_listening (hE : E.Documented) {run : List Daemon.Label}
    (hr : daemon.run {} run = some d) :
    ∃ x, (listening E).run (.start E) (.listen :: run.map .daemon) = some x ∧ x.daemon = d := by
  have hall : ∀ (run : List Daemon.Label) (w : Listening ε), Heard E w → w.listens = true →
      daemon.run w.daemon run = some d →
      ∃ x, (listening E).run w (run.map .daemon) = some x ∧ x.daemon = d := by
    intro run
    induction run with
    | nil =>
        intro w _ _ hr
        simp only [Machine.run_nil, Option.some.injEq] at hr
        exact ⟨w, rfl, hr⟩
    | cons a run ih =>
        intro w hw hlistens hr
        obtain ⟨t, hs, hr⟩ := Machine.run_cons_eq_some.mp hr
        obtain ⟨v, hv, rfl, hon⟩ := listening_of_daemon hE hs hw hlistens
        obtain ⟨x, hx, hd⟩ := ih v (heard_step hv hw) hon hr
        exact ⟨x, Machine.run_cons_eq_some.mpr ⟨v, hv, hx⟩, hd⟩
  have hstart : Heard E { event := E.listen E.new, listens := true } :=
    ⟨fun h => (by cases h), fun _ _ => Event.marked_listen E⟩
  obtain ⟨x, hx, hd⟩ := hall run _ hstart rfl hr
  exact ⟨x, Machine.run_cons_eq_some.mpr ⟨_, rfl, hx⟩, hd⟩

/-! ## Progress -/

variable {found ok : Bool} {reply : NameReply}

end SleepBlocker.Analysis
