import SleepBlocker.Analysis.StatusHistory
import SleepBlocker.Interface.DaemonSteps
import SleepBlocker.Model.WindowCalls

/-!
# When the window's copy is fresh

`DaemonClient` re-reads the status after a call that did not fail, and keeps its copy after
one that did. Of the calls that fail, only one has changed the state: a toggle that logind
grants and the ScreenSaver refuses. `window_fresh_iff` turns this into the exact condition.
`call_served` connects the calls to the daemon's steps, and `control_draws` to what the
window draws.
-/

set_option autoImplicit false

namespace SleepBlocker.Analysis

open SleepBlocker.Computation SleepBlocker.Model

/-- The window's copy is the daemon's state. -/
def CopyFresh (x : WindowCalls) : Prop := x.client.cached = x.state.snapshot

/-- Whether the copy is fresh can be evaluated. -/
instance (x : WindowCalls) : Decidable (CopyFresh x) := inferInstanceAs (Decidable (_ = _))

/-- The step is not a toggle that leaves the state changed and fails: one while sleep is
allowed and the preference for the screen is set, with logind granting its lock and the
ScreenSaver failing. -/
def NoHalfToggle (x : WindowCalls) : WindowCalls.Label → Prop
  | .frame => True
  | .call request ans =>
    ¬ (request = .toggle ∧ x.state.snapshot.sleepBlocked = false ∧
      x.state.snapshot.keepScreenAwake = true ∧ ans.logind.grant.isSome = true ∧
      ans.screen.fails = true)

/-! ## One call -/

/-- A call that did not fail leaves a fresh copy. -/
theorem cached_of_answered (c : DaemonClient) (s : SleepBlock) {r : Reply}
    (hr : ∀ text, r ≠ .failed text) : (c.toggled (readStatus s) r).1.cached = s.snapshot := by
  cases r with
  | failed text => exact absurd rfl (hr text)
  | locks sleepBlocked screenBlocked => rfl
  | empty => rfl

/-- A call that failed keeps the copy. -/
theorem cached_of_failed (c : DaemonClient) (read : Option Status) (text : String) :
    (c.toggled read (.failed text)).1.cached = c.cached := rfl

/-- A request that is no toggle leaves a fresh copy of a settled state: its reply is no
error, or the state is as it was. -/
theorem fresh_of_other {s : SleepBlock} {c : DaemonClient} {request : Request} {ans : Answers}
    (hcalm : ans.calm = true) (hs : Settled s.inner.data) (hc : c.cached = s.snapshot)
    (hrequest : request ≠ .toggle) :
    let o := perform ⟨request.op, ans⟩ s
    (c.toggled (readStatus o.state) (request.reply (o.value.getD none))).1.cached =
      o.state.snapshot := by
  intro o
  cases request with
  | toggle => exact absurd rfl hrequest
  | setKeepRunningInTray wanted => rfl
  | quit => rfl
  | setKeepScreenAwake wanted =>
      obtain ⟨-, hstate, hvalue⟩ := perform_eq ⟨.setKeepScreenAwake wanted, ans⟩ s
      simp only [Op.body, run_return_some] at hstate hvalue
      have hsame := (setKeepScreenAwake_moves wanted hcalm hs).2
      cases hv : ((setKeepScreenAwake wanted ans).run s.inner.data).value with
      | none =>
          rw [hv] at hvalue
          apply cached_of_answered
          simp [o, Request.op, hvalue, Request.reply, Request.after]
      | some result =>
          rw [hv] at hvalue
          cases result with
          | ok status =>
              apply cached_of_answered
              simp [o, Request.op, hvalue, Request.reply, Request.after, Reply.of]
          | error e =>
              have hsnapshot : o.state.snapshot = s.snapshot := by
                simp only [SleepBlock.snapshot_eq, o, Request.op, hstate]
                exact hsame e hv
              have hreply : Request.reply (o.value.getD none) (.setKeepScreenAwake wanted) =
                  .failed e.toString := by
                simp [o, Request.op, hvalue, Request.reply, Request.after, Reply.of]
              rw [hreply, hsnapshot, cached_of_failed]
              exact hc

/-- The copy after a toggle: the state that it left, unless it failed. -/
theorem cached_of_toggle {s : SleepBlock} (c : DaemonClient) (ans : Answers) :
    let o := perform ⟨.toggle, ans⟩ s
    (c.toggled (readStatus o.state) (Request.toggle.reply (o.value.getD none))).1.cached =
      match ((toggle ans).run s.inner.data).value with
      | some (.error _) => c.cached
      | _ => o.state.snapshot := by
  intro o
  have hvalue : o.value = ((toggle ans).run s.inner.data).value.map some := by
    have hperform := (perform_eq ⟨.toggle, ans⟩ s).2.2
    simpa only [Op.body, run_return_some] using hperform
  cases hv : ((toggle ans).run s.inner.data).value with
  | none =>
      rw [hvalue, hv]
      rfl
  | some result =>
      rw [hvalue, hv]
      cases result <;> rfl

/-- A toggle leaves a fresh copy exactly if it does not fail halfway. -/
theorem fresh_toggle_iff {s : SleepBlock} {c : DaemonClient} {ans : Answers}
    (hcalm : ans.calm = true) (hc : c.cached = s.snapshot) :
    let o := perform ⟨.toggle, ans⟩ s
    (c.toggled (readStatus o.state) (Request.toggle.reply (o.value.getD none))).1.cached =
        o.state.snapshot ↔
      ¬ (s.snapshot.sleepBlocked = false ∧ s.snapshot.keepScreenAwake = true ∧
        ans.logind.grant.isSome = true ∧ ans.screen.fails = true) := by
  intro o
  have hstate : o.state.snapshot = statusOf ((toggle ans).run s.inner.data).state := by
    have hperform := (perform_eq ⟨.toggle, ans⟩ s).2.1
    simp only [Op.body, run_return_some] at hperform
    rw [SleepBlock.snapshot_eq, hperform]
  rw [cached_of_toggle, hc, hstate, SleepBlock.snapshot_eq]
  simp only [Answers.calm, Bool.and_eq_true] at hcalm
  cases hi : s.inner.data.inhibitor with
  | some i =>
      rw [toggle_run_held hi]
      simp [statusOf, hi]
  | none =>
      cases hgrant : ans.logind.grant with
      | none =>
          -- logind gives nothing: the state is as it was, whatever the call returns
          rw [toggle_run_ungranted hi hgrant]
          cases hl : ans.logind <;> simp [ungranted, statusOf]
      | some fd =>
          have hgranted : ans.logind = .granted fd := Answer.grant_eq_some.mp hgrant
          cases hk : s.inner.data.keepScreenAwake with
          | false =>
              rw [toggle_run_granted hi hgranted hk]
              simp [statusOf, hk]
          | true =>
              rw [toggle_run_granted_screen hi hgranted hk]
              cases hscreen : ans.screen with
              | granted cookie =>
                  rw [acquireScreen_run_granted hscreen]
                  simp [Answer.fails]
              | unreachable e | refused e =>
                  rw [acquireScreen_run_ungranted (by simp [hscreen, Answer.grant])]
                  simp [hscreen, ungranted, Answer.fails, statusOf, hi, hk]
              | panics => simp [hscreen, Answer.calm] at hcalm

/-! ## The daemon's side and the window's -/

/-- Of two moves of a handler the second counts. -/
theorem setHandler_setHandler (d : Daemon) (h : ℕ) (x y : Handler) :
    (d.setHandler h x).setHandler h y = d.setHandler h y := by
  simp [Daemon.setHandler]

/-- A handler with properties to announce reads and sends them one by one, and then replies. -/
theorem announce_run (h : ℕ) (r : Reply) (todo : List Property) {d : Daemon}
    (hd : d.connected = true) :
    ∃ signals, daemon.run (d.setHandler h (.announcing todo r))
        (todo.flatMap (fun _ => [.readProperty h, .sendSignal h]) ++ [.reply h]) =
      some ({ d with signals := signals, replies := d.replies ++ [(h, r)] }.setHandler h .idle) := by
  induction todo generalizing d with
  | nil =>
      refine ⟨d.signals, ?_⟩
      have hreply : (d.setHandler h (.announcing [] r)).reply h =
          some ({ d with replies := d.replies ++ [(h, r)] }.setHandler h .idle) :=
        Daemon.reply_eq_some.mpr ⟨r, Function.update_self .., hd, by simp [Daemon.setHandler]⟩
      exact Machine.run_cons_eq_some.mpr ⟨_, hreply, rfl⟩
  | cons p todo ih =>
      let v := d.state.snapshot.get p
      have hread : (d.setHandler h (.announcing (p :: todo) r)).readProperty h =
          some (d.setHandler h (.sending p v todo r)) :=
        Daemon.readProperty_eq_some.mpr
          ⟨p, todo, r, Function.update_self .., hd, setHandler_setHandler ..⟩
      have hsend : (d.setHandler h (.sending p v todo r)).sendSignal h =
          some ({ d with signals := d.signals ++ [(p, v)] }.setHandler h (.announcing todo r)) :=
        Daemon.sendSignal_eq_some.mpr
          ⟨p, v, todo, r, Function.update_self .., hd, by simp [Daemon.setHandler]⟩
      obtain ⟨signals, hrest⟩ := ih (d := { d with signals := d.signals ++ [(p, v)] }) hd
      refine ⟨signals, ?_⟩
      rw [List.flatMap_cons, List.append_assoc]
      exact Machine.run_cons_eq_some.mpr
        ⟨_, hread, Machine.run_cons_eq_some.mpr ⟨_, hsend, hrest⟩⟩

/-- Four reads of a daemon that answers them return what `readStatus` does. -/
theorem reads_of_connected {d : Daemon} (hd : d.connected = true) :
    reads.run ⟨d, .idle⟩ [.read true, .read true, .read true, .read true] =
      some ⟨d, .returned (readStatus d.state)⟩ := by
  have hread : ∀ r : Reading, reads.step ⟨d, r⟩ (.read true) =
      some ⟨d, r.take (some (d.state.snapshot.get r.next))⟩ := fun r => if_pos hd
  simp only [Machine.run_cons, hread, Option.bind_some, Machine.run_nil]
  rfl

/-- A call is what a handler of the daemon does when nobody else acts: it leaves the state and
the reply that the call is taken to have, and the reads that follow find that state. -/
theorem call_served {d : Daemon} {h : ℕ} {request : Request} {ans : Answers}
    (hd : d.connected = true) (hidle : d.handlers h = .idle) (hquit : request ≠ .quit)
    (hcalm : ans.calm = true) :
    let o := perform ⟨request.op, ans⟩ d.state
    ∃ labels t, (∀ l ∈ labels, l.handler = some h) ∧ daemon.run d labels = some t ∧
      t.state = o.state ∧ t.handlers = d.handlers ∧
      t.replies = d.replies ++ [(h, request.reply (o.value.getD none))] ∧
      reads.run ⟨t, .idle⟩ [.read true, .read true, .read true, .read true] =
        some ⟨t, .returned (readStatus t.state)⟩ := by
  intro o
  obtain ⟨todo, hafter⟩ : ∃ todo, request.after (o.value.getD none) =
      .announcing todo (request.reply (o.value.getD none)) := by
    cases request with
    | quit => exact absurd rfl hquit
    | toggle | setKeepScreenAwake wanted | setKeepRunningInTray wanted => exact ⟨_, rfl⟩
  have hreceive : d.step (.receive h request) = some (d.setHandler h (.received request)) :=
    if_pos ⟨hd, hidle⟩
  have hhandle : (d.setHandler h (.received request)).handle h ans =
      some ({ d with state := o.state }.setHandler h (request.after (o.value.getD none))) :=
    Daemon.handle_eq_some.mpr
      ⟨request, Function.update_self .., hd, hcalm, by simp [Daemon.setHandler, o]⟩
  have hstate : ({ d with state := o.state } : Daemon).connected = true := hd
  obtain ⟨signals, hrun⟩ := announce_run h (request.reply (o.value.getD none)) todo hstate
  rw [hafter] at hhandle
  refine ⟨.receive h request :: .handle h ans :: (_ ++ [.reply h]), _, ?_,
    Machine.run_cons_eq_some.mpr ⟨_, hreceive, Machine.run_cons_eq_some.mpr ⟨_, hhandle, hrun⟩⟩,
    rfl, ?_, rfl, ?_⟩
  · intro l hl
    simp only [List.mem_cons, List.mem_append, List.mem_flatMap, List.not_mem_nil, or_false] at hl
    rcases hl with rfl | rfl | ⟨p, -, rfl | rfl⟩ | rfl <;> rfl
  · exact Function.update_eq_self_iff.mpr hidle.symm
  · exact reads_of_connected (show Daemon.connected _ = true from hd)

/-- A control that was used goes on with the client's copy after the call. -/
theorem control_draws (status : Status) (request : Request) (text : String → String) (app : App)
    (read : Option Status) (r : Reply) :
    let o := (App.control status (some (outcomeOf read r)) (App.call request text)).run app
    o.state.client = (app.client.toggled read r).1 ∧
      o.value = some (app.client.toggled read r).1.cached := by
  intro o
  cases r <;> exact ⟨rfl, rfl⟩

/-! ## Runs -/

/-- A call of a control: what it needs and what it leaves. -/
theorem call_eq_some {x y : WindowCalls} {request : Request} {ans : Answers}
    (hs : x.step (.call request ans) = some y) :
    request ≠ .quit ∧ ans.calm = true ∧
      y.state = (perform ⟨request.op, ans⟩ x.state).state ∧
      y.client = (x.client.toggled (readStatus y.state)
        (request.reply ((perform ⟨request.op, ans⟩ x.state).value.getD none))).1 := by
  simp only [WindowCalls.step, Option.ite_none_right_eq_some, Option.some.injEq] at hs
  obtain ⟨⟨hquit, hcalm⟩, rfl⟩ := hs
  exact ⟨hquit, hcalm, rfl, rfl⟩

/-- Every step of the window leaves the data settled. -/
theorem settled_windowCalls (x : WindowCalls) (a : WindowCalls.Label) (y : WindowCalls)
    (hs : windowCalls.step x a = some y) (hx : Settled x.state.inner.data) :
    Settled y.state.inner.data := by
  have hs : x.step a = some y := hs
  cases a with
  | frame =>
      simp only [WindowCalls.step, Option.some.injEq] at hs
      subst hs
      exact hx
  | call request ans =>
      obtain ⟨-, hcalm, hstate, -⟩ := call_eq_some hs
      rw [hstate, (perform_eq _ _).2.1]
      exact (body_moves request.op hcalm hx).settled

/-- From a fresh copy of a settled state, a step leaves a fresh copy exactly if it is no
toggle that fails halfway. -/
theorem copyFresh_step (x : WindowCalls) (a : WindowCalls.Label) (y : WindowCalls)
    (hs : windowCalls.step x a = some y) (hx : Settled x.state.inner.data) (hfresh : CopyFresh x) :
    CopyFresh y ↔ NoHalfToggle x a := by
  have hs : x.step a = some y := hs
  cases a with
  | frame =>
      simp only [WindowCalls.step, Option.some.injEq] at hs
      subst hs
      exact iff_of_true rfl trivial
  | call request ans =>
      obtain ⟨-, hcalm, hstate, hclient⟩ := call_eq_some hs
      rw [CopyFresh, hclient, hstate, NoHalfToggle]
      by_cases hrequest : request = .toggle
      · subst hrequest
        refine (fresh_toggle_iff hcalm hfresh).trans ?_
        simp
      · refine iff_of_true (fresh_of_other hcalm hx hfresh hrequest) ?_
        rintro ⟨h, -⟩
        exact hrequest h

/-- **Fresh exactly while no toggle fails halfway.** Take a `SleepBlock` after any calls that
did not panic, and a window that has read it. However the services answer, the window's copy
is the daemon's state after every frame and every call, failed or not, exactly when none of
the calls is a toggle that is made while sleep is allowed and the screen preference is set,
and that logind grants and the ScreenSaver fails.
SOURCE: client.rs:137-185, state.rs:65-117, sleep-blockd.rs:43-72 -/
theorem window_fresh_iff {history : List Call} {s : SleepBlock} {c : DaemonClient}
    {run : List WindowCalls.Label} {y : WindowCalls}
    (hcalm : ∀ call ∈ history, call.answers.calm = true) (hs : calls.run .new history = some s)
    (hc : c.cached = s.snapshot) (hr : windowCalls.run ⟨s, c⟩ run = some y) :
    windowCalls.Everywhere CopyFresh ⟨s, c⟩ run ↔ windowCalls.Along NoHalfToggle ⟨s, c⟩ run := by
  have hsettled : Settled s.inner.data := by
    have htold := told_run hcalm told_nil hs
    exact htold.settled
  exact Machine.everywhere_iff_along settled_windowCalls copyFresh_step hr hsettled hc

/-- The user asks for the screen to stay on and then blocks sleep, and the ScreenSaver
refuses. -/
def halfToggled : List WindowCalls.Label :=
  [.frame, .call (.setKeepScreenAwake true) ⟨.granted 5, .granted 6, true⟩,
    .call .toggle ⟨.granted 5, .refused "no screensaver", true⟩]

/-- Sleep is blocked then, and the window's copy says that it is not. -/
theorem halfToggled_stale :
    ∃ y, windowCalls.run ⟨.new, ⟨true, SleepBlock.new.snapshot, false⟩⟩ halfToggled = some y ∧
      y.state.snapshot.sleepBlocked = true ∧ y.client.cached.sleepBlocked = false ∧
      ¬ CopyFresh y := by
  refine ⟨_, rfl, rfl, rfl, fun h => ?_⟩
  exact absurd h (by decide)

/-- The same toggle refused by logind, after a call of an earlier window. -/
theorem window_fresh_iff_refused :
    let history : List Call := [⟨.setKeepScreenAwake true, ⟨.granted 5, .granted 6, true⟩⟩]
    let run : List WindowCalls.Label :=
      [.call .toggle ⟨.refused "no session", .granted 6, true⟩,
        .call (.setKeepRunningInTray true) ⟨.granted 5, .granted 6, true⟩]
    ∃ s y, calls.run .new history = some s ∧
      windowCalls.run ⟨s, ⟨true, s.snapshot, false⟩⟩ run = some y ∧
      (windowCalls.Everywhere CopyFresh ⟨s, ⟨true, s.snapshot, false⟩⟩ run ↔
        windowCalls.Along NoHalfToggle ⟨s, ⟨true, s.snapshot, false⟩⟩ run) := by
  intro history run
  have hcalm : ∀ call ∈ history, call.answers.calm = true := by decide
  exact ⟨_, _, rfl, rfl, window_fresh_iff hcalm rfl rfl rfl⟩

end SleepBlocker.Analysis
