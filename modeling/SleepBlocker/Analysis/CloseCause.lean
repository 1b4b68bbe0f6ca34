import SleepBlocker.Model.App

/-!
# Why the window asks the daemon to quit

`logic` tells the daemon to quit when a close is requested, and cannot tell a close by the
user from the `Close` it sent itself in the frame before. `quit_causes_iff` says when that
goes wrong, by what the window read: the last read of one frame fails, that of the next
one succeeds and shows the setting off, and the user does not close in the third.
-/

set_option autoImplicit false

namespace SleepBlocker.Analysis

open SleepBlocker.Computation SleepBlocker.Model

/-- What a `quit_daemon` call goes back to. -/
inductive Cause where
  | quitButton
  | userClose
  /-- The `Close` that `logic` sent because the daemon was gone. -/
  | ownClose
  deriving DecidableEq, Repr

/-- The last read after a control has been used: a call that succeeds reads again. -/
def readAfter (read : Option Status) : Option CallOutcome → Option Status
  | some (.ok again) => again
  | _ => read

/-- What the last read of a frame returns. -/
def lastRead (hasTray : Bool) (f : Frame) : Option Status :=
  readAfter (readAfter (readAfter f.read f.indicator) f.screenBox)
    (if hasTray then f.trayBox else none)

/-- What a quit sent by `logic` in this frame goes back to. -/
def causeOf (w : Window) (f : Frame) : Cause :=
  if f.userClose then .userClose else if w.closeByButton then .quitButton else .ownClose

/-- The causes of the quits so far, and the last reads of the frames so far, newest first. -/
structure FrameHistory where
  quits : List Cause := []
  reads : List (Option Status) := []

/-- What the history records of a frame. -/
def FrameHistory.update (g : FrameHistory) (w : Window) (f : Frame) : FrameHistory where
  quits := g.quits ++
    (if (w.logic f).effects.contains (.request .quit) then [causeOf w f] else []) ++
    (if (w.ui f).effects.contains (.request .quit) then [.quitButton] else [])
  reads := lastRead w.app.client.hasTray f :: g.reads

/-- The window with the history of its frames. -/
def framed : Machine (Window × FrameHistory) Frame := window.monitor FrameHistory.update

/-- Every quit was asked for by the user. -/
def UserQuits (x : Window × FrameHistory) : Prop := Cause.ownClose ∉ x.2.quits

/-- It is not so that the read of the last frame but one failed, that of the last frame
succeeded and showed the setting off, and the user does not close now. -/
def NoRevival (x : Window × FrameHistory) (f : Frame) : Prop :=
  ¬ ∃ s rest, x.2.reads = some s :: none :: rest ∧ s.keepRunningInTray = false ∧
    f.userClose = false

/-! ## One frame -/

/-- The app shows the outcome of its last read. -/
def Shows (app : App) (read : Option Status) : Prop :=
  app.client.daemonGone = read.isNone ∧ ∀ s, read = some s → app.client.last = s

/-- The effects neither close the window nor make the daemon quit. -/
def Harmless (effects : List AppEffect) : Prop :=
  AppEffect.close ∉ effects ∧ AppEffect.request .quit ∉ effects

/-- Doing nothing is harmless. -/
theorem harmless_nil : Harmless [] := ⟨List.not_mem_nil, List.not_mem_nil⟩

/-- Harmless parts make a harmless whole. -/
theorem harmless_append {k l : List AppEffect} (hk : Harmless k) (hl : Harmless l) :
    Harmless (k ++ l) := by
  constructor
  · simp [hk.1, hl.1]
  · simp [hk.2, hl.2]

/-- Part of `ui` that started from `app` and ends here: it has read this last, has neither
closed nor quit, and leaves what only Quit and the start of the window set. -/
structure Passes (app : App) (read : Option Status) (effects : List AppEffect) (now : App) :
    Prop where
  shows : Shows now read
  harmless : Harmless effects
  quitting : now.quitting = app.quitting
  hasTray : now.client.hasTray = app.client.hasTray

/-- The read at the top of a frame passes. -/
theorem passes_snapshot (app : App) (read : Option Status) :
    Passes app read [] { app with client := app.client.snapshot read } := by
  refine ⟨?_, harmless_nil, rfl, ?_⟩
  · cases read with
    | none => exact ⟨rfl, fun s hs => by cases hs⟩
    | some s => exact ⟨rfl, fun t ht => Option.some.inj ht⟩
  · cases read <;> rfl

/-- A call of the app reads again if it succeeds. -/
theorem call_ensures {r : Request} (hr : r ≠ .quit) (text : String → String)
    (outcome : CallOutcome) {app now : App} {read : Option Status} {effects : List AppEffect}
    (h : Passes app read effects now) :
    Effectful.Ensures (App.call r text outcome) now fun _ es after =>
      Passes app (readAfter read (some outcome)) (effects ++ es) after := by
  have hrequest : Harmless [AppEffect.request r] := by
    constructor
    · simp
    · simpa using hr.symm
  apply Effectful.ensures_emit_bind
  apply Effectful.ensures_update
  cases outcome with
  | ok again =>
      have hagain := passes_snapshot now again
      refine ⟨hagain.shows, harmless_append h.harmless hrequest, h.quitting, ?_⟩
      exact hagain.hasTray.trans h.hasTray
  | error e =>
      exact ⟨h.shows, harmless_append h.harmless hrequest, h.quitting, h.hasTray⟩

/-- A control goes on with the cached status. -/
theorem control_ensures {act : CallOutcome → AppM Unit} (used : Option CallOutcome)
    {app now : App} {read : Option Status} {effects : List AppEffect}
    (h : Passes app read effects now)
    (hact : ∀ outcome, Effectful.Ensures (act outcome) now fun _ es after =>
      Passes app (readAfter read (some outcome)) (effects ++ es) after) :
    Effectful.Ensures (App.control now.client.last used act) now fun status es after =>
      status = after.client.last ∧ Passes app (readAfter read used) (effects ++ es) after := by
  cases used with
  | none =>
      apply Effectful.ensures_pure
      rw [List.append_nil]
      exact ⟨rfl, h⟩
  | some outcome =>
      apply Effectful.Ensures.bind (hact outcome)
      intro _ es after hafter
      apply Effectful.ensures_read_bind
      apply Effectful.ensures_pure
      rw [List.append_nil]
      exact ⟨rfl, hafter⟩

/-- A frame's `ui`: it ends with what the app read last, and quits and closes if the setting
is on and Quit is clicked. -/
theorem ui_ensures (f : Frame) (app : App) :
    Effectful.Ensures (App.ui f) app fun _ es after =>
      Shows after (lastRead app.client.hasTray f) ∧
        after.client.hasTray = app.client.hasTray ∧
        es.contains .close = (after.client.last.keepRunningInTray && f.quit) ∧
        after.quitting = (app.quitting || es.contains .close) := by
  apply Effectful.ensures_update_bind
  apply Effectful.ensures_read_bind
  have hread := passes_snapshot app f.read
  apply Effectful.Ensures.bind (control_ensures f.indicator hread fun outcome =>
    call_ensures (by simp) id outcome hread)
  rintro _ es1 app1 ⟨rfl, h1⟩
  apply Effectful.Ensures.bind (control_ensures f.screenBox h1 fun outcome => ?_)
  swap
  · apply Effectful.ensures_update_bind
    exact call_ensures (by simp) _ outcome ⟨h1.shows, h1.harmless, h1.quitting, h1.hasTray⟩
  rintro _ es2 app2 ⟨rfl, h2⟩
  apply Effectful.ensures_read_bind
  apply Effectful.Ensures.bind (control_ensures (if app2.client.hasTray then f.trayBox else none)
    h2 fun outcome => call_ensures (by simp) id outcome h2)
  rintro _ es3 app3 ⟨rfl, h3⟩
  have hshow : Shows app3 (lastRead app.client.hasTray f) := by
    have h := h3.shows
    rw [h2.hasTray] at h
    exact h
  have hnone : AppEffect.close ∉ es1 ++ (es2 ++ es3) := by
    have h := h3.harmless.1
    rw [List.nil_append, List.append_assoc] at h
    exact h
  have hbefore : (es1 ++ (es2 ++ es3)).contains AppEffect.close = false := by
    rw [List.contains_eq_mem, decide_eq_false hnone]
  split
  · rename_i hquit
    apply Effectful.ensures_update_bind
    apply Effectful.ensures_emit_bind
    apply Effectful.ensures_emit
    refine ⟨hshow, h3.hasTray, ?_, ?_⟩
    · rw [hquit]
      simp
    · simp
  · rename_i hquit
    apply Effectful.ensures_pure
    rw [List.append_nil, hbefore, Bool.or_false]
    refine ⟨hshow, h3.hasTray, ?_, h3.quitting⟩
    rw [Bool.eq_false_iff.mpr hquit]

/-- A frame's `logic`: it changes nothing, closes if the daemon is gone, and quits on a close
that nothing speaks against. -/
theorem logic_ensures (closeRequested : Bool) (app : App) :
    Effectful.Ensures (App.logic closeRequested) app fun _ es after =>
      after = app ∧ es.contains .close = app.client.daemonGone ∧
        es.contains (.request .quit) = (!app.client.daemonGone && (closeRequested &&
          !app.quitting && !app.client.last.keepRunningInTray)) := by
  apply Effectful.ensures_read_bind
  split
  · rename_i hgone
    apply Effectful.ensures_emit
    simp [hgone]
  · rename_i hgone
    have hgone : app.client.daemonGone = false := Bool.eq_false_iff.mpr hgone
    split
    · rename_i hclose
      apply Effectful.ensures_emit
      rw [hgone, DaemonClient.cached] at *
      simp [hclose]
    · rename_i hclose
      apply Effectful.ensures_pure
      have hclose := Bool.eq_false_iff.mpr hclose
      rw [DaemonClient.cached] at hclose
      simp [hgone, hclose]

/-! ## Runs -/

/-- What ties the window to what it has read. -/
structure InStep (x : Window × FrameHistory) : Prop where
  gone : x.1.app.client.daemonGone = true ↔ ∃ rest, x.2.reads = none :: rest
  last : ∀ s rest, x.2.reads = some s :: rest → x.1.app.client.last = s
  byLogic : x.1.closeByLogic = true ↔ ∃ read rest, x.2.reads = read :: none :: rest
  byButton : x.1.closeByButton = true → x.1.app.client.last.keepRunningInTray = true
  quitting : x.1.app.quitting = true → x.1.closeByButton = true ∨ x.1.closed = true

/-- One frame, from its two parts. -/
theorem frame_spec {w v : Window} {f : Frame} (hs : w.step f = some v) :
    w.closed = false ∧ v.closed = w.closeRequested f ∧
      v.closeByLogic = w.app.client.daemonGone ∧
      (w.logic f).effects.contains (.request .quit) = (!w.app.client.daemonGone &&
        (w.closeRequested f && !w.app.quitting && !w.app.client.last.keepRunningInTray)) ∧
      Shows v.app (lastRead w.app.client.hasTray f) ∧
      v.closeByButton = (v.app.client.last.keepRunningInTray && f.quit) ∧
      v.app.quitting = (w.app.quitting || v.closeByButton) := by
  simp only [Window.step, Option.ite_none_left_eq_some, Option.some.injEq] at hs
  obtain ⟨hopen, rfl⟩ := hs
  obtain ⟨_, -, hsame, hclose, hquit⟩ := logic_ensures (w.closeRequested f) w.app
  obtain ⟨_, -, hshow, -, hbutton, hquitting⟩ := ui_ensures f (w.logic f).state
  have hsame : (w.logic f).state = w.app := hsame
  rw [hsame] at hshow hbutton hquitting
  refine ⟨Bool.eq_false_iff.mpr hopen, rfl, hclose, hquit, ?_, ?_, ?_⟩
  · rw [Window.ui, hsame]
    exact hshow
  · rw [Window.ui, hsame]
    exact hbutton
  · rw [Window.ui, hsame]
    exact hquitting

/-- Every frame keeps the app in step with its reads. -/
theorem inStep_step (x : Window × FrameHistory) (f : Frame) (y : Window × FrameHistory)
    (hs : framed.step x f = some y) (hx : InStep x) : InStep y := by
  obtain ⟨hw, hy⟩ := Machine.monitor_step_eq_some.mp hs
  obtain ⟨w, g⟩ := x
  obtain ⟨v, g'⟩ := y
  simp only [window] at hw hy
  subst hy
  obtain ⟨hopen, hclosed, hlogic, -, ⟨hgone, hlast⟩, hbutton, hquitting⟩ := frame_spec hw
  constructor
  case gone =>
    simp only [FrameHistory.update, List.cons.injEq, hgone, Option.isNone_iff_eq_none]
    simp
  case last =>
    intro s rest hreads
    simp only [FrameHistory.update, List.cons.injEq] at hreads
    exact hlast s hreads.1
  case byLogic =>
    simp only [FrameHistory.update, List.cons.injEq, hlogic]
    rw [hx.gone]
    simp
  case byButton =>
    intro hb
    simp only [hbutton, Bool.and_eq_true] at hb
    exact hb.1
  case quitting =>
    intro hq
    simp only [hquitting, Bool.or_eq_true] at hq
    rcases hq with hq | hq
    · -- a pending quit closes the window in this frame
      right
      simp only [hclosed, Window.closeRequested, Bool.or_eq_true]
      rcases hx.quitting hq with hb | hc
      · exact Or.inl (Or.inr hb)
      · simp [hopen] at hc
    · exact Or.inl hq

/-- One frame quits for the window's own `Close` exactly when the daemon has come back. -/
theorem userQuits_step (x : Window × FrameHistory) (f : Frame) (y : Window × FrameHistory)
    (hs : framed.step x f = some y) (hx : InStep x) (hquits : UserQuits x) :
    UserQuits y ↔ NoRevival x f := by
  obtain ⟨hw, hy⟩ := Machine.monitor_step_eq_some.mp hs
  obtain ⟨w, g⟩ := x
  obtain ⟨v, g'⟩ := y
  simp only [window] at hw hy
  subst hy
  obtain ⟨hopen, -, -, hquit, -, -, -⟩ := frame_spec hw
  have hown : UserQuits (v, g.update w f) ↔
      ¬ ((w.logic f).effects.contains (.request .quit) = true ∧ causeOf w f = .ownClose) := by
    have hquits : Cause.ownClose ∉ g.quits := hquits
    have hbutton : Cause.ownClose ∉
        (if (w.ui f).effects.contains (.request .quit) then [Cause.quitButton] else []) := by
      split <;> simp
    simp only [UserQuits, FrameHistory.update, List.mem_append, hquits, hbutton, false_or,
      or_false]
    split
    · rename_i hlogic
      rw [List.mem_singleton, eq_comm, hlogic]
      simp only [true_and]
    · rename_i hlogic
      simp only [hlogic, List.not_mem_nil, not_false_eq_true, Bool.false_eq_true, false_and]
  rw [hown, NoRevival, not_iff_not, hquit]
  constructor
  · rintro ⟨hguard, hcause⟩
    simp only [Bool.and_eq_true, Bool.not_eq_true'] at hguard
    obtain ⟨hgone, ⟨hclose, -⟩, hkeep⟩ := hguard
    have huser : f.userClose = false ∧ w.closeByButton = false := by
      unfold causeOf at hcause
      cases hu : f.userClose <;> cases hb : w.closeByButton <;> simp [hu, hb] at hcause ⊢
    have hlogic : w.closeByLogic = true := by
      simpa [Window.closeRequested, huser] using hclose
    obtain ⟨read, rest, hreads⟩ := hx.byLogic.mp hlogic
    cases read with
    | none =>
        have hgone' := hx.gone.mpr ⟨_, hreads⟩
        rw [hgone] at hgone'
        cases hgone'
    | some s =>
        have hlast := hx.last s _ hreads
        exact ⟨s, rest, hreads, by rw [← hlast]; exact hkeep, huser.1⟩
  · rintro ⟨s, rest, hreads, hkeep, huser⟩
    have hlast : w.app.client.last = s := hx.last s _ hreads
    have hgone : w.app.client.daemonGone = false := by
      rw [Bool.eq_false_iff]
      intro hgone
      obtain ⟨rest', hnone⟩ := hx.gone.mp hgone
      have hboth := hreads.symm.trans hnone
      simp at hboth
    have hlogic : w.closeByLogic = true := hx.byLogic.mpr ⟨some s, rest, hreads⟩
    have hbutton : w.closeByButton = false := by
      rw [Bool.eq_false_iff]
      intro hb
      have hkeep' := hx.byButton hb
      rw [hlast, hkeep] at hkeep'
      cases hkeep'
    have hquitting : w.app.quitting = false := by
      rw [Bool.eq_false_iff]
      intro hq
      rcases hx.quitting hq with hb | hc
      · simp [hbutton] at hb
      · simp [hopen] at hc
    constructor
    · simp [hgone, Window.closeRequested, hlogic, hquitting, hlast, hkeep]
    · simp [causeOf, huser, hbutton]

/-- **The window quits the daemon for the user only, unless the daemon comes back.** Take any
window that has just connected and any frames, with any reads, clicks and close requests.
Every `quit_daemon` goes back to the Quit button or to a close by the user, in every state
the run visits, exactly when there are no three frames in a row of which the first ends on
a failed read, the second on one that succeeds and shows the setting off, and the third
brings no close by the user.
SOURCE: main.rs:177-321, client.rs:137-192 -/
theorem quit_causes_iff {hasTray : Bool} {last : Status} {run : List Frame}
    {w : Window} (hr : window.run (.start hasTray last) run = some w) :
    framed.Everywhere UserQuits (.start hasTray last, {}) run ↔
      framed.Along NoRevival (.start hasTray last, {}) run := by
  apply Machine.monitor_iff_along inStep_step userQuits_step hr
  · constructor
    case gone => simp [Window.start]
    case last =>
      intro s rest hreads
      cases hreads
    case byLogic => simp [Window.start]
    case byButton =>
      intro hb
      cases hb
    case quitting =>
      intro hq
      cases hq
  · exact List.not_mem_nil

/-- Sleep is blocked, and the setting is off. -/
def settingOff : Status := ⟨true, false, false, false⟩

/-- The daemon does not answer in one frame, answers in the next, and the user does nothing. -/
def revival : List Frame := [{ read := none }, { read := some settingOff }, { read := none }]

/-- The window tells the daemon to quit, which nobody asked for. -/
theorem revival_quits :
    ∃ y, framed.run (.start true settingOff, {}) revival = some y ∧ y.2.quits = [.ownClose] ∧
      ¬ UserQuits y := by
  refine ⟨_, rfl, rfl, fun h => ?_⟩
  exact h (List.mem_singleton.mpr rfl)

/-- A daemon that is gone for good, and a window that closes after it. -/
theorem quit_causes_iff_gone :
    let run : List Frame := [{ read := none }, { read := none }, { read := none }]
    (∃ w, window.run (.start true settingOff) run = some w) ∧
      (framed.Everywhere UserQuits (.start true settingOff, {}) run ↔
        framed.Along NoRevival (.start true settingOff, {}) run) :=
  ⟨⟨_, rfl⟩, quit_causes_iff rfl⟩

end SleepBlocker.Analysis
