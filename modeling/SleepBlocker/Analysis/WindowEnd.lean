import SleepBlocker.Analysis.CloseCause
import SleepBlocker.Computation.Amortized

/-!
# How a window ends

A frame in which a close is requested is the last one. So a window closes with the frame after
its Quit button was used, and with the second frame after one that found the daemon gone. In
between it may send a Quit once more: `quitting` holds `logic` back, but not the button.
-/

set_option autoImplicit false

namespace SleepBlocker.Analysis

open SleepBlocker.Computation SleepBlocker.Model

/-- How many Quits the frame sends. -/
def quitsSent (w : Window) (f : Frame) : ℕ :=
  (w.logic f).effects.count (.request .quit) + (w.ui f).effects.count (.request .quit)

/-- Whose button has just been used, is quitting. -/
def ButtonQuits (w : Window) : Prop := w.closeByButton = true → w.app.quitting = true

/-- How many Quits the window may still send. -/
def quitsLeft (w : Window) : ℕ := if w.closed then 0 else if w.closeByButton then 1 else 2

/-! ## The effects of a frame -/

/-- What is harmless sends no Quit. -/
theorem count_of_harmless {effects : List AppEffect} (h : Harmless effects) :
    effects.count (.request .quit) = 0 :=
  List.count_eq_zero.mpr h.2

/-- `ui` sends a Quit exactly when its button closes the window. -/
theorem ui_quits (f : Frame) (app : App) :
    Effectful.Ensures (App.ui f) app fun _ es _ =>
      es.count (.request .quit) = if es.contains .close then 1 else 0 := by
  apply Effectful.ensures_update_bind
  apply Effectful.ensures_read_bind
  have hread := passes_snapshot app f.read
  apply Effectful.Ensures.bind (control_ensures f.indicator hread fun outcome =>
    call_ensures (by simp) id outcome hread)
  rintro _ es1 app1 ⟨rfl, h1⟩
  apply Effectful.Ensures.bind (control_ensures f.screenBox h1 fun outcome => ?_)
  swap
  · apply Effectful.ensures_update_bind
    exact call_ensures (by simp) _ outcome ⟨h1.shows, h1.harmless, h1.quitting, h1.hasTray⟩
  rintro _ es2 app2 ⟨rfl, h2⟩
  apply Effectful.ensures_read_bind
  apply Effectful.Ensures.bind (control_ensures (if app2.client.hasTray then f.trayBox else none)
    h2 fun outcome => call_ensures (by simp) id outcome h2)
  rintro _ es3 app3 ⟨rfl, h3⟩
  have hbefore : Harmless (es1 ++ (es2 ++ es3)) := by
    have h := h3.harmless
    rw [List.nil_append, List.append_assoc] at h
    exact h
  split
  · apply Effectful.ensures_update_bind
    apply Effectful.ensures_emit_bind
    apply Effectful.ensures_emit
    have hcount := count_of_harmless hbefore
    simp only [List.count_append] at hcount
    simp [List.count_append]
    omega
  · apply Effectful.ensures_pure
    rw [List.append_nil, count_of_harmless hbefore, List.contains_eq_mem,
      decide_eq_false hbefore.1]
    rfl

/-- `logic` sends one Quit at most. -/
theorem logic_quits (closeRequested : Bool) (app : App) :
    Effectful.Ensures (App.logic closeRequested) app fun _ es _ =>
      es.count (.request .quit) = if es.contains (.request .quit) then 1 else 0 := by
  apply Effectful.ensures_read_bind
  split
  · apply Effectful.ensures_emit
    rfl
  · split
    · apply Effectful.ensures_emit
      rfl
    · apply Effectful.ensures_pure
      rfl

/-- The Quits of a frame. -/
theorem quitsSent_eq {w v : Window} {f : Frame} (hs : w.step f = some v) :
    quitsSent w f =
      (if (w.logic f).effects.contains (.request .quit) then 1 else 0) +
        if v.closeByButton then 1 else 0 := by
  simp only [Window.step, Option.ite_none_left_eq_some, Option.some.injEq] at hs
  obtain ⟨-, rfl⟩ := hs
  obtain ⟨_, -, hlogic⟩ := logic_quits (w.closeRequested f) w.app
  obtain ⟨_, -, hui⟩ := ui_quits f (w.logic f).state
  exact congrArg₂ (· + ·) hlogic hui

/-! ## Frame by frame -/

variable {w v : Window} {f : Frame}

/-- After a frame in which the button was used the app is quitting. -/
theorem buttonQuits_step (hs : w.step f = some v) : ButtonQuits v := by
  obtain ⟨-, -, -, -, -, -, hquitting⟩ := frame_spec hs
  intro hbutton
  rw [hquitting, hbutton, Bool.or_true]

/-- A Quit that is sent is one of those that were left. -/
theorem quitsLeft_step (hs : w.step f = some v) (hw : ButtonQuits w) :
    quitsSent w f + quitsLeft v ≤ quitsLeft w := by
  obtain ⟨hopen, hclosed, -, hlogic, -⟩ := frame_spec hs
  rw [quitsSent_eq hs, hlogic]
  unfold quitsLeft
  rw [hopen, hclosed]
  cases hbutton : w.closeByButton with
  | true =>
      -- the last frame, in which `logic` holds back
      have hlast : w.closeRequested f = true := by simp [Window.closeRequested, hbutton]
      rw [hw hbutton, hlast]
      cases v.closeByButton <;> simp
  | false =>
      cases hlast : w.closeRequested f with
      | true =>
          cases v.closeByButton <;> cases w.app.client.daemonGone <;> cases w.app.quitting <;>
            cases w.app.client.last.keepRunningInTray <;> simp
      | false => cases v.closeByButton <;> simp

/-- A pending close is for the next frame, which is the last. -/
theorem length_of_pending {frames : List Frame}
    (hpending : w.closeByLogic = true ∨ w.closeByButton = true)
    (hr : window.run w frames = some v) : frames.length ≤ 1 := by
  match frames, hr with
  | [], _ => exact Nat.zero_le _
  | [_], _ => exact Nat.le_refl _
  | f :: g :: rest, hr =>
      obtain ⟨u, hu, hr⟩ := Machine.run_cons_eq_some.mp hr
      obtain ⟨t, ht, -⟩ := Machine.run_cons_eq_some.mp hr
      obtain ⟨-, hclosed, -⟩ := frame_spec hu
      obtain ⟨hopen, -⟩ := frame_spec ht
      rw [hclosed, Window.closeRequested] at hopen
      rcases hpending with h | h <;> simp [h] at hopen

/-- Of a window that has closed there are no more frames. -/
theorem length_of_closed {frames : List Frame} (hclosed : w.closed = true)
    (hr : window.run w frames = some v) : frames.length = 0 := by
  cases frames with
  | nil => rfl
  | cons f frames =>
      obtain ⟨u, hu, -⟩ := Machine.run_cons_eq_some.mp hr
      obtain ⟨hopen, -⟩ := frame_spec hu
      rw [hclosed] at hopen
      cases hopen

/-- **Quit ends a window, and a window follows its daemon.** Take any window that has just
connected and any frames, with any reads, clicks and close requests. It sends at most two Quits,
and after a frame that sends one there is at most one more. After a frame whose last read has
failed there are at most two more, and `logic` sends no Quit in the first of them.
SOURCE: main.rs:191-222, main.rs:300-315 -/
theorem window_ends {hasTray : Bool} {last : Status} {run : List Frame}
    (hr : window.run (.start hasTray last) run = some w) :
    window.total quitsSent (.start hasTray last) run ≤ 2 ∧
      ∀ before f after u v, run = before ++ f :: after →
        window.run (.start hasTray last) before = some u → window.step u f = some v →
        (0 < quitsSent u f → after.length ≤ 1) ∧
        (lastRead u.app.client.hasTray f = none → after.length ≤ 2 ∧
          ∀ g, (v.logic g).effects.contains (.request .quit) = false) := by
  constructor
  · have hbound := Machine.total_add_le (M := window) (I := ButtonQuits) (C := fun _ _ => True)
      quitsLeft quitsSent (fun _ _ => 0)
      (fun _ _ _ hs _ _ => buttonQuits_step hs)
      (fun _ _ _ hs _ hw => quitsLeft_step hs hw) hr
      (Machine.along_of_forall (C := fun _ => True) (fun _ _ => trivial) _) (fun h => by cases h)
    have hnothing : window.total (fun _ _ => 0) (.start hasTray last) run =
        (run.map fun _ => 0).sum := Machine.total_of_label hr
    have hstart : quitsLeft (.start hasTray last) = 2 := rfl
    simp at hnothing
    omega
  · rintro before f after u v rfl hu hv
    obtain ⟨u', hu', hrest⟩ := Machine.run_append_eq_some.mp hr
    obtain rfl : u = u' := Option.some.inj (hu.symm.trans hu')
    obtain ⟨v', hv', hafter⟩ := Machine.run_cons_eq_some.mp hrest
    obtain rfl : v = v' := Option.some.inj (hv.symm.trans hv')
    have hs : u.step f = some v := hv
    obtain ⟨-, hclosed, hlogic, hquit, ⟨hgone, -⟩, -, -⟩ := frame_spec hs
    constructor
    · intro hsent
      rw [quitsSent_eq hs] at hsent
      cases hbutton : v.closeByButton with
      | true => exact length_of_pending (Or.inr hbutton) hafter
      | false =>
          -- `logic` has sent it, in the last frame
          refine Nat.le_trans (Nat.le_of_eq (length_of_closed ?_ hafter)) (Nat.zero_le 1)
          cases hrequested : u.closeRequested f with
          | true => rw [hclosed, hrequested]
          | false =>
              rw [hquit, hrequested, hbutton] at hsent
              simp at hsent
    · intro hread
      have hgone : v.app.client.daemonGone = true := by rw [hgone, hread]; rfl
      constructor
      · cases after with
        | nil => exact Nat.zero_le _
        | cons g after =>
            obtain ⟨t, ht, hafter⟩ := Machine.run_cons_eq_some.mp hafter
            obtain ⟨-, -, hpending, -⟩ := frame_spec ht
            have hlength := length_of_pending (Or.inl (hpending.trans hgone)) hafter
            rw [List.length_cons]
            omega
      · intro g
        obtain ⟨_, -, -, -, hnone⟩ := logic_ensures (v.closeRequested g) v.app
        rw [hgone] at hnone
        exact hnone

/-- Sleep is blocked, and the setting is on. -/
def settingOn : Status := ⟨true, false, false, true⟩

/-- The Quit button is clicked in two frames in a row. -/
theorem window_ends_twice :
    let run : List Frame := [{ read := some settingOn, quit := true },
      { read := some settingOn, quit := true }]
    window.total quitsSent (.start true settingOn) run = 2 ∧
      window.total quitsSent (.start true settingOn) run ≤ 2 := by
  intro run
  have hr : ∃ w, window.run (.start true settingOn) run = some w := ⟨_, rfl⟩
  obtain ⟨w, hr⟩ := hr
  exact ⟨by decide, (window_ends hr).1⟩

end SleepBlocker.Analysis
