import SleepBlocker.Analysis.LedgerDiscipline
import SleepBlocker.Analysis.StatusHistory
import SleepBlocker.Interface.DaemonSteps

/-!
# What a panic leaves behind

A panic that unwinds out of the ScreenSaver acquire skips the code that would have reset the
preference, and the next caller recovers the mutex with the data as it is: sleep blocked, the
screen lock wanted and not held. Nothing else leaves that state, and the next call that deals
with the screen lock ends it, unless it panics there again.
-/

set_option autoImplicit false

namespace SleepBlocker.Analysis

open SleepBlocker.Computation SleepBlocker.Model

/-- Whether the last call that deals with the screen lock has panicked in its acquire. -/
def panickedLast (panicked : Bool) (s : SleepBlock) (call : Call) : Bool :=
  match call.op with
  | .setKeepRunningInTray _ | .snapshot => panicked
  | .toggle | .setKeepScreenAwake _ | .releaseAll =>
    (effectsOf s call).contains (.screenInhibit .panics)

/-- The calls, and whether the last one that counts has panicked. -/
def panicking : Machine (SleepBlock × Bool) Call := calls.monitor panickedLast

/-- A stored screen lock has the sleep lock beside it, and is wanted. -/
def Backed (s : Inner) : Prop :=
  s.screen.isSome = true → s.inhibitor.isSome = true ∧ s.keepScreenAwake = true

/-- The invariant: a panic is what explains a screen lock that is wanted and not held. -/
structure Explained (x : SleepBlock × Bool) : Prop where
  backed : Backed x.1.inner.data
  settled : Settled x.1.inner.data ↔ x.2 = false

/-- From `s` the body leaves a screen lock that is backed, and it is held as the status says
unless the ScreenSaver acquire has panicked. -/
def PanicsShow {α : Type} (body : Critical α) (s : Inner) : Prop :=
  Backed (body.run s).state ∧
    (Settled (body.run s).state ↔
      (body.run s).effects.contains (.screenInhibit .panics) = false)

variable {s : Inner}

/-- What is settled, where a stored screen lock is backed. -/
theorem settled_iff (h : Backed s) :
    Settled s ↔ ¬ (s.inhibitor.isSome = true ∧ s.keepScreenAwake = true ∧ s.screen = none) := by
  cases hscreen : s.screen with
  | none => cases hi : s.inhibitor.isSome <;> cases hk : s.keepScreenAwake <;>
      simp [Settled, hscreen, hi, hk]
  | some screen =>
      obtain ⟨hi, hk⟩ := h (by rw [hscreen]; rfl)
      simp [Settled, hscreen, hi, hk]

/-- Without an inhibitor there is no screen lock to back. -/
theorem screen_eq_none (h : Backed s) (hi : s.inhibitor = none) : s.screen = none := by
  cases hs : s.screen with
  | none => rfl
  | some screen => simp [Backed, hs, hi] at h

/-- Dropping a screen lock acquires none. -/
theorem not_contains_dropped (saver : Bool) (screen : Option ScreenInhibitor) :
    Effect.screenInhibit .panics ∉ dropped saver screen := by
  cases screen <;> cases saver <;> simp [dropped]

/-- The acquire of a screen lock that is wanted and not held. -/
theorem acquireScreen_panicsShow (ans : Answers) (hi : s.inhibitor.isSome = true)
    (hk : s.keepScreenAwake = true) (hs : s.screen = none) : PanicsShow (acquireScreen ans) s := by
  unfold PanicsShow
  cases ha : ans.screen with
  | granted cookie =>
      rw [acquireScreen_run_granted ha]
      simp [Backed, Settled, hi, hk, hs, ha, dropped]
  | unreachable e | refused e | panics =>
      rw [acquireScreen_run_ungranted (by simp [ha, Answer.grant])]
      simp [Backed, Settled, hi, hk, hs, ha, Answer.fails]

/-- In `toggle` a panic shows. -/
theorem toggle_panicsShow (ans : Answers) (h : Backed s) : PanicsShow (toggle ans) s := by
  cases hi : s.inhibitor with
  | some i =>
      rw [PanicsShow, toggle_run_held hi]
      simp [Backed, Settled, not_contains_dropped]
  | none =>
      have hscreen := screen_eq_none h hi
      cases hg : ans.logind.grant with
      | none =>
          rw [PanicsShow, toggle_run_ungranted hi hg]
          exact ⟨h, by simp [Settled, hi, hscreen]⟩
      | some fd =>
          have hfd := Answer.grant_eq_some.mp hg
          cases hk : s.keepScreenAwake with
          | false =>
              rw [PanicsShow, toggle_run_granted hi hfd hk]
              simp [Backed, Settled, hk, hscreen]
          | true =>
              have hacquire : PanicsShow (acquireScreen ans) { s with inhibitor := some ⟨fd⟩ } :=
                acquireScreen_panicsShow ans rfl hk hscreen
              rw [PanicsShow, toggle_run_granted_screen hi hfd hk]
              simpa [PanicsShow] using hacquire

/-- In `set_keep_screen_awake` a panic shows. -/
theorem setKeepScreenAwake_panicsShow (ans : Answers) (s : Inner) (wanted : Bool) :
    PanicsShow (setKeepScreenAwake wanted ans) s := by
  rcases setKeepScreenAwake_split wanted s with ⟨hw, hscreen⟩ | hrec
  · obtain ⟨rfl, hi⟩ := Bool.and_eq_true_iff.mp hw
    rw [PanicsShow, setKeepScreenAwake_run_acquire hw hscreen]
    exact acquireScreen_panicsShow ans hi rfl hscreen
  · rw [PanicsShow, setKeepScreenAwake_run_record hrec]
    cases hw : wanted && s.inhibitor.isSome with
    | false =>
        have hnone : (s.inhibitor.isSome && wanted) = false := by rw [Bool.and_comm, hw]
        simp [Backed, Settled, not_contains_dropped, hnone]
    | true =>
        obtain ⟨rfl, hi⟩ := Bool.and_eq_true_iff.mp hw
        have hscreen : s.screen.isSome = true := hrec.resolve_left (by simp [hw])
        simp [Backed, Settled, hi, hscreen]

/-- A call keeps screen locks backed, and settles the status unless the acquire panics. -/
theorem perform_panicsShow {s : SleepBlock} (call : Call) (h : Backed s.inner.data) :
    Backed (perform call s).state.inner.data ∧ ∀ panicked,
      (Settled s.inner.data ↔ panicked = false) →
        (Settled (perform call s).state.inner.data ↔ panickedLast panicked s call = false) := by
  obtain ⟨op, ans⟩ := call
  obtain ⟨heffects, hstate, -⟩ := perform_eq ⟨op, ans⟩ s
  simp only [panickedLast, effectsOf, heffects, hstate]
  generalize s.inner.data = inner at h
  cases op with
  | toggle =>
      rw [Op.body, run_return_some]
      obtain ⟨hbacked, hsettled⟩ := toggle_panicsShow ans h
      exact ⟨hbacked, fun _ _ => hsettled⟩
  | setKeepScreenAwake wanted =>
      rw [Op.body, run_return_some]
      obtain ⟨hbacked, hsettled⟩ := setKeepScreenAwake_panicsShow ans inner wanted
      exact ⟨hbacked, fun _ _ => hsettled⟩
  | setKeepRunningInTray wanted =>
      simp only [Op.body, Effectful.run_bind, setKeepRunningInTray_run]
      exact ⟨h, fun _ hsame => hsame⟩
  | releaseAll =>
      simp only [Op.body, Effectful.run_bind, releaseAll_run]
      refine ⟨by simp [Backed], fun _ _ => ?_⟩
      cases inner.inhibitor <;> simp [Settled, not_contains_dropped, closed]
  | snapshot =>
      simp only [Op.body, Effectful.run_bind, Effectful.run_read]
      exact ⟨h, fun _ hsame => hsame⟩

/-- Every call keeps the state explained. -/
theorem explained_step (x : SleepBlock × Bool) (call : Call) (y : SleepBlock × Bool)
    (hs : panicking.step x call = some y) (hx : Explained x) : Explained y := by
  obtain ⟨hstep, hupdate⟩ := Machine.monitor_step_eq_some.mp hs
  obtain ⟨s, panicked⟩ := x
  obtain ⟨t, panicked'⟩ := y
  simp only [calls, Option.some.injEq] at hstep hupdate
  subst hstep hupdate
  obtain ⟨hbacked, hshow⟩ := perform_panicsShow call hx.backed
  exact ⟨hbacked, hshow _ hx.settled⟩

/-- **What a panic leaves behind.** Take any calls on clones of one `SleepBlock`, with acquires
that succeed, fail or panic. In every state the screen lock is held exactly when sleep is blocked
and the preference is set, if and only if the last call of `toggle`, `set_keep_screen_awake` or
`release_all` has not panicked in the ScreenSaver acquire; and where it has, sleep is blocked, the
preference is set, and the screen lock is not held.
SOURCE: state.rs:55-62, state.rs:65-151 -/
theorem unsettled_iff_panicked (history : List Call) :
    panicking.Everywhere
      (fun x => (Settled x.1.inner.data ↔ x.2 = false) ∧
        (x.2 = true → x.1.snapshot.sleepBlocked = true ∧ x.1.snapshot.keepScreenAwake = true ∧
          x.1.snapshot.screenBlocked = false))
      (.new, false) history := by
  have hinv : panicking.Everywhere Explained (.new, false) history := by
    apply Machine.everywhere_of_step explained_step
    exact ⟨fun h => (by cases h), iff_of_true rfl rfl⟩
  refine hinv.mono fun x hx => ⟨hx.settled, fun hpanicked => ?_⟩
  have hun : ¬ Settled x.1.inner.data := by simp [hx.settled, hpanicked]
  rw [settled_iff hx.backed, not_not] at hun
  simpa [SleepBlock.snapshot_eq, statusOf, and_comm, and_left_comm] using hun

end SleepBlocker.Analysis
