import SleepBlocker.Model.Tray

/-!
# When an old error masks the state

The tray keeps the error of its last toggle, or of its last "Also keep screen on", and its
tooltip shows that error before anything else. The D-Bus handlers have no way to the field,
and the tray's other two items leave it as it is, so what they change stays behind the
error. `tip_describes_status_iff` says that this is the only way: along every run the
tooltip describes the status after every change since the last failure exactly when no such
call changes the status while the error is set.
-/

set_option autoImplicit false

namespace SleepBlocker.Analysis

open SleepBlocker.Computation SleepBlocker.Model

/-! ## What a run has seen -/

/-- The step is a tray action whose call into `SleepBlock` fails. -/
def trayFails (d : Daemon) (a : Daemon.Label) : Bool :=
  a.party == .tray &&
    (d.callOf a).any fun call => (Daemon.errorOf (perform call d.state).value).isSome

/-- The step's call leaves another status than it finds. -/
def changesStatus (d : Daemon) (a : Daemon.Label) : Bool :=
  (d.callOf a).any fun call => (perform call d.state).state.snapshot != d.state.snapshot

/-- Whether a tray action has failed, and whether the status has changed since the last one
that did. -/
structure FailureHistory where
  failed : Bool := false
  changed : Bool := false
  deriving DecidableEq, Repr

/-- What the history records of a step. -/
def FailureHistory.update (g : FailureHistory) (d : Daemon) (a : Daemon.Label) : FailureHistory :=
  if trayFails d a then ⟨true, false⟩ else { g with changed := g.changed || changesStatus d a }

/-- The daemon with the history of the tray's failures. -/
def failures : Machine (Daemon × FailureHistory) Daemon.Label :=
  daemon.monitor FailureHistory.update

/-- If the status has changed since the last tray action that failed, the tooltip is the one
that describes the status. -/
def TipDescribes (x : Daemon × FailureHistory) : Prop :=
  x.2.failed = true → x.2.changed = true →
    toolTip x.1.state.snapshot x.1.error = toolTip x.1.state.snapshot none

/-- The three callbacks that assign the tray's error. -/
def keepsResult : Daemon.Label → Bool
  | .activate _ | .toggleItem _ | .screenItemSet _ => true
  | _ => false

/-- The step is not a call that changes the status while the tray's error is set, made by a
D-Bus handler, by "Keep running in tray when closed" or by the tray's Quit. -/
def NoHiddenChange (x : Daemon × FailureHistory) (a : Daemon.Label) : Prop :=
  x.1.error.isSome = true → keepsResult a = false →
    (x.1.callOf a).any (·.moves x.1.state.inner.data) = false

/-! ## The error and its tooltip -/

/-- An error text begins with a lower-case c or l. -/
theorem head_toString (e : Error) :
    e.toString.toList.head? = some 'c' ∨ e.toString.toList.head? = some 'l' := by
  cases e with
  | connect text =>
      have hc : "cannot reach systemd-logind: ".toList.head? = some 'c' := by decide
      left
      show ("cannot reach systemd-logind: " ++ text).toList.head? = some 'c'
      rw [String.toList_append, List.head?_append, hc]
      rfl
  | inhibit text =>
      have hl : "logind refused the inhibitor: ".toList.head? = some 'l' := by decide
      right
      show ("logind refused the inhibitor: " ++ text).toList.head? = some 'l'
      rw [String.toList_append, List.head?_append, hl]
      rfl

/-- No error reads like a description of the status. -/
theorem toolTip_error (s : Status) (e : Error) :
    toolTip s (some e.toString) ≠ toolTip s none := by
  intro h
  have hdescription : e.toString = (toolTip s none).description := by
    rw [← h]
    rfl
  have hhead : (toolTip s none).description.toList.head? = some 'S' ∨
      (toolTip s none).description.toList.head? = some 'T' := by
    unfold toolTip
    cases s.sleepBlocked <;> cases s.screenBlocked <;> decide
  rw [← hdescription] at hhead
  rcases head_toString e with hc | hl <;> simp_all

/-- What the tray keeps is the text of an error. -/
theorem errorOf_eq_some {value : Option (Option (Except Error Status))} {e : String}
    (h : Daemon.errorOf value = some e) : ∃ error : Error, e = error.toString := by
  unfold Daemon.errorOf at h
  split at h
  · rename_i error
    simp only [Option.some.injEq] at h
    exact ⟨error, h.symm⟩
  · cases h

/-- Setting "Keep running in tray when closed" and releasing cannot fail. -/
theorem errorOf_infallible {op : Op} (ans : Answers) (s : SleepBlock)
    (hop : op = .releaseAll ∨ ∃ wanted, op = .setKeepRunningInTray wanted) :
    Daemon.errorOf (perform ⟨op, ans⟩ s).value = none := by
  obtain ⟨-, -, hvalue⟩ := perform_eq ⟨op, ans⟩ s
  rw [hvalue]
  rcases hop with rfl | ⟨wanted, rfl⟩
  · simp [Op.body, Effectful.run_bind, releaseAll_run, Daemon.errorOf]
  · simp [Op.body, Effectful.run_bind, setKeepRunningInTray_run, Daemon.errorOf]

/-- What a step does to the tray's error: the three callbacks assign it, and every other step
leaves it and is no failure. -/
theorem error_of_step {d t : Daemon} {a : Daemon.Label} (hs : d.step a = some t) :
    (keepsResult a = true ∧ trayFails d a = t.error.isSome ∧
      ∀ e, t.error = some e → ∃ error : Error, e = error.toString) ∨
    (keepsResult a = false ∧ trayFails d a = false ∧ t.error = d.error) := by
  by_cases hp : a.party = .tray
  · cases a <;> simp only [Daemon.Label.party, reduceCtorEq] at hp
    case activate ans | toggleItem ans =>
      obtain ⟨-, -, rfl⟩ := Daemon.trayToggle_eq_some.mp hs
      exact Or.inl ⟨rfl, by simp [trayFails, Daemon.Label.party, Daemon.callOf],
        fun e => errorOf_eq_some⟩
    case screenItemSet ans =>
      obtain ⟨wanted, hc, -, -, rfl⟩ := Daemon.screenItemSet_eq_some.mp hs
      exact Or.inl ⟨rfl, by simp [trayFails, Daemon.Label.party, Daemon.callOf, hc],
        fun e => errorOf_eq_some⟩
    case runningItemSet ans =>
      obtain ⟨wanted, hc, -, -, rfl⟩ := Daemon.runningItemSet_eq_some.mp hs
      refine Or.inr ⟨rfl, ?_, rfl⟩
      have hnone := errorOf_infallible ans d.state (Or.inr ⟨wanted, rfl⟩)
      simp [trayFails, Daemon.callOf, hc, hnone]
    case quitItem ans =>
      obtain ⟨-, -, rfl⟩ := Daemon.quitItem_eq_some.mp hs
      refine Or.inr ⟨rfl, ?_, rfl⟩
      have hnone := errorOf_infallible ans d.state (Or.inl rfl)
      simp [trayFails, Daemon.callOf, hnone]
    all_goals
      simp only [Daemon.step, Option.ite_none_right_eq_some, Option.some.injEq] at hs
      obtain ⟨-, rfl⟩ := hs
      exact Or.inr ⟨rfl, rfl, rfl⟩
  · have herror := ((Daemon.frame_of_party hs).2.2.1 hp).2
    refine Or.inr ⟨?_, ?_, herror⟩
    · cases a <;> simp_all [keepsResult, Daemon.Label.party]
    · simp [trayFails, hp]

/-- A step changes the status exactly when its call moves it. -/
theorem changesStatus_eq {d t : Daemon} {a : Daemon.Label} (hs : d.step a = some t) :
    changesStatus d a = (d.callOf a).any (·.moves d.state.inner.data) := by
  unfold changesStatus
  rcases Daemon.step_cases hs with ⟨call, hcall, -, -, -, hcalm⟩ | ⟨hcall, -⟩
  · rw [hcall, Option.any_some, Option.any_some, Bool.eq_iff_iff, bne_iff_ne]
    exact perform_moves d.state hcalm
  · rw [hcall]
    rfl

/-! ## Along a run -/

/-- The tray's error is the text of a failure that the history knows of. -/
def Remembered (x : Daemon × FailureHistory) : Prop :=
  ∀ e, x.1.error = some e → x.2.failed = true ∧ ∃ error : Error, e = error.toString

/-- Every step keeps what is known of the tray's error. -/
theorem remembered_step (x : Daemon × FailureHistory) (a : Daemon.Label)
    (y : Daemon × FailureHistory) (hs : failures.step x a = some y) (hx : Remembered x) :
    Remembered y := by
  obtain ⟨hd, hy⟩ := Machine.monitor_step_eq_some.mp hs
  intro e he
  rw [hy, FailureHistory.update]
  rcases error_of_step hd with ⟨-, hfails, htext⟩ | ⟨-, hfails, herror⟩
  · rw [hfails, he]
    exact ⟨rfl, htext e he⟩
  · rw [herror] at he
    rw [hfails]
    exact hx e he

/-- With an error that is set, the tooltip is right only as long as nothing has changed. -/
theorem tipDescribes_iff {x : Daemon × FailureHistory} (hx : Remembered x) :
    TipDescribes x ↔ (x.1.error.isSome = true → x.2.changed = false) := by
  unfold TipDescribes
  cases he : x.1.error with
  | none => simp
  | some e =>
      obtain ⟨hfailed, error, rfl⟩ := hx e he
      simp [hfailed, toolTip_error]

/-- One step keeps the tooltip right exactly when it makes no hidden change. -/
theorem tipDescribes_step (x : Daemon × FailureHistory) (a : Daemon.Label)
    (y : Daemon × FailureHistory) (hs : failures.step x a = some y) (hmem : Remembered x)
    (hx : TipDescribes x) : TipDescribes y ↔ NoHiddenChange x a := by
  have hmem' := remembered_step x a y hs hmem
  obtain ⟨hd, hy⟩ := Machine.monitor_step_eq_some.mp hs
  rw [tipDescribes_iff hmem] at hx
  rw [tipDescribes_iff hmem', hy, FailureHistory.update]
  unfold NoHiddenChange
  rcases error_of_step hd with ⟨hkeeps, hfails, -⟩ | ⟨hkeeps, hfails, herror⟩
  · -- a failure restarts the history, a success clears the error
    rw [hfails, hkeeps]
    cases y.1.error <;> simp
  · rw [hfails, hkeeps, herror, ← changesStatus_eq hd]
    cases he : x.1.error with
    | none => simp
    | some e =>
        rw [he] at hx
        simp [hx rfl]

/-- **An old error masks nothing exactly without hidden changes.** Along every run of the
daemon, any interleaving of tray callbacks and D-Bus handlers, in every state in which the
status has changed since the last tray action that failed, the tooltip describes the status,
exactly when no call by a handler, by "Keep running in tray when closed" or by the tray's
Quit changes the status while the tray's error is set.
SOURCE: tray.rs:131-217, sleep-blockd.rs:43-79 -/
theorem tip_describes_status_iff {run : List Daemon.Label} {d : Daemon}
    (hr : daemon.run {} run = some d) :
    failures.Everywhere TipDescribes ({}, {}) run ↔
      failures.Along NoHiddenChange ({}, {}) run := by
  apply Machine.monitor_iff_along remembered_step tipDescribes_step hr
  · intro e he
    cases he
  · intro hfailed
    cases hfailed

/-- A click on the icon that logind refuses, and a Toggle over D-Bus that it grants. -/
def refusedThenGranted : List Daemon.Label :=
  [.startTray true, .serve true, .requestName .primaryOwner,
    .activate ⟨.refused "no session", .granted 6, true⟩, .receive 0 .toggle,
    .handle 0 ⟨.granted 5, .granted 6, true⟩]

/-- Sleep is blocked, and the tooltip still gives the reason why it was not. -/
theorem refusedThenGranted_masked :
    ∃ y, failures.run ({}, {}) refusedThenGranted = some y ∧
      y.1.state.snapshot.sleepBlocked = true ∧
      (toolTip y.1.state.snapshot y.1.error).description =
        "logind refused the inhibitor: no session" ∧
      ¬ TipDescribes y := by
  refine ⟨_, rfl, rfl, rfl, fun h => ?_⟩
  exact absurd (h rfl rfl) (by decide)

/-- With a second click in place of the Toggle the run meets the condition. -/
theorem tip_describes_status_iff_second_click :
    let run : List Daemon.Label :=
      [.startTray true, .serve true, .requestName .primaryOwner,
        .activate ⟨.refused "no session", .granted 6, true⟩,
        .activate ⟨.granted 5, .granted 6, true⟩]
    (∃ d, daemon.run {} run = some d) ∧
      (failures.Everywhere TipDescribes ({}, {}) run ↔
        failures.Along NoHiddenChange ({}, {}) run) :=
  ⟨⟨_, rfl⟩, tip_describes_status_iff rfl⟩

end SleepBlocker.Analysis
