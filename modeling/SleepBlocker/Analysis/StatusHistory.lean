import SleepBlocker.Interface.CriticalSections

/-!
# The status is determined by the history

Without panics the stored screen lock is held exactly when sleep is blocked and the
preference is set (`Settled`). From that invariant every operation moves the status by a
rule that reads only the operation and which of its acquires failed, so the status after a
run is a function of the records of the run. The same invariant is what makes the error
path of `set_keep_screen_awake` leave the status alone: on a settled state the screen
acquire is only tried when the preference was false, the value it is reset to.
-/

set_option autoImplicit false

namespace SleepBlocker.Analysis

open SleepBlocker.Computation SleepBlocker.Model

/-- The screen lock is held exactly when sleep is blocked and the preference is set. -/
def Settled (s : Inner) : Prop :=
  s.screen.isSome = (s.inhibitor.isSome && s.keepScreenAwake)

/-- The call is a logind acquire that failed. -/
def logindFails : Effect → Bool
  | .inhibit answer => answer.fails
  | _ => false

/-- The call is a ScreenSaver acquire that failed. -/
def screenFails : Effect → Bool
  | .screenInhibit answer => answer.fails
  | _ => false

/-- Some call to logind in this log has failed. -/
def logindFailed (effects : List Effect) : Bool := effects.any logindFails

/-- Some call to the ScreenSaver in this log has failed. -/
def screenFailed (effects : List Effect) : Bool := effects.any screenFails

section Effects

variable (e : Effect) (k l : List Effect) (saver : Bool) (screen : Option ScreenInhibitor)

/-- Nothing has failed before anything was called. -/
@[simp] theorem logindFailed_nil : logindFailed [] = false := rfl

/-- Nothing has failed before anything was called. -/
@[simp] theorem screenFailed_nil : screenFailed [] = false := rfl

/-- The log has a failure of logind in its first effect or behind it. -/
@[simp] theorem logindFailed_cons : logindFailed (e :: l) = (logindFails e || logindFailed l) :=
  rfl

/-- The log has a failure of the ScreenSaver in its first effect or behind it. -/
@[simp] theorem screenFailed_cons : screenFailed (e :: l) = (screenFails e || screenFailed l) :=
  rfl

/-- A log in two parts has a failure of logind in one of them. -/
@[simp] theorem logindFailed_append :
    logindFailed (k ++ l) = (logindFailed k || logindFailed l) := by
  simp [logindFailed]

/-- A log in two parts has a failure of the ScreenSaver in one of them. -/
@[simp] theorem screenFailed_append :
    screenFailed (k ++ l) = (screenFailed k || screenFailed l) := by
  simp [screenFailed]

/-- Dropping the screen lock calls logind for nothing. -/
@[simp] theorem logindFailed_dropped : logindFailed (dropped saver screen) = false := by
  cases screen <;> cases saver <;> rfl

/-- Dropping the screen lock asks the ScreenSaver for nothing. -/
@[simp] theorem screenFailed_dropped : screenFailed (dropped saver screen) = false := by
  cases screen <;> cases saver <;> rfl

end Effects

/-! ## How one call moves the status -/

/-- The preference after a call: a failed acquire of the screen lock resets it, and otherwise
its setter sets it. -/
def nextPreference (op : Op) (effects : List Effect) (now : Bool) : Bool :=
  if screenFailed effects then false
  else match op with
    | .setKeepScreenAwake wanted => wanted
    | _ => now

/-- Whether sleep is blocked after a call: a toggle that logind does not fail flips it, and a
release ends it. -/
def nextSleep (op : Op) (effects : List Effect) (now : Bool) : Bool :=
  match op with
  | .toggle => if logindFailed effects then now else !now
  | .releaseAll => false
  | _ => now

/-- The window setting after a call: its setter sets it. -/
def nextRunning (op : Op) (now : Bool) : Bool :=
  match op with
  | .setKeepRunningInTray wanted => wanted
  | _ => now

/-- One call's outcome `o` from `s` moves the status by the rules. -/
structure Moves (op : Op) (s : Inner) (effects : List Effect) (t : Inner) : Prop where
  settled : Settled t
  preference : t.keepScreenAwake = nextPreference op effects s.keepScreenAwake
  sleep : t.inhibitor.isSome = nextSleep op effects s.inhibitor.isSome
  running : t.keepRunningInTray = nextRunning op s.keepRunningInTray

/-- The acquire of a screen lock that was not held: it is held afterwards, or it failed and
the preference is false. -/
theorem acquireScreen_moves {ans : Answers} {s : Inner} (hcalm : ans.calm = true)
    (hi : s.inhibitor.isSome = true) (hk : s.keepScreenAwake = true) (hs : s.screen = none) :
    let o := (acquireScreen ans).run s
    Settled o.state ∧ o.state.inhibitor = s.inhibitor ∧
      o.state.keepScreenAwake = !screenFailed o.effects ∧
      o.state.keepRunningInTray = s.keepRunningInTray ∧
      logindFailed o.effects = false ∧
      (∀ e, o.value = some (.error e) → screenFailed o.effects = true ∧ o.state.screen = none) ∧
      (screenFailed o.effects = true → ∃ e, o.value = some (.error e)) := by
  cases ha : ans.screen with
  | granted cookie =>
      rw [acquireScreen_run_granted ha]
      simp [Settled, screenFails, logindFails, hs, hi, hk, ha, Answer.fails]
  | unreachable e =>
      rw [acquireScreen_run_ungranted (by simp [ha, Answer.grant])]
      simp [Settled, screenFails, logindFails, hs, ha, Answer.fails, ungranted]
  | refused e =>
      rw [acquireScreen_run_ungranted (by simp [ha, Answer.grant])]
      simp [Settled, screenFails, logindFails, hs, ha, Answer.fails, ungranted]
  | panics => simp [Answers.calm, Answer.calm, ha] at hcalm

/-- `toggle` moves the status by the rules; an error from logind leaves the data as it was,
and one from the ScreenSaver leaves sleep blocked and the rest of the screen fields off. -/
theorem toggle_moves {ans : Answers} {s : Inner} (hcalm : ans.calm = true) (hs : Settled s) :
    let o := (toggle ans).run s
    Moves .toggle s o.effects o.state ∧
      (∀ e, o.value = some (.error e) →
        (logindFailed o.effects = true ∧ screenFailed o.effects = false ∧ o.state = s) ∨
        (logindFailed o.effects = false ∧ screenFailed o.effects = true ∧
          o.state.inhibitor.isSome = true ∧ o.state.screen = none ∧
          o.state.keepScreenAwake = false ∧ o.state.keepRunningInTray = s.keepRunningInTray)) := by
  have hlogind : ans.logind.calm = true := by
    simp only [Answers.calm, Bool.and_eq_true] at hcalm
    exact hcalm.1
  cases hi : s.inhibitor with
  | some i =>
      rw [toggle_run_held hi]
      refine ⟨⟨?_, ?_, ?_, rfl⟩, by simp⟩
      · simp [Settled]
      · simp [nextPreference, screenFails]
      · simp [nextSleep, logindFails, hi]
  | none =>
      have hscreen : s.screen = none := by
        simpa [Settled, hi] using hs
      cases ha : ans.logind with
      | panics => simp [Answer.calm, ha] at hlogind
      | unreachable e =>
          rw [toggle_run_ungranted hi (by simp [ha, Answer.grant])]
          refine ⟨⟨hs, ?_, ?_, rfl⟩, fun e _ => Or.inl ⟨?_, ?_, rfl⟩⟩ <;>
            simp [nextPreference, nextSleep, screenFails, logindFails, ha, Answer.fails]
      | refused e =>
          rw [toggle_run_ungranted hi (by simp [ha, Answer.grant])]
          refine ⟨⟨hs, ?_, ?_, rfl⟩, fun e _ => Or.inl ⟨?_, ?_, rfl⟩⟩ <;>
            simp [nextPreference, nextSleep, screenFails, logindFails, ha, Answer.fails]
      | granted fd =>
          cases hk : s.keepScreenAwake with
          | false =>
              rw [toggle_run_granted hi ha hk]
              refine ⟨⟨?_, ?_, ?_, rfl⟩, by simp⟩ <;>
                simp [Settled, nextPreference, nextSleep, screenFails, logindFails, ha,
                  Answer.fails, hscreen, hk, hi]
          | true =>
              obtain ⟨hset, hinh, hpref, hrun, hlog, herr, -⟩ :=
                acquireScreen_moves (s := { s with inhibitor := some ⟨fd⟩ }) hcalm rfl hk hscreen
              have hnot : logindFails (.inhibit ans.logind) = false := by
                simp [logindFails, ha, Answer.fails]
              have hnot' : screenFails (.inhibit ans.logind) = false := rfl
              rw [toggle_run_granted_screen hi ha hk]
              refine ⟨⟨hset, ?_, ?_, hrun⟩, fun e he => Or.inr ?_⟩
              · rw [hpref]
                simp only [nextPreference, screenFailed_cons, hnot', Bool.false_or, hk]
                split <;> simp_all
              · rw [hinh]
                simp only [nextSleep, logindFailed_cons, hnot, hlog, hi]
                rfl
              · obtain ⟨hfail, hnone⟩ := herr e he
                simp only [logindFailed_cons, screenFailed_cons, hnot, hnot', hlog, hfail, hinh,
                  hpref, hrun, hnone]
                simp

/-- `set_keep_screen_awake` moves the status by the rules, and an error from it leaves the
data as it was: on a settled state the acquire is only tried when the preference is false,
which is what it is reset to. -/
theorem setKeepScreenAwake_moves {ans : Answers} {s : Inner} (wanted : Bool)
    (hcalm : ans.calm = true) (hs : Settled s) :
    let o := (setKeepScreenAwake wanted ans).run s
    Moves (.setKeepScreenAwake wanted) s o.effects o.state ∧
      (∀ e, o.value = some (.error e) → statusOf o.state = statusOf s) := by
  rcases setKeepScreenAwake_split wanted s with ⟨hw, hscreen⟩ | hrec
  · obtain ⟨rfl, hi⟩ := Bool.and_eq_true_iff.mp hw
    have hk : s.keepScreenAwake = false := by
      simpa [Settled, hscreen, hi] using hs
    obtain ⟨hset, hinh, hpref, hrun, hlog, herr, -⟩ :=
      acquireScreen_moves (s := { s with keepScreenAwake := true }) hcalm hi rfl hscreen
    rw [setKeepScreenAwake_run_acquire hw hscreen]
    refine ⟨⟨hset, ?_, ?_, hrun⟩, fun e he => ?_⟩
    · rw [hpref]
      simp only [nextPreference]
      split <;> simp_all
    · rw [hinh]
      rfl
    · obtain ⟨hfail, hnone⟩ := herr e he
      simp only [statusOf, hinh, hnone, hpref, hfail, hrun]
      simp [hscreen, hk]
  · rw [setKeepScreenAwake_run_record hrec]
    cases hw : (wanted && s.inhibitor.isSome) with
    | true =>
        have hscreen : s.screen.isSome = true := by simpa [hw] using hrec
        obtain ⟨rfl, hi⟩ := Bool.and_eq_true_iff.mp hw
        refine ⟨⟨?_, ?_, ?_, rfl⟩, by simp⟩
        · simp [Settled, hscreen, hi]
        · simp [nextPreference]
        · rfl
    | false =>
        refine ⟨⟨?_, ?_, ?_, rfl⟩, by simp⟩
        · rw [Bool.and_comm] at hw
          simp [Settled, hw]
        · simp [nextPreference]
        · rfl

/-- Every call moves the status by the rules. -/
theorem body_moves {ans : Answers} {s : Inner} (op : Op) (hcalm : ans.calm = true)
    (hs : Settled s) :
    let o := (op.body ans).run s
    Moves op s o.effects o.state := by
  cases op with
  | toggle =>
      have h := (toggle_moves hcalm hs).1
      rwa [Op.body, run_return_some]
  | setKeepScreenAwake wanted =>
      have h := (setKeepScreenAwake_moves wanted hcalm hs).1
      rwa [Op.body, run_return_some]
  | setKeepRunningInTray wanted =>
      simp only [Op.body, Effectful.run_bind, setKeepRunningInTray_run, Effectful.run_pure]
      exact ⟨hs, by simp [nextPreference], rfl, rfl⟩
  | releaseAll =>
      simp only [Op.body, Effectful.run_bind, releaseAll_run, Effectful.run_pure]
      refine ⟨by simp [Settled], ?_, rfl, rfl⟩
      cases hi : s.inhibitor <;> simp [nextPreference, closed, screenFails]
  | snapshot =>
      simp only [Op.body, Effectful.run_bind, Effectful.run_read, Effectful.run_pure]
      exact ⟨hs, rfl, rfl, rfl⟩

/-! ## The history of a run -/

/-- What a run of calls looks like from outside: each operation with its effects. -/
structure Record where
  op : Op
  effects : List Effect
  deriving DecidableEq, Repr

/-- What a call leaves in the history. -/
def recordOf (s : SleepBlock) (call : Call) : List Record :=
  [⟨call.op, (perform call s).effects⟩]

/-- The records of a run from `SleepBlock::new()`. -/
def recordsOf (history : List Call) : List Record := calls.emitted recordOf .new history

/-- The latest `set_keep_screen_awake` asked for the screen lock, and no ScreenSaver acquire
has failed during or after that call. -/
def PreferenceStands (records : List Record) : Prop :=
  ∃ earlier r later, records = earlier ++ r :: later ∧ r.op = .setKeepScreenAwake true ∧
    (∀ x ∈ later, ∀ wanted, x.op ≠ .setKeepScreenAwake wanted) ∧
    ∀ x ∈ r :: later, screenFailed x.effects = false

/-- `sleep_blocked` as the history has it: flipped by each toggle whose logind acquire did
not fail, cleared by `release_all`. -/
def sleepAfter (records : List Record) : Bool :=
  records.foldl (fun blocked r => nextSleep r.op r.effects blocked) false

/-- The values given to `set_keep_running_in_tray`, in order. -/
def runningSettings (records : List Record) : List Bool :=
  records.filterMap fun r => match r.op with
    | .setKeepRunningInTray wanted => some wanted
    | _ => none

/-- One more record: the preference stands if the record sets it, or if it stood and the
record neither sets it nor fails a ScreenSaver acquire. -/
theorem preferenceStands_concat (records : List Record) (r : Record) :
    PreferenceStands (records ++ [r]) ↔ screenFailed r.effects = false ∧
      (r.op = .setKeepScreenAwake true ∨
        (∀ wanted, r.op ≠ .setKeepScreenAwake wanted) ∧ PreferenceStands records) := by
  constructor
  · rintro ⟨earlier, x, later, heq, hop, hlater, hfail⟩
    rcases List.eq_nil_or_concat later with rfl | ⟨later, y, rfl⟩
    · obtain ⟨rfl, hx⟩ := List.append_inj' heq rfl
      cases hx
      exact ⟨hfail _ (by simp), Or.inl hop⟩
    · have heq' : records ++ [r] = (earlier ++ x :: later) ++ [y] := by simpa using heq
      obtain ⟨rfl, hy⟩ := List.append_inj' heq' rfl
      cases hy
      refine ⟨hfail r (by simp), Or.inr ⟨hlater r (by simp), earlier, x, later, rfl, hop, ?_, ?_⟩⟩
      · exact fun z hz => hlater z (by simp [hz])
      · intro z hz
        refine hfail z ?_
        rcases List.mem_cons.mp hz with rfl | hz
        · simp
        · simp [hz]
  · rintro ⟨hfail, hop | ⟨hnot, earlier, x, later, rfl, hop, hlater, hall⟩⟩
    · exact ⟨records, r, [], rfl, hop, by simp, by simpa using hfail⟩
    · refine ⟨earlier, x, later ++ [r], by simp, hop, ?_, ?_⟩
      · intro z hz
        rcases List.mem_append.mp hz with hz | hz
        · exact hlater z hz
        · exact (List.mem_singleton.mp hz) ▸ hnot
      · intro z hz
        rcases List.mem_append.mp (List.cons_append ▸ hz) with hz | hz
        · exact hall z hz
        · exact (List.mem_singleton.mp hz) ▸ hfail

/-- The records of a run read the status off: the invariant of the induction over calls. -/
structure Told (records : List Record) (s : Inner) : Prop where
  settled : Settled s
  preference : s.keepScreenAwake = true ↔ PreferenceStands records
  sleep : s.inhibitor.isSome = sleepAfter records
  running : s.keepRunningInTray = (runningSettings records).getLast?.getD false

/-- The empty history tells of the state there is at the start. -/
theorem told_nil : Told [] {} := by
  refine ⟨rfl, ?_, rfl, rfl⟩
  constructor
  · intro h
    cases h
  · rintro ⟨earlier, r, later, heq, -⟩
    simp at heq

/-- A call that moves the status by the rules keeps the records telling it. -/
theorem told_concat {records : List Record} {s t : Inner} {r : Record} (hs : Told records s)
    (hm : Moves r.op s r.effects t) : Told (records ++ [r]) t := by
  refine ⟨hm.settled, ?_, ?_, ?_⟩
  · rw [hm.preference, preferenceStands_concat, ← hs.preference]
    unfold nextPreference
    cases hf : screenFailed r.effects <;> cases hop : r.op <;> simp
  · rw [hm.sleep, hs.sleep]
    simp [sleepAfter]
  · rw [hm.running, hs.running]
    cases hop : r.op <;> simp [runningSettings, nextRunning, hop]

/-- Every run without panics leaves data that its records tell. -/
theorem told_run {history : List Call} (hcalm : ∀ call ∈ history, call.answers.calm = true)
    {records : List Record} {s t : SleepBlock} (hs : Told records s.inner.data)
    (hr : calls.run s history = some t) :
    Told (records ++ calls.emitted recordOf s history) t.inner.data := by
  induction history generalizing s records with
  | nil =>
      simp only [Machine.run_nil, Option.some.injEq] at hr
      subst hr
      simpa [Machine.emitted] using hs
  | cons call history ih =>
      obtain ⟨u, hu, hr⟩ := Machine.run_cons_eq_some.mp hr
      rw [Machine.emitted_cons hu, ← List.append_assoc]
      refine ih (fun c hc => hcalm c (List.mem_cons_of_mem _ hc)) ?_ hr
      simp only [calls, Option.some.injEq] at hu
      subst hu
      have hm := body_moves call.op (hcalm call List.mem_cons_self) hs.settled
      refine told_concat (r := ⟨call.op, (perform call s).effects⟩) hs ?_
      rwa [(perform_eq call s).1, (perform_eq call s).2.1]

/-- **The status is determined by the history.** After every run of calls without panics the
four fields are what the records of the run say; and of the next call's errors, one from
`set_keep_screen_awake` or from logind leaves the status alone, one from the ScreenSaver in
`toggle` leaves sleep blocked and both screen fields false.
SOURCE: state.rs:65-144 -/
theorem status_determined_by_history (history : List Call) (next : Call)
    (hcalm : ∀ call ∈ history, call.answers.calm = true) (hnext : next.answers.calm = true) :
    ∃ s, calls.run .new history = some s ∧
      (s.snapshot.keepScreenAwake = true ↔ PreferenceStands (recordsOf history)) ∧
      s.snapshot.sleepBlocked = sleepAfter (recordsOf history) ∧
      s.snapshot.screenBlocked = (s.snapshot.sleepBlocked && s.snapshot.keepScreenAwake) ∧
      s.snapshot.keepRunningInTray = (runningSettings (recordsOf history)).getLast?.getD false ∧
      ∀ e, (perform next s).value = some (some (.error e)) →
        (∀ wanted, next.op = .setKeepScreenAwake wanted →
          (perform next s).state.snapshot = s.snapshot) ∧
        (next.op = .toggle → logindFailed (perform next s).effects = true →
          (perform next s).state.snapshot = s.snapshot) ∧
        (next.op = .toggle → logindFailed (perform next s).effects = false →
          screenFailed (perform next s).effects = true ∧
          (perform next s).state.snapshot =
            ⟨true, false, false, s.snapshot.keepRunningInTray⟩) := by
  obtain ⟨s, hs⟩ := calls_run_total history .new
  have htold : Told (recordsOf history) s.inner.data := by
    have h := told_run hcalm told_nil hs
    rwa [List.nil_append] at h
  obtain ⟨op, ans⟩ := next
  obtain ⟨heffects, hstate, hvalue⟩ := perform_eq ⟨op, ans⟩ s
  refine ⟨s, hs, ?_⟩
  simp only [SleepBlock.snapshot_eq, heffects, hstate, hvalue]
  refine ⟨htold.preference, htold.sleep, htold.settled, htold.running, fun e he => ?_⟩
  refine ⟨?_, ?_, ?_⟩
  · rintro wanted rfl
    simp only [Op.body, run_return_some] at he ⊢
    exact (setKeepScreenAwake_moves wanted hnext htold.settled).2 e (by simpa using he)
  · rintro rfl hlog
    simp only [Op.body, run_return_some] at he hlog ⊢
    rcases (toggle_moves hnext htold.settled).2 e (by simpa using he) with h | h
    · rw [h.2.2]
    · simp [h.1] at hlog
  · rintro rfl hlog
    simp only [Op.body, run_return_some] at he hlog ⊢
    rcases (toggle_moves hnext htold.settled).2 e (by simpa using he) with h | ⟨-, hfail, h⟩
    · simp [h.1] at hlog
    · obtain ⟨hi, hscreen, hk, hrun⟩ := h
      exact ⟨hfail, by simp [statusOf, hi, hscreen, hk, hrun]⟩

/-- The ScreenSaver refuses the toggle that follows a recorded preference. -/
theorem status_determined_by_history_refused :
    let history : List Call := [⟨.setKeepScreenAwake true, ⟨.granted 3, .granted 9, true⟩⟩]
    let next : Call := ⟨.toggle, ⟨.granted 3, .refused "no", true⟩⟩
    (∀ call ∈ history, call.answers.calm = true) ∧ next.answers.calm = true ∧
      ∃ s, calls.run .new history = some s ∧
        (s.snapshot.keepScreenAwake = true ↔ PreferenceStands (recordsOf history)) := by
  refine ⟨by decide, rfl, ?_⟩
  obtain ⟨s, hs, hpref, -⟩ := status_determined_by_history
    [⟨.setKeepScreenAwake true, ⟨.granted 3, .granted 9, true⟩⟩]
    ⟨.toggle, ⟨.granted 3, .refused "no", true⟩⟩ (by decide) rfl
  exact ⟨s, hs, hpref⟩

end SleepBlocker.Analysis
