import SleepBlocker.Model.Daemon

/-!
# What a step of the daemon does to the locks

Every step of the daemon makes at most one call into `SleepBlock`; `callOf` says which,
and `step_cases` that the state after the step is what the call left. What a call does to a
state that holds nothing is settled once: `perform_free` and `perform_granted` say that
only a `toggle` that logind grants makes such a state hold a lock. `perform_moves` says
which calls leave another status than they find.
-/

set_option autoImplicit false

namespace SleepBlocker.Model

open SleepBlocker.Computation

/-! ## Calls on a state that holds nothing -/

/-- Neither lock is stored. -/
def Free (s : SleepBlock) : Prop := s.inner.data.inhibitor = none ∧ s.inner.data.screen = none

/-- Whether nothing is held can be evaluated. -/
instance (s : SleepBlock) : Decidable (Free s) := inferInstanceAs (Decidable (_ ∧ _))

/-- The effect obtains a descriptor or a cookie. -/
def Effect.acquires : Effect → Bool
  | .inhibit answer => answer.grant.isSome
  | .screenInhibit answer => answer.grant.isSome
  | _ => false

/-- The call is a toggle whose logind acquire would be granted. -/
def Call.granted (call : Call) : Bool :=
  call.op == .toggle && call.answers.logind.grant.isSome

/-- What an answer grants, it grants. -/
theorem Answer.grant_eq_some {α : Type} {answer : Answer α} {a : α} :
    answer.grant = some a ↔ answer = .granted a := by
  cases answer <;> simp [Answer.grant]

/-- Only a Toggle that logind grants counts as granted. -/
theorem Call.granted_iff {call : Call} :
    call.granted = true ↔ call.op = .toggle ∧ ∃ fd, call.answers.logind = .granted fd := by
  simp only [Call.granted, Bool.and_eq_true, beq_iff_eq]
  cases call.answers.logind <;> simp [Answer.grant]

/-- A call other than a granted toggle acquires nothing from a state that holds nothing. -/
theorem perform_free {call : Call} {s : SleepBlock} (hs : Free s) (hg : call.granted = false) :
    Free (perform call s).state ∧ (perform call s).effects.any Effect.acquires = false := by
  obtain ⟨op, ans⟩ := call
  obtain ⟨hi, hscreen⟩ := hs
  obtain ⟨heffects, hstate, -⟩ := perform_eq ⟨op, ans⟩ s
  simp only [Free, heffects, hstate]
  cases op with
  | toggle =>
      have hno : ans.logind.grant = none := by
        simpa [Call.granted] using hg
      rw [Op.body, run_return_some, toggle_run_ungranted hi hno]
      simp [hi, hscreen, Effect.acquires, hno]
  | setKeepScreenAwake wanted =>
      have hrec : (wanted && s.inner.data.inhibitor.isSome) = false ∨
          s.inner.data.screen.isSome = true := by
        simp [hi]
      rw [Op.body, run_return_some, setKeepScreenAwake_run_record hrec]
      simp [hi, hscreen, dropped]
  | setKeepRunningInTray wanted =>
      simp [Op.body, Effectful.run_bind, setKeepRunningInTray_run, hi, hscreen]
  | releaseAll =>
      simp [Op.body, Effectful.run_bind, releaseAll_run, hi, hscreen, dropped, closed]
  | snapshot => simp [Op.body, Effectful.run_bind, hi, hscreen]

/-- A granted toggle that finds no sleep lock blocks sleep, whatever becomes of the screen
lock. -/
theorem toggle_blocks {ans : Answers} {s : Inner} {fd : Fd} (hi : s.inhibitor = none)
    (hfd : ans.logind = .granted fd) : ((toggle ans).run s).state.inhibitor.isSome = true := by
  cases hk : s.keepScreenAwake with
  | false => rw [toggle_run_granted hi hfd hk]; rfl
  | true =>
      rw [toggle_run_granted_screen hi hfd hk]
      cases ha : ans.screen.grant with
      | none => rw [acquireScreen_run_ungranted ha]; rfl
      | some cookie =>
          rw [acquireScreen_run_granted (Answer.grant_eq_some.mp ha)]; rfl

/-- A granted Toggle blocks sleep. -/
theorem perform_granted {call : Call} {s : SleepBlock} (hi : s.inner.data.inhibitor = none)
    (hg : call.granted = true) : (perform call s).state.inner.data.inhibitor.isSome = true := by
  obtain ⟨op, ans⟩ := call
  obtain ⟨rfl, fd, hfd⟩ := Call.granted_iff.mp hg
  obtain ⟨-, hstate, -⟩ := perform_eq ⟨.toggle, ans⟩ s
  rw [hstate, Op.body, run_return_some]
  exact toggle_blocks hi hfd

/-- The window setting that an operation stores. -/
def Op.stores : Op → Option Bool
  | .setKeepRunningInTray wanted => some wanted
  | .toggle | .setKeepScreenAwake _ | .releaseAll | .snapshot => none

/-- Only `set_keep_running_in_tray` moves the window setting. -/
theorem perform_running (call : Call) (s : SleepBlock) :
    (perform call s).state.inner.data.keepRunningInTray =
      call.op.stores.getD s.inner.data.keepRunningInTray := by
  obtain ⟨op, ans⟩ := call
  obtain ⟨-, hstate, -⟩ := perform_eq ⟨op, ans⟩ s
  rw [hstate]
  generalize s.inner.data = inner
  have hscreen : ∀ inner : Inner, ((acquireScreen ans).run inner).state.keepRunningInTray =
      inner.keepRunningInTray := by
    intro inner
    cases ha : ans.screen.grant with
    | none => rw [acquireScreen_run_ungranted ha]
    | some cookie => rw [acquireScreen_run_granted (Answer.grant_eq_some.mp ha)]
  cases op with
  | toggle =>
      rw [Op.body, run_return_some]
      cases hi : inner.inhibitor with
      | some i =>
          rw [toggle_run_held hi]
          rfl
      | none =>
          cases hg : ans.logind.grant with
          | none =>
              rw [toggle_run_ungranted hi hg]
              rfl
          | some fd =>
              have hfd := Answer.grant_eq_some.mp hg
              cases hk : inner.keepScreenAwake with
              | false =>
                  rw [toggle_run_granted hi hfd hk]
                  rfl
              | true =>
                  rw [toggle_run_granted_screen hi hfd hk]
                  exact hscreen _
  | setKeepScreenAwake wanted =>
      rw [Op.body, run_return_some]
      rcases setKeepScreenAwake_split wanted inner with ⟨hw, hs⟩ | hrec
      · rw [setKeepScreenAwake_run_acquire hw hs]
        exact hscreen _
      · rw [setKeepScreenAwake_run_record hrec]
        rfl
  | setKeepRunningInTray wanted =>
      simp [Op.body, Op.stores, Effectful.run_bind, setKeepRunningInTray_run]
  | releaseAll => simp [Op.body, Op.stores, Effectful.run_bind, releaseAll_run]
  | snapshot => simp [Op.body, Op.stores, Effectful.run_bind]

/-- The call changes the status, by what it finds and what the services answer. -/
def Call.moves (call : Call) (inner : Inner) : Bool :=
  match call.op with
  | .toggle => inner.inhibitor.isSome || call.answers.logind.grant.isSome
  | .setKeepScreenAwake wanted =>
    if wanted && inner.inhibitor.isSome && inner.screen.isNone then
      call.answers.screen.grant.isSome || inner.keepScreenAwake
    else
      wanted != inner.keepScreenAwake ||
        (inner.screen.isSome && !(wanted && inner.inhibitor.isSome))
  | .setKeepRunningInTray wanted => wanted != inner.keepRunningInTray
  | .releaseAll => inner.inhibitor.isSome || inner.screen.isSome
  | .snapshot => false

section Moves

variable {ans : Answers} {s : Inner}

/-- `toggle` leaves another status exactly when `moves` says so. -/
theorem toggle_changes_iff : statusOf ((toggle ans).run s).state ≠ statusOf s ↔
    (⟨.toggle, ans⟩ : Call).moves s = true := by
  simp only [Call.moves, Bool.or_eq_true]
  cases hi : s.inhibitor with
  | some i =>
      rw [toggle_run_held hi]
      simp [statusOf, hi]
  | none =>
      cases hg : ans.logind.grant with
      | none =>
          rw [toggle_run_ungranted hi hg]
          simp
      | some fd =>
          have hblocked := toggle_blocks hi (Answer.grant_eq_some.mp hg)
          simp [statusOf, hblocked, hi]

/-- `set_keep_screen_awake` leaves another status exactly when `moves` says so. -/
theorem setKeepScreenAwake_changes_iff {wanted : Bool} (hcalm : ans.screen.calm = true) :
    statusOf ((setKeepScreenAwake wanted ans).run s).state ≠ statusOf s ↔
      (⟨.setKeepScreenAwake wanted, ans⟩ : Call).moves s = true := by
  simp only [Call.moves]
  rcases setKeepScreenAwake_split wanted s with ⟨hw, hscreen⟩ | hrec
  · -- it goes for the screen lock, and without it the preference is reset
    rw [setKeepScreenAwake_run_acquire hw hscreen, if_pos (by simp [hw, hscreen])]
    cases ha : ans.screen.grant with
    | some cookie =>
        rw [acquireScreen_run_granted (Answer.grant_eq_some.mp ha)]
        simp [statusOf, hscreen]
    | none =>
        rw [acquireScreen_run_ungranted ha]
        have hfails : ans.screen.fails = true := by
          cases hanswer : ans.screen <;> simp_all [Answer.grant, Answer.calm, Answer.fails]
        simp [statusOf, hfails]
  · rw [setKeepScreenAwake_run_record hrec]
    have hrecord : (wanted && s.inhibitor.isSome && s.screen.isNone) = false := by
      rcases hrec with hw | hscreen
      · rw [hw, Bool.false_and]
      · rw [Option.isNone_eq_false_iff.mpr hscreen, Bool.and_false]
    rw [if_neg (Bool.eq_false_iff.mp hrecord)]
    cases hw : wanted && s.inhibitor.isSome with
    | true =>
        simp only [if_true]
        simp [statusOf]
    | false =>
        simp only [Bool.false_eq_true, if_false]
        cases hscreen : s.screen <;> simp [statusOf, hscreen]

end Moves

/-- **What a call does to the status.** A call that returns leaves another status than it
finds exactly when `moves` says so. -/
theorem perform_moves {call : Call} (s : SleepBlock) (hcalm : call.answers.calm = true) :
    (perform call s).state.snapshot ≠ s.snapshot ↔ call.moves s.inner.data = true := by
  obtain ⟨op, ans⟩ := call
  obtain ⟨-, hstate, -⟩ := perform_eq ⟨op, ans⟩ s
  rw [SleepBlock.snapshot_eq, SleepBlock.snapshot_eq, hstate]
  generalize s.inner.data = inner
  cases op with
  | toggle =>
      rw [Op.body, run_return_some]
      exact toggle_changes_iff
  | setKeepScreenAwake wanted =>
      rw [Op.body, run_return_some]
      exact setKeepScreenAwake_changes_iff (Bool.and_eq_true_iff.mp hcalm).2
  | setKeepRunningInTray wanted =>
      simp [Op.body, Call.moves, Effectful.run_bind, setKeepRunningInTray_run, statusOf]
  | releaseAll =>
      simp only [Op.body, Effectful.run_bind, releaseAll_run, Call.moves]
      cases hi : inner.inhibitor <;> cases hscreen : inner.screen <;> simp [statusOf, hi, hscreen]
  | snapshot => simp [Op.body, Call.moves, Effectful.run_bind]

/-- `release_all` leaves nothing held. -/
theorem perform_releaseAll (ans : Answers) (s : SleepBlock) :
    Free (perform ⟨.releaseAll, ans⟩ s).state := by
  obtain ⟨-, hstate, -⟩ := perform_eq ⟨.releaseAll, ans⟩ s
  simp [Free, hstate, Op.body, Effectful.run_bind, releaseAll_run]

/-! ## Steps of the daemon -/

namespace Daemon

section Inversion

variable {d t : Daemon} {h : ℕ} {ans : Answers}

/-- A handler's call into `SleepBlock`: what it needs and what it leaves. -/
theorem handle_eq_some : d.handle h ans = some t ↔ ∃ request,
    d.handlers h = .received request ∧ d.connected = true ∧ ans.calm = true ∧
      { d with state := (perform ⟨request.op, ans⟩ d.state).state }.setHandler h
        (request.after ((perform ⟨request.op, ans⟩ d.state).value.getD none)) = t := by
  cases hh : d.handlers h <;> simp [handle, hh, and_assoc]

/-- A getter: what it needs and what it leaves. -/
theorem readProperty_eq_some : d.readProperty h = some t ↔ ∃ p todo r,
    d.handlers h = .announcing (p :: todo) r ∧ d.connected = true ∧
      d.setHandler h (.sending p (d.state.snapshot.get p) todo r) = t := by
  unfold readProperty
  split <;> simp_all

/-- The sending of a change signal: what it needs and what it leaves. -/
theorem sendSignal_eq_some : d.sendSignal h = some t ↔ ∃ p value todo r,
    d.handlers h = .sending p value todo r ∧ d.connected = true ∧
      { d with signals := d.signals ++ [(p, value)] }.setHandler h (.announcing todo r) = t := by
  unfold sendSignal
  split <;> simp_all [-Bool.exists_bool]

/-- A reply: what it needs and what it leaves. -/
theorem reply_eq_some : d.reply h = some t ↔ ∃ r,
    d.handlers h = .announcing [] r ∧ d.connected = true ∧
      { d with replies := d.replies ++ [(h, r)] }.setHandler h .idle = t := by
  unfold reply
  split <;> simp_all

/-- The notification of a Quit over D-Bus: what it needs and what it leaves. -/
theorem notify_eq_some : d.notify h = some t ↔
    d.handlers h = .notifying ∧ d.connected = true ∧
      { d with notified := true }.setHandler h (.announcing [] .empty) = t := by
  unfold notify
  split <;> simp_all

/-- The tray's toggle: what it needs and what it leaves. -/
theorem trayToggle_eq_some : d.trayToggle ans = some t ↔
    d.trayFree = true ∧ ans.calm = true ∧
      { d with
        state := (perform ⟨.toggle, ans⟩ d.state).state
        error := errorOf (perform ⟨.toggle, ans⟩ d.state).value } = t := by
  simp [trayToggle, and_assoc]

/-- The set of "Also keep screen on": what it needs and what it leaves. -/
theorem screenItemSet_eq_some : d.screenItemSet ans = some t ↔ ∃ wanted,
    d.callback = .screenItem wanted ∧ d.stage ≠ .exited ∧ ans.calm = true ∧
      { d with
        state := (perform ⟨.setKeepScreenAwake wanted, ans⟩ d.state).state
        error := errorOf (perform ⟨.setKeepScreenAwake wanted, ans⟩ d.state).value
        callback := .idle } = t := by
  cases hc : d.callback <;> simp [screenItemSet, hc, and_assoc]

/-- The set of "Keep running in tray when closed": what it needs and what it leaves. -/
theorem runningItemSet_eq_some : d.runningItemSet ans = some t ↔ ∃ wanted,
    d.callback = .runningItem wanted ∧ d.stage ≠ .exited ∧ ans.calm = true ∧
      { d with
        state := (perform ⟨.setKeepRunningInTray wanted, ans⟩ d.state).state
        callback := .idle } = t := by
  cases hc : d.callback <;> simp [runningItemSet, hc, and_assoc]

/-- The release of the Quit item: what it needs and what it leaves. -/
theorem quitItem_eq_some : d.step (.quitItem ans) = some t ↔
    d.trayFree = true ∧ ans.calm = true ∧
      { d with
        state := (perform ⟨.releaseAll, ans⟩ d.state).state
        callback := .quitItem } = t := by
  simp [step, and_assoc]

/-- A connected daemon has not exited. -/
theorem stage_of_connected (hd : d.connected = true) : d.stage ≠ .exited := by
  intro he
  simp [connected, he] at hd

/-- A daemon whose tray may run a callback has not exited. -/
theorem stage_of_trayFree (hd : d.trayFree = true) : d.stage ≠ .exited := by
  intro he
  simp [trayFree, he] at hd

end Inversion

/-- The call into `SleepBlock` that a step makes. -/
def callOf (d : Daemon) : Label → Option Call
  | .handle h ans =>
    match d.handlers h with
    | .received request => some ⟨request.op, ans⟩
    | _ => none
  | .activate ans | .toggleItem ans => some ⟨.toggle, ans⟩
  | .screenItemSet ans =>
    match d.callback with
    | .screenItem wanted => some ⟨.setKeepScreenAwake wanted, ans⟩
    | _ => none
  | .runningItemSet ans =>
    match d.callback with
    | .runningItem wanted => some ⟨.setKeepRunningInTray wanted, ans⟩
    | _ => none
  | .quitItem ans => some ⟨.releaseAll, ans⟩
  | _ => none

/-- **What a step does to the locks.** Either it makes one call, in a process that neither
has exited nor exits in this step, and the state is what the call leaves; or it makes none
and the state is as before. -/
theorem step_cases {d t : Daemon} {a : Label} (hs : d.step a = some t) :
    (∃ call, d.callOf a = some call ∧ t.state = (perform call d.state).state ∧
      t.stage = d.stage ∧ d.stage ≠ .exited ∧ call.answers.calm = true) ∨
    (d.callOf a = none ∧ t.state = d.state) := by
  cases a with
  | handle h ans =>
      obtain ⟨request, hh, hd, hcalm, rfl⟩ := handle_eq_some.mp hs
      exact Or.inl ⟨_, by simp [callOf, hh], rfl, rfl, stage_of_connected hd, hcalm⟩
  | activate ans =>
      obtain ⟨hd, hcalm, rfl⟩ := trayToggle_eq_some.mp hs
      exact Or.inl ⟨_, rfl, rfl, rfl, stage_of_trayFree hd, hcalm⟩
  | toggleItem ans =>
      obtain ⟨hd, hcalm, rfl⟩ := trayToggle_eq_some.mp hs
      exact Or.inl ⟨_, rfl, rfl, rfl, stage_of_trayFree hd, hcalm⟩
  | screenItemSet ans =>
      obtain ⟨wanted, hc, hd, hcalm, rfl⟩ := screenItemSet_eq_some.mp hs
      exact Or.inl ⟨_, by simp [callOf, hc], rfl, rfl, hd, hcalm⟩
  | runningItemSet ans =>
      obtain ⟨wanted, hc, hd, hcalm, rfl⟩ := runningItemSet_eq_some.mp hs
      exact Or.inl ⟨_, by simp [callOf, hc], rfl, rfl, hd, hcalm⟩
  | quitItem ans =>
      obtain ⟨hd, hcalm, rfl⟩ := quitItem_eq_some.mp hs
      exact Or.inl ⟨_, rfl, rfl, rfl, stage_of_trayFree hd, hcalm⟩
  | readProperty h =>
      obtain ⟨p, todo, r, -, -, rfl⟩ := readProperty_eq_some.mp hs
      exact Or.inr ⟨rfl, rfl⟩
  | sendSignal h =>
      obtain ⟨p, value, todo, r, -, -, rfl⟩ := sendSignal_eq_some.mp hs
      exact Or.inr ⟨rfl, rfl⟩
  | notify h =>
      obtain ⟨-, -, rfl⟩ := notify_eq_some.mp hs
      exact Or.inr ⟨rfl, rfl⟩
  | reply h =>
      obtain ⟨r, -, -, rfl⟩ := reply_eq_some.mp hs
      exact Or.inr ⟨rfl, rfl⟩
  | receive h request =>
      simp only [step, Option.ite_none_right_eq_some, Option.some.injEq] at hs
      obtain ⟨-, rfl⟩ := hs
      exact Or.inr ⟨rfl, rfl⟩
  | crash =>
      simp only [step, Option.ite_none_left_eq_some, Option.some.injEq] at hs
      obtain ⟨-, rfl⟩ := hs
      exact Or.inr ⟨rfl, rfl⟩
  | startTray | serve | requestName | wake | closeConnection | exit | screenItemRead
  | runningItemRead | quitItemNotify =>
      simp only [step, Option.ite_none_right_eq_some, Option.some.injEq] at hs
      obtain ⟨-, rfl⟩ := hs
      exact Or.inr ⟨rfl, rfl⟩

/-- The window setting that a step stores. -/
def stores (d : Daemon) (a : Label) : Option Bool := (d.callOf a).bind fun call => call.op.stores

/-- A step that stores no window setting leaves it as it was. -/
theorem running_of_step {d t : Daemon} {a : Label} (hs : d.step a = some t) :
    t.state.snapshot.keepRunningInTray =
      (d.stores a).getD d.state.snapshot.keepRunningInTray := by
  rw [SleepBlock.snapshot_eq, SleepBlock.snapshot_eq]
  rcases step_cases hs with ⟨call, hcall, hstate, -⟩ | ⟨hcall, hstate⟩
  · rw [stores, hcall, hstate]
    exact perform_running call d.state
  · rw [stores, hcall, hstate]
    rfl

/-- A process that has exited takes no step. -/
theorem stage_of_step {d t : Daemon} {a : Label} (hs : d.step a = some t) :
    d.stage ≠ .exited := by
  rcases step_cases hs with ⟨call, -, -, -, hd, -⟩ | ⟨hc, -⟩
  · exact hd
  · intro hd
    cases a <;> simp only [callOf, reduceCtorEq] at hc
    case handle h ans =>
      obtain ⟨request, hh, -⟩ := handle_eq_some.mp hs
      simp [hh] at hc
    case screenItemSet ans =>
      obtain ⟨wanted, hw, -⟩ := screenItemSet_eq_some.mp hs
      simp [hw] at hc
    case runningItemSet ans =>
      obtain ⟨wanted, hw, -⟩ := runningItemSet_eq_some.mp hs
      simp [hw] at hc
    all_goals
      simp only [step, readProperty, sendSignal, notify, reply, connected, trayFree, hd] at hs
      first
        | (simp at hs; done)
        | (split at hs <;> simp at hs)

/-- The threads of a daemon: the main thread, the D-Bus handlers and the tray. -/
inductive Party where
  | main
  | handler
  | tray
  deriving DecidableEq, Repr

/-- Whose step it is. -/
def Label.party : Label → Party
  | .startTray _ | .serve _ | .requestName _ | .wake | .closeConnection | .exit | .crash => .main
  | .receive _ _ | .handle _ _ | .readProperty _ | .sendSignal _ | .notify _ | .reply _ => .handler
  | .activate _ | .toggleItem _ | .screenItemRead | .screenItemSet _ | .runningItemRead
  | .runningItemSet _ | .quitItem _ | .quitItemNotify => .tray

/-- What belongs to one party is left alone by the steps of the others, and the main thread
leaves the locks alone. -/
theorem frame_of_party {d t : Daemon} {a : Label} (hs : d.step a = some t) :
    (a.party ≠ .main → t.stage = d.stage ∧ t.hasTray = d.hasTray) ∧
      (a.party ≠ .handler →
        t.handlers = d.handlers ∧ t.signals = d.signals ∧ t.replies = d.replies) ∧
      (a.party ≠ .tray → t.callback = d.callback ∧ t.error = d.error) ∧
      (a.party = .main → t.state = d.state) := by
  cases a with
  | handle h ans =>
      obtain ⟨request, -, -, -, rfl⟩ := handle_eq_some.mp hs
      exact ⟨fun _ => ⟨rfl, rfl⟩, fun hp => absurd rfl hp, fun _ => ⟨rfl, rfl⟩, by simp [Label.party]⟩
  | readProperty h =>
      obtain ⟨p, todo, r, -, -, rfl⟩ := readProperty_eq_some.mp hs
      exact ⟨fun _ => ⟨rfl, rfl⟩, fun hp => absurd rfl hp, fun _ => ⟨rfl, rfl⟩, fun _ => rfl⟩
  | sendSignal h =>
      obtain ⟨p, value, todo, r, -, -, rfl⟩ := sendSignal_eq_some.mp hs
      exact ⟨fun _ => ⟨rfl, rfl⟩, fun hp => absurd rfl hp, fun _ => ⟨rfl, rfl⟩, fun _ => rfl⟩
  | notify h =>
      obtain ⟨-, -, rfl⟩ := notify_eq_some.mp hs
      exact ⟨fun _ => ⟨rfl, rfl⟩, fun hp => absurd rfl hp, fun _ => ⟨rfl, rfl⟩, fun _ => rfl⟩
  | reply h =>
      obtain ⟨r, -, -, rfl⟩ := reply_eq_some.mp hs
      exact ⟨fun _ => ⟨rfl, rfl⟩, fun hp => absurd rfl hp, fun _ => ⟨rfl, rfl⟩, fun _ => rfl⟩
  | receive h request =>
      simp only [step, Option.ite_none_right_eq_some, Option.some.injEq] at hs
      obtain ⟨-, rfl⟩ := hs
      exact ⟨fun _ => ⟨rfl, rfl⟩, fun hp => absurd rfl hp, fun _ => ⟨rfl, rfl⟩, fun _ => rfl⟩
  | activate ans | toggleItem ans =>
      obtain ⟨-, -, rfl⟩ := trayToggle_eq_some.mp hs
      exact ⟨fun _ => ⟨rfl, rfl⟩, fun _ => ⟨rfl, rfl, rfl⟩, fun hp => absurd rfl hp,
        by simp [Label.party]⟩
  | screenItemSet ans =>
      obtain ⟨wanted, -, -, -, rfl⟩ := screenItemSet_eq_some.mp hs
      exact ⟨fun _ => ⟨rfl, rfl⟩, fun _ => ⟨rfl, rfl, rfl⟩, fun hp => absurd rfl hp,
        by simp [Label.party]⟩
  | runningItemSet ans =>
      obtain ⟨wanted, -, -, -, rfl⟩ := runningItemSet_eq_some.mp hs
      exact ⟨fun _ => ⟨rfl, rfl⟩, fun _ => ⟨rfl, rfl, rfl⟩, fun hp => absurd rfl hp,
        by simp [Label.party]⟩
  | quitItem ans =>
      obtain ⟨-, -, rfl⟩ := quitItem_eq_some.mp hs
      exact ⟨fun _ => ⟨rfl, rfl⟩, fun _ => ⟨rfl, rfl, rfl⟩, fun hp => absurd rfl hp,
        by simp [Label.party]⟩
  | screenItemRead | runningItemRead | quitItemNotify =>
      simp only [step, Option.ite_none_right_eq_some, Option.some.injEq] at hs
      obtain ⟨-, rfl⟩ := hs
      exact ⟨fun _ => ⟨rfl, rfl⟩, fun _ => ⟨rfl, rfl, rfl⟩, fun hp => absurd rfl hp, fun _ => rfl⟩
  | crash =>
      simp only [step, Option.ite_none_left_eq_some, Option.some.injEq] at hs
      obtain ⟨-, rfl⟩ := hs
      exact ⟨fun hp => absurd rfl hp, fun _ => ⟨rfl, rfl, rfl⟩, fun _ => ⟨rfl, rfl⟩, fun _ => rfl⟩
  | startTray | serve | requestName | wake | closeConnection | exit =>
      simp only [step, Option.ite_none_right_eq_some, Option.some.injEq] at hs
      obtain ⟨-, rfl⟩ := hs
      exact ⟨fun hp => absurd rfl hp, fun _ => ⟨rfl, rfl, rfl⟩, fun _ => ⟨rfl, rfl⟩, fun _ => rfl⟩

/-- The process has not asked for the name yet. -/
def early (d : Daemon) : Bool :=
  d.stage == .starting || d.stage == .trayStarted || d.stage == .serving

/-- The main thread goes forward: `has_tray` is stored in its first step only, and the startup
is never entered again. -/
theorem startup_of_main {d t : Daemon} {a : Label} (hs : d.step a = some t)
    (hp : a.party = .main) :
    (t.hasTray = d.hasTray ∨ d.stage = .starting) ∧ t.stage ≠ .starting ∧
      (t.early = true → d.early = true) := by
  cases a <;> simp only [Label.party, reduceCtorEq] at hp
  case startTray found =>
    simp only [step, Option.ite_none_right_eq_some, Option.some.injEq] at hs
    obtain ⟨hstage, rfl⟩ := hs
    exact ⟨Or.inr hstage, by simp, fun _ => by simp [early, hstage]⟩
  case serve ok =>
    simp only [step, Option.ite_none_right_eq_some, Option.some.injEq] at hs
    obtain ⟨hstage, rfl⟩ := hs
    exact ⟨Or.inl rfl, by cases ok <;> simp, fun _ => by simp [early, hstage]⟩
  case requestName reply =>
    simp only [step, Option.ite_none_right_eq_some, Option.some.injEq] at hs
    obtain ⟨hstage, rfl⟩ := hs
    exact ⟨Or.inl rfl, by cases reply <;> simp, fun _ => by simp [early, hstage]⟩
  case crash =>
    simp only [step, Option.ite_none_left_eq_some, Option.some.injEq] at hs
    obtain ⟨-, rfl⟩ := hs
    exact ⟨Or.inl rfl, by simp, fun he => by simp [early] at he⟩
  all_goals
    simp only [step, Option.ite_none_right_eq_some, Option.some.injEq] at hs
    obtain ⟨-, rfl⟩ := hs
    exact ⟨Or.inl rfl, by simp, fun he => by simp [early] at he⟩

/-- The tray moves only in a process that has published one, or whose callback is under way. -/
theorem hasTray_of_tray {d t : Daemon} {a : Label} (hs : d.step a = some t)
    (hp : a.party = .tray) : d.hasTray = true ∨ d.callback ≠ .idle := by
  have hfree : d.trayFree = true → d.hasTray = true ∨ d.callback ≠ .idle := by
    intro hd
    simp only [trayFree, Bool.and_eq_true] at hd
    exact Or.inl hd.1.1
  cases a <;> simp only [Label.party, reduceCtorEq] at hp
  case activate ans => exact hfree (trayToggle_eq_some.mp hs).1
  case toggleItem ans => exact hfree (trayToggle_eq_some.mp hs).1
  case quitItem ans => exact hfree (quitItem_eq_some.mp hs).1
  case screenItemSet ans =>
    obtain ⟨wanted, hc, -⟩ := screenItemSet_eq_some.mp hs
    exact Or.inr (by simp [hc])
  case runningItemSet ans =>
    obtain ⟨wanted, hc, -⟩ := runningItemSet_eq_some.mp hs
    exact Or.inr (by simp [hc])
  all_goals
    simp only [step, Option.ite_none_right_eq_some, Option.some.injEq] at hs
  case screenItemRead => exact hfree hs.1
  case runningItemRead => exact hfree hs.1
  case quitItemNotify => exact Or.inr (by simp [hs.1.1])

/-- The handler that a step belongs to. -/
def Label.handler : Label → Option ℕ
  | .receive h _ | .handle h _ | .readProperty h | .sendSignal h | .notify h | .reply h => some h
  | _ => none

/-- A step moves no handler but its own, and sends no signal unless that is what it does. -/
theorem frame_of_step {d t : Daemon} {a : Label} (hs : d.step a = some t) :
    (∀ k, a.handler ≠ some k → t.handlers k = d.handlers k) ∧
      ((∀ h, a ≠ .sendSignal h) → t.signals = d.signals) := by
  have hother : ∀ {h k : ℕ} {y : Handler}, some h ≠ some k →
      Function.update d.handlers h y k = d.handlers k := by
    intro h k y hhk
    apply Function.update_of_ne
    rintro rfl
    exact hhk rfl
  cases a with
  | handle h ans =>
      obtain ⟨request, -, -, -, rfl⟩ := handle_eq_some.mp hs
      exact ⟨fun k hk => hother hk, fun _ => rfl⟩
  | readProperty h =>
      obtain ⟨p, todo, r, -, -, rfl⟩ := readProperty_eq_some.mp hs
      exact ⟨fun k hk => hother hk, fun _ => rfl⟩
  | sendSignal h =>
      obtain ⟨p, value, todo, r, -, -, rfl⟩ := sendSignal_eq_some.mp hs
      exact ⟨fun k hk => hother hk, fun hsend => absurd rfl (hsend h)⟩
  | notify h =>
      obtain ⟨-, -, rfl⟩ := notify_eq_some.mp hs
      exact ⟨fun k hk => hother hk, fun _ => rfl⟩
  | reply h =>
      obtain ⟨r, -, -, rfl⟩ := reply_eq_some.mp hs
      exact ⟨fun k hk => hother hk, fun _ => rfl⟩
  | receive h request =>
      simp only [step, Option.ite_none_right_eq_some, Option.some.injEq] at hs
      obtain ⟨-, rfl⟩ := hs
      exact ⟨fun k hk => hother hk, fun _ => rfl⟩
  | activate ans | toggleItem ans | screenItemSet ans | runningItemSet ans | quitItem ans | crash
  | startTray | serve | requestName | wake | closeConnection | exit | screenItemRead
  | runningItemRead | quitItemNotify =>
      obtain ⟨hhandlers, hsignals, -⟩ := (frame_of_party hs).2.1 (by simp [Label.party])
      exact ⟨fun k _ => congrFun hhandlers k, fun _ => hsignals⟩

/-- Only the `reply` step sends a reply. -/
theorem replies_of_step {d t : Daemon} {a : Label} (hs : d.step a = some t)
    (ha : ∀ h, a ≠ .reply h) : t.replies = d.replies := by
  by_cases hparty : a.party = .handler
  · cases a <;> simp only [Label.party, reduceCtorEq] at hparty
    case handle h ans =>
      obtain ⟨request, -, -, -, rfl⟩ := handle_eq_some.mp hs
      rfl
    case readProperty h =>
      obtain ⟨p, todo, r, -, -, rfl⟩ := readProperty_eq_some.mp hs
      rfl
    case sendSignal h =>
      obtain ⟨p, value, todo, r, -, -, rfl⟩ := sendSignal_eq_some.mp hs
      rfl
    case notify h =>
      obtain ⟨-, -, rfl⟩ := notify_eq_some.mp hs
      rfl
    case reply h => exact absurd rfl (ha h)
    case receive h request =>
      simp only [step, Option.ite_none_right_eq_some, Option.some.injEq] at hs
      obtain ⟨-, rfl⟩ := hs
      rfl
  · exact ((frame_of_party hs).2.1 hparty).2.2

/-- A handler moves only while the connection is up, and one that moves without receiving a
request was under way. -/
theorem connected_of_handler {d t : Daemon} {a : Label} (hs : d.step a = some t) {h : ℕ}
    (hh : a.handler = some h) :
    d.connected = true ∧ (d.handlers h = .idle → ∃ request, a = .receive h request) := by
  cases a <;> simp only [Label.handler, Option.some.injEq, reduceCtorEq] at hh <;> subst hh
  case receive h request =>
    simp only [step, Option.ite_none_right_eq_some, Option.some.injEq] at hs
    exact ⟨hs.1.1, fun _ => ⟨request, rfl⟩⟩
  case handle h ans =>
    obtain ⟨request, hx, hd, -⟩ := handle_eq_some.mp hs
    exact ⟨hd, fun hidle => by simp [hx] at hidle⟩
  case readProperty h =>
    obtain ⟨p, todo, r, hx, hd, -⟩ := readProperty_eq_some.mp hs
    exact ⟨hd, fun hidle => by simp [hx] at hidle⟩
  case sendSignal h =>
    obtain ⟨p, value, todo, r, hx, hd, -⟩ := sendSignal_eq_some.mp hs
    exact ⟨hd, fun hidle => by simp [hx] at hidle⟩
  case notify h =>
    obtain ⟨hx, hd, -⟩ := notify_eq_some.mp hs
    exact ⟨hd, fun hidle => by simp [hx] at hidle⟩
  case reply h =>
    obtain ⟨r, hx, hd, -⟩ := reply_eq_some.mp hs
    exact ⟨hd, fun hidle => by simp [hx] at hidle⟩

/-- A handler has a request because it had it before or has just received it. -/
theorem received_before {d t : Daemon} {a : Label} (hs : d.step a = some t) {h : ℕ}
    {request : Request} (ht : t.handlers h = .received request) :
    d.handlers h = .received request ∨ a = .receive h request := by
  by_cases hown : a.handler = some h
  · cases a <;> simp only [Label.handler, Option.some.injEq, reduceCtorEq] at hown <;> subst hown
    case receive h r =>
      simp only [step, Option.ite_none_right_eq_some, Option.some.injEq] at hs
      obtain ⟨-, rfl⟩ := hs
      simp only [setHandler, Function.update_self, Handler.received.injEq] at ht
      exact Or.inr (by rw [ht])
    case handle h ans =>
      obtain ⟨r, -, -, -, rfl⟩ := handle_eq_some.mp hs
      cases r <;> simp [setHandler, Request.after] at ht
    case readProperty h =>
      obtain ⟨p, todo, r, -, -, rfl⟩ := readProperty_eq_some.mp hs
      simp [setHandler] at ht
    case sendSignal h =>
      obtain ⟨p, value, todo, r, -, -, rfl⟩ := sendSignal_eq_some.mp hs
      simp [setHandler] at ht
    case notify h =>
      obtain ⟨-, -, rfl⟩ := notify_eq_some.mp hs
      simp [setHandler] at ht
    case reply h =>
      obtain ⟨r, -, -, rfl⟩ := reply_eq_some.mp hs
      simp [setHandler] at ht
  · left
    rw [← (frame_of_step hs).1 h hown]
    exact ht

/-- A request stays with its handler until the handler calls into `SleepBlock`. -/
theorem received_of_step {d t : Daemon} {a : Label} (hs : d.step a = some t) {k : ℕ}
    {request : Request} (hk : d.handlers k = .received request)
    (ha : ∀ ans, a ≠ .handle k ans) : t.handlers k = .received request := by
  by_cases hown : a.handler = some k
  · -- no other step of handler `k` is enabled while it has a request
    exfalso
    cases a <;> simp only [Label.handler, Option.some.injEq, reduceCtorEq] at hown <;> subst hown
    case handle h ans => exact ha ans rfl
    all_goals simp [step, readProperty, sendSignal, notify, reply, hk] at hs
  · rw [(frame_of_step hs).1 k hown]
    exact hk

end Daemon

end SleepBlocker.Model
