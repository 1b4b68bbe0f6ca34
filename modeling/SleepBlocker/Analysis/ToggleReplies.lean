import Mathlib.Data.Finset.Card
import SleepBlocker.Analysis.StatusHistory
import SleepBlocker.Interface.DaemonSteps
import SleepBlocker.Model.ToggleCalls

/-!
# When a toggle reported as failed has not been applied

The daemon's own error means what the window takes it to mean: a logind failure leaves
sleep blocking alone, and the ScreenSaver failure is the one error of a toggle that took
effect. A timeout is the client's word only. `toggle_reports_iff` says that the reports
are right exactly when no call times out whose request the daemon applies, before or
after; the parity of the reports is then the state.
-/

set_option autoImplicit false

namespace SleepBlocker.Analysis

open SleepBlocker.Computation SleepBlocker.Model

/-- Whether a `toggle` will change sleep blocking: it is on, or logind grants it. -/
def applies (s : SleepBlock) (ans : Answers) : Bool :=
  s.inner.data.inhibitor.isSome || ans.logind.grant.isSome

/-- What the handlers have done: which requests changed sleep blocking, and which failed at
the ScreenSaver. -/
structure Deeds where
  changed : ℕ → Bool := fun _ => false
  screen : ℕ → Bool := fun _ => false

/-- What the history records of a step. -/
def Deeds.update (g : Deeds) (w : ToggleCalls) : ToggleCalls.Label → Deeds
  | .handle n ans =>
    let o := perform ⟨.toggle, ans⟩ w.daemon.state
    { changed := Function.update g.changed n
        (w.daemon.state.snapshot.sleepBlocked ^^ o.state.snapshot.sleepBlocked)
      screen := Function.update g.screen n (screenFailed o.effects) }
  | _ => g

/-- The window's calls, with what became of their requests. -/
def toggleDeeds : Machine (ToggleCalls × Deeds) ToggleCalls.Label :=
  toggleCalls.monitor Deeds.update

/-- The call returned `Ok`, or reported the daemon's ScreenSaver failure. -/
def reported (result : Option CallResult) (screen : Bool) : Bool :=
  match result with
  | some (.ok _) => true
  | some (.failed _) => screen
  | _ => false

/-- How many of the calls made so far were reported as a change. -/
def reports (x : ToggleCalls × Deeds) : ℕ :=
  ((Finset.range x.1.made).filter fun n => reported (x.1.results n) (x.2.screen n)).card

/-- Every call has returned, and every request has been handled and answered. -/
def AllHandled (w : ToggleCalls) : Prop :=
  w.waiting = false ∧ ∀ n, w.bus n = false ∧ w.daemon.handlers n = .idle

/-- A call that returned an error other than the ScreenSaver failure has not changed sleep
blocking, and once all requests have been handled sleep blocking is what it was at first,
flipped once for every other call. -/
def ReportsRight (initial : Bool) (x : ToggleCalls × Deeds) : Prop :=
  (∀ n, (x.1.results n).isSome = true → reported (x.1.results n) (x.2.screen n) = false →
    x.2.changed n = false) ∧
  (AllHandled x.1 → x.1.daemon.state.snapshot.sleepBlocked = not^[reports x] initial)

/-- No call times out whose request the daemon has applied, and none that has timed out is
applied. -/
def NoLateApply (x : ToggleCalls × Deeds) : ToggleCalls.Label → Prop
  | .timesOut => x.2.changed (x.1.made - 1) = false
  | .handle n ans => x.1.results n = some .timedOut → applies x.1.daemon.state ans = false
  | _ => True

/-! ## One toggle -/

/-- The reply of a handler tells what its toggle did. -/
def Tells (r : Reply) (changed screen : Bool) : Prop :=
  match r with
  | .locks _ _ => changed = true
  | .failed _ => changed = screen
  | .empty => False

/-- A toggle in the daemon: whether it changes sleep blocking, and what its reply tells. -/
theorem toggle_tells {ans : Answers} (hcalm : ans.calm = true) (s : SleepBlock) :
    let o := perform ⟨.toggle, ans⟩ s
    (s.snapshot.sleepBlocked ^^ o.state.snapshot.sleepBlocked) = applies s ans ∧
      ∃ result, o.value = some (some result) ∧
        Tells (Reply.of result) (applies s ans) (screenFailed o.effects) := by
  obtain ⟨heffects, hstate, hvalue⟩ := perform_eq ⟨.toggle, ans⟩ s
  simp only [SleepBlock.snapshot_eq, statusOf, heffects, hstate, hvalue, Op.body, run_return_some,
    applies]
  generalize s.inner.data = inner
  have hlogind : ans.logind.calm = true := by
    simp only [Answers.calm, Bool.and_eq_true] at hcalm
    exact hcalm.1
  have hscreen : ans.screen.calm = true := by
    simp only [Answers.calm, Bool.and_eq_true] at hcalm
    exact hcalm.2
  cases hi : inner.inhibitor with
  | some i =>
      rw [toggle_run_held hi]
      exact ⟨by simp, _, rfl, rfl⟩
  | none =>
      cases ha : ans.logind with
      | panics => simp [Answer.calm, ha] at hlogind
      | unreachable e =>
          rw [toggle_run_ungranted hi (by simp [ha, Answer.grant])]
          exact ⟨by simp [hi, Answer.grant], .error (.connect e), by simp [ha, ungranted], rfl⟩
      | refused e =>
          rw [toggle_run_ungranted hi (by simp [ha, Answer.grant])]
          exact ⟨by simp [hi, Answer.grant], .error (.inhibit e), by simp [ha, ungranted], rfl⟩
      | granted fd =>
          cases hk : inner.keepScreenAwake with
          | false =>
              rw [toggle_run_granted hi ha hk]
              exact ⟨by simp [Answer.grant], _, rfl, rfl⟩
          | true =>
              rw [toggle_run_granted_screen hi ha hk]
              cases hs : ans.screen with
              | panics => simp [Answer.calm, hs] at hscreen
              | granted cookie =>
                  rw [acquireScreen_run_granted hs]
                  exact ⟨by simp [Answer.grant], _, rfl, rfl⟩
              | unreachable e =>
                  rw [acquireScreen_run_ungranted (by simp [hs, Answer.grant])]
                  refine ⟨by simp [Answer.grant], .error (.connect e), by simp [hs, ungranted], ?_⟩
                  simp [Tells, Reply.of, Answer.grant, screenFails, hs, Answer.fails]
              | refused e =>
                  rw [acquireScreen_run_ungranted (by simp [hs, Answer.grant])]
                  refine ⟨by simp [Answer.grant], .error (.inhibit e), by simp [hs, ungranted], ?_⟩
                  simp [Tells, Reply.of, Answer.grant, screenFails, hs, Answer.fails]

/-! ## The life of a request -/

/-- The call is waiting, or has given up. -/
def Unanswered (result : Option CallResult) : Prop := result = none ∨ result = some .timedOut

/-- Where a request is, by what the bus, its handler, the replies and its call show, with
what it has done. -/
inductive Life : Bool → Handler → Option Reply → Option CallResult → Bool → Bool → Prop where
  | unsent {result : Option CallResult} (h : Unanswered result ∨ result = some .notSent) :
      Life false .idle none result false false
  | onBus {result : Option CallResult} (h : Unanswered result) :
      Life true .idle none result false false
  | received {result : Option CallResult} (h : Unanswered result) :
      Life false (.received .toggle) none result false false
  | announcing {todo : List Property} {r : Reply} {result : Option CallResult}
      {changed screen : Bool} (h : Unanswered result) (ht : Tells r changed screen) :
      Life false (.announcing todo r) none result changed screen
  | sending {p : Property} {v : Bool} {todo : List Property} {r : Reply}
      {result : Option CallResult} {changed screen : Bool} (h : Unanswered result)
      (ht : Tells r changed screen) :
      Life false (.sending p v todo r) none result changed screen
  | answered {r : Reply} {result : Option CallResult} {changed screen : Bool}
      (h : Unanswered result ∨ ∃ c read, result = some (DaemonClient.toggled c read r).2)
      (ht : Tells r changed screen) :
      Life false .idle (some r) result changed screen

section Life

variable {b : Bool} {y : Handler} {reply : Option Reply} {result : Option CallResult}
  {changed screen : Bool}

/-- A call that was not sent has changed nothing. -/
theorem Life.of_unsent (h : Life false .idle none none changed screen) :
    changed = false ∧ screen = false := by
  cases h with
  | unsent _ => exact ⟨rfl, rfl⟩

/-- A call on the bus has changed nothing yet. -/
theorem Life.of_bus (h : Life true y reply result changed screen) :
    y = .idle ∧ reply = none ∧ Unanswered result ∧ changed = false ∧ screen = false := by
  cases h with
  | onBus hopen => exact ⟨rfl, rfl, hopen, rfl, rfl⟩

/-- A call that is dispatched has changed nothing yet. -/
theorem Life.of_received {request : Request}
    (h : Life b (.received request) reply result changed screen) :
    b = false ∧ request = .toggle ∧ reply = none ∧ Unanswered result ∧ changed = false := by
  cases h with
  | received hopen => exact ⟨rfl, rfl, rfl, hopen, rfl⟩

/-- A call whose handler announces has a reply that tells what it did. -/
theorem Life.of_announcing {todo : List Property} {r : Reply}
    (h : Life b (.announcing todo r) reply result changed screen) :
    b = false ∧ reply = none ∧ Unanswered result ∧ Tells r changed screen := by
  cases h with
  | announcing hopen ht => exact ⟨rfl, rfl, hopen, ht⟩

/-- A call whose handler sends a signal has a reply that tells what it did. -/
theorem Life.of_sending {p : Property} {v : Bool} {todo : List Property} {r : Reply}
    (h : Life b (.sending p v todo r) reply result changed screen) :
    b = false ∧ reply = none ∧ Unanswered result ∧ Tells r changed screen := by
  cases h with
  | sending hopen ht => exact ⟨rfl, rfl, hopen, ht⟩

/-- A call that is answered was told what it did. -/
theorem Life.of_answered {r : Reply} (h : Life b y (some r) result changed screen) :
    b = false ∧ y = .idle ∧ Tells r changed screen := by
  cases h with
  | answered _ ht => exact ⟨rfl, rfl, ht⟩

/-- A call may time out wherever its request is. -/
theorem Life.timeOut (h : Life b y reply none changed screen) :
    Life b y reply (some .timedOut) changed screen := by
  cases h with
  | unsent _ => exact .unsent (Or.inl (Or.inr rfl))
  | onBus _ => exact .onBus (Or.inr rfl)
  | received _ => exact .received (Or.inr rfl)
  | announcing _ ht => exact .announcing (Or.inr rfl) ht
  | sending _ ht => exact .sending (Or.inr rfl) ht
  | answered _ ht => exact .answered (Or.inl (Or.inr rfl)) ht

/-- The report of a call that did not time out is right about its request. -/
theorem Life.reported_eq (h : Life b y reply result changed screen)
    (hsome : result.isSome = true) (ht : result ≠ some .timedOut) :
    reported result screen = changed := by
  have hopen : ¬ Unanswered result := by
    rintro (hnone | hout)
    · simp [hnone] at hsome
    · exact ht hout
  cases h with
  | unsent h =>
      rcases h with h | rfl
      · exact absurd h hopen
      · rfl
  | onBus h => exact absurd h hopen
  | received h => exact absurd h hopen
  | announcing h _ => exact absurd h hopen
  | sending h _ => exact absurd h hopen
  | @answered r _ _ _ h htells =>
      rcases h with h | ⟨c, read, rfl⟩
      · exact absurd h hopen
      · cases r with
        | locks => exact htells.symm
        | failed => exact htells.symm
        | empty => exact htells.elim

end Life

/-- Where call `n` is, with what it has done. -/
def LifeAt (w : ToggleCalls) (g : Deeds) (n : ℕ) : Prop :=
  Life (w.bus n) (w.daemon.handlers n) (w.daemon.replies.lookup n) (w.results n) (g.changed n)
    (g.screen n)

/-- The requests that have changed sleep blocking. -/
def changes (w : ToggleCalls) (g : Deeds) : Finset ℕ :=
  (Finset.range w.made).filter fun n => g.changed n

/-- The invariant: every call is somewhere in its life, calls not made have left nothing, the
window waits for the latest call only, and sleep has been toggled once for each change. -/
structure Orderly (initial : Bool) (w : ToggleCalls) (g : Deeds) : Prop where
  life : ∀ n, LifeAt w g n
  unmade : ∀ n, w.made ≤ n → w.bus n = false ∧ w.daemon.handlers n = .idle ∧
    w.daemon.replies.lookup n = none ∧ w.results n = none
  waiting : w.waiting = true → 0 < w.made ∧ w.results (w.made - 1) = none
  returned : ∀ n, n < w.made → w.results n = none → w.waiting = true ∧ n + 1 = w.made
  sleep : w.daemon.state.snapshot.sleepBlocked = not^[(changes w g).card] initial

/-- Only a call that timed out can have been reported wrongly. -/
theorem reportsRight_iff {initial : Bool} {w : ToggleCalls} {g : Deeds}
    (hx : Orderly initial w g) :
    ReportsRight initial (w, g) ↔ ∀ n, w.results n = some .timedOut → g.changed n = false := by
  constructor
  · rintro ⟨h, -⟩ n hn
    apply h n
    · simp [hn]
    · simp [hn, reported]
  · intro h
    have hright : ∀ n, (w.results n).isSome = true →
        reported (w.results n) (g.screen n) = g.changed n := by
      intro n hsome
      by_cases hout : w.results n = some .timedOut
      · rw [hout, h n hout]
        rfl
      · exact (hx.life n).reported_eq hsome hout
    refine ⟨fun n hsome hrep => ?_, fun hall => ?_⟩
    · rw [← hright n hsome]
      exact hrep
    · have hsame : changes w g =
          (Finset.range w.made).filter fun n => reported (w.results n) (g.screen n) := by
        apply Finset.filter_congr
        intro n hn
        have hsome : (w.results n).isSome = true := by
          rw [Option.isSome_iff_ne_none]
          intro hnone
          have hwait := (hx.returned n (Finset.mem_range.mp hn) hnone).1
          rw [hall.1] at hwait
          cases hwait
        rw [hright n hsome]
      rw [hx.sleep, hsame, reports]

/-- One more request that changes something, or one that changes nothing. -/
theorem card_filter_update {f : ℕ → Bool} {m n : ℕ} (hn : n < m) (hf : f n = false) (c : Bool) :
    ((Finset.range m).filter fun k => Function.update f n c k).card =
      ((Finset.range m).filter fun k => f k).card + c.toNat := by
  cases c with
  | false =>
      have hsame : Function.update f n false = f := by
        rw [← hf, Function.update_eq_self]
      rw [hsame, Bool.toNat_false, Nat.add_zero]
  | true =>
      have hinsert : ((Finset.range m).filter fun k => Function.update f n true k) =
          insert n ((Finset.range m).filter fun k => f k) := by
        ext k
        by_cases hk : k = n
        · subst hk
          simp [hn]
        · simp [hk]
      have hnot : n ∉ (Finset.range m).filter fun k => f k := by
        simp [hf]
      rw [hinsert, Finset.card_insert_of_notMem hnot, Bool.toNat_true]

/-- One toggle more, or none. -/
theorem iterate_not_add_toNat (k : ℕ) (c b : Bool) :
    not^[k + c.toNat] b = (not^[k] b ^^ c) := by
  cases c with
  | false => rw [Bool.toNat_false, Nat.add_zero, Bool.xor_false]
  | true => rw [Bool.toNat_true, Function.iterate_succ_apply', Bool.xor_true]

/-! ## Steps -/

section Steps

variable {initial : Bool} {w : ToggleCalls} {g : Deeds} {n : ℕ}

/-- A request that some handler has is one that was made. -/
theorem Orderly.made_of_handler (hx : Orderly initial w g)
    (hn : w.daemon.handlers n ≠ .idle) : n < w.made := by
  by_contra hge
  exact hn (hx.unmade n (by omega)).2.1

/-- A step of the daemon that concerns one request, and counts it if it changes the state. -/
theorem orderly_of_frame (hx : Orderly initial w g) (hmade : n < w.made) {bus : ℕ → Bool}
    {d : Daemon} {g' : Deeds} (hlife : LifeAt { w with bus := bus, daemon := d } g' n)
    (hframe : ∀ k, k ≠ n → bus k = w.bus k ∧ d.handlers k = w.daemon.handlers k ∧
      d.replies.lookup k = w.daemon.replies.lookup k ∧ g'.changed k = g.changed k ∧
      g'.screen k = g.screen k)
    (hsleep : d.state.snapshot.sleepBlocked = not^[(changes w g').card] initial) :
    Orderly initial { w with bus := bus, daemon := d } g' := by
  constructor
  case life =>
    intro k
    by_cases hk : k = n
    · exact hk ▸ hlife
    · obtain ⟨hbus, hhandler, hreply, hchanged, hscreen⟩ := hframe k hk
      have hlifek := hx.life k
      simp only [LifeAt] at hlifek ⊢
      rw [hbus, hhandler, hreply, hchanged, hscreen]
      exact hlifek
  case unmade =>
    intro k hmk
    have hk : k ≠ n := (lt_of_lt_of_le hmade hmk).ne'
    obtain ⟨hbus, hhandler, hreply, -, -⟩ := hframe k hk
    obtain ⟨hunsent, hidle, hnone, hresult⟩ := hx.unmade k hmk
    exact ⟨hbus.trans hunsent, hhandler.trans hidle, hreply.trans hnone, hresult⟩
  case waiting => exact hx.waiting
  case returned => exact hx.returned
  case sleep => exact hsleep

/-- A read of an announcing handler keeps the calls orderly. -/
theorem orderly_readProperty (hx : Orderly initial w g) {d : Daemon}
    (hs : w.daemon.step (.readProperty n) = some d) :
    Orderly initial { w with daemon := d } g := by
  obtain ⟨p, todo, r, hh, -, rfl⟩ := Daemon.readProperty_eq_some.mp hs
  have hlife := hx.life n
  simp only [LifeAt, hh] at hlife
  obtain ⟨hbus, hreply, hopen, ht⟩ := hlife.of_announcing
  apply orderly_of_frame (n := n) hx (hx.made_of_handler (by simp [hh]))
  · simp only [LifeAt, Daemon.setHandler, Function.update_self, hbus, hreply]
    exact .sending hopen ht
  · intro k hk
    simp [Daemon.setHandler, Function.update_of_ne hk]
  · exact hx.sleep

/-- A signal of an announcing handler keeps the calls orderly. -/
theorem orderly_sendSignal (hx : Orderly initial w g) {d : Daemon}
    (hs : w.daemon.step (.sendSignal n) = some d) :
    Orderly initial { w with daemon := d } g := by
  obtain ⟨p, v, todo, r, hh, -, rfl⟩ := Daemon.sendSignal_eq_some.mp hs
  have hlife := hx.life n
  simp only [LifeAt, hh] at hlife
  obtain ⟨hbus, hreply, hopen, ht⟩ := hlife.of_sending
  apply orderly_of_frame (n := n) hx (hx.made_of_handler (by simp [hh]))
  · simp only [LifeAt, Daemon.setHandler, Function.update_self, hbus, hreply]
    exact .announcing hopen ht
  · intro k hk
    simp [Daemon.setHandler, Function.update_of_ne hk]
  · exact hx.sleep

/-- A reply keeps the calls orderly. -/
theorem orderly_reply (hx : Orderly initial w g) {d : Daemon}
    (hs : w.daemon.step (.reply n) = some d) :
    Orderly initial { w with daemon := d } g := by
  obtain ⟨r, hh, -, rfl⟩ := Daemon.reply_eq_some.mp hs
  have hlife := hx.life n
  simp only [LifeAt, hh] at hlife
  obtain ⟨hbus, hreply, hopen, ht⟩ := hlife.of_announcing
  apply orderly_of_frame (n := n) hx (hx.made_of_handler (by simp [hh]))
  · simp only [LifeAt, Daemon.setHandler, Function.update_self, hbus, List.lookup_append, hreply,
      Option.none_or, List.lookup_cons_self]
    exact .answered (Or.inl hopen) ht
  · intro k hk
    have hlookup : List.lookup k [(n, r)] = none := by
      rw [List.lookup_eq_none_iff]
      simpa using hk
    simp [Daemon.setHandler, Function.update_of_ne hk, List.lookup_append, hlookup]
  · exact hx.sleep

/-- A dispatch keeps the calls orderly. -/
theorem orderly_receive (hx : Orderly initial w g) (hbus : w.bus n = true) {d : Daemon}
    (hs : w.daemon.step (.receive n .toggle) = some d) :
    Orderly initial { w with bus := Function.update w.bus n false, daemon := d } g := by
  simp only [Daemon.step, Option.ite_none_right_eq_some, Option.some.injEq] at hs
  obtain ⟨-, rfl⟩ := hs
  have hlife := hx.life n
  simp only [LifeAt, hbus] at hlife
  obtain ⟨-, hreply, hopen, hchanged, hscreen⟩ := hlife.of_bus
  have hmade : n < w.made := by
    by_contra hge
    have hunmade := (hx.unmade n (by omega)).1
    simp only [hbus, Bool.true_eq_false] at hunmade
  apply orderly_of_frame hx hmade
  · simp only [LifeAt, Daemon.setHandler, Function.update_self, hreply, hchanged, hscreen]
    exact .received hopen
  · intro k hk
    simp [Daemon.setHandler, Function.update_of_ne hk]
  · exact hx.sleep

/-- The daemon handles a request: the number of changes goes with the state. -/
theorem orderly_handle (hx : Orderly initial w g) {ans : Answers} {d : Daemon}
    (hs : w.daemon.step (.handle n ans) = some d) :
    Orderly initial { w with daemon := d } (g.update w (.handle n ans)) ∧
      (g.update w (.handle n ans)).changed n = applies w.daemon.state ans := by
  obtain ⟨request, hh, -, hcalm, rfl⟩ := Daemon.handle_eq_some.mp hs
  have hlife := hx.life n
  simp only [LifeAt, hh] at hlife
  obtain ⟨hbus, rfl, hreply, hopen, hchanged⟩ := hlife.of_received
  obtain ⟨hflip, result, hvalue, ht⟩ := toggle_tells hcalm w.daemon.state
  have hmade : n < w.made := hx.made_of_handler (by simp [hh])
  have hnew : (g.update w (.handle n ans)).changed n = applies w.daemon.state ans := by
    simp only [Deeds.update, Function.update_self]
    exact hflip
  refine ⟨?_, hnew⟩
  apply orderly_of_frame hx hmade
  · simp only [LifeAt, Daemon.setHandler, Function.update_self, hbus, hreply, Request.op, hvalue,
      Option.getD_some, Request.after, Option.elim_some, Deeds.update, hflip]
    exact .announcing hopen ht
  · intro k hk
    simp [Daemon.setHandler, Deeds.update, Function.update_of_ne hk]
  · show (perform ⟨.toggle, ans⟩ w.daemon.state).state.snapshot.sleepBlocked =
      not^[((Finset.range w.made).filter fun k => Function.update g.changed n _ k).card] initial
    rw [hflip, card_filter_update hmade hchanged, iterate_not_add_toNat]
    have hsleep : w.daemon.state.snapshot.sleepBlocked = not^[(changes w g).card] initial :=
      hx.sleep
    rw [changes] at hsleep
    rw [← hsleep, ← hflip, ← Bool.xor_assoc, Bool.xor_self, Bool.false_xor]

/-- The next call has done nothing yet. -/
theorem Orderly.fresh (hx : Orderly initial w g) :
    g.changed w.made = false ∧ g.screen w.made = false := by
  obtain ⟨hbus, hidle, hreply, hresult⟩ := hx.unmade w.made le_rfl
  have hlife := hx.life w.made
  rw [LifeAt, hbus, hidle, hreply, hresult] at hlife
  exact hlife.of_unsent

/-- A call that has just been made has changed nothing. -/
theorem changes_succ (hx : Orderly initial w g) :
    ((Finset.range (w.made + 1)).filter fun k => g.changed k) = changes w g := by
  rw [Finset.range_add_one, Finset.filter_insert, if_neg (by simp [hx.fresh.1]), changes]

/-- One more call is made: it waits with its request on the bus, or it has returned already. -/
theorem orderly_made (hx : Orderly initial w g) (hidle : w.waiting = false) {sent : Bool}
    {result : Option CallResult} (hlife : Life sent .idle none result false false)
    (hresult : sent = true ↔ result = none) :
    Orderly initial { w with
      made := w.made + 1
      waiting := sent
      bus := Function.update w.bus w.made sent
      results := Function.update w.results w.made result } g := by
  obtain ⟨-, hhandler, hreply, -⟩ := hx.unmade w.made le_rfl
  obtain ⟨hchanged, hscreen⟩ := hx.fresh
  constructor
  case life =>
    intro k
    by_cases hk : k = w.made
    · subst hk
      simpa [LifeAt, hhandler, hreply, hchanged, hscreen] using hlife
    · have hlifek := hx.life k
      simpa [LifeAt, Function.update_of_ne hk] using hlifek
  case unmade =>
    intro k hmk
    have hmk : w.made + 1 ≤ k := hmk
    have hk : k ≠ w.made := by omega
    simpa [Function.update_of_ne hk] using hx.unmade k (by omega)
  case waiting =>
    intro hsent
    refine ⟨Nat.succ_pos w.made, ?_⟩
    show Function.update w.results w.made result w.made = none
    rw [Function.update_self]
    exact hresult.mp hsent
  case returned =>
    intro k hk hnone
    have hk : k < w.made + 1 := hk
    have hnone : Function.update w.results w.made result k = none := hnone
    by_cases hkm : k = w.made
    · subst hkm
      rw [Function.update_self] at hnone
      exact ⟨hresult.mpr hnone, rfl⟩
    · rw [Function.update_of_ne hkm] at hnone
      have hwaiting := (hx.returned k (by omega) hnone).1
      rw [hidle] at hwaiting
      cases hwaiting
  case sleep =>
    rw [changes, changes_succ hx]
    exact hx.sleep

/-- The window makes a call: the request is put on the bus, or cannot be sent. -/
theorem orderly_call (hx : Orderly initial w g) {sent : Bool} {v : ToggleCalls}
    (hs : w.step (.call sent) = some v) : Orderly initial v g := by
  obtain ⟨hbus, -, -, hresult⟩ := hx.unmade w.made le_rfl
  cases sent with
  | true =>
      simp only [ToggleCalls.step, Option.ite_none_left_eq_some, Option.some.injEq] at hs
      obtain ⟨hwait, rfl⟩ := hs
      have hmade := orderly_made hx (Bool.eq_false_iff.mpr hwait) (.onBus (Or.inl rfl)) (by simp)
      rw [← hresult, Function.update_eq_self] at hmade
      exact hmade
  | false =>
      simp only [ToggleCalls.step, Option.ite_none_left_eq_some, Option.some.injEq] at hs
      obtain ⟨hwait, rfl⟩ := hs
      have hwait := Bool.eq_false_iff.mpr hwait
      have hmade := orderly_made hx hwait (.unsent (Or.inr rfl)) (by simp)
      rw [← hbus, Function.update_eq_self, hbus, ← hwait] at hmade
      exact hmade

/-- A return keeps the calls orderly, when the result is one that the call may have in its
place. -/
theorem orderly_return (hx : Orderly initial w g) (hwait : w.waiting = true)
    {c : DaemonClient} {result : CallResult}
    (hlife : Life (w.bus (w.made - 1)) (w.daemon.handlers (w.made - 1))
      (w.daemon.replies.lookup (w.made - 1)) (some result) (g.changed (w.made - 1))
      (g.screen (w.made - 1))) :
    Orderly initial { w with
      client := c
      waiting := false
      results := Function.update w.results (w.made - 1) (some result) } g := by
  obtain ⟨hpos, -⟩ := hx.waiting hwait
  have hpos : 0 < w.made := hpos
  constructor
  case life =>
    intro k
    by_cases hk : k = w.made - 1
    · subst hk
      simpa [LifeAt] using hlife
    · have hlifek := hx.life k
      simpa [LifeAt, Function.update_of_ne hk] using hlifek
  case unmade =>
    intro k hmk
    have hmk : w.made ≤ k := hmk
    have hk : k ≠ w.made - 1 := by omega
    simpa [Function.update_of_ne hk] using hx.unmade k hmk
  case waiting =>
    intro hwaiting
    cases hwaiting
  case returned =>
    intro k hk hnone
    by_cases hkm : k = w.made - 1
    · subst hkm
      simp at hnone
    · simp only [Function.update_of_ne hkm] at hnone
      obtain ⟨-, hlast⟩ := hx.returned k hk hnone
      have hlast : k + 1 = w.made := hlast
      omega
  case sleep => exact hx.sleep

end Steps

/-- Every step keeps the calls orderly. -/
theorem orderly_step {initial : Bool} {w v : ToggleCalls} {g : Deeds} {a : ToggleCalls.Label}
    (hw : w.step a = some v) (hx : Orderly initial w g) : Orderly initial v (g.update w a) := by
  cases a with
  | call sent => exact orderly_call hx hw
  | receive n =>
      simp only [ToggleCalls.step, Option.ite_none_right_eq_some, ToggleCalls.serve,
        Option.map_eq_some_iff] at hw
      obtain ⟨hbus, d, hd, rfl⟩ := hw
      exact orderly_receive hx hbus hd
  | handle n ans =>
      simp only [ToggleCalls.step, ToggleCalls.serve, Option.map_eq_some_iff] at hw
      obtain ⟨d, hd, rfl⟩ := hw
      exact (orderly_handle hx hd).1
  | readProperty n =>
      simp only [ToggleCalls.step, ToggleCalls.serve, Option.map_eq_some_iff] at hw
      obtain ⟨d, hd, rfl⟩ := hw
      exact orderly_readProperty hx hd
  | sendSignal n =>
      simp only [ToggleCalls.step, ToggleCalls.serve, Option.map_eq_some_iff] at hw
      obtain ⟨d, hd, rfl⟩ := hw
      exact orderly_sendSignal hx hd
  | reply n =>
      simp only [ToggleCalls.step, ToggleCalls.serve, Option.map_eq_some_iff] at hw
      obtain ⟨d, hd, rfl⟩ := hw
      exact orderly_reply hx hd
  | returns read =>
      simp only [ToggleCalls.step, Option.ite_none_right_eq_some, Option.map_eq_some_iff] at hw
      obtain ⟨hwait, r, hr, rfl⟩ := hw
      have hlife := hx.life (w.made - 1)
      simp only [LifeAt, hr] at hlife
      obtain ⟨hbus, hidle, ht⟩ := hlife.of_answered
      apply orderly_return hx hwait
      rw [hbus, hidle, hr]
      exact .answered (Or.inr ⟨_, _, rfl⟩) ht
  | timesOut =>
      simp only [ToggleCalls.step, Option.ite_none_right_eq_some, Option.some.injEq] at hw
      obtain ⟨hwait, rfl⟩ := hw
      apply orderly_return hx hwait
      have hlife := hx.life (w.made - 1)
      have hnone : w.results (w.made - 1) = none := (hx.waiting hwait).2
      simp only [LifeAt, hnone] at hlife
      exact hlife.timeOut

/-- What the daemon does returns nothing to the window. -/
theorem serve_results {w v : ToggleCalls} {l : Daemon.Label} (h : w.serve l = some v) :
    v.results = w.results := by
  obtain ⟨d, -, rfl⟩ := Option.map_eq_some_iff.mp h
  rfl

/-- A reply is no time-out. -/
theorem toggled_ne_timedOut (c : DaemonClient) (read : Option Status) (r : Reply) :
    (c.toggled read r).2 ≠ .timedOut := by
  cases r <;> simp [DaemonClient.toggled]

/-- One step keeps the reports right exactly when it is no late apply. -/
theorem reportsRight_step {initial : Bool} (x : ToggleCalls × Deeds) (a : ToggleCalls.Label)
    (y : ToggleCalls × Deeds) (hs : toggleDeeds.step x a = some y)
    (hx : Orderly initial x.1 x.2) (hright : ReportsRight initial x) :
    ReportsRight initial y ↔ NoLateApply x a := by
  obtain ⟨hw, hy⟩ := Machine.monitor_step_eq_some.mp hs
  obtain ⟨w, g⟩ := x
  obtain ⟨v, g'⟩ := y
  simp only [toggleCalls] at hw hy hx
  subst hy
  rw [reportsRight_iff (orderly_step hw hx)]
  rw [reportsRight_iff hx] at hright
  -- a result that is not a timeout is no concern of the condition
  have hother : ∀ (m : ℕ) (result : CallResult), result ≠ .timedOut → ∀ n,
      Function.update w.results m (some result) n = some .timedOut → g.changed n = false := by
    intro m result hresult n hn
    by_cases hnm : n = m
    · subst hnm
      rw [Function.update_self] at hn
      exact absurd (Option.some.inj hn) hresult
    · rw [Function.update_of_ne hnm] at hn
      exact hright n hn
  cases a with
  | call sent =>
      refine iff_of_true ?_ trivial
      cases sent with
      | true =>
          simp only [ToggleCalls.step, Option.ite_none_left_eq_some, Option.some.injEq] at hw
          obtain ⟨-, rfl⟩ := hw
          exact hright
      | false =>
          simp only [ToggleCalls.step, Option.ite_none_left_eq_some, Option.some.injEq] at hw
          obtain ⟨-, rfl⟩ := hw
          exact hother w.made .notSent (by simp)
  | receive n =>
      refine iff_of_true ?_ trivial
      simp only [ToggleCalls.step, Option.ite_none_right_eq_some] at hw
      rw [serve_results hw.2]
      exact hright
  | readProperty n | sendSignal n | reply n =>
      refine iff_of_true ?_ trivial
      rw [serve_results hw]
      exact hright
  | handle n ans =>
      have hresults := serve_results hw
      obtain ⟨d, hd, rfl⟩ := Option.map_eq_some_iff.mp hw
      obtain ⟨-, hnew⟩ := orderly_handle hx hd
      constructor
      · intro h hout
        rw [← hnew]
        exact h n hout
      · intro h k hk
        by_cases hkn : k = n
        · subst hkn
          rw [hnew]
          exact h hk
        · simp only [Deeds.update, Function.update_of_ne hkn]
          exact hright k hk
  | returns read =>
      refine iff_of_true ?_ trivial
      simp only [ToggleCalls.step, Option.ite_none_right_eq_some, Option.map_eq_some_iff] at hw
      obtain ⟨-, r, -, rfl⟩ := hw
      exact hother (w.made - 1) _ (toggled_ne_timedOut w.client read r)
  | timesOut =>
      simp only [ToggleCalls.step, Option.ite_none_right_eq_some, Option.some.injEq] at hw
      obtain ⟨-, rfl⟩ := hw
      constructor
      · intro h
        apply h (w.made - 1)
        exact Function.update_self ..
      · intro h n hn
        by_cases hnm : n = w.made - 1
        · subst hnm
          exact h
        · simp only [Function.update_of_ne hnm] at hn
          exact hright n hn

/-- **A toggle reported as failed has not been applied, exactly without late ones.** Take any
run of one window's toggles, with any answers of the services and any delay of the daemon
against the client's timeout. In every state it visits, no call that returned an error
other than the ScreenSaver failure has changed sleep blocking, and once everything has been
handled sleep blocking is what it was at first, flipped once for every other call; exactly
when no call times out whose request has been applied, and no request is applied whose call
has timed out.
SOURCE: client.rs:65-76, client.rs:172-175, sleep-blockd.rs:43-59, state.rs:60-92 -/
theorem toggle_reports_iff {s : SleepBlock} {c : DaemonClient} {run : List ToggleCalls.Label}
    {w : ToggleCalls} (hr : toggleCalls.run (.start s c) run = some w) :
    toggleDeeds.Everywhere (ReportsRight s.snapshot.sleepBlocked) (.start s c, {}) run ↔
      toggleDeeds.Along NoLateApply (.start s c, {}) run := by
  have hstart : Orderly s.snapshot.sleepBlocked (.start s c) {} := by
    constructor
    case life => exact fun n => .unsent (Or.inl (Or.inl rfl))
    case unmade => exact fun n _ => ⟨rfl, rfl, rfl, rfl⟩
    case waiting =>
      intro h
      cases h
    case returned =>
      intro n hn
      exact absurd hn (Nat.not_lt_zero n)
    case sleep => simp [changes, ToggleCalls.start]
  apply Machine.monitor_iff_along (I := fun x => Orderly s.snapshot.sleepBlocked x.1 x.2)
    ?_ reportsRight_step hr hstart
  · rw [reportsRight_iff hstart]
    intro n hn
    cases hn
  · intro x a t hs hx
    obtain ⟨hw, ht⟩ := Machine.monitor_step_eq_some.mp hs
    rw [ht]
    exact orderly_step hw hx

/-- A client that has just connected to an idle daemon. -/
def idleClient : DaemonClient := ⟨true, ⟨false, false, false, false⟩, false⟩

/-- The call times out while its request is on its way; the daemon gets round to it. -/
def lateApply : List ToggleCalls.Label :=
  [.call true, .timesOut, .receive 0, .handle 0 ⟨.granted 3, .granted 6, true⟩]

/-- The window was told that nothing happened. -/
theorem lateApply_wrong :
    ∃ y, toggleDeeds.run (.start .new idleClient, {}) lateApply = some y ∧
      y.1.results 0 = some .timedOut ∧ y.1.daemon.state.snapshot.sleepBlocked = true ∧
      ¬ ReportsRight false y := by
  refine ⟨_, rfl, rfl, rfl, fun h => ?_⟩
  exact absurd (h.1 0 rfl rfl) (by decide)

/-- A call that times out while logind refuses its request. -/
theorem toggle_reports_iff_refused :
    let run : List ToggleCalls.Label :=
      [.call true, .receive 0, .handle 0 ⟨.refused "busy", .granted 6, true⟩, .timesOut]
    (∃ w, toggleCalls.run (.start .new idleClient) run = some w) ∧
      (toggleDeeds.Everywhere (ReportsRight false) (.start .new idleClient, {}) run ↔
        toggleDeeds.Along NoLateApply (.start .new idleClient, {}) run) :=
  ⟨⟨_, rfl⟩, toggle_reports_iff (s := .new) (c := idleClient) rfl⟩

end SleepBlocker.Analysis
