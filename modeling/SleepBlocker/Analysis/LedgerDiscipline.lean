import SleepBlocker.Interface.CriticalSections
import SleepBlocker.Interface.LockProtocol

/-!
# Every run of calls keeps the services' books disciplined

The effects of each critical section are a run of the lock protocol from what `Inner`
stores before it to what `Inner` stores after it, whatever the services answer and also
when a panic unwinds out of an acquire. So the effects of any run of calls keep the
ledger disciplined after every single one of them, and between calls the outstanding
descriptor and cookie are the stored ones.

The invariant that carries this is that a stored screen lock has a stored inhibitor
beside it: `holdingOf` is defined exactly there.
-/

set_option autoImplicit false

namespace SleepBlocker.Analysis

open SleepBlocker.Computation SleepBlocker.Model SleepBlocker.Interface

/-- What `Inner` stores, read as a holding; there is none for a screen lock alone. -/
def holdingOf (s : Inner) : Option Holding :=
  match s.inhibitor, s.screen with
  | none, none => some .nothing
  | some i, none => some (.sleep i.fd)
  | some i, some c => some (.sleepAndScreen i.fd c.cookie)
  | none, some _ => none

/-- The stored descriptor and cookie, as books. -/
def storedBooks (s : Inner) : Ledger where
  descriptors := (s.inhibitor.map (·.fd)).toList
  cookies := (s.screen.map (·.cookie)).toList

/-- The books of a stored holding are its descriptor and its cookie. -/
theorem holdingOf_books {s : Inner} {h : Holding} (hs : holdingOf s = some h) :
    h.books = storedBooks s := by
  unfold holdingOf at hs
  split at hs <;> cases hs <;> simp [Holding.books, storedBooks, *]

/-- The body follows the protocol from every stored holding to the one it leaves. -/
def FollowsProtocol {α : Type} (body : Critical α) : Prop :=
  ∀ s h, holdingOf s = some h → ∃ k, protocol.run h (body.run s).effects = some k ∧
    holdingOf (body.run s).state = some k

/-- A screen lock in hand without a sleep lock is not a holding. -/
theorem screen_of_inhibitor_none {s : Inner} {h : Holding} (hs : holdingOf s = some h)
    (hi : s.inhibitor = none) : s.screen = none ∧ h = .nothing := by
  unfold holdingOf at hs
  split at hs <;> simp_all

/-- Releasing both locks, the screen lock first, follows the protocol. -/
theorem releaseAll_follows : FollowsProtocol (releaseAll true) := by
  intro s h hs
  refine ⟨.nothing, ?_, by simp [releaseAll_run, holdingOf]⟩
  rw [releaseAll_run]
  unfold holdingOf at hs
  split at hs <;> cases hs <;> simp [dropped, closed, protocol, *]

/-- The screen acquire follows the protocol from a sleep lock without a screen lock. -/
theorem acquireScreen_follows (ans : Answers) {s : Inner} {i : Inhibitor}
    (hi : s.inhibitor = some i) (hs : s.screen = none) :
    ∃ k, protocol.run (.sleep i.fd) ((acquireScreen ans).run s).effects = some k ∧
      holdingOf ((acquireScreen ans).run s).state = some k := by
  cases hg : ans.screen.grant with
  | none =>
      rw [acquireScreen_run_ungranted hg]
      exact ⟨.sleep i.fd, by simp [protocol, hg], by simp [holdingOf, hi, hs]⟩
  | some cookie =>
      have ha : ans.screen = .granted cookie := by
        cases ha : ans.screen <;> simp_all [Answer.grant]
      rw [acquireScreen_run_granted ha]
      exact ⟨.sleepAndScreen i.fd cookie, by simp [protocol, hs, hg, dropped],
        by simp [holdingOf, hi]⟩

/-- `toggle` follows the protocol in every branch, the unwinding ones included. -/
theorem toggle_follows {ans : Answers} (hsaver : ans.saver = true) :
    FollowsProtocol (toggle ans) := by
  intro s h hs
  cases hi : s.inhibitor with
  | some i =>
      obtain ⟨k, hk, hk'⟩ := releaseAll_follows s h hs
      rw [releaseAll_run, hi] at hk hk'
      rw [toggle_run_held hi, hsaver]
      exact ⟨k, hk, hk'⟩
  | none =>
      obtain ⟨hscreen, rfl⟩ := screen_of_inhibitor_none hs hi
      cases hg : ans.logind.grant with
      | none =>
          rw [toggle_run_ungranted hi hg]
          exact ⟨.nothing, by simp [protocol, hg], hs⟩
      | some fd =>
          have ha : ans.logind = .granted fd := by
            cases ha : ans.logind <;> simp_all [Answer.grant]
          cases hk : s.keepScreenAwake with
          | false =>
              rw [toggle_run_granted hi ha hk]
              exact ⟨.sleep fd, by simp [protocol, hg], by simp [holdingOf, hscreen]⟩
          | true =>
              obtain ⟨k, hrun, hhold⟩ := acquireScreen_follows ans
                (s := { s with inhibitor := some ⟨fd⟩ }) rfl hscreen
              rw [toggle_run_granted_screen hi ha hk]
              refine ⟨k, ?_, hhold⟩
              simpa [protocol, hg] using hrun

/-- Recording the preference follows the protocol: it acquires on top of a sleep lock, or
hands back a cookie that is no longer wanted. -/
theorem setKeepScreenAwake_follows {ans : Answers} (hsaver : ans.saver = true) (wanted : Bool) :
    FollowsProtocol (setKeepScreenAwake wanted ans) := by
  intro s h hs
  rcases setKeepScreenAwake_split wanted s with ⟨hw, hscreen⟩ | hrec
  · obtain ⟨i, hi⟩ := Option.isSome_iff_exists.mp (Bool.and_eq_true_iff.mp hw).2
    obtain ⟨k, hrun, hhold⟩ := acquireScreen_follows ans
      (s := { s with keepScreenAwake := wanted }) hi hscreen
    have hh : h = .sleep i.fd := by
      unfold holdingOf at hs
      simp_all
    rw [setKeepScreenAwake_run_acquire hw hscreen, hh]
    exact ⟨k, hrun, hhold⟩
  · rw [setKeepScreenAwake_run_record hrec, hsaver]
    cases hw : (wanted && s.inhibitor.isSome) with
    | true => exact ⟨h, rfl, by simpa [holdingOf] using hs⟩
    | false =>
        unfold holdingOf at hs ⊢
        split at hs <;> cases hs <;> simp [dropped, protocol, *]

/-- Every operation follows the protocol as long as `UnInhibit` can be sent. -/
theorem body_follows {ans : Answers} (hsaver : ans.saver = true) (op : Op) :
    FollowsProtocol (op.body ans) := by
  intro s h hs
  cases op with
  | toggle =>
      obtain ⟨k, hk, hk'⟩ := toggle_follows hsaver s h hs
      exact ⟨k, by rwa [Op.body, run_return_some], by rwa [Op.body, run_return_some]⟩
  | setKeepScreenAwake wanted =>
      obtain ⟨k, hk, hk'⟩ := setKeepScreenAwake_follows hsaver wanted s h hs
      exact ⟨k, by rwa [Op.body, run_return_some], by rwa [Op.body, run_return_some]⟩
  | setKeepRunningInTray wanted =>
      refine ⟨h, ?_, ?_⟩
      · simp [Op.body, Effectful.run_bind, setKeepRunningInTray_run]
      · simpa [Op.body, Effectful.run_bind, setKeepRunningInTray_run, holdingOf] using hs
  | releaseAll =>
      obtain ⟨k, hk, hk'⟩ := releaseAll_follows s h hs
      rw [releaseAll_run] at hk hk'
      refine ⟨k, ?_, ?_⟩
      · simpa [Op.body, Effectful.run_bind, releaseAll_run, hsaver] using hk
      · simpa [Op.body, Effectful.run_bind, releaseAll_run] using hk'
  | snapshot =>
      refine ⟨h, ?_, ?_⟩
      · simp [Op.body, Effectful.run_bind]
      · simpa [Op.body, Effectful.run_bind] using hs

/-- The effects one call performs. -/
def effectsOf (s : SleepBlock) (call : Call) : List Effect := (perform call s).effects

/-- The refinement step: one call's effects play on the ledger from the books of what is
stored before it to the books of what is stored after it. -/
theorem effectsOf_step (s : SleepBlock) (b : Ledger) (call : Call) (t : SleepBlock)
    (hcall : call.answers.saver = true) (ht : calls.step s call = some t)
    (hs : ∃ h, holdingOf s.inner.data = some h ∧ b = h.books) :
    ∃ c, ledger.run b (effectsOf s call) = some c ∧
      ledger.Everywhere Disciplined b (effectsOf s call) ∧
      ∃ k, holdingOf t.inner.data = some k ∧ c = k.books := by
  obtain ⟨h, hh, rfl⟩ := hs
  simp only [calls, Option.some.injEq] at ht
  subst ht
  obtain ⟨k, hk, hk'⟩ := body_follows hcall call.op s.inner.data h hh
  obtain ⟨hl, hall⟩ := protocol_run_ledger hk
  refine ⟨k.books, ?_, ?_, k, ?_, rfl⟩
  · rwa [effectsOf, (perform_eq call s).1]
  · rwa [effectsOf, (perform_eq call s).1]
  · rwa [(perform_eq call s).2.1]

/-- **The locks are held in order.** After every single effect of every run of calls from
`SleepBlock::new()`, whichever acquires succeed, fail or panic, a cookie is outstanding
only beside a descriptor and there is at most one of each; between calls exactly the
stored ones are outstanding; and of each cookie value as many are handed back as were
granted, less the outstanding ones.
SOURCE: state.rs:65-151, inhibit.rs:80-98 -/
theorem locks_held_in_order (history : List Call)
    (hsaver : ∀ call ∈ history, call.answers.saver = true) :
    ∃ s books, calls.run .new history = some s ∧
      ledger.run {} (calls.emitted effectsOf .new history) = some books ∧
      ledger.Everywhere Disciplined {} (calls.emitted effectsOf .new history) ∧
      books = storedBooks s.inner.data ∧
      ∀ effects, effects <+: calls.emitted effectsOf .new history →
        ∃ now, ledger.run {} effects = some now ∧ ∀ cookie,
          effects.countP (Effect.grants cookie) =
            now.cookies.count cookie + effects.count (.unInhibit cookie) := by
  obtain ⟨s, hs⟩ := calls_run_total history .new
  obtain ⟨books, hbooks, hall, h, hh, rfl⟩ :=
    Machine.run_emitted ledger effectsOf
      (fun t b => ∃ h, holdingOf t.inner.data = some h ∧ b = h.books) Disciplined
      (fun call => call.answers.saver = true) effectsOf_step
      hsaver hs ⟨.nothing, rfl, rfl⟩ Holding.nothing.disciplined
  refine ⟨s, h.books, hs, hbooks, hall, holdingOf_books hh, ?_⟩
  intro effects heffects
  obtain ⟨now, hnow⟩ := Machine.run_of_prefix hbooks heffects
  exact ⟨now, hnow, fun cookie => by simpa [Holding.books] using ledger_accounts hnow cookie⟩

/-- A run with a panic in it: the preference, a toggle whose screen acquire panics after the
descriptor was granted, and the toggle that releases it. -/
theorem locks_held_in_order_panic :
    let history : List Call :=
      [⟨.setKeepScreenAwake true, ⟨.panics, .panics, true⟩⟩, ⟨.toggle, ⟨.granted 7, .panics, true⟩⟩,
        ⟨.toggle, ⟨.panics, .panics, true⟩⟩]
    (∀ call ∈ history, call.answers.saver = true) ∧
      ledger.Everywhere Disciplined {} (calls.emitted effectsOf .new history) := by
  refine ⟨by decide, ?_⟩
  obtain ⟨_, _, _, _, hall, _⟩ := locks_held_in_order
    [⟨.setKeepScreenAwake true, ⟨.panics, .panics, true⟩⟩, ⟨.toggle, ⟨.granted 7, .panics, true⟩⟩,
      ⟨.toggle, ⟨.panics, .panics, true⟩⟩] (by decide)
  exact hall

end SleepBlocker.Analysis
