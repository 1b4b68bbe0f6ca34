import SleepBlocker.Analysis.LedgerDiscipline

/-!
# What a ScreenSaver that cannot be reached leaves outstanding

`Drop for ScreenInhibitor` is best effort: where the proxy cannot be built the cookie is gone
without a word to the service. A call does the same whether or not it can send `UnInhibit`, but
for that one effect (`body_sent`), and effects that follow the protocol stay acceptable to the
services when it is left out: the descriptors are not touched by it, and the cookies that were
not handed back pile up beside those the protocol accounts for.
-/

set_option autoImplicit false

namespace SleepBlocker.Analysis

open SleepBlocker.Computation SleepBlocker.Model SleepBlocker.Interface

/-- The cookie that an effect hands back. -/
def handedBack : Effect → Option Cookie
  | .unInhibit cookie => some cookie
  | _ => none

/-- The effects that are sent, with a saver that can be reached or not. -/
def sentOf (saver : Bool) (effects : List Effect) : List Effect :=
  effects.filter fun e => saver || (handedBack e).isNone

/-- The cookies that are not handed back. -/
def lostOf (saver : Bool) (effects : List Effect) : List Cookie :=
  if saver then [] else effects.filterMap handedBack

/-! ## The same call with a saver that can be reached -/

variable {ans : Answers} {s : Inner}

/-- What is sent of two lists is sent of each. -/
theorem sentOf_append (saver : Bool) (k l : List Effect) :
    sentOf saver (k ++ l) = sentOf saver k ++ sentOf saver l := List.filter_append ..

/-- An effect that hands nothing back is sent in any case. -/
theorem sentOf_cons {e : Effect} (he : handedBack e = none) (saver : Bool) (l : List Effect) :
    sentOf saver (e :: l) = e :: sentOf saver l := by
  simp [sentOf, he]

/-- The same for an effect alone. -/
theorem sentOf_singleton {e : Effect} (he : handedBack e = none) (saver : Bool) :
    sentOf saver [e] = [e] := sentOf_cons he saver []

/-- What is sent of a drop depends on the saver alone. -/
theorem sentOf_dropped (saver : Bool) (screen : Option ScreenInhibitor) :
    sentOf saver (dropped true screen) = dropped saver screen := by
  cases screen <;> cases saver <;> rfl

/-- A descriptor is closed in any case. -/
theorem sentOf_closed (saver : Bool) (inhibitor : Option Inhibitor) :
    sentOf saver (closed inhibitor) = closed inhibitor := by
  cases inhibitor <;> cases saver <;> rfl

/-- The answers with a saver that can be reached. -/
def reachable (ans : Answers) : Answers := { ans with saver := true }

/-- The body does the same with a saver that can be reached, and sends the rest of its effects. -/
def SendsRest {α : Type} (body : Answers → Critical α) : Prop :=
  ∀ ans s, ((body ans).run s).effects =
      sentOf ans.saver ((body (reachable ans)).run s).effects ∧
    ((body ans).run s).state = ((body (reachable ans)).run s).state

/-- The acquire of the screen lock sends the rest. -/
theorem acquireScreen_sent : SendsRest acquireScreen := by
  intro ans s
  cases hg : ans.screen with
  | granted cookie =>
      have hg' : (reachable ans).screen = .granted cookie := hg
      rw [acquireScreen_run_granted hg, acquireScreen_run_granted hg']
      refine ⟨?_, rfl⟩
      rw [sentOf_cons rfl, reachable, sentOf_dropped]
  | unreachable | refused | panics =>
      have hnone : ans.screen.grant = none := by rw [hg]; rfl
      have hnone' : (reachable ans).screen.grant = none := hnone
      rw [acquireScreen_run_ungranted hnone, acquireScreen_run_ungranted hnone']
      exact ⟨(sentOf_singleton rfl _).symm, rfl⟩

/-- `toggle` sends the rest. -/
theorem toggle_sent : SendsRest toggle := by
  intro ans s
  cases hi : s.inhibitor with
  | some i =>
      rw [toggle_run_held hi, toggle_run_held hi]
      refine ⟨?_, rfl⟩
      rw [sentOf_append, reachable, sentOf_dropped, sentOf_cons rfl]
      rfl
  | none =>
      cases ha : ans.logind with
      | unreachable | refused | panics =>
          have hnone : ans.logind.grant = none := by rw [ha]; rfl
          have hnone' : (reachable ans).logind.grant = none := hnone
          rw [toggle_run_ungranted hi hnone, toggle_run_ungranted hi hnone']
          exact ⟨(sentOf_singleton rfl _).symm, rfl⟩
      | granted fd =>
          have ha' : (reachable ans).logind = .granted fd := ha
          cases hk : s.keepScreenAwake with
          | false =>
              rw [toggle_run_granted hi ha hk, toggle_run_granted hi ha' hk]
              exact ⟨(sentOf_singleton rfl _).symm, rfl⟩
          | true =>
              obtain ⟨heffects, hstate⟩ := acquireScreen_sent ans { s with inhibitor := some ⟨fd⟩ }
              rw [toggle_run_granted_screen hi ha hk, toggle_run_granted_screen hi ha' hk]
              refine ⟨?_, hstate⟩
              rw [heffects, sentOf_cons rfl]
              rfl

/-- `set_keep_screen_awake` sends the rest. -/
theorem setKeepScreenAwake_sent (wanted : Bool) : SendsRest (setKeepScreenAwake wanted) := by
  intro ans s
  rcases setKeepScreenAwake_split wanted s with ⟨hw, hscreen⟩ | hrec
  · rw [setKeepScreenAwake_run_acquire hw hscreen, setKeepScreenAwake_run_acquire hw hscreen]
    exact acquireScreen_sent ans _
  · rw [setKeepScreenAwake_run_record hrec, setKeepScreenAwake_run_record hrec]
    refine ⟨?_, rfl⟩
    cases wanted && s.inhibitor.isSome with
    | true => rfl
    | false => exact (sentOf_dropped ..).symm

/-- Every operation does. -/
theorem body_sent (op : Op) : SendsRest op.body := by
  intro ans s
  cases op with
  | toggle => simpa only [Op.body, run_return_some] using toggle_sent ans s
  | setKeepScreenAwake wanted =>
      simpa only [Op.body, run_return_some] using setKeepScreenAwake_sent wanted ans s
  | setKeepRunningInTray wanted =>
      simp [Op.body, Effectful.run_bind, setKeepRunningInTray_run, sentOf]
  | releaseAll =>
      simp [Op.body, Effectful.run_bind, releaseAll_run, sentOf_append, sentOf_closed, reachable,
        sentOf_dropped]
  | snapshot => simp [Op.body, Effectful.run_bind, sentOf]

/-! ## The ledger beside lost cookies -/

/-- What is outstanding is what is held, and these cookies. -/
structure Outstanding (h : Holding) (lost : List Cookie) (b : Ledger) : Prop where
  descriptors : b.descriptors = h.books.descriptors
  cookies : b.cookies.Perm (h.books.cookies ++ lost)

/-- At most one descriptor is open. -/
def OneDescriptor (b : Ledger) : Prop := b.descriptors.length ≤ 1

/-- The books of a holding and of lost cookies have one descriptor at most. -/
theorem Outstanding.oneDescriptor {h : Holding} {lost : List Cookie} {b : Ledger}
    (hb : Outstanding h lost b) : OneDescriptor b := by
  rw [OneDescriptor, hb.descriptors]
  exact h.disciplined.2.1

variable {h k : Holding} {lost : List Cookie} {b : Ledger}

/-- An effect that is sent. -/
theorem outstanding_step {e : Effect} (hs : protocol.step h e = some k)
    (hb : Outstanding h lost b) : ∃ c, ledger.step b e = some c ∧ Outstanding k lost c := by
  obtain ⟨descriptors, cookies⟩ := b
  obtain ⟨hdescriptors, hcookies⟩ := hb
  simp only at hdescriptors hcookies
  subst hdescriptors
  have hledger := protocol_step_ledger hs
  cases e with
  | inhibit answer =>
      simp only [ledger, Option.some.injEq] at hledger
      refine ⟨_, rfl, ?_, ?_⟩
      · rw [← hledger]
      · rw [← hledger]
        exact hcookies
  | close fd =>
      simp only [ledger, Option.ite_none_right_eq_some, Option.some.injEq] at hledger
      obtain ⟨hmem, hbooks⟩ := hledger
      refine ⟨_, if_pos hmem, ?_, ?_⟩
      · rw [← hbooks]
      · rw [← hbooks]
        exact hcookies
  | screenInhibit answer =>
      simp only [ledger, Option.some.injEq] at hledger
      refine ⟨_, rfl, ?_, ?_⟩
      · rw [← hledger]
      · rw [← hledger, List.append_assoc]
        exact hcookies.append_left _
  | unInhibit cookie =>
      simp only [ledger, Option.ite_none_right_eq_some, Option.some.injEq] at hledger
      obtain ⟨hmem, hbooks⟩ := hledger
      have hmem' : cookie ∈ cookies := hcookies.symm.subset (List.mem_append_left _ hmem)
      refine ⟨_, if_pos hmem', ?_, ?_⟩
      · rw [← hbooks]
      · rw [← hbooks, ← List.erase_append_left _ hmem]
        exact hcookies.erase cookie

/-- And one that is not: its cookie is lost. -/
theorem outstanding_lost {cookie : Cookie} (hs : protocol.step h (.unInhibit cookie) = some k)
    (hb : Outstanding h lost b) : Outstanding k (cookie :: lost) b := by
  have hledger := protocol_step_ledger hs
  simp only [ledger, Option.ite_none_right_eq_some, Option.some.injEq] at hledger
  obtain ⟨hmem, hbooks⟩ := hledger
  refine ⟨?_, ?_⟩
  · rw [← hbooks]
    exact hb.descriptors
  · rw [← hbooks]
    refine hb.cookies.trans (List.Perm.trans ?_ List.perm_middle.symm)
    exact (List.perm_cons_erase hmem).append_right lost

/-- **Effects that follow the protocol, some of them not sent.** -/
theorem protocol_run_sent (saver : Bool) {l : List Effect} (hr : protocol.run h l = some k)
    (hb : Outstanding h lost b) :
    ∃ c, ledger.run b (sentOf saver l) = some c ∧
      ledger.Everywhere OneDescriptor b (sentOf saver l) ∧
      ∃ lost', lost'.Perm (lostOf saver l ++ lost) ∧ Outstanding k lost' c := by
  induction l generalizing h lost b with
  | nil =>
      simp only [Machine.run_nil, Option.some.injEq] at hr
      subst hr
      refine ⟨b, rfl, hb.oneDescriptor, lost, ?_, hb⟩
      cases saver <;> exact List.Perm.refl _
  | cons e l ih =>
      obtain ⟨m, hm, hrest⟩ := Machine.run_cons_eq_some.mp hr
      by_cases hsent : (saver || (handedBack e).isNone) = true
      · -- it is sent, and nothing is lost
        obtain ⟨c, hc, hmc⟩ := outstanding_step hm hb
        obtain ⟨d, hd, hall, lost', hlost, hkd⟩ := ih hrest hmc
        have hfilter : sentOf saver (e :: l) = e :: sentOf saver l := by
          simp only [sentOf, List.filter_cons, hsent, if_true]
        have hsame : lostOf saver (e :: l) = lostOf saver l := by
          cases saver with
          | true => rfl
          | false =>
              have hnone : handedBack e = none := by simpa using hsent
              simp [lostOf, hnone]
        rw [hfilter, hsame]
        refine ⟨d, Machine.run_cons_eq_some.mpr ⟨c, hc, hd⟩, ⟨hb.oneDescriptor, ?_⟩, lost', hlost,
          hkd⟩
        intro t ht
        rw [hc, Option.some.injEq] at ht
        exact ht ▸ hall
      · cases saver with
        | true => simp at hsent
        | false =>
            cases e with
            | unInhibit cookie =>
                obtain ⟨d, hd, hall, lost', hlost, hkd⟩ := ih hrest (outstanding_lost hm hb)
                exact ⟨d, hd, hall, lost', hlost.trans List.perm_middle, hkd⟩
            | _ => simp [handedBack] at hsent

/-! ## Runs -/

/-- The cookies of the locks that the call gives up without a word to the service. -/
def unsent (s : SleepBlock) (call : Call) : List Cookie :=
  lostOf call.answers.saver (perform ⟨call.op, reachable call.answers⟩ s).effects

/-- One call, from the books of what is stored and of what has been lost. -/
theorem effectsOf_lost (s : SleepBlock) (call : Call)
    (hh : holdingOf s.inner.data = some h) (hb : Outstanding h lost b) :
    ∃ c, ledger.run b (effectsOf s call) = some c ∧
      ledger.Everywhere OneDescriptor b (effectsOf s call) ∧
      ∃ k lost', holdingOf (perform call s).state.inner.data = some k ∧
        lost'.Perm (unsent s call ++ lost) ∧ Outstanding k lost' c := by
  obtain ⟨heffects, hstate⟩ := body_sent call.op call.answers s.inner.data
  have hsaver : (reachable call.answers).saver = true := rfl
  obtain ⟨k, hk, hhold⟩ := body_follows hsaver call.op _ h hh
  obtain ⟨c, hc, hall, lost', hlost, hkc⟩ := protocol_run_sent call.answers.saver hk hb
  rw [← heffects] at hc hall
  refine ⟨c, ?_, ?_, k, lost', ?_, ?_, hkc⟩
  · rwa [effectsOf, (perform_eq call s).1]
  · rwa [effectsOf, (perform_eq call s).1]
  · rwa [(perform_eq call s).2.1, hstate]
  · rwa [unsent, (perform_eq ⟨call.op, reachable call.answers⟩ s).1]

/-- **What a ScreenSaver that cannot be reached leaves outstanding.** Take any calls on clones of
one `SleepBlock`, with acquires that succeed, fail or panic, and with `Drop` reaching the
ScreenSaver or not. The services accept every effect; at no time is more than one descriptor
outstanding, and between calls it is the stored one; and the outstanding cookies are the stored
one and those of the locks that were given up while the ScreenSaver could not be reached, each
as often as that happened.
SOURCE: inhibit.rs:68-98, state.rs:65-135 -/
theorem lost_cookies (history : List Call) :
    ∃ s books, calls.run .new history = some s ∧
      ledger.run {} (calls.emitted effectsOf .new history) = some books ∧
      ledger.Everywhere OneDescriptor {} (calls.emitted effectsOf .new history) ∧
      books.descriptors = (storedBooks s.inner.data).descriptors ∧
      books.cookies.Perm
        ((storedBooks s.inner.data).cookies ++ calls.emitted unsent .new history) := by
  have hall : ∀ (history : List Call) (s : SleepBlock) (h : Holding) (lost : List Cookie)
      (b : Ledger), holdingOf s.inner.data = some h → Outstanding h lost b →
      ∃ t books k lost', calls.run s history = some t ∧
        ledger.run b (calls.emitted effectsOf s history) = some books ∧
        ledger.Everywhere OneDescriptor b (calls.emitted effectsOf s history) ∧
        holdingOf t.inner.data = some k ∧ Outstanding k lost' books ∧
        lost'.Perm (calls.emitted unsent s history ++ lost) := by
    intro history
    induction history with
    | nil => exact fun s h lost b hh hb =>
        ⟨s, b, h, lost, rfl, rfl, hb.oneDescriptor, hh, hb, List.Perm.refl _⟩
    | cons call history ih =>
        intro s h lost b hh hb
        obtain ⟨c, hc, hfirst, k, more, hk, hmore, hkc⟩ := effectsOf_lost s call hh hb
        obtain ⟨t, books, m, lost', ht, hbooks, hrest, hm, hmb, hlost⟩ := ih _ k more c hk hkc
        have hs : calls.step s call = some (perform call s).state := rfl
        refine ⟨t, books, m, lost', ht, ?_, ?_, hm, hmb, ?_⟩
        · rw [Machine.emitted_cons hs]
          exact Machine.run_append_eq_some.mpr ⟨c, hc, hbooks⟩
        · rw [Machine.emitted_cons hs]
          exact (Machine.everywhere_append hc).mpr ⟨hfirst, hrest⟩
        · rw [Machine.emitted_cons hs]
          refine hlost.trans ((hmore.append_left _).trans ?_)
          rw [← List.append_assoc]
          exact List.perm_append_comm.append_right lost
  obtain ⟨s, books, h, lost, hs, hbooks, hone, hh, hb, hlost⟩ :=
    hall history .new .nothing [] {} rfl ⟨rfl, List.Perm.refl _⟩
  have hstored := holdingOf_books hh
  rw [List.append_nil] at hlost
  refine ⟨s, books, hs, hbooks, hone, ?_, ?_⟩
  · rw [← hstored]
    exact hb.descriptors
  · rw [← hstored]
    exact hb.cookies.trans (hlost.append_left _)

end SleepBlocker.Analysis
