import SleepBlocker.Analysis.StatusHistory
import SleepBlocker.Computation.Sampling
import SleepBlocker.Interface.DaemonSteps
import SleepBlocker.Model.Client

/-!
# When a status read in four parts is a state of the daemon

`read_status` samples the four properties one after the other, so what it returns is a
snapshot of the daemon only if the changes between the reads allow it. They do if they keep to
the order of the reads: once a property that has been read changes, none changes that is still
to be read (`read_status_whole`). Unless changes undo each other they do in no other case.
-/

set_option autoImplicit false

namespace SleepBlocker.Analysis

open SleepBlocker.Computation SleepBlocker.Model

/-- The status after a step of the daemon. -/
def statusAfter (d : Daemon) (l : Daemon.Label) : Status :=
  ((d.callOf l).elim d.state fun call => (perform call d.state).state).snapshot

/-- What happened since the first read of the call: every status the daemon has had, and when
each property was read. -/
abbrev ReadHistory := Sampling Status Property

/-- Follows a call of `read_status`; a call that fails is forgotten. -/
def followReads (g : Option ReadHistory) (x : Reader) : Reader.Label → Option ReadHistory
  | .read true =>
    if x.reading.underWay then g.map fun h => h.sample x.reading.next
    else some ((Sampling.start x.daemon.state.snapshot).sample .sleepBlocked)
  | .read false => none
  | .daemon l => if x.reading.underWay then g.map fun h => h.change (statusAfter x.daemon l) else g

/-- A daemon and a window that reads from it, with what happened in the call under way. -/
def sampledReads : Machine (Reader × Option ReadHistory) Reader.Label :=
  reads.monitor followReads

/-- A status that has been returned is one the daemon had between the first read and the
last, and does not show the screen blocked while sleep is not. -/
def Whole (x : Reader × Option ReadHistory) : Prop :=
  ∀ s, x.1.reading = .returned (some s) →
    (∃ h i, x.2 = some h ∧ i ≤ h.now ∧ h.record i = s) ∧
      (s.screenBlocked = true → s.sleepBlocked = true)

/-- In a call that has returned a status, no property that was still to be read changed when,
or after, one that had been read did. -/
def InReadOrder (x : Reader × Option ReadHistory) : Prop :=
  ∀ s h, x.1.reading = .returned (some s) → x.2 = some h → h.InOrder Status.get

/-- In a call that has returned a status, no property changed twice. -/
def ChangesOnce (x : Reader × Option ReadHistory) : Prop :=
  ∀ s h, x.1.reading = .returned (some s) → x.2 = some h → h.ChangesOnce Status.get

/-- The value read of a property, if it has been read. -/
def readValue : Reading → Property → Option Bool
  | .sleep a, .sleepBlocked => some a
  | .screen a _, .sleepBlocked => some a
  | .screen _ b, .screenBlocked => some b
  | .keep a _ _, .sleepBlocked => some a
  | .keep _ b _, .screenBlocked => some b
  | .keep _ _ c, .keepScreenAwake => some c
  | .returned (some s), p => some (s.get p)
  | _, _ => none

/-- The screen is blocked only while sleep is. -/
def Documented (s : Status) : Prop := s.screenBlocked = true → s.sleepBlocked = true

/-- The history `h` is that of the reading `r` of a daemon with status `now`. -/
structure Follows (r : Reading) (now : Status) (h : ReadHistory) : Prop where
  now : r.underWay = true → h.record h.now = now
  documented : ∀ i ≤ h.now, Documented (h.record i)
  result : ∀ p v, readValue r p = some v → h.result Status.get p = v

/-- The invariant: the daemon is settled, and a call under way or returned is followed. -/
def ReadsFollowed (x : Reader × Option ReadHistory) : Prop :=
  Settled x.1.daemon.state.inner.data ∧
    ((x.1.reading.underWay = true ∨ ∃ s, x.1.reading = .returned (some s)) →
      ∃ h, x.2 = some h ∧ Follows x.1.reading x.1.daemon.state.snapshot h)

/-! ## The statuses of a settled daemon -/

/-- A status is what its properties are. -/
theorem status_ext {s t : Status} (h : s.get = t.get) : s = t := by
  have hget : ∀ p, s.get p = t.get p := fun p => congrFun h p
  have h1 := hget .sleepBlocked
  have h2 := hget .screenBlocked
  have h3 := hget .keepScreenAwake
  have h4 := hget .keepRunningInTray
  cases s
  cases t
  simp only [Status.get] at h1 h2 h3 h4
  subst h1 h2 h3 h4
  rfl

/-- `Status` documents the screen as blocked only while sleep is; a settled state agrees. -/
theorem documented_of_settled {s : SleepBlock} (h : Settled s.inner.data) :
    Documented s.snapshot := by
  intro hscreen
  rw [SleepBlock.snapshot_eq, statusOf] at hscreen ⊢
  simp only at hscreen ⊢
  rw [h, Bool.and_eq_true] at hscreen
  exact hscreen.1

/-- The daemon stays settled, and `statusAfter` is the status after the step. -/
theorem settled_step {d t : Daemon} {l : Daemon.Label} (hs : d.step l = some t)
    (hd : Settled d.state.inner.data) :
    Settled t.state.inner.data ∧ t.state.snapshot = statusAfter d l := by
  rcases Daemon.step_cases hs with ⟨call, hc, hstate, -, -, hcalm⟩ | ⟨hc, hstate⟩
  · obtain ⟨-, hdata, -⟩ := perform_eq call d.state
    constructor
    · rw [hstate, hdata]
      exact (body_moves call.op hcalm hd).settled
    · rw [hstate, statusAfter, hc, Option.elim_some]
  · constructor
    · rw [hstate]
      exact hd
    · rw [hstate, statusAfter, hc, Option.elim_none]

/-! ## Following a call -/

/-- A read adds its property to those that were read. -/
theorem readValue_take {r : Reading} (hr : r.underWay = true) (v : Bool) (p : Property) :
    readValue (r.take (some v)) p = if p = r.next then some v else readValue r p := by
  cases r with
  | idle | returned status => cases hr
  | sleep | screen | keep => cases p <;> rfl

/-- The first read of a call. -/
theorem follows_start {r : Reading} {now : Status} (hr : r.underWay = false)
    (hnow : Documented now) :
    Follows (r.take (some (now.get r.next))) now ((Sampling.start now).sample .sleepBlocked) := by
  have htake : r.take (some (now.get r.next)) = .sleep now.sleepBlocked := by
    cases r with
    | idle | returned status => rfl
    | sleep | screen | keep => cases hr
  rw [htake]
  refine ⟨fun _ => rfl, fun _ _ => hnow, fun p v hv => ?_⟩
  cases p <;> simp only [readValue, reduceCtorEq, Option.some.injEq] at hv
  exact hv

/-- Another read. -/
theorem follows_read {r : Reading} {now : Status} {h : ReadHistory} (hr : r.underWay = true)
    (hf : Follows r now h) :
    Follows (r.take (some (now.get r.next))) now (h.sample r.next) := by
  refine ⟨fun _ => hf.now hr, hf.documented, fun p v hv => ?_⟩
  rw [readValue_take hr] at hv
  by_cases hnext : p = r.next
  · subst hnext
    rw [if_pos rfl, Option.some.injEq] at hv
    simp only [Sampling.result, Sampling.sample, Function.update_self]
    rw [hf.now hr, hv]
  · rw [if_neg hnext] at hv
    simp only [Sampling.result, Sampling.sample, Function.update_of_ne hnext]
    exact hf.result p v hv

/-- A step of the daemon between two reads. -/
theorem follows_change {r : Reading} {now after : Status} {h : ReadHistory}
    (hf : Follows r now h) (hafter : Documented after) : Follows r after (h.change after) := by
  refine ⟨fun _ => Function.update_self .., fun i hi => ?_, fun p v hv => ?_⟩
  · rcases Nat.lt_or_ge h.now i with hlt | hle
    · obtain rfl : i = h.now + 1 := Nat.le_antisymm hi hlt
      simpa only [Sampling.change, Function.update_self] using hafter
    · rw [Sampling.record_change hle]
      exact hf.documented i hle
  · have hsame := Sampling.record_change (h.sampledAt_le p) after
    exact (congrArg (Status.get · p) hsame).trans (hf.result p v hv)

/-- Every step keeps the invariant. -/
theorem readsFollowed_step (x : Reader × Option ReadHistory) (a : Reader.Label)
    (y : Reader × Option ReadHistory) (hs : sampledReads.step x a = some y)
    (hx : ReadsFollowed x) : ReadsFollowed y := by
  obtain ⟨hstep, hy⟩ := Machine.monitor_step_eq_some.mp hs
  obtain ⟨x, g⟩ := x
  obtain ⟨y, g'⟩ := y
  simp only [reads] at hstep hy
  subst hy
  obtain ⟨hsettled, hfollow⟩ := hx
  cases a with
  | daemon l =>
      simp only [Reader.step, Option.map_eq_some_iff] at hstep
      obtain ⟨d, hd, rfl⟩ := hstep
      obtain ⟨hsettled', hstatus⟩ := settled_step hd hsettled
      refine ⟨hsettled', fun hr => ?_⟩
      obtain ⟨h, hg, hf⟩ := hfollow hr
      simp only at hg hf hr ⊢
      subst hg
      cases hway : x.reading.underWay with
      | true =>
          refine ⟨_, by simp only [followReads, hway, if_true, Option.map_some]; rfl, ?_⟩
          rw [hstatus]
          apply follows_change hf
          rw [← hstatus]
          exact documented_of_settled hsettled'
      | false =>
          refine ⟨h, by simp [followReads, hway], ?_⟩
          -- the call has returned: every property has been read
          obtain ⟨s, hret⟩ : ∃ s, x.reading = .returned (some s) := by
            rcases hr with hr | hr
            · rw [hway] at hr
              cases hr
            · exact hr
          rw [hret] at hf ⊢
          exact ⟨fun hu => (by cases hu), hf.documented, hf.result⟩
  | read ok =>
      cases ok with
      | false =>
          simp only [Reader.step, Option.some.injEq] at hstep
          subst hstep
          refine ⟨hsettled, fun hr => ?_⟩
          rcases hr with hr | ⟨s, hr⟩
          · cases hr
          · cases hr
      | true =>
          simp only [Reader.step, Option.ite_none_right_eq_some, Option.some.injEq] at hstep
          obtain ⟨-, rfl⟩ := hstep
          refine ⟨hsettled, fun _ => ?_⟩
          cases hway : x.reading.underWay with
          | true =>
              obtain ⟨h, hg, hf⟩ := hfollow (Or.inl hway)
              simp only at hg hf
              subst hg
              refine ⟨_, by simp only [followReads, hway, if_true, Option.map_some]; rfl, ?_⟩
              exact follows_read hway hf
          | false =>
              refine ⟨_, by simp only [followReads, hway]; rfl, ?_⟩
              exact follows_start hway (documented_of_settled hsettled)

/-- A call that is followed returned a status of the daemon if its samples are whole. -/
theorem whole_iff_sampling {x : Reader × Option ReadHistory} (hx : ReadsFollowed x) :
    Whole x ↔ ∀ s h, x.1.reading = .returned (some s) → x.2 = some h → h.Whole Status.get := by
  have hresult : ∀ s, x.1.reading = .returned (some s) →
      ∃ h, x.2 = some h ∧ (∀ i ≤ h.now, Documented (h.record i)) ∧
        ∀ p, h.result Status.get p = s.get p := by
    intro s hr
    obtain ⟨h, hg, hf⟩ := hx.2 (Or.inr ⟨s, hr⟩)
    exact ⟨h, hg, hf.documented, fun p => hf.result p _ (by rw [hr, readValue])⟩
  constructor
  · intro hwhole s h hr hg
    obtain ⟨h', hg', -, hsame⟩ := hresult s hr
    obtain rfl : h' = h := Option.some.inj (hg'.symm.trans hg)
    obtain ⟨⟨h', i, hg', hi, hrecord⟩, -⟩ := hwhole s hr
    obtain rfl : h' = _ := Option.some.inj (hg'.symm.trans hg)
    exact ⟨i, hi, fun p => by rw [hrecord, hsame p]⟩
  · intro hwhole s hr
    obtain ⟨h, hg, hdocumented, hsame⟩ := hresult s hr
    obtain ⟨i, hi, hvalues⟩ := hwhole s h hr hg
    obtain rfl : h.record i = s := status_ext (funext fun p => (hvalues p).trans (hsame p))
    exact ⟨⟨h, i, hg, hi, rfl⟩, hdocumented i hi⟩

/-- Reads in order return a status of the daemon, and unless a property changes twice no others
do. -/
theorem whole_of_inReadOrder {x : Reader × Option ReadHistory} (hx : ReadsFollowed x) :
    (InReadOrder x → Whole x) ∧ (ChangesOnce x → (Whole x ↔ InReadOrder x)) := by
  rw [whole_iff_sampling hx]
  constructor
  · exact fun horder s h hr hg => Sampling.whole_of_inOrder (horder s h hr hg)
  · exact fun honce => forall₄_congr fun s h hr hg => Sampling.whole_iff_inOrder (honce s h hr hg)

/-- **A window reads a state if the changes keep to the order of its reads.** Take any run of a
daemon and a window that reads from it, over any number of calls of `read_status`. If in no
call a property still to be read changes when, or after, one already read does, then every
status returned is one the daemon had between the first read of the call and its last, and
never shows the screen blocked while sleep is not. And in a run in which no property changes
twice during a call, that is so exactly if the changes keep to the order.
SOURCE: client.rs:214-226, sleep-blockd.rs:81-104, state.rs:12-32 -/
theorem read_status_whole (run : List Reader.Label) :
    (sampledReads.Everywhere InReadOrder ({}, none) run →
      sampledReads.Everywhere Whole ({}, none) run) ∧
    (sampledReads.Everywhere ChangesOnce ({}, none) run →
      (sampledReads.Everywhere Whole ({}, none) run ↔
        sampledReads.Everywhere InReadOrder ({}, none) run)) := by
  have hstart : ReadsFollowed ({}, none) := by
    refine ⟨rfl, fun hr => ?_⟩
    rcases hr with hr | ⟨s, hr⟩
    · cases hr
    · cases hr
  have hfollowed := Machine.everywhere_of_step readsFollowed_step run hstart
  simp only [Machine.everywhere_iff_visited] at hfollowed ⊢
  constructor
  · exact fun horder k x hk hx => (whole_of_inReadOrder (hfollowed k x hk hx)).1 (horder k x hk hx)
  · intro honce
    exact forall₄_congr fun k x hk hx =>
      (whole_of_inReadOrder (hfollowed k x hk hx)).2 (honce k x hk hx)

/-- The tray setting changes before it is read, and sleep after it has been. -/
def changedInOrder : List Reader.Label :=
  [.daemon (.startTray true), .daemon (.serve true), .daemon (.requestName .primaryOwner),
    .daemon .runningItemRead, .read true,
    .daemon (.runningItemSet ⟨.refused "", .refused "", true⟩), .read true, .read true,
    .daemon (.activate ⟨.granted 3, .granted 6, true⟩), .read true]

/-- What is read is the status between the two changes. -/
theorem read_status_whole_inOrder :
    ∃ y, sampledReads.run ({}, none) changedInOrder = some y ∧ InReadOrder y ∧
      y.1.reading = .returned (some ⟨false, false, false, true⟩) ∧
      y.1.daemon.state.snapshot = ⟨true, false, false, true⟩ := by
  have hrun : ∃ y h, sampledReads.run ({}, none) changedInOrder = some y ∧ y.2 = some h ∧
      y.1.reading = .returned (some ⟨false, false, false, true⟩) ∧
      y.1.daemon.state.snapshot = ⟨true, false, false, true⟩ ∧ h.now = 2 ∧
      h.record 0 = ⟨false, false, false, false⟩ ∧ h.record 1 = ⟨false, false, false, true⟩ ∧
      h.record 2 = ⟨true, false, false, true⟩ ∧ h.sampledAt .sleepBlocked = 0 ∧
      h.sampledAt .keepRunningInTray = 2 :=
    ⟨_, _, rfl, rfl, rfl, rfl, rfl, rfl, rfl, rfl, rfl, rfl⟩
  obtain ⟨y, h, hr, hg, hreturned, hnow, hlast, hzero, hone, htwo, hsleep, hkeep⟩ := hrun
  refine ⟨y, hr, fun s h' hs hg' => ?_, hreturned, hnow⟩
  obtain rfl : h = h' := Option.some.inj (hg.symm.trans hg')
  have hchanges : ∀ k i, h.Changes Status.get k i →
      i = 0 ∧ k = .keepRunningInTray ∨ i = 1 ∧ k = .sleepBlocked := by
    rintro k i ⟨hi, hne⟩
    rw [hlast] at hi
    have hi : i = 0 ∨ i = 1 := by omega
    rcases hi with rfl | rfl
    · rw [hzero, hone] at hne
      cases k <;> simp_all [Status.get]
    · rw [hone, htwo] at hne
      cases k <;> simp_all [Status.get]
  intro i j k l hij hk hki hl
  rcases hchanges k i hk with ⟨rfl, rfl⟩ | ⟨rfl, rfl⟩
  · rw [hkeep] at hki
    cases hki
  · rcases hchanges l j hl with ⟨rfl, -⟩ | ⟨rfl, rfl⟩
    · cases hij
    · rw [hsleep]
      exact Nat.zero_le _

/-- The tray toggles between the window's first two reads, with the preference set. -/
def toggledWhileRead : List Reader.Label :=
  [.daemon (.startTray true), .daemon (.serve true), .daemon (.requestName .primaryOwner),
    .daemon .screenItemRead, .daemon (.screenItemSet ⟨.granted 3, .granted 6, true⟩),
    .read true, .daemon (.activate ⟨.granted 3, .granted 6, true⟩), .read true, .read true,
    .read true]

/-- The window is shown a blocked screen with sleep allowed. -/
theorem toggledWhileRead_torn :
    ∃ y, sampledReads.run ({}, none) toggledWhileRead = some y ∧
      y.1.reading = .returned (some ⟨false, true, true, false⟩) ∧ ¬ Whole y := by
  refine ⟨_, rfl, rfl, fun h => ?_⟩
  exact absurd ((h ⟨false, true, true, false⟩ rfl).2 rfl) (by decide)

end SleepBlocker.Analysis
