import SleepBlocker.Interface.DaemonSteps
import SleepBlocker.Model.WindowCalls

/-!
# Announced before it is answered

A handler replies when it has nothing left to announce. So by the time a caller has the reply
to `Toggle` or `SetKeepScreenAwake`, all four properties have been sent since the call was
applied, in the order of `announce`, and each with a value that it has had since then. The
history that says this is kept by handler: what its call was, and what has happened since.
-/

set_option autoImplicit false

namespace SleepBlocker.Analysis

open SleepBlocker.Computation SleepBlocker.Model

/-- A handler's call into `SleepBlock`, and what has happened since. -/
structure Answering where
  request : Request
  result : Option (Except Error Status)
  /-- How many signals the daemon had sent before. -/
  mark : ℕ
  /-- The signals that this handler has sent. -/
  sent : List (Property × Bool) := []
  /-- The statuses there have been, oldest first. -/
  since : List Status := []

/-- The properties that a request's handler announces. -/
def announcedFor : Request → List Property
  | .toggle | .setKeepScreenAwake _ =>
    [.sleepBlocked, .screenBlocked, .keepScreenAwake, .keepRunningInTray]
  | .setKeepRunningInTray _ => [.keepRunningInTray]
  | .quit => []

/-- What handler `h` sends in this step. -/
def sentBy (d : Daemon) (h : ℕ) : Daemon.Label → List (Property × Bool)
  | .sendSignal k =>
    match d.handlers k with
    | .sending p value _ _ => if k = h then [(p, value)] else []
    | _ => []
  | _ => []

/-- The call of handler `h` in this step. -/
def answeringFrom (d : Daemon) (h : ℕ) : Daemon.Label → Option Answering
  | .handle k ans =>
    match d.handlers k with
    | .received request =>
      if k = h then
        some ⟨request, (perform ⟨request.op, ans⟩ d.state).value.getD none, d.signals.length,
          [], []⟩
      else none
    | _ => none
  | _ => none

/-- The call goes on: what its handler has sent now, and the status there is. -/
def Answering.goOn (y : Answering) (d : Daemon) (h : ℕ) (a : Daemon.Label) : Answering :=
  { y with sent := y.sent ++ sentBy d h a, since := y.since ++ [d.state.snapshot] }

/-- What is known of the handlers' calls after a step. -/
def answering (g : ℕ → Option Answering) (d : Daemon) (a : Daemon.Label) : ℕ → Option Answering :=
  fun h => (answeringFrom d h a).or ((g h).map fun y => y.goOn d h a)

/-- The daemon with what is known of its handlers' calls. -/
def answers : Machine (Daemon × (ℕ → Option Answering)) Daemon.Label := daemon.monitor answering

/-- What the handler has sent was sent in that order since its call, and each value was the
property's at some instant since. -/
structure SentSince (d : Daemon) (y : Answering) : Prop where
  mark : y.mark ≤ d.signals.length
  order : y.sent.Sublist (d.signals.drop y.mark)
  current : ∀ p value, (p, value) ∈ y.sent → ∃ s ∈ y.since, s.get p = value

/-- Handler `h` has announced what is not before it any more. -/
def Announcing (g : ℕ → Option Answering) (h : ℕ) : Handler → Prop
  | .idle | .received _ => True
  | .announcing todo r => ∃ y, g h = some y ∧ r = y.request.reply y.result ∧
      y.sent.map Prod.fst ++ todo = announcedFor y.request
  | .sending p value todo r => ∃ y, g h = some y ∧ r = y.request.reply y.result ∧
      y.sent.map Prod.fst ++ p :: todo = announcedFor y.request ∧ ∃ s ∈ y.since, s.get p = value
  | .notifying => ∃ y, g h = some y ∧ y.request = .quit ∧ y.sent = []

/-- The invariant. -/
structure InOrder (x : Daemon × (ℕ → Option Answering)) : Prop where
  handlers : ∀ h, Announcing x.2 h (x.1.handlers h)
  told : ∀ h y, x.2 h = some y → SentSince x.1 y

/-- The handler that replies in this step has announced everything, and its reply is that of
its own call. -/
def RepliesLast (x : Daemon × (ℕ → Option Answering)) (a : Daemon.Label) : Prop :=
  ∀ h, a = .reply h → ∃ y, x.2 h = some y ∧
    x.1.handlers h = .announcing [] (y.request.reply y.result) ∧
    y.sent.map Prod.fst = announcedFor y.request ∧ SentSince x.1 y

/-! ## One step -/

variable {d t : Daemon} {g : ℕ → Option Answering} {a : Daemon.Label} {h : ℕ} {y : Answering}

/-- The signals of a step, if it is a handler's that sends. -/
theorem signals_of_step (hs : d.step a = some t) :
    ∃ more, t.signals = d.signals ++ more ∧ ∀ h, sentBy d h a = [] ∨ sentBy d h a = more := by
  cases a with
  | sendSignal k =>
      obtain ⟨p, value, todo, r, hk, -, rfl⟩ := Daemon.sendSignal_eq_some.mp hs
      refine ⟨[(p, value)], rfl, fun h => ?_⟩
      simp only [sentBy, hk]
      by_cases hkh : k = h
      · exact Or.inr (if_pos hkh)
      · exact Or.inl (if_neg hkh)
  | _ =>
      refine ⟨[], ?_, fun h => Or.inl rfl⟩
      rw [List.append_nil]
      exact (Daemon.frame_of_step hs).2 (by simp)

/-- A call that has been made goes on with the step. -/
theorem sentSince_goOn (hs : d.step a = some t) (hy : SentSince d y)
    (hcurrent : ∀ p value, (p, value) ∈ sentBy d h a → ∃ s ∈ y.since, s.get p = value) :
    SentSince t (y.goOn d h a) := by
  obtain ⟨more, hmore, hsent⟩ := signals_of_step hs
  constructor
  case mark =>
    rw [hmore, List.length_append]
    exact Nat.le_trans hy.mark (Nat.le_add_right _ _)
  case order =>
    show (y.sent ++ sentBy d h a).Sublist (t.signals.drop y.mark)
    rw [hmore, List.drop_append_of_le_length hy.mark]
    apply hy.order.append
    rcases hsent h with hnone | hmore
    · rw [hnone]
      exact List.nil_sublist _
    · rw [hmore]
  case current =>
    intro p value hp
    have hsince : ∃ s ∈ y.since, s.get p = value := by
      rcases List.mem_append.mp hp with hp | hp
      · exact hy.current p value hp
      · exact hcurrent p value hp
    obtain ⟨s, hs, hvalue⟩ := hsince
    exact ⟨s, List.mem_append_left _ hs, hvalue⟩

/-- A step of another handler, or of none. -/
theorem answering_of_ne (hh : a.handler ≠ some h) :
    answering g d a h = (g h).map fun y => { y with since := y.since ++ [d.state.snapshot] } := by
  have hnone : answeringFrom d h a = none ∧ sentBy d h a = [] := by
    cases a <;> simp only [Daemon.Label.handler, ne_eq, Option.some.injEq, reduceCtorEq,
      not_false_eq_true] at hh
    case handle k ans =>
      refine ⟨?_, rfl⟩
      simp only [answeringFrom]
      split
      · exact if_neg hh
      · rfl
    case sendSignal k =>
      refine ⟨rfl, ?_⟩
      simp only [sentBy]
      split
      · exact if_neg hh
      · rfl
    all_goals exact ⟨rfl, rfl⟩
  simp only [answering, hnone.1, Option.none_or, Answering.goOn, hnone.2, List.append_nil]

/-- More statuses take nothing away. -/
theorem announcing_mono {x : Handler} (hx : Announcing g h x) {g' : ℕ → Option Answering}
    (hg : ∀ y, g h = some y → ∃ more, g' h = some { y with since := y.since ++ more }) :
    Announcing g' h x := by
  cases x with
  | idle | received => trivial
  | announcing todo r =>
      obtain ⟨y, hy, hreply, hsent⟩ := hx
      obtain ⟨more, hmore⟩ := hg y hy
      exact ⟨_, hmore, hreply, hsent⟩
  | sending p value todo r =>
      obtain ⟨y, hy, hreply, hsent, s, hs, hvalue⟩ := hx
      obtain ⟨more, hmore⟩ := hg y hy
      exact ⟨_, hmore, hreply, hsent, s, List.mem_append_left _ hs, hvalue⟩
  | notifying =>
      obtain ⟨y, hy, hquit, hsent⟩ := hx
      obtain ⟨more, hmore⟩ := hg y hy
      exact ⟨_, hmore, hquit, hsent⟩

/-- The handler whose step it is. -/
theorem announcing_of_own (hs : d.step a = some t) (hh : a.handler = some h)
    (hx : Announcing g h (d.handlers h)) : Announcing (answering g d a) h (t.handlers h) := by
  cases a <;> simp only [Daemon.Label.handler, Option.some.injEq, reduceCtorEq] at hh <;> subst hh
  case receive k request =>
    simp only [Daemon.step, Option.ite_none_right_eq_some, Option.some.injEq] at hs
    obtain ⟨-, rfl⟩ := hs
    simp only [Daemon.setHandler, Function.update_self]
    trivial
  case handle k ans =>
    obtain ⟨request, hk, -, -, rfl⟩ := Daemon.handle_eq_some.mp hs
    have hanswering : answering g d (.handle k ans) k = some ⟨request,
        (perform ⟨request.op, ans⟩ d.state).value.getD none, d.signals.length, [], []⟩ := by
      simp [answering, answeringFrom, hk]
    simp only [Daemon.setHandler, Function.update_self]
    cases request <;> exact ⟨_, hanswering, rfl, rfl⟩
  case readProperty k =>
    obtain ⟨p, todo, r, hk, -, rfl⟩ := Daemon.readProperty_eq_some.mp hs
    rw [hk] at hx
    obtain ⟨y, hy, hreply, hsent⟩ := hx
    simp only [Daemon.setHandler, Function.update_self]
    refine ⟨y.goOn d k (.readProperty k), by simp [answering, answeringFrom, hy], hreply, ?_,
      d.state.snapshot, by simp [Answering.goOn], rfl⟩
    simpa [Answering.goOn, sentBy] using hsent
  case sendSignal k =>
    obtain ⟨p, value, todo, r, hk, -, rfl⟩ := Daemon.sendSignal_eq_some.mp hs
    rw [hk] at hx
    obtain ⟨y, hy, hreply, hsent, -⟩ := hx
    simp only [Daemon.setHandler, Function.update_self]
    refine ⟨y.goOn d k (.sendSignal k), by simp [answering, answeringFrom, hy], hreply, ?_⟩
    simpa [Answering.goOn, sentBy, hk] using hsent
  case notify k =>
    obtain ⟨hk, -, rfl⟩ := Daemon.notify_eq_some.mp hs
    rw [hk] at hx
    obtain ⟨y, hy, hquit, hsent⟩ := hx
    simp only [Daemon.setHandler, Function.update_self]
    refine ⟨y.goOn d k (.notify k), by simp [answering, answeringFrom, hy], ?_, ?_⟩
    · simp [Answering.goOn, hquit, Request.reply, Request.after]
    · simp [Answering.goOn, hquit, hsent, sentBy, announcedFor]
  case reply k =>
    obtain ⟨r, -, -, rfl⟩ := Daemon.reply_eq_some.mp hs
    simp only [Daemon.setHandler, Function.update_self]
    trivial

/-- A step keeps what is known of what a handler has sent. -/
theorem sentSince_step (hs : d.step a = some t) (hx : InOrder (d, g))
    (hy : answering g d a h = some y) : SentSince t y := by
  rcases Option.or_eq_some_iff.mp hy with hfrom | ⟨-, hon⟩
  · -- the call is made in this step
    obtain ⟨more, hmore, -⟩ := signals_of_step hs
    cases a <;> simp only [answeringFrom, reduceCtorEq] at hfrom
    case handle k ans =>
      split at hfrom
      · simp only [Option.ite_none_right_eq_some, Option.some.injEq] at hfrom
        obtain ⟨-, rfl⟩ := hfrom
        refine ⟨?_, List.nil_sublist _, fun p value hp => absurd hp List.not_mem_nil⟩
        rw [hmore, List.length_append]
        exact Nat.le_add_right _ _
      · cases hfrom
  · obtain ⟨y', hy', rfl⟩ := Option.map_eq_some_iff.mp hon
    apply sentSince_goOn hs (hx.told h y' hy')
    intro p value hp
    cases a <;> simp only [sentBy, List.not_mem_nil] at hp
    case sendSignal k =>
      -- the value was read after the call
      split at hp
      · rename_i q v todo r hk
        split at hp
        · rename_i hkh
          subst hkh
          have hsending := hx.handlers k
          simp only [hk] at hsending
          obtain ⟨y, hy, -, -, hvalue⟩ := hsending
          simp only [List.mem_singleton, Prod.mk.injEq] at hp
          obtain ⟨rfl, rfl⟩ := hp
          obtain rfl : y = y' := Option.some.inj (hy.symm.trans hy')
          exact hvalue
        · cases hp
      · cases hp

/-- Every step keeps the announcements in order. -/
theorem inOrder_step (x : Daemon × (ℕ → Option Answering)) (a : Daemon.Label)
    (x' : Daemon × (ℕ → Option Answering)) (hs : answers.step x a = some x') (hx : InOrder x) :
    InOrder x' := by
  obtain ⟨hd, hg⟩ := Machine.monitor_step_eq_some.mp hs
  obtain ⟨d, g⟩ := x
  obtain ⟨t, g'⟩ := x'
  simp only at hg
  subst hg
  refine ⟨fun h => ?_, fun h y hy => sentSince_step hd hx hy⟩
  by_cases hown : a.handler = some h
  · exact announcing_of_own hd hown (hx.handlers h)
  · have hsame : t.handlers h = d.handlers h := (Daemon.frame_of_step hd).1 h hown
    simp only [hsame]
    apply announcing_mono (hx.handlers h)
    intro y (hy : g h = some y)
    exact ⟨[d.state.snapshot], by simp only [answering_of_ne hown, hy, Option.map_some]⟩

/-! ## Runs -/

/-- **Announced before it is answered.** Take any interleaving of the D-Bus handlers with the
tray and the main thread. A reply is that of the handler's own call, and before it all the
properties that its request may move have been sent since that call, in the order of `announce`,
each with a value that the daemon has had at some instant since.
SOURCE: sleep-blockd.rs:43-76, sleep-blockd.rs:106-136 -/
theorem announced_before_reply {run : List Daemon.Label} {d : Daemon}
    (hr : daemon.run {} run = some d) : answers.Along RepliesLast ({}, fun _ => none) run := by
  have hrun := Machine.run_monitor (M := daemon) answering {} (fun _ => none) run
  rw [hr, Option.map_eq_some_iff] at hrun
  obtain ⟨x, hx, -⟩ := hrun
  refine Machine.along_of_run inOrder_step ?_ hx ⟨fun _ => trivial, fun _ _ hy => by cases hy⟩
  rintro ⟨d, g⟩ a y hs hinv h rfl
  obtain ⟨hd, -⟩ := Machine.monitor_step_eq_some.mp hs
  obtain ⟨r, hh, -⟩ := Daemon.reply_eq_some.mp hd
  have hannounced := hinv.handlers h
  simp only at hh
  simp only [hh] at hannounced
  obtain ⟨y, hy, rfl, hsent⟩ := hannounced
  rw [List.append_nil] at hsent
  exact ⟨y, hy, hh, hsent, hinv.told h y hy⟩

/-- A toggle, whose announcements another one overtakes. -/
def overlapping : List Daemon.Label :=
  [.startTray false, .serve true, .receive 0 .toggle, .receive 1 .toggle,
    .handle 0 ⟨.granted 7, .refused "", true⟩, .readProperty 0,
    .handle 1 ⟨.refused "", .refused "", true⟩, .sendSignal 0, .readProperty 0, .sendSignal 0,
    .readProperty 0, .sendSignal 0, .readProperty 0, .sendSignal 0, .reply 0]

/-- A run in which the announcements of two handlers overlap keeps the replies last. -/
theorem announced_before_reply_overlapping :
    (∃ d, daemon.run {} overlapping = some d ∧ d.replies = [(0, .locks true false)]) ∧
      answers.Along RepliesLast ({}, fun _ => none) overlapping :=
  ⟨⟨_, rfl, rfl⟩, announced_before_reply rfl⟩

end SleepBlocker.Analysis
