import SleepBlocker.Interface.DaemonSteps
import SleepBlocker.Model.Subscriber

/-!
# When every change is announced

A property value reaches a caching client through a handler that reads it and then sends
it. The invariant is that the client has been told the current value of every property, or
some handler is still going to read it, or is sending it. Two kinds of step can break it:
one that moves a property and announces nothing, which is a tray callback or a Quit, and
one that sends a value that has been overtaken. `changes_announced` says that nothing else
does, and `unannounced_stale` that the announcements under way then do not repair it.
-/

set_option autoImplicit false

namespace SleepBlocker.Analysis

open SleepBlocker.Computation SleepBlocker.Model

/-- The properties a handler has still to read. -/
def todo : Handler → List Property
  | .announcing todo _ | .sending _ _ todo _ => todo
  | _ => []

/-- The value a handler has read and is about to send. -/
def inFlight : Handler → Option (Property × Bool)
  | .sending p v _ _ => some (p, v)
  | _ => none

/-- The handler will send `p` as it is when it reads it, or is sending `p` with value `v`. -/
def Carries (x : Handler) (p : Property) (v : Bool) : Prop :=
  p ∈ todo x ∨ inFlight x = some (p, v)

/-- The value that a property has now. -/
def current (d : Daemon) (p : Property) : Bool := d.state.snapshot.get p

/-- The client has been told `v`, or some handler carries it. -/
def Informed (x : Subscriber) (p : Property) (v : Bool) : Prop :=
  x.replica.told p = v ∨ ∃ h, Carries (x.daemon.handlers h) p v

/-- The client is informed of the current value of every property. -/
def AllInformed (x : Subscriber) : Prop := ∀ p, Informed x p (current x.daemon p)

/-- With nothing in progress and nothing undelivered, the cache is the daemon's state. -/
def UpToDate (x : Subscriber) : Prop :=
  x.Quiescent → ∀ p, x.replica.cache p = current x.daemon p

/-- The properties that the step's own handler goes on to announce. -/
def announces (d : Daemon) : Daemon.Label → List Property
  | .handle h _ =>
    match d.handlers h with
    | .received request => todo (request.after none)
    | _ => []
  | _ => []

/-- The call changes the property. -/
def ChangedBy (call : Call) (d : Daemon) (p : Property) : Prop :=
  (perform call d.state).state.snapshot.get p ≠ current d p

/-- No overtaken value is sent and no change goes unannounced, unless a handler carries the
value that the property has then, or the client has been told it. -/
structure Announced (x : Subscriber) (a : Subscriber.Label) : Prop where
  sent : ∀ h p v rest r, a = .daemon (.sendSignal h) →
    x.daemon.handlers h = .sending p v rest r → v ≠ current x.daemon p →
      p ∈ rest ∨ ∃ k, k ≠ h ∧ Carries (x.daemon.handlers k) p (current x.daemon p)
  moved : ∀ l call p, a = .daemon l → x.daemon.callOf l = some call → ChangedBy call x.daemon p →
    p ∉ announces x.daemon l → Informed x p (!current x.daemon p)

/-! ## The handlers -/

/-- What a handler has to read does not depend on the result of its call. -/
theorem todo_after (result : Option (Except Error Status)) (request : Request) :
    todo (request.after result) = todo (request.after none) := by
  cases request <;> rfl

/-- A handler that has just called has read nothing yet. -/
theorem inFlight_after (result : Option (Except Error Status)) (request : Request) :
    inFlight (request.after result) = none := by
  cases request <;> rfl

/-- A step that sends nothing: its own handler carries what it announces, and else what it
carried before. -/
theorem carries_own {d t : Daemon} {a : Daemon.Label} (hs : d.step a = some t)
    (ha : ∀ h, a ≠ .sendSignal h) {k : ℕ} (hown : a.handler = some k) (p : Property) :
    Carries (t.handlers k) p (current t p) ↔
      p ∈ announces d a ∨ Carries (d.handlers k) p (current t p) := by
  cases a <;> simp only [Daemon.Label.handler, Option.some.injEq, reduceCtorEq] at hown <;>
    subst hown
  case handle h ans =>
    obtain ⟨request, hh, -, -, rfl⟩ := Daemon.handle_eq_some.mp hs
    have hbefore : ∀ v, ¬ Carries (d.handlers h) p v := by
      intro v
      simp [Carries, hh, todo, inFlight]
    rw [or_iff_left (hbefore _)]
    simp only [announces, hh, Daemon.setHandler, Function.update_self, Carries, todo_after,
      inFlight_after, reduceCtorEq, or_false]
  case readProperty h =>
    obtain ⟨q, rest, r, hh, -, rfl⟩ := Daemon.readProperty_eq_some.mp hs
    -- the handler reads `q` and still has the rest to read
    have hsame : current (d.setHandler h (.sending q (d.state.snapshot.get q) rest r)) p =
        d.state.snapshot.get p := rfl
    rw [hsame]
    simp only [Carries, announces, hh, Daemon.setHandler, Function.update_self, todo, inFlight,
      List.mem_cons, Option.some.injEq, Prod.mk.injEq, reduceCtorEq, List.not_mem_nil, false_or,
      or_false]
    constructor
    · rintro (hrest | ⟨rfl, -⟩)
      · exact Or.inr hrest
      · exact Or.inl rfl
    · rintro (rfl | hrest)
      · exact Or.inr ⟨rfl, rfl⟩
      · exact Or.inl hrest
  case sendSignal h => exact absurd rfl (ha h)
  case notify h =>
    obtain ⟨hh, -, rfl⟩ := Daemon.notify_eq_some.mp hs
    simp [Carries, announces, hh, Daemon.setHandler, todo, inFlight]
  case reply h =>
    obtain ⟨r, hh, -, rfl⟩ := Daemon.reply_eq_some.mp hs
    simp [Carries, announces, hh, Daemon.setHandler, todo, inFlight]
  case receive h request =>
    simp only [Daemon.step, Option.ite_none_right_eq_some, Option.some.injEq] at hs
    obtain ⟨⟨-, hh⟩, rfl⟩ := hs
    simp [Carries, announces, hh, Daemon.setHandler, todo, inFlight]

/-- A step that sends nothing: some handler carries a value after it if one did before, or if
the step announces the property. -/
theorem carries_of_silent {d t : Daemon} {a : Daemon.Label} (hs : d.step a = some t)
    (ha : ∀ h, a ≠ .sendSignal h) (p : Property) :
    (∃ k, Carries (t.handlers k) p (current t p)) ↔
      p ∈ announces d a ∨ ∃ k, Carries (d.handlers k) p (current t p) := by
  have hframe := (Daemon.frame_of_step hs).1
  constructor
  · rintro ⟨k, hk⟩
    by_cases hown : a.handler = some k
    · rcases (carries_own hs ha hown p).mp hk with hp | hk
      · exact Or.inl hp
      · exact Or.inr ⟨k, hk⟩
    · rw [hframe k hown] at hk
      exact Or.inr ⟨k, hk⟩
  · rintro (hp | ⟨k, hk⟩)
    · obtain ⟨k, hown⟩ : ∃ k, a.handler = some k := by
        cases a <;> simp [announces, Daemon.Label.handler] at hp ⊢
      exact ⟨k, (carries_own hs ha hown p).mpr (Or.inl hp)⟩
    · refine ⟨k, ?_⟩
      by_cases hown : a.handler = some k
      · exact (carries_own hs ha hown p).mpr (Or.inr hk)
      · rw [hframe k hown]
        exact hk

/-- A step that sends: its handler keeps what it has still to read, the others what they
carry. -/
theorem carries_of_send {d t : Daemon} {h : ℕ} {q : Property} {v : Bool} {rest : List Property}
    {r : Reply} (hs : d.step (.sendSignal h) = some t)
    (hh : d.handlers h = .sending q v rest r) (p : Property) (c : Bool) :
    (∃ k, Carries (t.handlers k) p c) ↔
      p ∈ rest ∨ ∃ k, k ≠ h ∧ Carries (d.handlers k) p c := by
  have hother : ∀ k, k ≠ h → t.handlers k = d.handlers k := by
    intro k hk
    apply (Daemon.frame_of_step hs).1
    simpa [Daemon.Label.handler] using Ne.symm hk
  have hself : Carries (t.handlers h) p c ↔ p ∈ rest := by
    obtain ⟨q', v', rest', r', hh', -, rfl⟩ := Daemon.sendSignal_eq_some.mp hs
    rw [hh] at hh'
    cases hh'
    simp [Carries, Daemon.setHandler, todo, inFlight]
  constructor
  · rintro ⟨k, hk⟩
    by_cases hkh : k = h
    · subst hkh
      exact Or.inl (hself.mp hk)
    · rw [hother k hkh] at hk
      exact Or.inr ⟨k, hkh, hk⟩
  · rintro (hrest | ⟨k, hkh, hk⟩)
    · exact ⟨h, hself.mpr hrest⟩
    · rw [← hother k hkh] at hk
      exact ⟨k, hk⟩

/-! ## One step and every run -/

section Step

variable {x : Subscriber} {d : Daemon}

/-- The subscriber after a step of the daemon. -/
def afterStep (x : Subscriber) (d : Daemon) : Subscriber :=
  ⟨d, x.replica.push (d.signals.drop x.daemon.signals.length)⟩

/-- A step that sends nothing informs the client of what it announces, and leaves the rest. -/
theorem informed_of_silent {l : Daemon.Label} (hs : x.daemon.step l = some d)
    (hl : ∀ h, l ≠ .sendSignal h) (p : Property) :
    Informed (afterStep x d) p (current d p) ↔
      p ∈ announces x.daemon l ∨ Informed x p (current d p) := by
  have hsignals := (Daemon.frame_of_step hs).2 hl
  have htold : (afterStep x d).replica.told = x.replica.told := by
    simp [afterStep, hsignals]
  rw [Informed, Informed, htold, afterStep, carries_of_silent hs hl p]
  exact or_left_comm

/-- A value that is sent is the last word on its property. -/
theorem told_of_send {h : ℕ} {q : Property} {v : Bool} {rest : List Property} {r : Reply}
    (hs : x.daemon.step (.sendSignal h) = some d)
    (hh : x.daemon.handlers h = .sending q v rest r) :
    (afterStep x d).replica.told = Function.update x.replica.told q v ∧
      d.state = x.daemon.state := by
  obtain ⟨q', v', rest', r', hh', -, rfl⟩ := Daemon.sendSignal_eq_some.mp hs
  rw [hh] at hh'
  cases hh'
  refine ⟨?_, rfl⟩
  simp only [afterStep, Daemon.setHandler, List.drop_left]
  exact Replica.told_push_singleton x.replica q v

/-- Sending the value of one property informs of another what was informed before. -/
theorem informed_of_send_other {h : ℕ} {q : Property} {v : Bool} {rest : List Property}
    {r : Reply} (hs : x.daemon.step (.sendSignal h) = some d)
    (hh : x.daemon.handlers h = .sending q v rest r) {p : Property} (hpq : p ≠ q) (c : Bool) :
    Informed (afterStep x d) p c ↔ Informed x p c := by
  obtain ⟨htold, -⟩ := told_of_send hs hh
  have hcarries : (∃ k, Carries (x.daemon.handlers k) p c) ↔
      p ∈ rest ∨ ∃ k, k ≠ h ∧ Carries (x.daemon.handlers k) p c := by
    constructor
    · rintro ⟨k, hk⟩
      by_cases hkh : k = h
      · subst hkh
        left
        simpa [Carries, hh, todo, inFlight, Ne.symm hpq] using hk
      · exact Or.inr ⟨k, hkh, hk⟩
    · rintro (hrest | ⟨k, -, hk⟩)
      · exact ⟨h, Or.inl (by simpa [hh, todo] using hrest)⟩
      · exact ⟨k, hk⟩
  rw [Informed, Informed, htold, Function.update_of_ne hpq, afterStep, carries_of_send hs hh,
    hcarries]

/-- Sending a value informs of it; of another one only if that is still carried. -/
theorem informed_of_send_self {h : ℕ} {q : Property} {v : Bool} {rest : List Property}
    {r : Reply} (hs : x.daemon.step (.sendSignal h) = some d)
    (hh : x.daemon.handlers h = .sending q v rest r) (c : Bool) :
    Informed (afterStep x d) q c ↔
      v = c ∨ q ∈ rest ∨ ∃ k, k ≠ h ∧ Carries (x.daemon.handlers k) q c := by
  obtain ⟨htold, -⟩ := told_of_send hs hh
  rw [Informed, htold, Function.update_self, afterStep, carries_of_send hs hh]

/-- A step that sends nothing keeps everything informed exactly when it is announced. -/
theorem allInformed_of_silent {l : Daemon.Label} (hs : x.daemon.step l = some d)
    (hl : ∀ h, l ≠ .sendSignal h) (hx : AllInformed x) :
    AllInformed (afterStep x d) ↔ Announced x (.daemon l) := by
  have hsame : AllInformed (afterStep x d) ↔
      ∀ p, p ∈ announces x.daemon l ∨ Informed x p (current d p) := by
    apply forall_congr'
    intro p
    exact informed_of_silent hs hl p
  rw [hsame]
  constructor
  · intro h
    constructor
    case sent =>
      intro k p v rest r ha
      cases ha
      exact absurd rfl (hl k)
    case moved =>
      rintro l' call p ha hc hmove hp
      cases ha
      rcases Daemon.step_cases hs with ⟨call', hc', hstate, -⟩ | ⟨hc', -⟩
      · rw [hc] at hc'
        cases hc'
        have hval : current d p = !current x.daemon p := by
          rw [Bool.eq_not]
          simpa [current, hstate, ChangedBy] using hmove
        rw [← hval]
        exact (h p).resolve_left hp
      · rw [hc] at hc'
        cases hc'
  · intro hC p
    by_cases hp : p ∈ announces x.daemon l
    · exact Or.inl hp
    · right
      by_cases hval : current d p = current x.daemon p
      · rw [hval]
        exact hx p
      · -- the step moved the property and does not announce it
        rcases Daemon.step_cases hs with ⟨call, hc, hstate, -⟩ | ⟨-, hstate⟩
        · have hmove : ChangedBy call x.daemon p := by
            simpa [current, hstate, ChangedBy] using hval
          have hnot : current d p = !current x.daemon p := Bool.eq_not.mpr hval
          rw [hnot]
          exact hC.moved l call p rfl hc hmove hp
        · exact absurd (by rw [current, hstate, current]) hval

/-- A step that sends keeps everything informed exactly when it is announced. -/
theorem allInformed_of_send {h : ℕ} (hs : x.daemon.step (.sendSignal h) = some d)
    (hx : AllInformed x) :
    AllInformed (afterStep x d) ↔ Announced x (.daemon (.sendSignal h)) := by
  obtain ⟨q, v, rest, r, hh, -⟩ := Daemon.sendSignal_eq_some.mp hs
  obtain ⟨-, hstate⟩ := told_of_send hs hh
  have hcurrent : ∀ p, current (afterStep x d).daemon p = current x.daemon p := by
    intro p
    rw [afterStep, current, hstate, current]
  have hself := informed_of_send_self hs hh (current x.daemon q)
  constructor
  · intro hall
    constructor
    case sent =>
      rintro h' p v' rest' r' ha hh' hv
      cases ha
      rw [hh] at hh'
      cases hh'
      have hq := hall q
      rw [hcurrent q, hself] at hq
      exact hq.resolve_left hv
    case moved =>
      rintro l call p ha hc
      cases ha
      cases hc
  · intro hC p
    rw [hcurrent p]
    by_cases hpq : p = q
    · subst hpq
      rw [hself]
      by_cases hv : v = current x.daemon p
      · exact Or.inl hv
      · exact Or.inr (hC.sent h p v rest r rfl hh hv)
    · rw [informed_of_send_other hs hh hpq]
      exact hx p

end Step

/-- One step keeps everything informed exactly when it is announced. -/
theorem allInformed_step (x : Subscriber) (a : Subscriber.Label) (y : Subscriber)
    (hs : subscribed.step x a = some y) (hx : AllInformed x) : AllInformed y ↔ Announced x a := by
  cases a with
  | deliver =>
      simp only [subscribed, Subscriber.step, Option.map_eq_some_iff] at hs
      obtain ⟨r, hr, rfl⟩ := hs
      refine iff_of_true ?_ ⟨by simp, by simp⟩
      intro p
      simpa [Informed, Replica.told_deliver hr] using hx p
  | daemon l =>
      simp only [subscribed, Subscriber.step, Option.map_eq_some_iff] at hs
      obtain ⟨d, hd, rfl⟩ := hs
      by_cases hl : ∃ h, l = .sendSignal h
      · obtain ⟨h, rfl⟩ := hl
        exact allInformed_of_send hd hx
      · exact allInformed_of_silent hd (fun h hlh => hl ⟨h, hlh⟩) hx

/-- Where nothing is in progress or undelivered, the invariant is agreement. -/
theorem upToDate_of_allInformed (x : Subscriber) (hx : AllInformed x) : UpToDate x := by
  rintro ⟨hidle, -, hqueue⟩ p
  rcases hx p with htold | ⟨h, hc⟩
  · rw [Replica.told_of_queue_nil hqueue] at htold
    exact htold
  · rw [hidle h] at hc
    simp [Carries, todo, inFlight] at hc

/-- While every step is announced, everything stays informed. -/
theorem allInformed_along {d : Daemon} {run : List Subscriber.Label}
    (hC : subscribed.Along Announced (.connect d) run) :
    subscribed.Everywhere AllInformed (.connect d) run := by
  have hstart : AllInformed (.connect d) := fun p => Or.inl rfl
  apply Machine.everywhere_of_along _ hC hstart
  intro x a y hs ha hx
  exact (allInformed_step x a y hs hx).mpr ha

/-- **Every change is announced while no change is silent and no signal overtaken.** Take
any daemon, a client that has just read its properties, and any interleaving of handlers,
tray callbacks and deliveries in which every step is `Announced`: in every state it visits
with nothing in progress and nothing undelivered, the client's cache is the daemon's state.
SOURCE: sleep-blockd.rs:37-138, tray.rs:146-216 -/
theorem changes_announced {d : Daemon} {run : List Subscriber.Label}
    (hC : subscribed.Along Announced (.connect d) run) :
    subscribed.Everywhere UpToDate (.connect d) run := by
  exact (allInformed_along hC).mono upToDate_of_allInformed

/-! ## The announcements under way do not help -/

/-- A step that goes on with the announcements under way: it changes no property and starts
nothing. The call into `SleepBlock` of a request that has been dispatched is not one; it
announces what it moves, and may make up for a step that was not announced. -/
def Finishes : Subscriber.Label → Prop
  | .deliver | .daemon (.readProperty _) | .daemon (.sendSignal _) | .daemon (.notify _)
  | .daemon (.reply _) => True
  | _ => False

/-- Going on with the announcements informs the client of nothing that is not informed yet. -/
theorem allInformed_before {x y : Subscriber} {a : Subscriber.Label}
    (hs : subscribed.step x a = some y) (ha : Finishes a) (hy : AllInformed y) :
    AllInformed x := by
  cases a with
  | deliver =>
      simp only [subscribed, Subscriber.step, Option.map_eq_some_iff] at hs
      obtain ⟨r, hr, rfl⟩ := hs
      intro p
      have hp := hy p
      rw [Informed, Replica.told_deliver hr] at hp
      exact hp
  | daemon l =>
      simp only [subscribed, Subscriber.step, Option.map_eq_some_iff] at hs
      obtain ⟨d, hd, rfl⟩ := hs
      have hcall : x.daemon.callOf l = none ∧ announces x.daemon l = [] := by
        cases l <;> simp [Finishes] at ha <;> exact ⟨rfl, rfl⟩
      have hstate : d.state = x.daemon.state := by
        rcases Daemon.step_cases hd with ⟨call, hc, -⟩ | ⟨-, hstate⟩
        · rw [hcall.1] at hc
          cases hc
        · exact hstate
      have hcurrent : ∀ p, current d p = current x.daemon p := by
        intro p
        rw [current, hstate, current]
      intro p
      have hp : Informed (afterStep x d) p (current d p) := hy p
      by_cases hl : ∃ h, l = .sendSignal h
      · obtain ⟨h, rfl⟩ := hl
        obtain ⟨q, v, rest, r, hh, -⟩ := Daemon.sendSignal_eq_some.mp hd
        rw [hcurrent p] at hp
        by_cases hpq : p = q
        · subst hpq
          rcases (informed_of_send_self hd hh _).mp hp with rfl | hrest | ⟨k, -, hk⟩
          · exact Or.inr ⟨h, Or.inr (by simp [hh, inFlight])⟩
          · exact Or.inr ⟨h, Or.inl (by simpa [hh, todo] using hrest)⟩
          · exact Or.inr ⟨k, hk⟩
        · exact (informed_of_send_other hd hh hpq _).mp hp
      · have hp := (informed_of_silent hd (fun h hlh => hl ⟨h, hlh⟩) p).mp hp
        rw [hcall.2, hcurrent p] at hp
        simpa using hp

/-- **An unannounced step is not made up for by the announcements under way.** When a run has
been announced up to a step that is not, and no dispatched request waits for its call into
`SleepBlock`, finishing the announcements, in any order, leaves the client wrong about some
property. Where such a request does wait, the lemma says nothing: the client is quiescent
only after its call. -/
theorem unannounced_stale {d : Daemon} {run rest : List Subscriber.Label}
    {a : Subscriber.Label} {x y z : Subscriber} (hC : subscribed.Along Announced (.connect d) run)
    (hx : subscribed.run (.connect d) run = some x) (hy : subscribed.step x a = some y)
    (ha : ¬ Announced x a) (hrest : ∀ b ∈ rest, Finishes b)
    (hz : subscribed.run y rest = some z) (hidle : z.Quiescent) : ¬ UpToDate z := by
  intro hfresh
  have hinformed : AllInformed z := by
    intro p
    left
    rw [Replica.told_of_queue_nil hidle.2.2]
    exact hfresh hidle p
  have hback : AllInformed y := by
    clear hy
    induction rest generalizing y with
    | nil =>
        simp only [Machine.run_nil, Option.some.injEq] at hz
        exact hz ▸ hinformed
    | cons b rest ih =>
        obtain ⟨u, hu, hz⟩ := Machine.run_cons_eq_some.mp hz
        have hu' := ih (fun c hc => hrest c (List.mem_cons_of_mem _ hc)) hz
        exact allInformed_before hu (hrest b List.mem_cons_self) hu'
  have hinv := (allInformed_along hC).last hx
  exact ha ((allInformed_step x a y hy hinv).mp hback)

/-- A click on the tray icon of a daemon with a subscribed client. -/
def silentClick : List Subscriber.Label :=
  [.daemon (.startTray true), .daemon (.serve true), .daemon (.requestName .primaryOwner),
    .daemon (.activate ⟨.granted 3, .granted 6, true⟩)]

/-- The client goes on believing that nothing is blocked. -/
theorem silentClick_stale :
    ∃ y, subscribed.run (.connect {}) silentClick = some y ∧ y.Quiescent ∧
      y.replica.cache .sleepBlocked = false ∧ current y.daemon .sleepBlocked = true ∧
      ¬ UpToDate y := by
  refine ⟨_, rfl, ⟨fun _ => rfl, rfl, rfl⟩, rfl, rfl, fun h => ?_⟩
  have hagree := h ⟨fun _ => rfl, rfl, rfl⟩ .sleepBlocked
  exact absurd hagree (by decide)

/-- A step that calls and sends nothing is announced. -/
theorem announced_of_idle {x : Subscriber} {l : Daemon.Label} (hc : x.daemon.callOf l = none)
    (hl : ∀ h, l ≠ .sendSignal h) : Announced x (.daemon l) where
  sent h _ _ _ _ ha := by
    injection ha with ha
    exact absurd ha (hl h)
  moved l' _ _ ha hcall := by
    injection ha with ha
    subst ha
    simp [hc] at hcall

/-- The setting changed over D-Bus by one handler. -/
theorem changes_announced_setter :
    subscribed.Everywhere UpToDate (.connect {})
      [.daemon (.startTray true), .daemon (.serve true), .daemon (.requestName .primaryOwner),
        .daemon (.receive 0 (.setKeepRunningInTray true)),
        .daemon (.handle 0 ⟨.granted 3, .granted 6, true⟩), .daemon (.readProperty 0),
        .daemon (.sendSignal 0), .daemon (.reply 0), .deliver] := by
  apply changes_announced
  refine ⟨announced_of_idle rfl (by simp), fun _ ht => ?_⟩
  cases ht
  refine ⟨announced_of_idle rfl (by simp), fun _ ht => ?_⟩
  cases ht
  refine ⟨announced_of_idle rfl (by simp), fun _ ht => ?_⟩
  cases ht
  refine ⟨announced_of_idle rfl (by simp), fun _ ht => ?_⟩
  cases ht
  refine ⟨⟨by simp, ?_⟩, fun _ ht => ?_⟩
  · intro l call p hl hcall hchanged hp
    cases hl
    cases hcall
    -- the setter changes the one property that it announces
    cases p with
    | keepRunningInTray => exact absurd (List.mem_singleton.mpr rfl) hp
    | sleepBlocked | screenBlocked | keepScreenAwake => exact absurd rfl hchanged
  cases ht
  refine ⟨announced_of_idle rfl (by simp), fun _ ht => ?_⟩
  cases ht
  refine ⟨⟨?_, ?_⟩, fun _ ht => ?_⟩
  · intro h p v rest r hl hh hv
    cases hl
    cases hh
    exact absurd rfl hv
  · intro l call p hl hcall
    cases hl
    cases hcall
  cases ht
  refine ⟨announced_of_idle rfl (by simp), fun _ ht => ?_⟩
  cases ht
  exact ⟨⟨by simp, by simp⟩, fun _ _ => trivial⟩

end SleepBlocker.Analysis
