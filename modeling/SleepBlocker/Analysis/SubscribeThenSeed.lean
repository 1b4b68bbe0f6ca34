import SleepBlocker.Analysis.PresenceFlag

/-!
# Subscribing before seeding loses nothing

The seed and the queued signals speak about overlapping periods: a signal sent before the
seed was read is applied after it, and sets the flag back. `Learned` says why this is
harmless. Every change since the subscription is in the queue, so the last signal about the
name tells the truth, and where there is none the seed does.
-/

set_option autoImplicit false

namespace SleepBlocker.Analysis

open SleepBlocker.Computation SleepBlocker.Model

/-- If the `NameHasOwner` call is made, it succeeds. -/
def asked : Listener.Label → Bool
  | .watch (.ask convertible ok) => convertible && ok
  | _ => true

/-- Once the watch thread has seeded and no signal is waiting, the flag is the truth. -/
def Accurate (x : Listener) : Prop :=
  x.presence.watch = .following → x.presence.queue = [] →
    x.presence.isRunning = x.owner.isSome

/-- What ties the watch thread to the truth `owned` about the name: `b`, once all the signals
waiting have been applied to it, is the truth for the seed asked for and for the flag. -/
structure Learned (name : String) (p : Presence) (owned : Bool) : Prop where
  deaf : p.listening = false → p.queue = []
  truth : ∀ b, verdict name p.queue = some b → b = owned
  seeding : ∀ seed, p.watch = .seeding seed →
    ∃ b, seed = .hasOwner b ∧ (verdict name p.queue).getD b = owned
  following : p.watch = .following → (verdict name p.queue).getD p.running = owned

section Presence

variable {name : String} {p q : Presence} {owned : Bool}

/-- The owner changes. A watch thread that listens has the last word on it in its queue. -/
theorem learned_send_self (h : Learned name p owned) (o : Option ℕ) :
    Learned name (p.send (.ownerChanged name o)) o.isSome := by
  unfold Presence.send
  split
  · rename_i hl
    have hverdict : verdict name (p.queue ++ [.ownerChanged name o]) = some o.isSome := by
      simp [verdict_append_singleton, about]
    constructor
    case deaf =>
      intro hdeaf
      have hdeaf : p.listening = false := hdeaf
      simp [hl] at hdeaf
    case truth =>
      intro b hb
      rw [hverdict] at hb
      exact (Option.some.inj hb).symm
    case seeding =>
      intro seed hseed
      obtain ⟨b, hb, -⟩ := h.seeding seed hseed
      exact ⟨b, hb, by rw [hverdict, Option.getD_some]⟩
    case following =>
      intro _
      rw [hverdict, Option.getD_some]
  · -- no match rule: the signal is dropped, and nothing has been learned yet
    rename_i hl
    have hq := h.deaf (by simpa using hl)
    constructor
    case deaf => exact h.deaf
    case truth =>
      intro b hb
      simp [hq, verdict] at hb
    case seeding =>
      intro seed hseed
      simp [Presence.listening, hseed] at hl
    case following =>
      intro hfollow
      simp [Presence.listening, hfollow] at hl

/-- A signal that is not about the name. -/
theorem learned_send_other (h : Learned name p owned) {c : Change} (hc : about name c = none) :
    Learned name (p.send c) owned := by
  unfold Presence.send
  split
  · rename_i hl
    have hverdict : verdict name (p.queue ++ [c]) = verdict name p.queue := by
      rw [verdict_append_singleton, hc, Option.none_or]
    constructor
    case deaf =>
      intro hdeaf
      have hdeaf : p.listening = false := hdeaf
      simp [hl] at hdeaf
    case truth =>
      intro b hb
      exact h.truth b (hverdict ▸ hb)
    case seeding =>
      intro seed hseed
      rw [hverdict]
      exact h.seeding seed hseed
    case following =>
      intro hfollow
      rw [hverdict]
      exact h.following hfollow
  · exact h

/-- The watch thread comes up, or gives up, before it has asked. -/
theorem learned_move (h : Learned name p owned) (w : Watch)
    (hw : w ≠ .following ∧ ∀ seed, w ≠ .seeding seed)
    (hdeaf : ({ p with watch := w } : Presence).listening = false → p.queue = []) :
    Learned name { p with watch := w } owned where
  deaf := hdeaf
  truth := h.truth
  seeding seed hseed := absurd hseed (hw.2 seed)
  following hfollow := absurd hfollow hw.1

/-- The oldest signal is applied: what the rest of the queue makes of the flag stays. -/
theorem learned_applyNext {c : Change} {rest : List Change} (h : Learned name p owned)
    (hw : p.watch = .following) (hq : p.queue = c :: rest) :
    Learned name (({ p with queue := rest } : Presence).apply name c) owned := by
  have hverdict : verdict name p.queue = (verdict name rest).or (about name c) := by
    rw [hq, verdict]
  have hfollow := h.following hw
  rw [apply_eq]
  constructor
  case deaf =>
    intro hdeaf
    simp [Presence.listening, Presence.set, hw] at hdeaf
  case truth =>
    intro b hb
    apply h.truth b
    have hb : verdict name rest = some b := hb
    rw [hverdict, hb, Option.some_or]
  case seeding =>
    intro seed hseed
    simp [Presence.set, hw] at hseed
  case following =>
    intro _
    show (verdict name rest).getD ((about name c).getD p.running) = owned
    rw [← hfollow, hverdict]
    cases verdict name rest <;> rfl

/-- A step of the watch thread. -/
theorem learned_step (h : Learned name p owned) {l : Presence.Label}
    (hl : asked (.watch l) = true) (hs : p.step name owned l = some q) : Learned name q owned := by
  cases l with
  | session ok | proxy ok | subscribe ok =>
      simp only [Presence.step, Option.ite_none_right_eq_some, Option.some.injEq] at hs
      obtain ⟨hw, rfl⟩ := hs
      apply learned_move h
      · cases ok <;> simp
      · exact fun _ => h.deaf (by simp [Presence.listening, hw])
  | ask convertible ok =>
      simp only [asked, Bool.and_eq_true] at hl
      obtain ⟨rfl, rfl⟩ := hl
      simp only [Presence.step, Option.ite_none_right_eq_some, Option.some.injEq] at hs
      obtain ⟨hw, rfl⟩ := hs
      constructor
      case deaf =>
        intro hdeaf
        cases hdeaf
      case truth => exact h.truth
      case seeding =>
        intro seed hseed
        refine ⟨owned, ?_, ?_⟩
        · simpa using hseed.symm
        · -- whatever is queued is about changes before the answer, and ends with it
          show (verdict name p.queue).getD owned = owned
          cases hv : verdict name p.queue with
          | none => rfl
          | some b => exact h.truth b hv
      case following =>
        intro hfollow
        cases hfollow
  | seed =>
      simp only [Presence.step] at hs
      split at hs
      · rename_i hw
        obtain ⟨b, hb, -⟩ := h.seeding _ hw
        cases hb
      · rename_i hw
        obtain ⟨b, hb, -⟩ := h.seeding _ hw
        cases hb
      · rename_i b hw
        obtain ⟨b', hb, hsettled⟩ := h.seeding _ hw
        simp only [Seed.hasOwner.injEq] at hb
        subst hb
        cases hs
        constructor
        case deaf =>
          intro hdeaf
          cases hdeaf
        case truth => exact h.truth
        case seeding =>
          intro seed hseed
          cases hseed
        case following => exact fun _ => hsettled
      · cases hs
  | applyNext =>
      simp only [Presence.step] at hs
      split at hs
      · rename_i c rest hw hq
        simp only [Option.some.injEq] at hs
        subst hs
        exact learned_applyNext h hw hq
      · cases hs

end Presence

section Listener

variable {name : String}

/-- A step of the bus or of the watch thread keeps what the thread has learned. -/
theorem learned_of_listener (x : Listener) (a : Listener.Label) (y : Listener)
    (hs : (listener name).step x a = some y) (ha : asked a = true)
    (hx : Learned name x.presence x.owner.isSome) :
    Learned name y.presence y.owner.isSome := by
  have hs : x.step name a = some y := hs
  cases a with
  | watch l =>
      simp only [Listener.step, Option.map_eq_some_iff] at hs
      obtain ⟨q, hq, rfl⟩ := hs
      exact learned_step hx ha hq
  | change owner =>
      simp only [Listener.step, Option.ite_none_left_eq_some, Option.some.injEq] at hs
      obtain ⟨-, rfl⟩ := hs
      exact learned_send_self hx owner
  | other c =>
      simp only [Listener.step, Option.ite_none_left_eq_some, Option.some.injEq] at hs
      obtain ⟨hc, rfl⟩ := hs
      apply learned_send_other hx
      cases c with
      | malformed => rfl
      | ownerChanged n owner => simpa [Change.isAbout, about] using hc

/-- With nothing waiting, the flag that has been learned is the truth. -/
theorem accurate_of_learned {x : Listener} (hx : Learned name x.presence x.owner.isSome) :
    Accurate x := by
  intro hfollow hqueue
  have hflag := hx.following hfollow
  rw [hqueue, verdict, Option.getD_none] at hflag
  exact hflag

/-- **Subscribe, then seed: nothing is lost.** Whoever owns the name when the daemon starts,
and however the name is acquired, handed over and released between the steps of the watch
thread, whose `NameHasOwner` call succeeds: in every state in which the thread has seeded and
has applied every signal sent since it subscribed, `is_running` is whether the name is owned.
SOURCE: spawn.rs:42-81 -/
theorem subscribe_then_seed (name : String) (owner : Option ℕ) {run : List Listener.Label}
    (hask : ∀ a ∈ run, asked a = true) :
    (listener name).Everywhere Accurate ⟨{}, owner⟩ run := by
  have hstart : Learned name ({} : Presence) owner.isSome :=
    ⟨fun _ => rfl, fun b hb => (by cases hb), fun seed hseed => (by cases hseed),
      fun hfollow => (by cases hfollow)⟩
  apply Machine.Everywhere.mono (fun x => accurate_of_learned)
  exact Machine.everywhere_of_along learned_of_listener (Machine.along_of_forall hask _) hstart

/-- A window comes and goes between the subscription and the seed, so that the flag goes from
the seed's `false` to a stale `true` and back. -/
theorem subscribe_then_seed_stale :
    let run : List Listener.Label :=
      [.watch (.session true), .watch (.proxy true), .watch (.subscribe true),
        .change (some 1), .change (some 2), .change none, .other .malformed,
        .watch (.ask true true), .watch .seed, .watch .applyNext, .watch .applyNext,
        .watch .applyNext, .watch .applyNext]
    (∃ y, (listener guiBusName).run ⟨{}, none⟩ run = some y ∧
        y.presence.watch = .following ∧ y.presence.queue = []) ∧
      (listener guiBusName).Everywhere Accurate ⟨{}, none⟩ run :=
  ⟨⟨_, rfl, rfl, rfl⟩, subscribe_then_seed guiBusName none (by decide)⟩

end Listener

end SleepBlocker.Analysis
