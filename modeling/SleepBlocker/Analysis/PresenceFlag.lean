import SleepBlocker.Model.Presence

/-!
# When "Show window" works again

While no window is there and nothing is under way, the flag is set exactly if a
`spawn_gui` wrote it last. A store that the watch thread does not follow up is one made
when the thread never came up, or for a process that died before it claimed the name, or
after the thread had already applied both the claim and the release. `show_window_iff`
turns this into the exact condition.
-/

set_option autoImplicit false

namespace SleepBlocker.Analysis

open SleepBlocker.Computation SleepBlocker.Model

/-- What a signal says about the name: nothing, or whether it has an owner. -/
def about (name : String) : Change → Option Bool
  | .malformed => none
  | .ownerChanged n newOwner => if n = name then some newOwner.isSome else none

/-- What the last signal about the name says. -/
def verdict (name : String) : List Change → Option Bool
  | [] => none
  | c :: queue => (verdict name queue).or (about name c)

/-- The step of the watch thread writes the flag. -/
def writes (name : String) (p : Presence) : Presence.Label → Bool
  | .seed => p.watch != .seeding .invalidName
  | .applyNext => p.queue.head?.any fun c => (about name c).isSome
  | _ => false

/-- Whether the last to write the flag was a `spawn_gui`. -/
def storedLast (name : String) (stored : Bool) (w : Windows) : Windows.Label → Bool
  | .store _ => true
  | .watch l => stored && !writes name w.presence l
  | _ => stored

/-- The windows, with the last writer. -/
def writers (name : String) : Machine (Windows × Bool) Windows.Label :=
  (windows name).monitor (storedLast name)

/-- No window is alive, no `spawn_gui` is in progress, and no signal is waiting. -/
def WindowsIdle (w : Windows) : Prop :=
  (∀ g, (w.guis g).alive = false) ∧ (∀ k, w.spawns k = .idle) ∧ w.presence.queue = []

/-- With no window and nothing under way, the next `spawn_gui` launches. -/
def Launchable (x : Windows × Bool) : Prop := WindowsIdle x.1 → x.1.presence.isRunning = false

/-- With no window and nothing under way, the watch thread has written the flag since the
last `spawn_gui` did, if any. -/
def Followed (x : Windows × Bool) : Prop := WindowsIdle x.1 → x.2 = false

/-- What ties the flag to the truth `owned` about the name: the last signal waiting tells it,
and the flag is set only by a `spawn_gui`, or for an owner, or until a signal is applied. -/
structure Faithful (name : String) (p : Presence) (owned stored : Bool) : Prop where
  store : stored = true → p.running = true
  deaf : p.listening = false → p.queue = []
  truth : ∀ b, verdict name p.queue = some b → b = owned
  seeding : p.watch = .seeding (.hasOwner true) →
    owned = true ∨ (verdict name p.queue).isSome = true
  running : p.running = true → stored = true ∨
    p.watch = .following ∧ (owned = true ∨ (verdict name p.queue).isSome = true)

/-! ## The queue -/

/-- The verdict of a queue is that of its last change that says anything. -/
theorem verdict_append_singleton (name : String) (queue : List Change) (c : Change) :
    verdict name (queue ++ [c]) = (about name c).or (verdict name queue) := by
  induction queue with
  | nil => simp [verdict]
  | cons d queue ih =>
      rw [List.cons_append, verdict, ih, verdict, Option.or_assoc]

/-- Applying a signal stores what it says about the name, if anything. -/
theorem apply_eq (p : Presence) (name : String) (c : Change) :
    p.apply name c = p.set ((about name c).getD p.running) := by
  cases c with
  | malformed => rfl
  | ownerChanged n o =>
      by_cases hn : n = name
      · simp [Presence.apply, about, hn]
      · simp [Presence.apply, Presence.set, about, hn]

section Presence

variable {name : String} {p q : Presence} {owned stored : Bool}

/-- The owner changes, and the bus says so. -/
theorem faithful_send_self (h : Faithful name p owned stored) (o : Option ℕ) :
    Faithful name (p.send (.ownerChanged name o)) o.isSome stored := by
  cases hl : p.listening with
  | true =>
      have hverdict : verdict name (p.queue ++ [.ownerChanged name o]) = some o.isSome := by
        simp [verdict_append_singleton, about]
      rw [Presence.send, if_pos hl]
      refine ⟨h.store, fun hdeaf => ?_, fun b hb => ?_, fun _ => Or.inr ?_, fun hr => ?_⟩
      · have hdeaf : p.listening = false := hdeaf
        simp [hl] at hdeaf
      · rw [hverdict] at hb
        exact (Option.some.inj hb).symm
      · simp [hverdict]
      · rcases h.running hr with hs | ⟨hfollow, -⟩
        · exact Or.inl hs
        · exact Or.inr ⟨hfollow, Or.inr (by simp [hverdict])⟩
  | false =>
      have hq := h.deaf hl
      rw [Presence.send, if_neg (by simp [hl])]
      refine ⟨h.store, h.deaf, fun b hb => ?_, fun hseeding => ?_, fun hr => ?_⟩
      · simp [hq, verdict] at hb
      · simp [Presence.listening, hseeding] at hl
      · rcases h.running hr with hs | ⟨hfollow, -⟩
        · exact Or.inl hs
        · simp [Presence.listening, hfollow] at hl

/-- A signal about another name. -/
theorem faithful_send_other (h : Faithful name p owned stored) {c : Change}
    (hc : about name c = none) : Faithful name (p.send c) owned stored := by
  unfold Presence.send
  split
  · rename_i hl
    have hverdict : verdict name (p.queue ++ [c]) = verdict name p.queue := by
      rw [verdict_append_singleton, hc, Option.none_or]
    refine ⟨h.store, fun hdeaf => ?_, fun b hb => ?_, fun hseeding => ?_, fun hr => ?_⟩
    · have hdeaf : p.listening = false := hdeaf
      simp [hl] at hdeaf
    · exact h.truth b (hverdict ▸ hb)
    · rw [hverdict]
      exact h.seeding hseeding
    · rw [hverdict]
      exact h.running hr
  · exact h

/-- A `spawn_gui` stores. -/
theorem faithful_store (h : Faithful name p owned stored) :
    Faithful name (p.set true) owned true :=
  ⟨fun _ => rfl, h.deaf, h.truth, h.seeding, fun _ => Or.inl rfl⟩

/-- A step that writes the flag overwrites what `spawn_gui` has stored. -/
theorem and_writes {l : Presence.Label} (hl : writes name p l = true) :
    (stored && !writes name p l) = false := by
  rw [hl, Bool.not_true, Bool.and_false]

/-- A step that does not write the flag leaves what `spawn_gui` has stored. -/
theorem and_not_writes {l : Presence.Label} (hl : writes name p l = false) :
    (stored && !writes name p l) = stored := by
  rw [hl, Bool.not_false, Bool.and_true]

/-- A step of the watch thread that only moves it, before it follows the signals. -/
theorem faithful_move (h : Faithful name p owned stored) (w : Watch)
    (hfollow : p.watch ≠ .following)
    (hw : w ≠ .following ∧ w ≠ .seeding (.hasOwner true) ∨ ∃ b, w = .seeding (.hasOwner b) ∧ b = owned)
    (hdeaf : ({ p with watch := w } : Presence).listening = false → p.queue = []) :
    Faithful name { p with watch := w } owned stored := by
  have hrunning : p.running = true → stored = true := by
    intro hr
    rcases h.running hr with hs | ⟨hf, -⟩
    · exact hs
    · exact absurd hf hfollow
  refine ⟨h.store, hdeaf, h.truth, fun hseeding => ?_, fun hr => Or.inl (hrunning hr)⟩
  rcases hw with ⟨-, hw⟩ | ⟨b, hw, hb⟩
  · exact absurd hseeding hw
  · have hb' : b = true := by
      simpa [hw] using hseeding
    exact Or.inl (hb ▸ hb')

/-- A step of the watch thread that stores what it was told about the name. -/
theorem faithful_seed (h : Faithful name p owned stored) (b : Bool)
    (hb : b = true → owned = true ∨ (verdict name p.queue).isSome = true) :
    Faithful name { p with watch := .following, running := b } owned false :=
  ⟨fun hs => (by cases hs), fun hdeaf => (by cases hdeaf), h.truth, fun hs => (by cases hs),
    fun hr => Or.inr ⟨rfl, hb hr⟩⟩

/-- The watch thread takes a signal that says nothing about the name. -/
theorem faithful_skip (h : Faithful name p owned stored) {c : Change} {rest : List Change}
    (hw : p.watch = .following) (hq : p.queue = c :: rest) (hc : about name c = none) :
    Faithful name (({ p with queue := rest } : Presence).apply name c) owned stored := by
  rw [apply_eq, hc]
  have hverdict : verdict name p.queue = verdict name rest := by
    rw [hq, verdict, hc, Option.or_none]
  constructor
  case store => exact h.store
  case deaf =>
    intro hdeaf
    simp [Presence.listening, Presence.set, hw] at hdeaf
  case truth =>
    intro b hb
    exact h.truth b (hverdict.trans hb)
  case seeding =>
    intro hseeding
    simp [Presence.set, hw] at hseeding
  case running =>
    intro hr
    have hrunning := h.running hr
    rw [hverdict] at hrunning
    exact hrunning

/-- The watch thread stores what the next signal says about the name. -/
theorem faithful_apply (h : Faithful name p owned stored) {c : Change} {rest : List Change}
    (hw : p.watch = .following) (hq : p.queue = c :: rest) {b : Bool}
    (hc : about name c = some b) :
    Faithful name (({ p with queue := rest } : Presence).apply name c) owned false := by
  rw [apply_eq, hc]
  have hverdict : verdict name p.queue = (verdict name rest).or (some b) := by
    rw [hq, verdict, hc]
  constructor
  case store =>
    intro hs
    cases hs
  case deaf =>
    intro hdeaf
    simp [Presence.listening, Presence.set, hw] at hdeaf
  case truth =>
    intro b' (hb' : verdict name rest = some b')
    apply h.truth b'
    rw [hverdict, hb', Option.some_or]
  case seeding =>
    intro hseeding
    simp [Presence.set, hw] at hseeding
  case running =>
    intro hr
    have hb : b = true := hr
    refine Or.inr ⟨hw, ?_⟩
    -- either a later signal waits, or this one was the last and tells the truth
    cases hv : verdict name rest with
    | none =>
        left
        rw [← h.truth b (by rw [hverdict, hv, Option.none_or])]
        exact hb
    | some b' =>
        right
        show (verdict name rest).isSome = true
        rw [hv, Option.isSome_some]

/-- A step of the watch thread. -/
theorem faithful_step (h : Faithful name p owned stored) {l : Presence.Label}
    (hs : p.step name owned l = some q) :
    Faithful name q owned (stored && !writes name p l) := by
  cases l with
  | session ok | proxy ok | subscribe ok =>
      simp only [Presence.step, Option.ite_none_right_eq_some, Option.some.injEq] at hs
      obtain ⟨hw, rfl⟩ := hs
      rw [and_not_writes (by simp [writes])]
      apply faithful_move h
      · simp [hw]
      · cases ok <;> simp
      · exact fun _ => h.deaf (by simp [Presence.listening, hw])
  | ask convertible ok =>
      simp only [Presence.step, Option.ite_none_right_eq_some, Option.some.injEq] at hs
      obtain ⟨hw, rfl⟩ := hs
      rw [and_not_writes (by simp [writes])]
      apply faithful_move h
      · simp [hw]
      · cases convertible <;> cases ok <;> simp
      · intro hdeaf
        cases hdeaf
  | seed =>
      simp only [Presence.step] at hs
      split at hs
      · rename_i hw
        cases hs
        -- no store: the flag is still what a `spawn_gui` left
        have hrunning : p.running = true → stored = true := by
          intro hr
          rcases h.running hr with hs | ⟨hf, -⟩
          · exact hs
          · simp [hw] at hf
        rw [and_not_writes (by simp [writes, hw])]
        exact ⟨h.store, fun hdeaf => (by cases hdeaf), h.truth, fun hseeding => (by cases hseeding),
          fun hr => Or.inl (hrunning hr)⟩
      · rename_i hw
        cases hs
        rw [and_writes (by simp [writes, hw])]
        exact faithful_seed h false fun hb => by cases hb
      · rename_i b hw
        cases hs
        rw [and_writes (by simp [writes, hw])]
        exact faithful_seed h b fun hb => h.seeding (hb ▸ hw)
      · cases hs
  | applyNext =>
      simp only [Presence.step] at hs
      split at hs
      · rename_i c rest hw hq
        simp only [Option.some.injEq] at hs
        subst hs
        cases hc : about name c with
        | none =>
            rw [and_not_writes (by simp [writes, hq, hc])]
            exact faithful_skip h hw hq hc
        | some b =>
            rw [and_writes (by simp [writes, hq, hc])]
            exact faithful_apply h hw hq hc
      · cases hs

end Presence

/-! ## Runs -/

section Windows

variable {name : String}

/-- The invariant: the owner of the name is a live window, and the flag is faithful. -/
def Tracked (name : String) (x : Windows × Bool) : Prop :=
  (∀ g, x.1.name.owner = some g → x.1.guis g = .owner) ∧
    Faithful name x.1.presence x.1.name.owner.isSome x.2

/-- The connection of a process closes, on its way to `y`, in which it owns nothing. -/
theorem tracked_close {w : Windows} {stored : Bool} (h : Tracked name (w, stored)) (g : ℕ)
    (y : Gui) :
    Tracked name (({ w with guis := Function.update w.guis g y } : Windows).closeConnection
      name g, stored) := by
  obtain ⟨howner, hfaithful⟩ := h
  unfold Windows.closeConnection
  split
  · rename_i hg
    constructor
    · intro k hk
      simp only [Windows.announce] at hk
      obtain ⟨hk, hkg⟩ := BusName.owner_close.mp hk
      rw [hg] at hk
      exact absurd (Option.some.inj hk).symm hkg
    · exact faithful_send_self hfaithful _
  · rename_i hg
    refine ⟨fun k hk => ?_, hfaithful⟩
    have hkg : k ≠ g := by
      rintro rfl
      exact hg hk
    simp only [Function.update_of_ne hkg]
    exact howner k hk

/-- Every step keeps track of the flag. -/
theorem tracked_step (x : Windows × Bool) (a : Windows.Label) (y : Windows × Bool)
    (hs : (writers name).step x a = some y) (hx : Tracked name x) : Tracked name y := by
  obtain ⟨hw, hy⟩ := Machine.monitor_step_eq_some.mp hs
  obtain ⟨w, stored⟩ := x
  obtain ⟨v, stored'⟩ := y
  simp only [windows] at hw hy
  subst hy
  obtain ⟨howner, hfaithful⟩ := hx
  simp only at howner hfaithful
  -- a launched process is not the owner
  have hlaunch : ∀ g, w.guis g = .absent → ∀ k, w.name.owner = some k →
      Function.update w.guis g Gui.launched k = .owner := by
    intro g hg k hk
    have hkg : k ≠ g := by
      rintro rfl
      rw [howner k hk] at hg
      cases hg
    rw [Function.update_of_ne hkg]
    exact howner k hk
  cases a with
  | watch l =>
      simp only [Windows.step, Option.map_eq_some_iff] at hw
      obtain ⟨q, hq, rfl⟩ := hw
      exact ⟨howner, faithful_step hfaithful hq⟩
  | enter k =>
      simp only [Windows.step, Option.ite_none_right_eq_some] at hw
      obtain ⟨-, hw⟩ := hw
      split at hw
      · cases hw
        exact ⟨howner, hfaithful⟩
      · cases hw
        exact ⟨howner, hfaithful⟩
  | launch k g =>
      simp only [Windows.step, Option.ite_none_right_eq_some, Option.some.injEq] at hw
      obtain ⟨⟨-, hg⟩, rfl⟩ := hw
      exact ⟨hlaunch g hg, hfaithful⟩
  | launchFails k =>
      simp only [Windows.step, Option.ite_none_right_eq_some, Option.some.injEq] at hw
      obtain ⟨-, rfl⟩ := hw
      exact ⟨howner, hfaithful⟩
  | store k =>
      simp only [Windows.step, Option.ite_none_right_eq_some, Option.some.injEq] at hw
      obtain ⟨-, rfl⟩ := hw
      exact ⟨howner, faithful_store hfaithful⟩
  | userLaunch g =>
      simp only [Windows.step, Option.ite_none_right_eq_some, Option.some.injEq] at hw
      obtain ⟨hg, rfl⟩ := hw
      exact ⟨hlaunch g hg, hfaithful⟩
  | claim g =>
      simp only [Windows.step, Option.ite_none_right_eq_some, Option.map_eq_some_iff] at hw
      obtain ⟨hg, n, hn, rfl⟩ := hw
      obtain ⟨-, rfl⟩ := BusName.request_eq_some.mp hn
      constructor
      · intro k hk
        have hkg : g = k := Option.some.inj hk
        subst hkg
        simp [Windows.announce]
      · exact faithful_send_self hfaithful (some g)
  | disconnect g =>
      simp only [Windows.step, Option.ite_none_right_eq_some, Option.some.injEq] at hw
      obtain ⟨-, rfl⟩ := hw
      exact tracked_close ⟨howner, hfaithful⟩ g .closed
  | exit g =>
      simp only [Windows.step, Option.ite_none_right_eq_some, Option.some.injEq] at hw
      obtain ⟨-, rfl⟩ := hw
      exact tracked_close ⟨howner, hfaithful⟩ g .gone
  | other c =>
      cases c with
      | malformed =>
          cases hw
          exact ⟨howner, faithful_send_other hfaithful rfl⟩
      | ownerChanged n newOwner =>
          simp only [Windows.step, Option.ite_none_left_eq_some, Option.some.injEq] at hw
          obtain ⟨hn, rfl⟩ := hw
          exact ⟨howner, faithful_send_other hfaithful (by simp [about, hn])⟩

/-- With no window and nothing under way, the flag is set exactly if a `spawn_gui` wrote it
last. -/
theorem launchable_iff_followed (x : Windows × Bool) (hx : Tracked name x) :
    Launchable x ↔ Followed x := by
  obtain ⟨howner, hfaithful⟩ := hx
  apply imp_congr_right
  rintro ⟨hgone, -, hqueue⟩
  have hnone : x.1.name.owner = none := by
    cases ho : x.1.name.owner with
    | none => rfl
    | some g =>
        have hg := hgone g
        rw [howner g ho] at hg
        cases hg
  constructor
  · intro hflag
    cases hstored : x.2 with
    | false => rfl
    | true => exact absurd (hfaithful.store hstored) (by simpa [Presence.isRunning] using hflag)
  · intro hstored
    cases hflag : x.1.presence.running with
    | false => exact hflag
    | true =>
        rcases hfaithful.running hflag with hs | ⟨-, hacc⟩
        · rw [hstored] at hs
          cases hs
        · simp [hnone, hqueue, verdict] at hacc

/-- **"Show window" works exactly while every store is followed up.** Take any number of
window processes and `spawn_gui` calls, and any interleaving with the watch thread, whose
every call may fail. Whenever no window is alive, no `spawn_gui` is in progress and no
signal is waiting, the flag is unset, in every state the run visits, exactly when in each
of these states the watch thread has written the flag since the last `spawn_gui` did.
SOURCE: spawn.rs:26-119, client.rs:65-121 -/
theorem show_window_iff (name : String) (run : List Windows.Label) :
    (writers name).Everywhere Launchable ({}, false) run ↔
      (writers name).Everywhere Followed ({}, false) run := by
  apply Machine.everywhere_congr (I := Tracked name) tracked_step launchable_iff_followed
  refine ⟨fun g hg => ?_, ?_⟩
  · cases hg
  · exact ⟨fun hs => (by cases hs), fun _ => rfl, fun b hb => (by cases hb),
      fun hs => (by cases hs), fun hr => (by cases hr)⟩

/-- The watch thread finds no session bus; a window is shown and closed. -/
def unwatched : List Windows.Label :=
  [.watch (.session false), .enter 0, .launch 0 0, .store 0, .claim 0, .exit 0]

/-- The watch thread follows; the window crashes before it claims the name. -/
def unclaimed : List Windows.Label :=
  [.watch (.session true), .watch (.proxy true), .watch (.subscribe true),
    .watch (.ask true true), .watch .seed, .enter 0, .launch 0 0, .store 0, .exit 0]

/-- The watch thread applies the claim and the release before `spawn_gui` stores. -/
def overtaken : List Windows.Label :=
  [.watch (.session true), .watch (.proxy true), .watch (.subscribe true),
    .watch (.ask true true), .watch .seed, .enter 0, .launch 0 0, .claim 0, .exit 0,
    .watch .applyNext, .watch .applyNext, .store 0]

/-- The run ends with no window and nothing under way, and the flag set. -/
def Stuck (run : List Windows.Label) : Prop :=
  ∃ y, (writers guiBusName).run ({}, false) run = some y ∧ WindowsIdle y.1 ∧ ¬ Launchable y

/-- A run that ends with no window and the flag set is stuck. -/
theorem stuck_of_run {run : List Windows.Label} {y : Windows × Bool}
    (hr : (writers guiBusName).run ({}, false) run = some y) (hidle : WindowsIdle y.1)
    (hflag : y.1.presence.isRunning = true) : Stuck run := by
  refine ⟨y, hr, hidle, fun h => ?_⟩
  have hunset := h hidle
  rw [hflag] at hunset
  cases hunset

/-- All three leave "Show window" a no-op. -/
theorem show_window_stuck : Stuck unwatched ∧ Stuck unclaimed ∧ Stuck overtaken := by
  refine ⟨stuck_of_run rfl ⟨fun g => ?_, fun k => ?_, rfl⟩ rfl,
    stuck_of_run rfl ⟨fun g => ?_, fun k => ?_, rfl⟩ rfl,
    stuck_of_run rfl ⟨fun g => ?_, fun k => ?_, rfl⟩ rfl⟩
  · cases g <;> rfl
  · cases k <;> rfl
  · cases g <;> rfl
  · cases k <;> rfl
  · cases g <;> rfl
  · cases k <;> rfl

end Windows

end SleepBlocker.Analysis
