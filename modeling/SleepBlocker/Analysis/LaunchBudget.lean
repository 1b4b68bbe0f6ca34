import SleepBlocker.Analysis.PresenceFlag
import SleepBlocker.Computation.Amortized

/-!
# Clicks on "Show window" do not pile up windows

`spawn_gui` launches a process only where it has found the flag unset, and sets the flag
afterwards. What unsets it again is the watch thread: once with what it seeds, and then for each
time the name is given up. So the flag, the seed that is still to come and the releases that
are still queued are what can be spent on launches, and the only income are releases of the
name. `&mut self` in the tray's callbacks makes the calls of `spawn_gui` take turns.
-/

set_option autoImplicit false

namespace SleepBlocker.Analysis

open SleepBlocker.Computation SleepBlocker.Model

/-- A `spawn_gui` is called only when no other is in progress. -/
def TakeTurns (w : Windows) : Windows.Label → Prop
  | .enter _ => ∀ k, w.spawns k = .idle
  | _ => True

/-- The step launches a window. -/
def launches : Windows.Label → Bool
  | .launch _ _ => true
  | _ => false

/-- How often the step frees the window's name. -/
def freed (w : Windows) : Windows.Label → ℕ
  | .disconnect g | .exit g => if w.name.owner = some g then 1 else 0
  | _ => 0

/-- At most one `spawn_gui` is in progress. -/
def OneSpawn (w : Windows) : Prop :=
  ∀ k l, w.spawns k ≠ .idle → w.spawns l ≠ .idle → k = l

/-! ## What can be spent -/

open Classical in
/-- A launch that the flag allows or a `spawn_gui` has before it. After a launch nothing is
left, since the flag is about to be set. -/
noncomputable def allowed (spawns : ℕ → Spawn) (running : Bool) : ℕ :=
  if ∃ k, spawns k = .spawned then 0
  else if running = false ∨ ∃ k, spawns k = .checked then 1 else 0

/-- The seed may yet unset the flag. -/
def unseeded (p : Presence) : ℕ :=
  match p.watch with
  | .following | .stopped => 0
  | _ => 1

/-- The releases of the name that wait in the queue. -/
def queuedReleases (name : String) (p : Presence) : ℕ :=
  p.queue.countP fun c => about name c == some false

/-- The launches that are still to be had without a window going away. -/
noncomputable def launchCredit (name : String) (w : Windows) : ℕ :=
  allowed w.spawns w.presence.running + unseeded w.presence + queuedReleases name w.presence

variable {name : String} {p q : Presence} {w v : Windows} {owned : Bool} {spawns : ℕ → Spawn}

/-- At most one launch is allowed at a time. -/
theorem allowed_le_one (spawns : ℕ → Spawn) (running : Bool) : allowed spawns running ≤ 1 := by
  unfold allowed
  split_ifs <;> omega

/-- Only an unset flag allows more. -/
theorem allowed_set (spawns : ℕ → Spawn) (running b : Bool) :
    allowed spawns b ≤ allowed spawns running + if b then 0 else 1 := by
  cases b with
  | false =>
      have h := allowed_le_one spawns false
      simp only [Bool.false_eq_true, if_false]
      omega
  | true =>
      unfold allowed
      split_ifs <;> simp_all

/-- After a launch no other is allowed before its `spawn_gui` has stored the flag. -/
theorem allowed_of_spawned {k : ℕ} (h : spawns k = .spawned) (running : Bool) :
    allowed spawns running = 0 :=
  if_pos ⟨k, h⟩

/-- With no `spawn_gui` under way the flag alone decides. -/
theorem allowed_of_idle (h : ∀ k, spawns k = .idle) (running : Bool) :
    allowed spawns running = if running then 0 else 1 := by
  unfold allowed
  cases running <;> simp [h]

/-- With no other `spawn_gui` in progress, the one that has found the flag unset has its
launch before it. -/
theorem allowed_of_checked {k : ℕ} (hone : ∀ l, spawns l ≠ .idle → k = l)
    (h : spawns k = .checked) (running : Bool) : allowed spawns running = 1 := by
  have hspawned : ¬ ∃ l, spawns l = .spawned := by
    rintro ⟨l, hl⟩
    obtain rfl := hone l (by simp [hl])
    simp [hl] at h
  rw [allowed, if_neg hspawned, if_pos (Or.inr ⟨k, h⟩)]

/-! ## The watch thread -/

/-- A change that is sent adds a release to the queue only if it is one. -/
theorem queuedReleases_send (name : String) (p : Presence) (c : Change) :
    queuedReleases name (p.send c) ≤
      queuedReleases name p + if about name c = some false then 1 else 0 := by
  unfold Presence.send queuedReleases
  split
  · simp [List.countP_append, List.countP_singleton]
  · exact Nat.le_add_right _ _

/-- The watch thread spends what it adds to the flag. -/
theorem watch_step (spawns : ℕ → Spawn) {l : Presence.Label} (hs : p.step name owned l = some q) :
    allowed spawns q.running + unseeded q + queuedReleases name q ≤
      allowed spawns p.running + unseeded p + queuedReleases name p := by
  cases l with
  | session ok | proxy ok | subscribe ok =>
      simp only [Presence.step, Option.ite_none_right_eq_some, Option.some.injEq] at hs
      obtain ⟨hw, rfl⟩ := hs
      cases ok <;> simp [unseeded, hw, queuedReleases]
  | ask convertible ok =>
      simp only [Presence.step, Option.ite_none_right_eq_some, Option.some.injEq] at hs
      obtain ⟨hw, rfl⟩ := hs
      simp [unseeded, hw, queuedReleases]
  | seed =>
      have hseed : ∀ b seed, p.watch = .seeding seed →
          allowed spawns b + unseeded { p with watch := .following, running := b } +
              queuedReleases name p ≤
            allowed spawns p.running + unseeded p + queuedReleases name p := by
        intro b seed hw
        have hset := allowed_set spawns p.running b
        simp only [unseeded, hw]
        split at hset <;> omega
      simp only [Presence.step] at hs
      split at hs
      · rename_i hw
        cases hs
        simp [unseeded, hw, queuedReleases]
      · rename_i hw
        cases hs
        exact hseed false _ hw
      · rename_i b hw
        cases hs
        exact hseed b _ hw
      · cases hs
  | applyNext =>
      simp only [Presence.step] at hs
      split at hs
      · rename_i c rest hw hq
        simp only [Option.some.injEq] at hs
        subst hs
        have hqueue : queuedReleases name p =
            queuedReleases name { p with queue := rest } +
              if about name c = some false then 1 else 0 := by
          simp [queuedReleases, hq, List.countP_cons]
        rw [apply_eq, hqueue]
        show allowed spawns ((about name c).getD p.running) + unseeded p +
          queuedReleases name { p with queue := rest } ≤ _
        cases hc : about name c with
        | none =>
            simp only [Option.getD_none]
            omega
        | some b =>
            -- a release in the queue pays for the flag
            have hset := allowed_set spawns p.running b
            simp only [Option.getD_some, Option.some.injEq]
            cases b <;> simp_all
            omega
      · cases hs

/-! ## One step -/

/-- What a step is for the `spawn_gui` calls and the flag. -/
inductive SpawnStep (name : String) (w v : Windows) : Windows.Label → Prop
  | watch (l : Presence.Label) (hspawns : v.spawns = w.spawns)
      (hs : w.presence.step name w.name.owner.isSome l = some v.presence) :
      SpawnStep name w v (.watch l)
  | enter (k : ℕ) (hrunning : w.presence.running = false) (hpresence : v.presence = w.presence)
      (hspawns : v.spawns = Function.update w.spawns k .checked) : SpawnStep name w v (.enter k)
  | launch (k g : ℕ) (hk : w.spawns k = .checked) (hpresence : v.presence = w.presence)
      (hspawns : v.spawns = Function.update w.spawns k .spawned) :
      SpawnStep name w v (.launch k g)
  | launchFails (k : ℕ) (hk : w.spawns k = .checked) (hpresence : v.presence = w.presence)
      (hspawns : v.spawns = Function.update w.spawns k .idle) : SpawnStep name w v (.launchFails k)
  | store (k : ℕ) (hk : w.spawns k = .spawned) (hpresence : v.presence = w.presence.set true)
      (hspawns : v.spawns = Function.update w.spawns k .idle) : SpawnStep name w v (.store k)
  /-- The others, of which some are announced by the bus. -/
  | bus (a : Windows.Label) (ha : launches a = false) (hspawns : v.spawns = w.spawns)
      (hpresence : v.presence = w.presence ∨ ∃ c, v.presence = w.presence.send c ∧
        (about name c = some false → freed w a = 1)) : SpawnStep name w v a

/-- The connection of a process closes, and what is announced frees the name. -/
theorem closeConnection_cases (w : Windows) (name : String) (g : ℕ) :
    (w.closeConnection name g).spawns = w.spawns ∧
      ((w.closeConnection name g).presence = w.presence ∨ ∃ c,
        (w.closeConnection name g).presence = w.presence.send c ∧
          (about name c = some false → (if w.name.owner = some g then 1 else 0) = 1)) := by
  unfold Windows.closeConnection
  split
  · rename_i hg
    exact ⟨rfl, Or.inr ⟨_, rfl, fun _ => rfl⟩⟩
  · exact ⟨rfl, Or.inl rfl⟩

/-- Every step moves the launches as `SpawnStep` says. -/
theorem spawnStep_of_step {a : Windows.Label} (hs : (windows name).step w a = some v) :
    SpawnStep name w v a := by
  cases a with
  | watch l =>
      simp only [windows, Windows.step, Option.map_eq_some_iff] at hs
      obtain ⟨q, hq, rfl⟩ := hs
      exact .watch l rfl hq
  | enter k =>
      simp only [windows, Windows.step, Option.ite_none_right_eq_some] at hs
      obtain ⟨-, hs⟩ := hs
      cases hrunning : w.presence.isRunning with
      | true =>
          rw [hrunning, if_pos rfl, Option.some.injEq] at hs
          exact hs ▸ .bus _ rfl rfl (Or.inl rfl)
      | false =>
          rw [hrunning, if_neg (by simp), Option.some.injEq] at hs
          exact hs ▸ .enter k hrunning rfl rfl
  | launch k g =>
      simp only [windows, Windows.step, Option.ite_none_right_eq_some, Option.some.injEq] at hs
      obtain ⟨⟨hk, -⟩, rfl⟩ := hs
      exact .launch k g hk rfl rfl
  | launchFails k =>
      simp only [windows, Windows.step, Option.ite_none_right_eq_some, Option.some.injEq] at hs
      obtain ⟨hk, rfl⟩ := hs
      exact .launchFails k hk rfl rfl
  | store k =>
      simp only [windows, Windows.step, Option.ite_none_right_eq_some, Option.some.injEq] at hs
      obtain ⟨hk, rfl⟩ := hs
      exact .store k hk rfl rfl
  | userLaunch g =>
      simp only [windows, Windows.step, Option.ite_none_right_eq_some, Option.some.injEq] at hs
      obtain ⟨-, rfl⟩ := hs
      exact .bus _ rfl rfl (Or.inl rfl)
  | claim g =>
      simp only [windows, Windows.step, Option.ite_none_right_eq_some,
        Option.map_eq_some_iff] at hs
      obtain ⟨-, n, hn, rfl⟩ := hs
      obtain ⟨-, rfl⟩ := BusName.request_eq_some.mp hn
      exact .bus _ rfl rfl (Or.inr ⟨_, rfl, fun h => by simp [about] at h⟩)
  | disconnect g | exit g =>
      simp only [windows, Windows.step, Option.ite_none_right_eq_some, Option.some.injEq] at hs
      obtain ⟨-, rfl⟩ := hs
      obtain ⟨hspawns, hpresence⟩ := closeConnection_cases _ name g
      exact .bus _ rfl hspawns hpresence
  | other c =>
      cases c with
      | malformed =>
          cases hs
          exact .bus _ rfl rfl (Or.inr ⟨_, rfl, fun h => by simp [about] at h⟩)
      | ownerChanged n newOwner =>
          simp only [windows, Windows.step, Option.ite_none_left_eq_some, Option.some.injEq] at hs
          obtain ⟨hn, rfl⟩ := hs
          exact .bus _ rfl rfl (Or.inr ⟨_, rfl, fun h => by simp [about, hn] at h⟩)

/-- A `spawn_gui` moves while it is the only one in progress. -/
theorem oneSpawn_update {k : ℕ} (hone : ∀ l, w.spawns l ≠ .idle → k = l) {x : Spawn}
    (hspawns : v.spawns = Function.update w.spawns k x) :
    OneSpawn v ∧ ∀ l, v.spawns l ≠ .idle → k = l := by
  have hall : ∀ l, v.spawns l ≠ .idle → k = l := by
    intro l hl
    by_contra hne
    rw [hspawns, Function.update_of_ne (Ne.symm hne)] at hl
    exact hne (hone l hl)
  exact ⟨fun i j hi hj => (hall i hi).symm.trans (hall j hj), hall⟩

/-- As long as callbacks take turns, one `spawn_gui` is under way at most. -/
theorem oneSpawn_step {a : Windows.Label} (h : SpawnStep name w v a) (ha : TakeTurns w a)
    (hw : OneSpawn w) : OneSpawn v := by
  cases h with
  | watch l hspawns => rwa [OneSpawn, hspawns]
  | enter k hrunning hpresence hspawns =>
      exact (oneSpawn_update (fun l hl => absurd (ha l) hl) hspawns).1
  | launch k g hk hpresence hspawns =>
      exact (oneSpawn_update (fun l hl => hw k l (by simp [hk]) hl) hspawns).1
  | launchFails k hk hpresence hspawns =>
      exact (oneSpawn_update (fun l hl => hw k l (by simp [hk]) hl) hspawns).1
  | store k hk hpresence hspawns =>
      exact (oneSpawn_update (fun l hl => hw k l (by simp [hk]) hl) hspawns).1
  | bus _ _ hspawns => rwa [OneSpawn, hspawns]

/-- A launch is paid for, and only a release of the name is income. -/
theorem launchCredit_step {a : Windows.Label} (h : SpawnStep name w v a) (ha : TakeTurns w a)
    (hw : OneSpawn w) :
    (if launches a then 1 else 0) + launchCredit name v ≤ launchCredit name w + freed w a := by
  unfold launchCredit
  cases h with
  | watch l hspawns hs =>
      have hwatch := watch_step w.spawns hs
      simpa [launches, freed, hspawns] using hwatch
  | enter k hrunning hpresence hspawns =>
      have hbefore := allowed_of_idle ha w.presence.running
      have hafter := allowed_le_one v.spawns v.presence.running
      rw [hpresence] at hafter ⊢
      simp [launches, freed, hrunning] at hbefore hafter ⊢
      omega
  | launch k g hk hpresence hspawns =>
      -- from here on the flag allows nothing until it is set
      have hbefore := allowed_of_checked (fun l hl => hw k l (by simp [hk]) hl) hk
        w.presence.running
      have hspawned : v.spawns k = .spawned := by simp [hspawns]
      have hafter := allowed_of_spawned hspawned v.presence.running
      rw [hpresence] at hafter ⊢
      simp only [launches, freed, if_true]
      omega
  | launchFails k hk hpresence hspawns =>
      have hbefore := allowed_of_checked (fun l hl => hw k l (by simp [hk]) hl) hk
        w.presence.running
      have hafter := allowed_le_one v.spawns v.presence.running
      rw [hpresence] at hafter ⊢
      simp only [launches, freed, Bool.false_eq_true, if_false]
      omega
  | store k hk hpresence hspawns =>
      have hidle : ∀ l, v.spawns l = .idle := by
        intro l
        by_contra hl
        obtain rfl := (oneSpawn_update (fun l hl => hw k l (by simp [hk]) hl) hspawns).2 l hl
        simp [hspawns] at hl
      have hafter : allowed v.spawns v.presence.running = 0 := by
        rw [allowed_of_idle hidle, hpresence]
        rfl
      rw [hafter, hpresence]
      simp only [launches, freed, Bool.false_eq_true, if_false]
      show 0 + (0 + unseeded w.presence + queuedReleases name w.presence) ≤ _
      omega
  | bus a hl hspawns hpresence =>
      rw [hl, hspawns]
      rcases hpresence with hsame | ⟨c, hsend, hfreed⟩
      · rw [hsame]
        simp
      · have hqueue := queuedReleases_send name w.presence c
        have hkept : (w.presence.send c).running = w.presence.running ∧
            unseeded (w.presence.send c) = unseeded w.presence := by
          unfold Presence.send
          split <;> exact ⟨rfl, rfl⟩
        rw [hsend, hkept.1, hkept.2]
        simp only [Bool.false_eq_true, if_false]
        split at hqueue
        · rename_i hc
          have hpaid := hfreed hc
          omega
        · omega

/-! ## Runs -/

/-- A run launches no more than its credit and the windows that have gone. -/
theorem launches_le_credit {run : List Windows.Label} (hr : (windows name).run w run = some v)
    (hturns : (windows name).Along TakeTurns w run) (hw : OneSpawn w) :
    run.countP launches ≤ launchCredit name w + (windows name).total freed w run := by
  have hbound := Machine.total_add_le (M := windows name) (I := OneSpawn) (C := TakeTurns)
    (launchCredit name) (fun _ a => if launches a then 1 else 0) freed
    (fun _ _ _ hs ha hw => oneSpawn_step (spawnStep_of_step hs) ha hw)
    (fun _ _ _ hs ha hw => launchCredit_step (spawnStep_of_step hs) ha hw) hr hturns hw
  rw [Machine.total_of_label hr] at hbound
  have hcount : (run.map fun a => if launches a then 1 else 0).sum = run.countP launches := by
    clear hbound hturns hr
    induction run with
    | nil => rfl
    | cons a run ih => simp [List.countP_cons, ih, Nat.add_comm]
  omega

/-- The flag is set, and nothing that is under way will unset it or launch. -/
structure ShowsWindow (name : String) (w : Windows) : Prop where
  running : w.presence.running = true
  spawns : ∀ k, w.spawns k = .idle
  watch : w.presence.watch = .following ∨ w.presence.watch = .stopped
  queue : ∀ c ∈ w.presence.queue, about name c ≠ some false

/-- While a window is shown there is no credit. -/
theorem launchCredit_showsWindow (h : ShowsWindow name w) : launchCredit name w = 0 := by
  have hallowed : allowed w.spawns w.presence.running = 0 := by
    rw [allowed_of_idle h.spawns, h.running]
    rfl
  have hseed : unseeded w.presence = 0 := by
    rcases h.watch with hwatch | hwatch <;> simp [unseeded, hwatch]
  have hqueue : queuedReleases name w.presence = 0 := by
    rw [queuedReleases, List.countP_eq_zero]
    intro c hc
    simpa using h.queue c hc
  rw [launchCredit, hallowed, hseed, hqueue]

/-- **Clicks on "Show window" do not pile up windows.** Take any interleaving of clicks, of
window processes with any lives, and of the watch thread, whose every call may fail. The clicks
launch at most two windows more than the name of the window has been given up; and from a state
in which the flag is set and nothing is under way they launch none before that.
SOURCE: spawn.rs:36-84, spawn.rs:91-119 -/
theorem clicks_do_not_pile_up (name : String) {run : List Windows.Label} {w : Windows}
    (hr : (windows name).run {} run = some w)
    (hturns : (windows name).Along TakeTurns {} run) :
    run.countP launches ≤ 2 + (windows name).total freed {} run ∧
      ∀ before during v, run = before ++ during → (windows name).run {} before = some v →
        ShowsWindow name v →
        during.countP launches ≤ (windows name).total freed v during := by
  have hstart : OneSpawn ({} : Windows) := fun k l hk => absurd rfl hk
  constructor
  · have hbound := launches_le_credit hr hturns hstart
    have hcredit : launchCredit name {} = 2 := by
      rw [launchCredit, allowed_of_idle fun _ => rfl]
      rfl
    omega
  · rintro before during v rfl hv hshows
    obtain ⟨u, hu, hr⟩ := Machine.run_append_eq_some.mp hr
    rw [hv, Option.some.injEq] at hu
    subst hu
    obtain ⟨hbefore, hduring⟩ := (Machine.along_append hv).mp hturns
    have hone : OneSpawn v := by
      refine (Machine.everywhere_of_along ?_ hbefore hstart).last hv
      exact fun _ _ _ hs ha hw => oneSpawn_step (spawnStep_of_step hs) ha hw
    have hbound := launches_le_credit hr hduring hone
    rwa [launchCredit_showsWindow hshows, Nat.zero_add] at hbound

/-- A click before the seed is stored and one after it, which launch two windows, and one that
finds the flag set. -/
def clicksAroundSeed : List Windows.Label :=
  [.watch (.session true), .watch (.proxy true), .watch (.subscribe true), .watch (.ask true true),
    .enter 0, .launch 0 0, .store 0, .watch .seed, .enter 0, .launch 0 1, .store 0, .enter 0,
    .claim 0, .disconnect 1]

/-- No more than two is sharp. -/
theorem clicks_do_not_pile_up_seed :
    clicksAroundSeed.countP launches = 2 ∧
      (windows guiBusName).total freed {} clicksAroundSeed = 0 ∧
      clicksAroundSeed.countP launches ≤
        2 + (windows guiBusName).total freed {} clicksAroundSeed := by
  refine ⟨by decide, by decide, ?_⟩
  have hturns : (windows guiBusName).Along TakeTurns {} clicksAroundSeed := by
    refine .cons rfl trivial (.cons rfl trivial (.cons rfl trivial (.cons rfl trivial
      (.cons rfl (fun k => ?_) (.cons rfl trivial (.cons rfl trivial (.cons rfl trivial
      (.cons rfl (fun k => ?_) (.cons rfl trivial (.cons rfl trivial
      (.cons rfl (fun k => ?_) (.cons rfl trivial (.cons rfl trivial trivial)))))))))))))
    · rfl
    · cases k <;> rfl
    · cases k <;> rfl
  exact (clicks_do_not_pile_up guiBusName rfl hturns).1

end SleepBlocker.Analysis
