import SleepBlocker.Computation.Amortized
import SleepBlocker.Model.Desktop

/-!
# Connecting ends

Every step of `DaemonClient::connect` brings it nearer to its end, whatever the bus and the
daemons answer: the polls are counted, and everything else is done once. And it is never stuck,
since each of its calls may fail in the place of an answer that does not come. So a window
process has connected or given up after at most 48 steps, and has started at most one daemon.
-/

set_option autoImplicit false

namespace SleepBlocker.Analysis

open SleepBlocker.Computation SleepBlocker.Model

/-- `main` has been entered and `connect` has not returned. -/
def connecting : GuiProcess → Bool
  | .launched | .connected | .claimed | .polling _ | .reading _ | .asking _ => true
  | _ => false

/-- A call that `connect` makes. -/
def isConnectCall : GuiProcess.Label → Bool
  | .session _ | .claim _ | .probe _ | .poll _ | .read _ | .askTray _ => true
  | _ => false

/-- The step is one of `connect`. -/
def connects (g : GuiProcess) (l : GuiProcess.Label) : Bool := connecting g && isConnectCall l

/-- The step is a poll of the daemon that was started. -/
def polls (_ : GuiProcess) : GuiProcess.Label → Bool
  | .poll _ => true
  | _ => false

/-- How often process `w` does this in a run. -/
def times (does : GuiProcess → GuiProcess.Label → Bool) (w : ℕ) (x : Desktop) : Desktop.Label → ℕ
  | .daemon _ _ => 0
  | .gui v l => if v = w ∧ does (x.guis w) l = true then 1 else 0

/-- `connect` waits only where it can go on: there are polls left, and a read is not over. -/
def goesOn : GuiProcess → Bool
  | .polling left => left != 0
  | .reading (.returned _) => false
  | _ => true

/-! ## What is left of `connect` -/

/-- The calls that `read_status` has before it. -/
def readsLeft : Reading → ℕ
  | .idle | .returned _ => 4
  | .sleep _ => 3
  | .screen _ _ => 2
  | .keep _ _ _ => 1

/-- The calls that `connect` has left at most. -/
def connectsLeft : GuiProcess → ℕ
  | .absent | .launched => 48
  | .connected => 47
  | .claimed => 46
  | .polling left => left + 5
  | .reading r => readsLeft r + 1
  | .asking _ => 1
  | .opened _ _ | .failed _ | .closed | .gone => 0

/-- The polls that `connect` has left at most. -/
def pollsLeft : GuiProcess → ℕ
  | .absent | .launched | .connected | .claimed => 40
  | .polling left => left
  | _ => 0

/-- The daemons that the process may still start. -/
def startsLeft : GuiProcess → ℕ
  | .absent | .launched | .connected | .claimed => 1
  | _ => 0

section Steps

variable {g g' : GuiProcess} {l : GuiProcess.Label}

/-- Each read brings `read_status` nearer to its end. -/
theorem take_cases (r : Reading) (value : Option Bool) :
    (∃ status, r.take value = .returned status) ∨
      (∀ status, r.take value ≠ .returned status) ∧ readsLeft (r.take value) < readsLeft r := by
  cases value with
  | none => exact Or.inl ⟨none, rfl⟩
  | some b =>
      cases r with
      | keep => exact Or.inl ⟨_, rfl⟩
      | idle | returned | sleep | screen =>
          exact Or.inr ⟨fun status h => by simp [Reading.take] at h,
            by simp [Reading.take, readsLeft]⟩

/-- What a read does to `connect`. -/
theorem read_cases {r : Reading} {value : Option Bool}
    (hs : (GuiProcess.reading r).step (.read value) = some g') :
    (∃ last, g' = .asking last) ∨ g' = .failed .daemonUnavailable ∨
      ∃ r', g' = .reading r' ∧ (∀ status, r' ≠ .returned status) ∧ readsLeft r' < readsLeft r := by
  simp only [GuiProcess.step] at hs
  rcases take_cases r value with ⟨status, htake⟩ | ⟨hgoes, hless⟩
  · rw [htake] at hs
    cases status <;> cases hs <;> simp
  · split at hs
    · rename_i h
      exact absurd h (hgoes _)
    · rename_i h
      exact absurd h (hgoes _)
    · cases hs
      exact Or.inr (Or.inr ⟨_, rfl, hgoes, hless⟩)

/-- What a step costs is taken out of what is left. -/
theorem connect_step (hs : g.step l = some g') :
    (if connects g l then 1 else 0) + connectsLeft g' ≤ connectsLeft g ∧
      (if polls g l then 1 else 0) + pollsLeft g' ≤ pollsLeft g ∧
      (if g.spawnsDaemon l then 1 else 0) + startsLeft g' ≤ startsLeft g ∧
      (goesOn g = true → goesOn g' = true) := by
  have hread := @read_cases g'
  unfold GuiProcess.step at hs
  split at hs
  case h_1 =>
    cases hs
    decide
  case h_2 ok =>
    cases ok <;> cases hs <;> decide
  case h_3 reply =>
    cases reply <;> cases hs <;> decide
  case h_4 ok =>
    cases ok <;> cases hs <;> decide
  case h_5 left ok =>
    cases ok with
    | true =>
        cases hs
        simp [connects, connecting, isConnectCall, connectsLeft, readsLeft, polls, pollsLeft,
          GuiProcess.spawnsDaemon, startsLeft, goesOn]
    | false =>
        by_cases hleft : left = 0
        · subst hleft
          cases hs
          decide
        · rw [if_neg (by simp), if_neg hleft, Option.some.injEq] at hs
          subst hs
          simp [connects, connecting, isConnectCall, connectsLeft, polls, pollsLeft,
            GuiProcess.spawnsDaemon, startsLeft, goesOn, hleft]
          omega
  case h_6 r value =>
    rcases hread hs with ⟨last, rfl⟩ | rfl | ⟨r', rfl, hgoes, hless⟩
    · cases r <;> simp [connects, connecting, isConnectCall, connectsLeft, readsLeft, polls,
        pollsLeft, GuiProcess.spawnsDaemon, startsLeft, goesOn]
    · cases r <;> simp [connects, connecting, isConnectCall, connectsLeft, readsLeft, polls,
        pollsLeft, GuiProcess.spawnsDaemon, startsLeft, goesOn]
    · have hagain : goesOn (.reading r') = true := by
        unfold goesOn
        split
        · cases ‹GuiProcess.reading r' = .polling _›
        · rename_i status hr
          cases hr
          exact absurd rfl (hgoes status)
        · rfl
      simp only [connects, connecting, isConnectCall, connectsLeft, polls, pollsLeft,
        GuiProcess.spawnsDaemon, startsLeft, hagain]
      simp
      omega
  case h_7 last value =>
    cases hs
    simp [connects, connecting, isConnectCall, connectsLeft, polls, pollsLeft,
      GuiProcess.spawnsDaemon, startsLeft, goesOn]
  case h_8 client r value =>
    split at hs <;> cases hs <;> simp [connects, connecting, connectsLeft, polls, pollsLeft,
      GuiProcess.spawnsDaemon, startsLeft, goesOn]
  case h_9 client r request dispatched =>
    simp only [Option.ite_none_right_eq_some, Option.some.injEq] at hs
    obtain ⟨-, rfl⟩ := hs
    simp [connects, connecting, connectsLeft, polls, pollsLeft, GuiProcess.spawnsDaemon,
      startsLeft, goesOn]
  case h_10 client r =>
    cases hs
    simp [connects, connecting, connectsLeft, polls, pollsLeft, GuiProcess.spawnsDaemon,
      startsLeft, goesOn]
  case h_11 =>
    simp only [Option.ite_none_right_eq_some, Option.some.injEq] at hs
    obtain ⟨-, rfl⟩ := hs
    simp [connects, isConnectCall, connectsLeft, polls, pollsLeft, GuiProcess.spawnsDaemon,
      startsLeft, goesOn]
  case h_12 => cases hs

/-- The next call of `connect` may fail, and then it goes on. That a call may always fail is
what `method_timeout` of client.rs:74 stands for: every call of the connection comes back
within two seconds, with an error where nobody answers. `Desktop.permits` lets it. -/
theorem connect_goes_on (hg : connecting g = true) (hgoes : goesOn g = true) (x : Desktop)
    (w : ℕ) (hw : x.guis w = g) :
    ∃ l y, connects g l = true ∧ desktop.step x (.gui w l) = some y := by
  have hcall : ∀ l g', connects g l = true → x.permits w l = true → x.deliver l = some x.fleet →
      g.step l = some g' → ∃ l y, connects g l = true ∧ desktop.step x (.gui w l) = some y := by
    intro l g' hl hpermits hdeliver hs
    exact ⟨l, _, hl, Desktop.gui_eq_some.mpr ⟨hpermits, g', x.fleet, hw ▸ hs, hdeliver, rfl⟩⟩
  cases g with
  | launched => exact hcall (.session false) _ rfl rfl rfl rfl
  | connected => exact hcall (.claim .error) _ rfl rfl rfl rfl
  | claimed => exact hcall (.probe false) _ rfl rfl rfl rfl
  | polling left =>
      cases left with
      | zero => cases hgoes
      | succ left => exact hcall (.poll false) _ rfl rfl rfl rfl
  | reading r => exact hcall (.read none) _ rfl rfl rfl rfl
  | asking last => exact hcall (.askTray none) _ rfl rfl rfl rfl
  | absent | opened | failed | closed | gone => cases hg

end Steps

/-! ## One process among others -/

/-- What bounds the steps of a process by what is left of it, bounds them in any run beside the
other processes and the daemons. -/
theorem total_times_le {does : GuiProcess → GuiProcess.Label → Bool} {left : GuiProcess → ℕ}
    (hdoes : ∀ g l g', GuiProcess.step g l = some g' →
      (if does g l then 1 else 0) + left g' ≤ left g)
    {x y : Desktop} {run : List Desktop.Label} (hr : desktop.run x run = some y) (w : ℕ) :
    desktop.total (times does w) x run ≤ left (x.guis w) := by
  refine Machine.total_le (fun x => left (x.guis w)) _ ?_ hr
  intro x a y hs
  cases a with
  | daemon p l =>
      obtain ⟨-, f, -, rfl⟩ := Desktop.daemon_eq_some.mp hs
      simp [times]
  | gui v l =>
      obtain ⟨-, g, f, hg, -, rfl⟩ := Desktop.gui_eq_some.mp hs
      by_cases hvw : v = w
      · subst hvw
        simpa [times] using hdoes _ _ _ hg
      · simp [times, hvw, Function.update_of_ne (Ne.symm hvw)]

/-- Along every run a process in `connect` can go on. -/
theorem goesOn_of_run {x : Desktop} {run : List Desktop.Label} (hr : desktop.run {} run = some x)
    (w : ℕ) : goesOn (x.guis w) = true := by
  have hall : desktop.Everywhere (fun x => goesOn (x.guis w) = true) {} run := by
    refine Machine.everywhere_of_step (fun x a y hs hx => ?_) run ?_
    swap
    · rfl
    cases a with
    | daemon p l =>
        obtain ⟨-, f, -, rfl⟩ := Desktop.daemon_eq_some.mp hs
        exact hx
    | gui v l =>
        obtain ⟨-, g, f, hg, -, rfl⟩ := Desktop.gui_eq_some.mp hs
        by_cases hvw : v = w
        · subst hvw
          simpa using (connect_step hg).2.2.2 hx
        · simpa [Function.update_of_ne (Ne.symm hvw)] using hx
  exact hall.last hr

/-- **Connecting ends.** Take any number of daemons and window processes and any interleaving of
their steps, in which any call fails or is answered. No window process makes more than 48 calls
in `connect`, polls more than 40 times or starts more than one daemon; and as long as one is in
`connect` it has a next call to make, which no state of the daemons can keep from ending: a
call that nobody answers fails when it times out (`connect_goes_on`).
SOURCE: client.rs:59-121, main.rs:77-98 -/
theorem connecting_ends {run : List Desktop.Label} {x : Desktop}
    (hr : desktop.run {} run = some x) (w : ℕ) :
    desktop.total (times connects w) {} run ≤ 48 ∧
      desktop.total (times polls w) {} run ≤ 40 ∧
      desktop.total (times GuiProcess.spawnsDaemon w) {} run ≤ 1 ∧
      (connecting (x.guis w) = true →
        ∃ l y, connects (x.guis w) l = true ∧ desktop.step x (.gui w l) = some y) :=
  ⟨total_times_le (fun _ _ _ hs => (connect_step hs).1) hr w,
    total_times_le (fun _ _ _ hs => (connect_step hs).2.1) hr w,
    total_times_le (fun _ _ _ hs => (connect_step hs).2.2.1) hr w,
    fun hg => connect_goes_on hg (goesOn_of_run hr w) x w rfl⟩

/-- A window that finds no daemon and gets no answer from the one it starts. -/
theorem connecting_ends_alone :
    let run : List Desktop.Label :=
      [.gui 0 .launch, .gui 0 (.session true), .gui 0 (.claim .primaryOwner),
        .gui 0 (.probe false)] ++ List.replicate 40 (.gui 0 (.poll false))
    (∃ x, desktop.run {} run = some x ∧ x.guis 0 = .failed .daemonUnavailable) ∧
      desktop.total (times polls 0) {} run = 40 ∧
      desktop.total (times GuiProcess.spawnsDaemon 0) {} run ≤ 1 := by
  intro run
  have hr : ∃ x, desktop.run {} run = some x ∧ x.guis 0 = .failed .daemonUnavailable :=
    ⟨_, rfl, rfl⟩
  refine ⟨hr, by decide, ?_⟩
  obtain ⟨x, hr, -⟩ := hr
  exact (connecting_ends hr 0).2.2.1

end SleepBlocker.Analysis
