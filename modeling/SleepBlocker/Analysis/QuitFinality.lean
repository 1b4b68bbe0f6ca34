import SleepBlocker.Interface.DaemonSteps

/-!
# When Quit is final

A Quit, from D-Bus or from the tray, releases the locks in one step and notifies the main
thread in a later one, and the process lives on until that thread has returned. Nothing in
`SleepBlock` records the shutdown, so a toggle that enters the mutex in between acquires
the locks again. `quit_is_final_iff` says that this is the only way: along every run the
daemon holds and acquires nothing after a Quit exactly when no toggle granted by logind
comes after it.
-/

set_option autoImplicit false

namespace SleepBlocker.Analysis

open SleepBlocker.Computation SleepBlocker.Model

/-- The effects of a step, in order. -/
def stepEffects (d : Daemon) (a : Daemon.Label) : List Effect :=
  (d.callOf a).elim [] fun call => (perform call d.state).effects

/-- The step is a Quit's `release_all`; the daemon makes no other. -/
def releases (d : Daemon) (a : Daemon.Label) : Bool := (d.callOf a).any (·.op == .releaseAll)

/-- What a run has seen: whether a Quit has completed `release_all`, and whether anything
was acquired since. -/
structure Shutdown where
  released : Bool := false
  acquired : Bool := false
  deriving DecidableEq, Repr

/-- What the history records of a step. -/
def Shutdown.update (g : Shutdown) (d : Daemon) (a : Daemon.Label) : Shutdown where
  released := g.released || releases d a
  acquired := g.acquired || (g.released && (stepEffects d a).any Effect.acquires)

/-- The daemon with the history of its shutdown. -/
def quitting : Machine (Daemon × Shutdown) Daemon.Label := daemon.monitor Shutdown.update

/-- Once a Quit has completed `release_all`, a process that has not exited holds nothing, and
nothing has been acquired. -/
def QuitFinal (x : Daemon × Shutdown) : Prop :=
  x.2.released = true → (x.1.stage ≠ .exited → Free x.1.state) ∧ x.2.acquired = false

/-- Whether the Quit is final in a state can be evaluated. -/
instance (x : Daemon × Shutdown) : Decidable (QuitFinal x) :=
  inferInstanceAs (Decidable (_ → _))

/-- The step is not a toggle, from a handler or from the tray, that logind grants after a
Quit has completed `release_all`. -/
def NoLateToggle (x : Daemon × Shutdown) (a : Daemon.Label) : Prop :=
  x.2.released = true → (x.1.callOf a).any Call.granted = false

/-- Nothing counts as acquired before a Quit. -/
def Fresh (x : Daemon × Shutdown) : Prop := x.2.released = false → x.2.acquired = false

/-- Every step keeps what was acquired after a Quit apart. -/
theorem fresh_step (x : Daemon × Shutdown) (a : Daemon.Label) (y : Daemon × Shutdown)
    (hs : quitting.step x a = some y) (hx : Fresh x) : Fresh y := by
  obtain ⟨-, hy⟩ := Machine.monitor_step_eq_some.mp hs
  intro hrel
  rw [hy] at hrel ⊢
  simp only [Shutdown.update, Bool.or_eq_false_iff] at hrel ⊢
  exact ⟨hx hrel.1, by simp [hrel.1]⟩

/-- One step keeps Quit final exactly when it is no late toggle. -/
theorem quitFinal_step (x : Daemon × Shutdown) (a : Daemon.Label) (y : Daemon × Shutdown)
    (hs : quitting.step x a = some y) (hfresh : Fresh x) (hx : QuitFinal x) :
    QuitFinal y ↔ NoLateToggle x a := by
  obtain ⟨hd, hy⟩ := Machine.monitor_step_eq_some.mp hs
  obtain ⟨d, g⟩ := x
  obtain ⟨t, g'⟩ := y
  simp only at hd hy
  subst hy
  rcases Daemon.step_cases hd with ⟨call, hc, hstate, hstage, halive, -⟩ | ⟨hc, hstate⟩
  · -- a call: before a Quit it may be that Quit, after it only a granted toggle acquires
    cases hrel : g.released with
    | false =>
        have hlate : NoLateToggle (d, g) a := fun h => by simp [hrel] at h
        refine iff_of_true (fun hq => ?_) hlate
        have hop : call.op = .releaseAll := by
          simpa [Shutdown.update, hrel, releases, hc] using hq
        have hcall : call = ⟨.releaseAll, call.answers⟩ := by
          rw [← hop]
        refine ⟨fun _ => ?_, ?_⟩
        · rw [hstate, hcall]
          exact perform_releaseAll call.answers d.state
        · simpa [Shutdown.update, hrel] using hfresh hrel
    | true =>
        obtain ⟨hfree, hacq⟩ := hx hrel
        have hfree := hfree halive
        constructor
        · intro hq _
          have hfree' := (hq (by simp [Shutdown.update, hrel])).1 (hstage ▸ halive)
          cases hg : call.granted with
          | false => simp [hc, hg]
          | true =>
              have hheld := perform_granted hfree.1 hg
              rw [← hstate, hfree'.1] at hheld
              simp at hheld
        · intro hlate _
          have hg : call.granted = false := by
            simpa [hc] using hlate hrel
          obtain ⟨hfree', heff⟩ := perform_free hfree hg
          refine ⟨fun _ => hstate ▸ hfree', ?_⟩
          simp only [Shutdown.update, stepEffects, hc, Option.elim_some, heff, Bool.and_false,
            Bool.or_false]
          exact hacq
  · -- no call: neither the locks nor the history move
    refine iff_of_true (fun hq => ?_) (fun _ => by simp [hc])
    have hrel : g.released = true := by
      simpa [Shutdown.update, releases, hc] using hq
    obtain ⟨hfree, hacq⟩ := hx hrel
    refine ⟨fun _ => ?_, ?_⟩
    · exact hstate ▸ hfree (Daemon.stage_of_step hd)
    · simpa [Shutdown.update, stepEffects, hc] using hacq

/-- **Quit is final exactly without late toggles.** A run of the daemon, any interleaving of
its handlers, callbacks and main thread, holds and acquires nothing from the moment a Quit
has completed `release_all` until the process has exited, in every state it visits,
exactly when no toggle after that Quit is granted by logind.
SOURCE: sleep-blockd.rs:43-79, sleep-blockd.rs:147-207, tray.rs:146-233 -/
theorem quit_is_final_iff {run : List Daemon.Label} {d : Daemon}
    (hr : daemon.run {} run = some d) :
    quitting.Everywhere QuitFinal ({}, {}) run ↔
      quitting.Along NoLateToggle ({}, {}) run := by
  apply Machine.monitor_iff_along fresh_step quitFinal_step hr
  · intro _
    rfl
  · intro hreleased
    cases hreleased

/-- A daemon that has its name, and a Toggle dispatched before a Quit but handled after it. -/
def lateToggle : List Daemon.Label :=
  [.startTray true, .serve true, .requestName .primaryOwner, .receive 0 .toggle,
    .receive 1 .quit, .handle 1 ⟨.granted 5, .granted 6, true⟩,
    .handle 0 ⟨.granted 5, .granted 6, true⟩]

/-- The late toggle leaves the quitting daemon with a lock. -/
theorem lateToggle_holds :
    ∃ y, quitting.run ({}, {}) lateToggle = some y ∧ ¬ QuitFinal y := by
  refine ⟨_, rfl, ?_⟩
  decide

/-- The same run with the Toggle handled first meets the condition. -/
theorem quit_is_final_iff_toggle_first :
    let run : List Daemon.Label :=
      [.startTray true, .serve true, .requestName .primaryOwner, .receive 0 .toggle,
        .receive 1 .quit, .handle 0 ⟨.granted 5, .granted 6, true⟩,
        .handle 1 ⟨.granted 5, .granted 6, true⟩]
    (∃ d, daemon.run {} run = some d) ∧
      (quitting.Everywhere QuitFinal ({}, {}) run ↔
        quitting.Along NoLateToggle ({}, {}) run) :=
  ⟨⟨_, rfl⟩, quit_is_final_iff rfl⟩

end SleepBlocker.Analysis
