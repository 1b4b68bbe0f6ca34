import SleepBlocker.Analysis.QuitArrives
import SleepBlocker.Analysis.TrayTrap

/-!
# One process serves the name

Any number of daemons start, and the name goes to one of them at a time. Trays may be clicked
in the others (`single_holder_iff` says what comes of it), but what goes over the bus does not
reach them: a call is dispatched to the owner, only the owner's handlers take steps, and a
client that reaches a process by its name finds `has_tray` settled, since the tray is started
before the name is asked for. `Served` has the owner's side of it; `Waits` is that of a process
in `done.wait()`.
-/

set_option autoImplicit false

namespace SleepBlocker.Analysis

open SleepBlocker.Computation SleepBlocker.Model

/-- A process that is in `done.wait()` owns the name. -/
def Waits (f : Fleet) : Prop := ∀ p, (f.processes p).stage = .waiting → f.name.owner = some p

/-- The step is one of a handler, from the dispatch of a request to its reply, and takes place
in the owner of the name. -/
def HandledByOwner (f : Fleet) (a : ℕ × Daemon.Label) : Prop :=
  a.2.party = .handler → f.name.owner = some a.1

/-! ## One step -/

variable {f g : Fleet} {p q : ℕ} {l : Daemon.Label} {d t : Daemon}

/-- A step of process `p` is one of its daemon that the bus admits, and leaves the others alone. -/
theorem processes_of_step (hs : fleet.step f (p, l) = some g) :
    f.bus p l = some g.name ∧ (f.processes p).step l = some (g.processes p) ∧
      ∀ q, q ≠ p → g.processes q = f.processes q := by
  obtain ⟨name, d, hbus, hd, rfl⟩ := Fleet.step_eq_some.mp hs
  exact ⟨hbus, by simpa using hd, fun q hq => Function.update_of_ne hq ..⟩

/-- `main` comes to `done.wait()` with the name only, and no step of another party moves it. -/
theorem waiting_before (hs : d.step l = some t) (ht : t.stage = .waiting) :
    l = .requestName .primaryOwner ∨
      d.stage = .waiting ∧ l ≠ .closeConnection ∧ l ≠ .exit ∧ l ≠ .crash := by
  by_cases hmain : l.party = .main
  · cases l <;> simp only [Daemon.Label.party, reduceCtorEq] at hmain
    case crash =>
      simp only [Daemon.step, Option.ite_none_left_eq_some, Option.some.injEq] at hs
      obtain ⟨-, rfl⟩ := hs
      cases ht
    all_goals
      simp only [Daemon.step, Option.ite_none_right_eq_some, Option.some.injEq] at hs
      obtain ⟨-, rfl⟩ := hs
    case serve ok => cases ok <;> cases ht
    case requestName reply =>
      cases reply with
      | primaryOwner => exact Or.inl rfl
      | _ => cases ht
    all_goals cases ht
  · rw [((Daemon.frame_of_party hs).1 hmain).1] at ht
    refine Or.inr ⟨ht, ?_, ?_, ?_⟩ <;> rintro rfl <;> exact hmain rfl

/-- Every step keeps the waiting process the owner of the name. -/
theorem waits_step (hs : fleet.step f (p, l) = some g) (hf : Waits f) : Waits g := by
  obtain ⟨hbus, hd, hother⟩ := processes_of_step hs
  intro q hq
  by_cases hqp : q = p
  · subst hqp
    rcases waiting_before hd hq with rfl | ⟨hwaiting, hclose, hexit, hcrash⟩
    · obtain ⟨-, hname⟩ := BusName.request_eq_some.mp hbus
      exact hname ▸ rfl
    · rcases bus_cases hbus with ⟨hsame, -⟩ | ⟨-, -, hname⟩ | ⟨hdown, -⟩
      · exact hsame ▸ hf q hwaiting
      · exact hname ▸ rfl
      · rcases hdown with h | h | h
        · exact absurd h hclose
        · exact absurd h hexit
        · exact absurd h hcrash
  · rw [hother q hqp] at hq
    have howner := hf q hq
    rcases bus_cases hbus with ⟨hsame, -⟩ | ⟨-, hnone, -⟩ | ⟨-, hname⟩
    · exact hsame ▸ howner
    · simp [hnone] at howner
    · rw [hname]
      exact BusName.owner_close.mpr ⟨howner, hqp⟩

/-- A handler that takes a step does so in the owner of the name. -/
theorem handledByOwner_of_step (hs : fleet.step f (p, l) = some g) (hf : Served f) :
    HandledByOwner f (p, l) := by
  intro hl
  obtain ⟨hbus, hd, -⟩ := processes_of_step hs
  have hhandler : ∃ h, l.handler = some h := by
    cases l <;> simp only [Daemon.Label.party, reduceCtorEq] at hl <;> exact ⟨_, rfl⟩
  obtain ⟨h, hh⟩ := hhandler
  obtain ⟨hup, hreceive⟩ := Daemon.connected_of_handler hd hh
  by_cases hidle : (f.processes p).handlers h = .idle
  · obtain ⟨request, rfl⟩ := hreceive hidle
    simp only [Fleet.bus, Option.ite_none_right_eq_some] at hbus
    exact hbus.1
  · exact hf.busy p h hup hidle

/-- `has_tray` is not stored again by a process that is past its startup. -/
theorem hasTray_of_step (hs : fleet.step f (q, l) = some g)
    (hp : (f.processes p).stage ≠ .starting) :
    (g.processes p).hasTray = (f.processes p).hasTray ∧ (g.processes p).stage ≠ .starting := by
  obtain ⟨-, hd, hother⟩ := processes_of_step hs
  by_cases hpq : p = q
  · subst hpq
    by_cases hmain : l.party = .main
    · obtain ⟨htray, hstage, -⟩ := Daemon.startup_of_main hd hmain
      exact ⟨htray.resolve_right hp, hstage⟩
    · obtain ⟨hstage, htray⟩ := (Daemon.frame_of_party hd).1 hmain
      exact ⟨htray, hstage ▸ hp⟩
  · rw [hother p hpq]
    exact ⟨rfl, hp⟩

/-- The step is one of `main` of process `p`. -/
def mainOf (p : ℕ) (_ : Fleet) (a : ℕ × Daemon.Label) : ℕ :=
  if a.1 = p then (ofMain a.2).toNat else 0

/-- A step of `main` uses up one of those it has left. -/
theorem mainOf_step (hs : fleet.step f (q, l) = some g) (p : ℕ) :
    mainOf p f (q, l) + stepsLeft (g.processes p).stage ≤ stepsLeft (f.processes p).stage := by
  obtain ⟨-, hd, hother⟩ := processes_of_step hs
  by_cases hqp : q = p
  · subst hqp
    rw [mainOf, if_pos rfl]
    exact stepsLeft_of_step hd
  · rw [mainOf, if_neg hqp, hother p (Ne.symm hqp), Nat.zero_add]

/-- `main` has a next step, with some answer of the bus, unless it is in `done.wait()`. -/
theorem main_goes_on (f : Fleet) (p : ℕ) (hwaiting : (f.processes p).stage ≠ .waiting)
    (hexited : (f.processes p).stage ≠ .exited) :
    ∃ l g, ofMain l = true ∧ fleet.step f (p, l) = some g := by
  have hstep : ∀ l, ofMain l = true → (f.bus p l).isSome = true →
      ((f.processes p).step l).isSome = true →
      ∃ l g, ofMain l = true ∧ fleet.step f (p, l) = some g := by
    intro l hmain hbus hd
    obtain ⟨name, hbus⟩ := Option.isSome_iff_exists.mp hbus
    obtain ⟨d, hd⟩ := Option.isSome_iff_exists.mp hd
    exact ⟨l, _, hmain, Fleet.step_eq_some.mpr ⟨name, d, hbus, hd, rfl⟩⟩
  cases hstage : (f.processes p).stage with
  | starting => exact hstep (.startTray true) rfl rfl (by simp [Daemon.step, hstage])
  | trayStarted => exact hstep (.serve true) rfl rfl (by simp [Daemon.step, hstage])
  | serving =>
      cases howner : f.name.owner with
      | none =>
          exact hstep (.requestName .primaryOwner) rfl
            (by simp [Fleet.bus, BusName.request, howner]) (by simp [Daemon.step, hstage])
      | some owner =>
          exact hstep (.requestName .nameTaken) rfl (by simp [Fleet.bus, howner])
            (by simp [Daemon.step, hstage])
  | waiting => exact absurd hstage hwaiting
  | returning => exact hstep .closeConnection rfl rfl (by simp [Daemon.step, hstage])
  | closed => exact hstep .exit rfl rfl (by simp [Daemon.step, hstage])
  | exited => exact absurd hstage hexited

/-! ## Runs -/

/-- Before anything has happened everything is served as it should be. -/
theorem served_start : Served {} where
  prepared _ := ⟨fun _ => rfl, fun h => absurd rfl h, fun _ _ => rfl, fun _ h => (by cases h)⟩
  owner _ h := by cases h
  busy _ _ _ h := absurd rfl h

/-- Along every run a process that waits owns the name. -/
theorem waits_of_run {run : List (ℕ × Daemon.Label)} (hr : fleet.run {} run = some f) :
    Waits f := by
  have hstart : Waits {} := fun p hp => by cases hp
  refine (Machine.everywhere_of_step (I := Waits) ?_ hstart (l := run)).last hr
  exact fun _ _ _ hs he => waits_step hs he

/-- **One process serves the name.** Take any number of daemons and any interleaving of their
startups and ends with clicks on their trays and calls over the bus. Every D-Bus step, from the
dispatch of a request to its reply, takes place in the process that owns the name at that
moment; at most one process is in `done.wait()`, and it owns the name; and once a process has
owned the name, its `has_tray` never changes.
SOURCE: sleep-blockd.rs:89-108, sleep-blockd.rs:141-207 -/
theorem one_service {run : List (ℕ × Daemon.Label)} (hr : fleet.run {} run = some f) :
    fleet.Along HandledByOwner {} run ∧
      (∀ p q, (f.processes p).stage = .waiting → (f.processes q).stage = .waiting →
        p = q ∧ f.name.owner = some p) ∧
      ∀ before after e p, run = before ++ after → fleet.run {} before = some e →
        e.name.owner = some p → (f.processes p).hasTray = (e.processes p).hasTray := by
  have hserved : ∀ e a e', fleet.step e a = some e' → Served e → Served e' :=
    fun _ _ _ hs he => served_step hs he
  refine ⟨?_, fun p q hp hq => ?_, ?_⟩
  · exact Machine.along_of_run hserved (fun _ _ _ hs he => handledByOwner_of_step hs he) hr
      served_start
  · have hp := waits_of_run hr p hp
    exact ⟨Option.some.inj (hp.symm.trans (waits_of_run hr q hq)), hp⟩
  · rintro before after e p rfl he howner
    obtain ⟨e', he', hafter⟩ := Machine.run_append_eq_some.mp hr
    obtain rfl : e = e' := Option.some.inj (he.symm.trans he')
    have hpast : (e.processes p).stage ≠ .starting := by
      have hserves := (Machine.everywhere_of_step hserved served_start (l := before)).last he
      rcases hserves.owner p howner with h | h <;> simp [h]
    have hall := (Machine.everywhere_of_step
      (I := fun x : Fleet => (x.processes p).hasTray = (e.processes p).hasTray ∧
        (x.processes p).stage ≠ .starting) ?_ ⟨rfl, hpast⟩ (l := after)).last hafter
    · exact hall.1
    · rintro x a y hs ⟨htray, hx⟩
      obtain ⟨hsame, hy⟩ := hasTray_of_step hs hx
      exact ⟨hsame.trans htray, hy⟩

/-- Two daemons, of which the second is turned down while the first answers a call. -/
def turnedDown : List (ℕ × Daemon.Label) :=
  [(0, .startTray true), (1, .startTray false), (0, .serve true), (1, .serve true),
    (0, .requestName .primaryOwner), (0, .receive 0 .toggle), (1, .requestName .nameTaken),
    (0, .handle 0 ⟨.granted 7, .refused "", true⟩), (1, .closeConnection), (1, .exit)]

/-- Two daemons are started: one waits with the name, and the other is turned down and exits. -/
theorem one_service_turnedDown :
    ∃ f, fleet.run {} turnedDown = some f ∧ (f.processes 0).stage = .waiting ∧
      f.name.owner = some 0 ∧ (f.processes 1).stage = .exited ∧
      fleet.Along HandledByOwner {} turnedDown := by
  have hr : ∃ f, fleet.run {} turnedDown = some f ∧ (f.processes 0).stage = .waiting ∧
      (f.processes 1).stage = .exited := ⟨_, rfl, rfl, rfl⟩
  obtain ⟨f, hr, hwaiting, hexited⟩ := hr
  obtain ⟨halong, hone, -⟩ := one_service hr
  exact ⟨f, hr, hwaiting, (hone 0 0 hwaiting hwaiting).2, hexited, halong⟩

/-- **Every daemon becomes the one service or leaves.** Take any number of daemons in any
interleaving. No process takes more than six steps of its main thread; and until it waits, as
the owner of the name, or has exited, the main thread has a next step, which no state of the
others can keep it from.
SOURCE: sleep-blockd.rs:141-207 -/
theorem daemons_settle {run : List (ℕ × Daemon.Label)} (hr : fleet.run {} run = some f) (p : ℕ) :
    fleet.total (mainOf p) {} run ≤ 6 ∧
      (((f.processes p).stage = .waiting ∧ f.name.owner = some p) ∨
        (f.processes p).stage = .exited ∨
        ∃ l g, ofMain l = true ∧ fleet.step f (p, l) = some g) := by
  constructor
  · exact Machine.total_le (fun e : Fleet => stepsLeft (e.processes p).stage) (mainOf p)
      (fun _ _ _ hs => mainOf_step hs p) hr
  · by_cases hwaiting : (f.processes p).stage = .waiting
    · exact Or.inl ⟨hwaiting, waits_of_run hr p hwaiting⟩
    · by_cases hexited : (f.processes p).stage = .exited
      · exact Or.inr (Or.inl hexited)
      · exact Or.inr (Or.inr (main_goes_on f p hwaiting hexited))

/-- The daemon that is turned down settles within its six steps. -/
theorem daemons_settle_turnedDown :
    ∃ f, fleet.run {} turnedDown = some f ∧ fleet.total (mainOf 1) {} turnedDown ≤ 6 ∧
      (f.processes 1).stage = .exited := by
  have hr : ∃ f, fleet.run {} turnedDown = some f ∧ (f.processes 1).stage = .exited :=
    ⟨_, rfl, rfl⟩
  obtain ⟨f, hr, hexited⟩ := hr
  exact ⟨f, hr, (daemons_settle hr 1).1, hexited⟩

end SleepBlocker.Analysis
