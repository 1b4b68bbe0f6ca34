import SleepBlocker.Model.Fleet

/-!
# When only the owner of the name holds a lock

A daemon publishes its tray before it asks for the bus name, and gives the name up before
its process is gone. At both ends there is a process that does not own the name and still
has a `SleepBlock` behind a clickable icon. `single_holder_iff` says that these are the
only ways exclusivity fails: every toggle that logind grants has to happen in the owner of
the name, and a process has to have released its locks when its connection goes.
-/

set_option autoImplicit false

namespace SleepBlocker.Analysis

open SleepBlocker.Computation SleepBlocker.Model

/-- At most one process holds an inhibitor, and one that does owns the name. -/
def SingleHolder (f : Fleet) : Prop :=
  (∀ p q, f.holds p → f.holds q → p = q) ∧ ∀ p, f.holds p → f.name.owner = some p

/-- The step grants a toggle only in the owner of the name, and closes a connection only of
a process that holds nothing. -/
def OnlyOwnerToggles (f : Fleet) (a : ℕ × Daemon.Label) : Prop :=
  (((f.processes a.1).callOf a.2).any Call.granted = true → f.name.owner = some a.1) ∧
    (a.2 = .closeConnection → Free (f.processes a.1).state)

/-- One holder is a consequence of the holder being the owner. -/
theorem singleHolder_iff_owner {f : Fleet} :
    SingleHolder f ↔ ∀ p, f.holds p → f.name.owner = some p := by
  constructor
  · exact fun h => h.2
  · intro h
    refine ⟨fun p q hp hq => ?_, h⟩
    have hpq := (h p hp).symm.trans (h q hq)
    exact Option.some.inj hpq

/-- Only the process that steps can start or stop holding. -/
theorem holds_of_ne {f g : Fleet} {a : ℕ × Daemon.Label} (hs : f.step a = some g) {q : ℕ}
    (hq : q ≠ a.1) : g.holds q ↔ f.holds q := by
  obtain ⟨name, d, -, -, rfl⟩ := Fleet.step_eq_some.mp hs
  simp [Fleet.holds, Function.update_of_ne hq]

/-- A process that holds after a step without a granted toggle held before it. -/
theorem holds_of_step {f g : Fleet} {a : ℕ × Daemon.Label} (hs : f.step a = some g)
    (hg : ((f.processes a.1).callOf a.2).any Call.granted = false) (hh : g.holds a.1) :
    f.holds a.1 := by
  obtain ⟨name, d, -, hd, rfl⟩ := Fleet.step_eq_some.mp hs
  refine ⟨Daemon.stage_of_step hd, fun hfree => ?_⟩
  simp only [Fleet.holds, Function.update_self] at hh
  rcases Daemon.step_cases hd with ⟨call, hc, hstate, -⟩ | ⟨-, hstate⟩
  · have hcall : call.granted = false := by simpa [hc] using hg
    exact hh.2 (hstate ▸ (perform_free hfree hcall).1)
  · exact hh.2 (hstate ▸ hfree)

/-- A toggle granted to a process that holds nothing makes it hold. -/
theorem holds_of_granted {f g : Fleet} {a : ℕ × Daemon.Label} (hs : f.step a = some g)
    (hg : ((f.processes a.1).callOf a.2).any Call.granted = true) (hn : ¬ f.holds a.1) :
    g.holds a.1 := by
  obtain ⟨name, d, -, hd, rfl⟩ := Fleet.step_eq_some.mp hs
  have hfree : Free (f.processes a.1).state := by
    by_contra hfree
    exact hn ⟨Daemon.stage_of_step hd, hfree⟩
  simp only [Fleet.holds, Function.update_self]
  rcases Daemon.step_cases hd with ⟨call, hc, hstate, hstage, halive, -⟩ | ⟨hc, -⟩
  · have hcall : call.granted = true := by simpa [hc] using hg
    refine ⟨hstage ▸ halive, fun hfree' => ?_⟩
    have hheld := perform_granted hfree.1 hcall
    rw [← hstate, hfree'.1] at hheld
    simp at hheld
  · simp [hc] at hg

/-- What the bus does to the owner in a step. -/
theorem owner_of_step {f g : Fleet} {a : ℕ × Daemon.Label} (hs : f.step a = some g) :
    g.name = f.name ∨
      (f.name.owner = none ∧ g.name.owner = some a.1 ∧ (f.processes a.1).callOf a.2 = none) ∨
      (g.name = f.name.close a.1 ∧ (f.processes a.1).callOf a.2 = none ∧
        (a.2 = .closeConnection ∨ ¬ g.holds a.1)) := by
  obtain ⟨name, d, hbus, hd, rfl⟩ := Fleet.step_eq_some.mp hs
  obtain ⟨p, a⟩ := a
  simp only at hbus hd ⊢
  cases a <;> simp only [Fleet.bus, Option.some.injEq] at hbus
  case requestName reply =>
    cases reply <;> simp only [Option.ite_none_left_eq_some, Option.some.injEq] at hbus
    · obtain ⟨hnone, rfl⟩ := BusName.request_eq_some.mp hbus
      exact Or.inr (Or.inl ⟨hnone, rfl, rfl⟩)
    · exact Or.inl hbus.2.symm
    · exact Or.inl hbus.2.symm
    · exact Or.inl hbus.symm
  case receive h request =>
    simp only [Option.ite_none_right_eq_some, Option.some.injEq] at hbus
    exact Or.inl hbus.2.symm
  case closeConnection => exact Or.inr (Or.inr ⟨hbus.symm, rfl, Or.inl rfl⟩)
  case exit =>
    simp only [Daemon.step, Option.ite_none_right_eq_some, Option.some.injEq] at hd
    obtain ⟨-, rfl⟩ := hd
    exact Or.inr (Or.inr ⟨hbus.symm, rfl, Or.inr fun hh => by simp [Fleet.holds] at hh⟩)
  case crash =>
    simp only [Daemon.step, Option.ite_none_left_eq_some, Option.some.injEq] at hd
    obtain ⟨-, rfl⟩ := hd
    exact Or.inr (Or.inr ⟨hbus.symm, rfl, Or.inr fun hh => by simp [Fleet.holds] at hh⟩)
  all_goals exact Or.inl hbus.symm

/-- A process whose connection closes keeps what its state holds. -/
theorem holds_of_closeConnection {f g : Fleet} {p : ℕ}
    (hs : f.step (p, .closeConnection) = some g) (hfree : ¬ Free (f.processes p).state) :
    g.holds p ∧ g.name.owner ≠ some p := by
  obtain ⟨name, d, hbus, hd, rfl⟩ := Fleet.step_eq_some.mp hs
  simp only [Fleet.bus, Option.some.injEq] at hbus
  simp only [Daemon.step, Option.ite_none_right_eq_some, Option.some.injEq] at hd
  obtain ⟨-, rfl⟩ := hd
  subst hbus
  constructor
  · simp [Fleet.holds, hfree]
  · intro howner
    exact (BusName.owner_close.mp howner).2 rfl

/-- A step without a granted toggle keeps every holder the owner, unless it closes the
connection of one. -/
theorem owner_of_holds {f g : Fleet} {a : ℕ × Daemon.Label} (hs : f.step a = some g)
    (hf : ∀ p, f.holds p → f.name.owner = some p)
    (hg : ((f.processes a.1).callOf a.2).any Call.granted = false)
    (hclose : a.2 = .closeConnection → Free (f.processes a.1).state) {p : ℕ}
    (hp : g.holds p) : g.name.owner = some p := by
  have hpf : f.holds p := by
    by_cases hpa : p = a.1
    · subst hpa
      exact holds_of_step hs hg hp
    · exact (holds_of_ne hs hpa).mp hp
  have howner := hf p hpf
  rcases owner_of_step hs with hsame | ⟨hnone, -, -⟩ | ⟨hclosed, -, hgone⟩
  · rw [hsame]
    exact howner
  · rw [hnone] at howner
    exact absurd howner (by simp)
  · have hpa : p ≠ a.1 := by
      rintro rfl
      rcases hgone with hlabel | hgone
      · exact hpf.2 (hclose hlabel)
      · exact hgone hp
    rw [hclosed]
    exact BusName.owner_close.mpr ⟨howner, hpa⟩

/-- One step keeps the holder the owner exactly when it meets the condition. -/
theorem singleHolder_step (f : Fleet) (a : ℕ × Daemon.Label) (g : Fleet)
    (hs : fleet.step f a = some g) (_ : True) (hf : SingleHolder f) :
    SingleHolder g ↔ OnlyOwnerToggles f a := by
  rw [singleHolder_iff_owner] at hf ⊢
  cases hg : ((f.processes a.1).callOf a.2).any Call.granted with
  | true =>
      have hsame : g.name = f.name := by
        rcases owner_of_step hs with hsame | ⟨-, -, hnone⟩ | ⟨-, hnone, -⟩
        · exact hsame
        all_goals simp [hnone] at hg
      have hlabel : a.2 ≠ .closeConnection := by
        intro hlabel
        simp [hlabel, Daemon.callOf] at hg
      constructor
      · intro h
        refine ⟨fun _ => ?_, fun hc => absurd hc hlabel⟩
        by_cases hh : f.holds a.1
        · exact hf a.1 hh
        · rw [← hsame]
          exact h a.1 (holds_of_granted hs hg hh)
      · rintro ⟨howner, -⟩ p hp
        rw [hsame]
        by_cases hpa : p = a.1
        · subst hpa
          exact howner hg
        · exact hf p ((holds_of_ne hs hpa).mp hp)
  | false =>
      constructor
      · intro h
        refine ⟨fun hg' => by simp [hg] at hg', fun hlabel => ?_⟩
        obtain ⟨p, l⟩ := a
        simp only at hlabel
        subst hlabel
        by_contra hfree
        obtain ⟨hp, howner⟩ := holds_of_closeConnection hs hfree
        exact howner (h p hp)
      · rintro ⟨-, hclose⟩ p hp
        exact owner_of_holds hs hf hg hclose hp

/-- **Exclusivity holds exactly while only the owner toggles.** A run of any number of
processes, with clicks on any of their trays and calls to the name, has at most one process
with an inhibitor, which owns the name, in every state it visits exactly when every toggle
that logind grants happens in the owner and every connection that closes is that of a
process that holds nothing.
SOURCE: sleep-blockd.rs:141-207, tray.rs:65-105, tray.rs:146-149 -/
theorem single_holder_iff {run : List (ℕ × Daemon.Label)} {g : Fleet}
    (hr : fleet.run {} run = some g) :
    fleet.Everywhere SingleHolder {} run ↔ fleet.Along OnlyOwnerToggles {} run :=
  Machine.everywhere_iff_along (fun _ _ _ _ h => h) singleHolder_step hr trivial
    ⟨fun _ _ hp => absurd ⟨rfl, rfl⟩ hp.2, fun _ hp => absurd ⟨rfl, rfl⟩ hp.2⟩

/-- The owner blocks sleep; a second daemon publishes its tray and is clicked before it asks
for the name. -/
def clickedLoser : List (ℕ × Daemon.Label) :=
  [(0, .startTray true), (0, .serve true), (0, .requestName .primaryOwner),
    (0, .activate ⟨.granted 3, .granted 6, true⟩), (1, .startTray true),
    (1, .activate ⟨.granted 4, .granted 6, true⟩)]

/-- Both daemons then hold an inhibitor. -/
theorem clickedLoser_holds :
    ∃ g, fleet.run {} clickedLoser = some g ∧ g.holds 0 ∧ g.holds 1 ∧ ¬ SingleHolder g := by
  have hrun : ∃ g, fleet.run {} clickedLoser = some g ∧ g.holds 0 ∧ g.holds 1 := by
    refine ⟨_, rfl, ?_, ?_⟩
    · decide
    · decide
  obtain ⟨g, hr, h0, h1⟩ := hrun
  refine ⟨g, hr, h0, h1, fun h => ?_⟩
  exact absurd (h.1 0 1 h0 h1) (by decide)

/-- The loser that nobody clicks, beside an owner that is clicked. -/
theorem single_holder_iff_unclicked :
    let run : List (ℕ × Daemon.Label) :=
      [(0, .startTray true), (0, .serve true), (0, .requestName .primaryOwner),
        (0, .activate ⟨.granted 3, .granted 6, true⟩), (1, .startTray true),
        (1, .serve true), (1, .requestName .nameTaken), (1, .closeConnection), (1, .exit)]
    (∃ g, fleet.run {} run = some g) ∧
      (fleet.Everywhere SingleHolder {} run ↔ fleet.Along OnlyOwnerToggles {} run) :=
  ⟨⟨_, rfl⟩, single_holder_iff rfl⟩

end SleepBlocker.Analysis
