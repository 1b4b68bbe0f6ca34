import SleepBlocker.Model.Desktop

/-!
# One window at a time

`DaemonClient::connect` claims the window's name before it probes, starts or asks the
daemon, takes every reply but `PrimaryOwner` as a loss, and keeps the connection exactly as
long as the client. `one_window` is mutual exclusion from that, over any number of window
processes that may die at any point: the process past its claim is the owner of the name.
-/

set_option autoImplicit false

namespace SleepBlocker.Analysis

open SleepBlocker.Computation SleepBlocker.Model

/-- The step of a process in this state starts a daemon or calls one. -/
def acts (g : GuiProcess) (l : GuiProcess.Label) : Bool := g.spawnsDaemon l || l.callsDaemon

/-- The step is a claim of the name that fails. -/
def isRefusal : GuiProcess.Label → Bool
  | .claim reply => (ConnectError.ofReply reply).isSome
  | _ => false

/-- Which processes have had their claim refused, and which have started or called a
daemon. -/
structure GuiHistory where
  refused : ℕ → Bool := fun _ => false
  acted : ℕ → Bool := fun _ => false

/-- What the history records of a step. -/
def GuiHistory.update (g : GuiHistory) (x : Desktop) : Desktop.Label → GuiHistory
  | .daemon _ _ => g
  | .gui w l => {
      refused := Function.update g.refused w (g.refused w || isRefusal l)
      acted := Function.update g.acted w (g.acted w || acts (x.guis w) l) }

/-- The desktop with the history of its windows. -/
def launching : Machine (Desktop × GuiHistory) Desktop.Label := desktop.monitor GuiHistory.update

/-- A launch of process `v`, up to its claim of the name. -/
def launch (v : ℕ) : List Desktop.Label :=
  [.gui v .launch, .gui v (.session true), .gui v (.claim .primaryOwner)]

/-- What `connect` does next when this daemon answers. -/
def attach (v : ℕ) (d : Daemon) : List Desktop.Label :=
  [.gui v (.probe true), .gui v (.read (some d.state.snapshot.sleepBlocked)),
    .gui v (.read (some d.state.snapshot.screenBlocked)),
    .gui v (.read (some d.state.snapshot.keepScreenAwake)),
    .gui v (.read (some d.state.snapshot.keepRunningInTray)), .gui v (.askTray (some d.hasTray))]

/-- At most one process is past its claim and only that one acts, a refused process never
has, and where the owner dies another can be launched. -/
structure OneWindow (x : Desktop × GuiHistory) : Prop where
  exclusive : ∀ v w, (x.1.guis v).pastClaim = true → (x.1.guis w).pastClaim = true → v = w
  acting : ∀ w l y, desktop.step x.1 (.gui w l) = some y → acts (x.1.guis w) l = true →
    (x.1.guis w).pastClaim = true
  refused : ∀ w, x.2.refused w = true → x.2.acted w = false
  relaunch : ∀ w y, (x.1.guis w).pastClaim = true → desktop.step x.1 (.gui w .die) = some y →
    ∀ v, y.guis v = .absent → ∃ z, desktop.run y (launch v) = some z ∧
      (z.guis v).pastClaim = true ∧
      ∀ d, z.answering = some d → ∃ u, desktop.run z (attach v d) = some u ∧
        u.guis v = .opened ⟨d.hasTray, d.state.snapshot, false⟩ .idle

/-! ## The owner of the name -/

/-- The process past its claim is the owner of the name. -/
def OwnerPastClaim (x : Desktop) : Prop :=
  ∀ w, (x.guis w).pastClaim = true ↔ x.guiName.owner = some w

/-- The process has not claimed the name yet. -/
def beforeClaim : GuiProcess → Bool
  | .absent | .launched | .connected => true
  | _ => false

/-- A process that has not claimed yet has not acted, and a refused one is on its way out. -/
structure Idle (x : Desktop × GuiHistory) (w : ℕ) : Prop where
  before : beforeClaim (x.1.guis w) = true → x.2.acted w = false
  refused : x.2.refused w = true →
    x.2.acted w = false ∧ ((∃ e, x.1.guis w = .failed e) ∨ x.1.guis w = .gone)

section Steps

variable {g g' : GuiProcess} {l : GuiProcess.Label}

/-- A process gets past its claim by a granted claim only, and stays there as long as it keeps
its connection. -/
theorem pastClaim_of_step (hs : g.step l = some g') :
    (l = .claim .primaryOwner ∧ g.pastClaim = false ∧ g'.pastClaim = true) ∨
      (l ≠ .claim .primaryOwner ∧ g'.pastClaim = (g.pastClaim && g'.connection)) := by
  unfold GuiProcess.step at hs
  split at hs
  case h_3 reply =>
    cases reply <;> cases hs <;> simp [ConnectError.ofReply, GuiProcess.pastClaim]
  case h_6 =>
    split at hs <;> cases hs <;> simp [GuiProcess.pastClaim, GuiProcess.connection]
  case h_8 =>
    split at hs <;> cases hs <;> simp [GuiProcess.pastClaim, GuiProcess.connection]
  case h_9 =>
    simp only [Option.ite_none_right_eq_some, Option.some.injEq] at hs
    obtain ⟨-, rfl⟩ := hs
    simp [GuiProcess.pastClaim, GuiProcess.connection]
  case h_11 =>
    simp only [Option.ite_none_right_eq_some, Option.some.injEq] at hs
    obtain ⟨-, rfl⟩ := hs
    simp [GuiProcess.pastClaim, GuiProcess.connection]
  case h_12 => cases hs
  all_goals
    cases hs
    right
    refine ⟨by simp, ?_⟩
    repeat' split
    all_goals simp [GuiProcess.pastClaim, GuiProcess.connection]

/-- Only a process past its claim acts. -/
theorem pastClaim_of_acts (hs : g.step l = some g') (ha : acts g l = true) :
    g.pastClaim = true := by
  cases g <;> cases l <;> simp_all [GuiProcess.step, acts, GuiProcess.spawnsDaemon,
    GuiProcess.Label.callsDaemon, GuiProcess.pastClaim]

/-- A refused claim ends `connect`. -/
theorem failed_of_refusal (hs : g.step l = some g') (hl : isRefusal l = true) :
    beforeClaim g = true ∧ ∃ e, g' = .failed e := by
  cases l <;> simp only [isRefusal, Bool.false_eq_true] at hl
  case claim reply =>
    cases g <;> simp only [GuiProcess.step, reduceCtorEq, Option.some.injEq] at hs
    refine ⟨rfl, ?_⟩
    obtain ⟨e, he⟩ := Option.isSome_iff_exists.mp hl
    exact ⟨e, by rw [← hs, he]; rfl⟩

/-- Once past its claim a process does not come before it again. -/
theorem beforeClaim_of_step (hs : g.step l = some g') (h : beforeClaim g' = true) :
    beforeClaim g = true := by
  unfold GuiProcess.step at hs
  split at hs
  case h_1 | h_2 | h_3 => rfl
  case h_6 | h_8 =>
    split at hs <;> cases hs <;> simp [beforeClaim] at h
  case h_9 | h_11 =>
    simp only [Option.ite_none_right_eq_some, Option.some.injEq] at hs
    obtain ⟨-, rfl⟩ := hs
    simp [beforeClaim] at h
  case h_12 => cases hs
  all_goals
    cases hs
    revert h
    repeat' split
    all_goals simp [beforeClaim]

/-- A process whose `connect` has failed can only end. -/
theorem gone_of_step (hs : g.step l = some g') (h : (∃ e, g = .failed e) ∨ g = .gone) :
    g' = .gone := by
  rcases h with ⟨e, rfl⟩ | rfl
  · cases l <;> simp_all [GuiProcess.step, GuiProcess.alive]
  · cases l <;> simp_all [GuiProcess.step, GuiProcess.alive]

/-- Before its claim a process is not past it. -/
theorem not_pastClaim_of_before (h : beforeClaim g = true) : g.pastClaim = false := by
  cases g <;> simp_all [beforeClaim, GuiProcess.pastClaim]

end Steps

/-! ## Steps of the desktop -/

/-- A step of a process that is not past its claim, or of a daemon, leaves the owner. -/
theorem ownerPastClaim_step {x y : Desktop} {a : Desktop.Label} (hs : x.step a = some y)
    (hx : OwnerPastClaim x) : OwnerPastClaim y := by
  cases a with
  | daemon p l =>
      obtain ⟨-, f, -, rfl⟩ := Desktop.daemon_eq_some.mp hs
      exact hx
  | gui w l =>
      obtain ⟨hpermits, g, f, hg, -, rfl⟩ := Desktop.gui_eq_some.mp hs
      intro v
      rcases pastClaim_of_step hg with ⟨rfl, hbefore, hafter⟩ | ⟨hl, hafter⟩
      · -- the claim is granted: nobody owned the name
        have hnone : x.guiName.owner = none := by
          simpa [Desktop.permits] using hpermits
        have hname : x.rename w g (.claim .primaryOwner) = ⟨some w⟩ := by
          simp [Desktop.rename, BusName.request, hnone]
        simp only [hname, Option.some.injEq]
        by_cases hv : v = w
        · subst hv
          simpa using hafter
        · rw [Function.update_of_ne hv, hx v, hnone]
          simp [Ne.symm hv]
      · have hname : x.rename w g l = if g.connection then x.guiName else x.guiName.close w := by
          unfold Desktop.rename
          split
          · exact absurd rfl hl
          · rfl
        by_cases hv : v = w
        · subst hv
          simp only [Function.update_self, hname, hafter, Bool.and_eq_true, hx v]
          split
          · rename_i hc
            simp [hc]
          · rename_i hc
            simp [hc, BusName.owner_close]
        · simp only [Function.update_of_ne hv, hname, hx v]
          split
          · exact Iff.rfl
          · rw [BusName.owner_close]
            exact ⟨fun h => ⟨h, hv⟩, fun h => h.1⟩

/-- Every step keeps what the processes without the name have done. -/
theorem idle_step {x y : Desktop} {h : GuiHistory} {a : Desktop.Label} (hs : x.step a = some y)
    (hx : ∀ w, Idle (x, h) w) (w : ℕ) : Idle (y, h.update x a) w := by
  cases a with
  | daemon p l =>
      obtain ⟨-, f, -, rfl⟩ := Desktop.daemon_eq_some.mp hs
      exact ⟨(hx w).before, (hx w).refused⟩
  | gui v l =>
      obtain ⟨-, g, f, hg, -, rfl⟩ := Desktop.gui_eq_some.mp hs
      by_cases hw : w = v
      · subst hw
        have hidle : (x.guis w).pastClaim = false → acts (x.guis w) l = false := by
          intro hp
          by_contra ha
          rw [pastClaim_of_acts hg (by simpa using ha)] at hp
          cases hp
        refine ⟨fun hb => ?_, fun hr => ?_⟩
        · -- still before the claim: nothing has been done so far and nothing is done now
          simp only [Function.update_self] at hb
          have hb := beforeClaim_of_step hg hb
          have hold := (hx w).before hb
          simp only at hold
          simp [GuiHistory.update, hold, hidle (not_pastClaim_of_before hb)]
        · simp only [GuiHistory.update, Function.update_self, Bool.or_eq_true] at hr ⊢
          rcases hr with hr | hr
          · obtain ⟨hold, hout⟩ := (hx w).refused hr
            have hp : (x.guis w).pastClaim = false := by
              rcases hout with ⟨e, he⟩ | he <;> rw [he] <;> rfl
            simp only at hold
            exact ⟨by simp [hold, hidle hp], Or.inr (gone_of_step hg hout)⟩
          · obtain ⟨hb, hfailed⟩ := failed_of_refusal hg hr
            have hold := (hx w).before hb
            simp only at hold
            exact ⟨by simp [hold, hidle (not_pastClaim_of_before hb)], Or.inl hfailed⟩
      · obtain ⟨hbefore, hrefused⟩ := hx w
        refine ⟨?_, ?_⟩
        · simpa [GuiHistory.update, Function.update_of_ne hw] using hbefore
        · simpa [GuiHistory.update, Function.update_of_ne hw] using hrefused

/-- The invariant. -/
def Guarded (x : Desktop × GuiHistory) : Prop := OwnerPastClaim x.1 ∧ ∀ w, Idle x w

/-- Every step keeps the invariant. -/
theorem guarded_step (x : Desktop × GuiHistory) (a : Desktop.Label) (y : Desktop × GuiHistory)
    (hs : launching.step x a = some y) (hx : Guarded x) : Guarded y := by
  obtain ⟨hd, hy⟩ := Machine.monitor_step_eq_some.mp hs
  obtain ⟨d, h⟩ := x
  obtain ⟨t, h'⟩ := y
  simp only at hd hy
  subst hy
  exact ⟨ownerPastClaim_step hd hx.1, idle_step hd hx.2⟩

/-! ## Launching again -/

/-- A step of a process that keeps its connection, other than the granted claim and the
delivery of a request, moves the process alone. -/
theorem quiet_step {x : Desktop} {v : ℕ} {l : GuiProcess.Label} {g : GuiProcess}
    (hg : (x.guis v).step l = some g) (hp : x.permits v l = true) (hc : g.connection = true)
    (hclaim : l ≠ .claim .primaryOwner) (hsend : ∀ r h, l ≠ .send r (some h)) :
    desktop.step x (.gui v l) = some { x with guis := Function.update x.guis v g } := by
  refine Desktop.gui_eq_some.mpr ⟨hp, g, x.fleet, hg, ?_, ?_⟩
  · unfold Desktop.deliver
    split
    · rename_i r h
      exact absurd rfl (hsend r h)
    · rfl
  · have hname : x.rename v g l = x.guiName := by
      unfold Desktop.rename
      split
      · exact absurd rfl hclaim
      · rw [if_pos hc]
    rw [hname]

/-- With the name free, a launch gets it, whatever the daemons are. -/
theorem launch_run {x : Desktop} {v : ℕ} (hname : x.guiName.owner = none)
    (hv : x.guis v = .absent) :
    desktop.run x (launch v) =
      some ⟨x.fleet, Function.update x.guis v .claimed, ⟨some v⟩⟩ := by
  have hclose : x.guiName.close v = x.guiName := by
    simp [BusName.close, hname]
  have hlaunch : desktop.step x (.gui v .launch) =
      some { x with guis := Function.update x.guis v .launched } := by
    have hg : (x.guis v).step .launch = some .launched := by
      rw [hv]
      rfl
    refine Desktop.gui_eq_some.mpr ⟨rfl, .launched, x.fleet, hg, rfl, ?_⟩
    show _ = (⟨x.fleet, _, x.guiName.close v⟩ : Desktop)
    rw [hclose]
  refine Machine.run_cons_eq_some.mpr ⟨_, hlaunch, ?_⟩
  refine Machine.run_cons_eq_some.mpr ⟨_, quiet_step (g := .connected) (by simp [GuiProcess.step])
    rfl rfl (by simp) (by simp), ?_⟩
  refine Machine.run_cons_eq_some.mpr ⟨_, Desktop.gui_eq_some.mpr ⟨by simp [Desktop.permits, hname],
    .claimed, x.fleet, by simp [GuiProcess.step, ConnectError.ofReply], rfl, rfl⟩, ?_⟩
  simp [Desktop.rename, BusName.request, hname]

/-- One such step at the head of a run. -/
theorem quiet_cons {x t : Desktop} {v : ℕ} {l : GuiProcess.Label} {g g' : GuiProcess}
    {rest : List Desktop.Label} (hg : g.step l = some g')
    (hp : ({ x with guis := Function.update x.guis v g } : Desktop).permits v l = true)
    (hc : g'.connection = true) (hclaim : l ≠ .claim .primaryOwner)
    (hsend : ∀ r h, l ≠ .send r (some h))
    (hrest : desktop.run { x with guis := Function.update x.guis v g' } rest = some t) :
    desktop.run { x with guis := Function.update x.guis v g } (.gui v l :: rest) = some t := by
  have hstep := quiet_step (x := { x with guis := Function.update x.guis v g })
    (by simpa using hg) hp hc hclaim hsend
  rw [Function.update_idem] at hstep
  exact Machine.run_cons_eq_some.mpr ⟨_, hstep, hrest⟩

/-- With its claim granted and a daemon to answer, `connect` opens a window that shows the
daemon's status and knows whether it has a tray. -/
theorem attach_run {x : Desktop} {v : ℕ} {d : Daemon} (hv : x.guis v = .claimed)
    (hd : x.answering = some d) :
    desktop.run x (attach v d) = some { x with
      guis := Function.update x.guis v (.opened ⟨d.hasTray, d.state.snapshot, false⟩ .idle) } := by
  -- the daemons stay as they are, so the same one answers every call
  have hanswering : ∀ guis, ({ x with guis := guis } : Desktop).answering = some d :=
    fun _ => hd
  have hx : x = { x with guis := Function.update x.guis v .claimed } := by
    rw [← hv, Function.update_eq_self]
  have hread : ∀ (r : Reading) (value : Bool), d.state.snapshot.get r.next = value →
      ({ x with guis := Function.update x.guis v (.reading r) } : Desktop).permits v
        (.read (some value)) = true := by
    intro r value hvalue
    simp [Desktop.permits, hanswering, hvalue]
  rw [hx]
  unfold attach
  apply quiet_cons rfl (by simp [Desktop.permits, hanswering]) rfl (by simp) (by simp)
  apply quiet_cons rfl (hread _ _ rfl) rfl (by simp) (by simp)
  apply quiet_cons rfl (hread _ _ rfl) rfl (by simp) (by simp)
  apply quiet_cons rfl (hread _ _ rfl) rfl (by simp) (by simp)
  apply quiet_cons rfl (hread _ _ rfl) rfl (by simp) (by simp)
  apply quiet_cons rfl (by simp [Desktop.permits, hanswering]) rfl (by simp) (by simp)
  simp [Reading.take, Reading.next, Status.get]

/-- The invariant is enough. -/
theorem oneWindow_of_guarded (x : Desktop × GuiHistory) (hx : Guarded x) : OneWindow x := by
  obtain ⟨howner, hidle⟩ := hx
  refine ⟨fun v w hv hw => ?_, fun w l y hs ha => ?_, fun w hw => ((hidle w).refused hw).1,
    fun w y hw hs v hv => ?_⟩
  · have hv := (howner v).mp hv
    rw [(howner w).mp hw] at hv
    exact (Option.some.inj hv).symm
  · have hs : x.1.step (.gui w l) = some y := hs
    obtain ⟨-, g, f, hg, -, -⟩ := Desktop.gui_eq_some.mp hs
    exact pastClaim_of_acts hg ha
  · have hs : x.1.step (.gui w .die) = some y := hs
    obtain ⟨-, g, f, hg, -, rfl⟩ := Desktop.gui_eq_some.mp hs
    have hfree : (x.1.rename w g .die).owner = none := by
      have hclosed : x.1.rename w g .die = x.1.guiName.close w := by
        have hgone : g.connection = false := by
          simp only [GuiProcess.step, Option.ite_none_right_eq_some, Option.some.injEq] at hg
          rw [← hg.2]
          rfl
        simp [Desktop.rename, hgone]
      rw [hclosed, BusName.close, if_pos ((howner w).mp hw)]
    refine ⟨_, launch_run hfree hv, by simp [GuiProcess.pastClaim], fun d hd => ?_⟩
    exact ⟨_, attach_run (by simp) hd, by simp⟩

/-- **At most one window.** In every state of every run of any number of window processes and
daemons, at most one process is past its claim of the name, only that one starts a daemon or
calls one, a process whose claim failed never does, and where the owner dies any process
launched after it can claim the name, and open its window if a daemon answers.
SOURCE: client.rs:70-121, main.rs:74-99, spawn.rs:89-119 -/
theorem one_window (run : List Desktop.Label) :
    launching.Everywhere OneWindow ({}, {}) run := by
  apply Machine.Everywhere.mono oneWindow_of_guarded
  apply Machine.everywhere_of_step guarded_step
  refine ⟨fun w => ?_, fun w => ⟨fun _ => rfl, fun hw => ?_⟩⟩
  · simp [GuiProcess.pastClaim]
  · cases hw

/-- A window finds no daemon and starts one; it opens, and a second launch is refused. -/
def firstWindow : List Desktop.Label :=
  [.gui 0 .launch, .gui 0 (.session true), .gui 0 (.claim .primaryOwner), .gui 0 (.probe false),
    .daemon 0 (.startTray true), .daemon 0 (.serve true), .daemon 0 (.requestName .primaryOwner),
    .gui 0 (.poll true), .gui 0 (.read (some false)), .gui 0 (.read (some false)),
    .gui 0 (.read (some false)), .gui 0 (.read (some false)), .gui 0 (.askTray (some true)),
    .gui 1 .launch, .gui 1 (.session true), .gui 1 (.claim .nameTaken)]

/-- The first window dies, and a third launch opens one for the daemon that is left. -/
def nextWindow : List Desktop.Label := .gui 0 .die :: (launch 2 ++ attach 2 { hasTray := true })

/-- There are runs in which a window opens, another is refused meanwhile, the first dies and a
later launch opens its own. -/
theorem nextWindow_opened :
    ∃ x y, launching.run ({}, {}) firstWindow = some x ∧ launching.run x nextWindow = some y ∧
      x.1.guis 0 = .opened ⟨true, ⟨false, false, false, false⟩, false⟩ .idle ∧
      x.1.guis 1 = .failed .alreadyRunning ∧ x.2.refused 1 = true ∧ y.1.guis 0 = .gone ∧
      y.1.guis 2 = .opened ⟨true, ⟨false, false, false, false⟩, false⟩ .idle ∧
      y.1.guiName.owner = some 2 :=
  ⟨_, _, rfl, rfl, rfl, rfl, rfl, rfl, rfl, rfl⟩

end SleepBlocker.Analysis
