import SleepBlocker.Analysis.OneWindow

/-!
# When a daemon without a tray is told to stay

A window offers "Keep running in tray when closed" only if its daemon has a tray, because a
daemon that stays without one has no way to bring a window back. `has_tray` is settled
before the daemon can be asked for it, and a read that fails counts as no tray. But the
answer is kept for the life of the window, while the request goes to whoever owns the name
when it is sent. `tray_trap_iff` says that this is the only way into the trap: a daemon
without a tray handles the request of a window that has its answer from another daemon.
-/

set_option autoImplicit false

namespace SleepBlocker.Analysis

open SleepBlocker.Computation SleepBlocker.Model

/-- The daemon that owns the name keeps running without a window only if it has a tray. -/
def NoTrap (f : Fleet) : Prop :=
  ∀ p, f.name.owner = some p → (f.processes p).state.snapshot.keepRunningInTray = true →
    (f.processes p).hasTray = true

/-- Where the windows have their `has_tray` from, and which daemon's answer the sender of a
request had. -/
structure TrayOrigin where
  source : ℕ → Option ℕ := fun _ => none
  sender : ℕ → ℕ → Option ℕ := fun _ _ => none

/-- What the history records of a step. -/
def TrayOrigin.update (g : TrayOrigin) (x : Desktop) : Desktop.Label → TrayOrigin
  | .gui w (.askTray value) =>
    { g with source := Function.update g.source w (value.bind fun _ => x.fleet.name.owner) }
  | .gui w (.send _ (some h)) =>
    match x.fleet.name.owner with
    | some p =>
      { g with sender := Function.update g.sender p (Function.update (g.sender p) h (g.source w)) }
    | none => g
  | _ => g

/-- The desktop with the origin of its answers about the tray. -/
def answered : Machine (Desktop × TrayOrigin) Desktop.Label := desktop.monitor TrayOrigin.update

/-- A request to keep running is handled by the daemon that told its window about its tray,
or by one that has a tray. -/
def OwnAnswer (x : Desktop × TrayOrigin) (a : Desktop.Label) : Prop :=
  ∀ p h ans, a = .daemon p (.handle h ans) →
    (x.1.fleet.processes p).handlers h = .received (.setKeepRunningInTray true) →
      x.2.sender p h = some p ∨ (x.1.fleet.processes p).hasTray = true

/-! ## One daemon -/

/-- The startup order: `has_tray` is not set before the tray is started, only a process with
a tray runs callbacks, and before it owns the name no process has been asked for anything. -/
structure Prepared (d : Daemon) : Prop where
  starting : d.stage = .starting → d.hasTray = false
  callback : d.callback ≠ .idle → d.hasTray = true
  idle : d.early = true → ∀ h, d.handlers h = .idle
  setting : d.early = true → d.state.snapshot.keepRunningInTray = true → d.hasTray = true

/-- Every step keeps a daemon prepared, when no request comes before its startup is over. -/
theorem prepared_step {d t : Daemon} {a : Daemon.Label} (hs : d.step a = some t)
    (hreceive : ∀ h r, a = .receive h r → d.early = false) (hd : Prepared d) : Prepared t := by
  obtain ⟨hmain, hhandler, htray, hstate⟩ := Daemon.frame_of_party hs
  cases hp : a.party with
  | main =>
      obtain ⟨hhas, hstarted, hearly⟩ := Daemon.startup_of_main hs hp
      obtain ⟨hhandlers, -, -⟩ := hhandler (by simp [hp])
      obtain ⟨hcallback, -⟩ := htray (by simp [hp])
      have hstays : d.hasTray = true → t.hasTray = true := by
        intro htrue
        rcases hhas with hsame | hstarting
        · rw [hsame, htrue]
        · rw [hd.starting hstarting] at htrue
          cases htrue
      refine ⟨fun h => absurd h hstarted, fun h => ?_, fun h => ?_, fun h hrunning => ?_⟩
      · rw [hcallback] at h
        exact hstays (hd.callback h)
      · rw [hhandlers]
        exact hd.idle (hearly h)
      · rw [hstate hp] at hrunning
        exact hstays (hd.setting (hearly h) hrunning)
  | handler =>
      obtain ⟨hstage, hhas⟩ := hmain (by simp [hp])
      obtain ⟨hcallback, -⟩ := htray (by simp [hp])
      have hlate : d.early = false := by
        by_contra hearly
        have hearly : d.early = true := by
          simpa using hearly
        obtain ⟨h, hh⟩ : ∃ h, a.handler = some h := by
          cases a <;> simp_all [Daemon.Label.party, Daemon.Label.handler]
        obtain ⟨r, hr⟩ := (Daemon.connected_of_handler hs hh).2 (hd.idle hearly h)
        rw [hreceive h r hr] at hearly
        cases hearly
      have hlate' : t.early = false := by
        unfold Daemon.early at hlate ⊢
        rw [hstage]
        exact hlate
      refine ⟨fun h => ?_, fun h => ?_, fun h => ?_, fun h => ?_⟩
      · rw [hhas]
        exact hd.starting (hstage ▸ h)
      · rw [hhas]
        exact hd.callback (hcallback ▸ h)
      · rw [hlate'] at h
        cases h
      · rw [hlate'] at h
        cases h
  | tray =>
      obtain ⟨hstage, hhas⟩ := hmain (by simp [hp])
      obtain ⟨hhandlers, -, -⟩ := hhandler (by simp [hp])
      have htrue : d.hasTray = true := by
        rcases Daemon.hasTray_of_tray hs hp with h | h
        · exact h
        · exact hd.callback h
      refine ⟨fun h => ?_, fun _ => by rw [hhas, htrue], fun h => ?_, fun _ _ => by rw [hhas, htrue]⟩
      · rw [hhas]
        exact hd.starting (hstage ▸ h)
      · rw [hhandlers]
        unfold Daemon.early at h
        rw [hstage] at h
        exact hd.idle h

/-- A tray once obtained is not lost. -/
theorem hasTray_stays {d t : Daemon} {a : Daemon.Label} (hs : d.step a = some t)
    (hd : Prepared d) (htrue : d.hasTray = true) : t.hasTray = true := by
  by_cases hp : a.party = .main
  · rcases (Daemon.startup_of_main hs hp).1 with hsame | hstarting
    · rw [hsame, htrue]
    · rw [hd.starting hstarting] at htrue
      cases htrue
  · rw [((Daemon.frame_of_party hs).1 hp).2, htrue]

/-! ## The daemons on the bus -/

/-- What the bus does in a step of process `p`: nothing, grant the name, or free it; a request
reaches the owner only. -/
theorem bus_cases {f : Fleet} {p : ℕ} {l : Daemon.Label} {name : BusName ℕ}
    (hb : f.bus p l = some name) :
    (name = f.name ∧ (∀ h r, l = .receive h r → f.name.owner = some p) ∧
        l ≠ .closeConnection ∧ l ≠ .exit ∧ l ≠ .crash) ∨
      (l = .requestName .primaryOwner ∧ f.name.owner = none ∧ name = ⟨some p⟩) ∨
      ((l = .closeConnection ∨ l = .exit ∨ l = .crash) ∧ name = f.name.close p) := by
  cases l <;> simp only [Fleet.bus, Option.some.injEq] at hb
  case requestName reply =>
    cases reply <;> simp only [Option.ite_none_left_eq_some, Option.some.injEq] at hb
    case primaryOwner =>
      obtain ⟨hnone, rfl⟩ := BusName.request_eq_some.mp hb
      exact Or.inr (Or.inl ⟨rfl, hnone, rfl⟩)
    case otherReply | nameTaken => exact Or.inl ⟨hb.2.symm, by simp⟩
    case error => exact Or.inl ⟨hb.symm, by simp⟩
  case receive h r =>
    simp only [Option.ite_none_right_eq_some, Option.some.injEq] at hb
    exact Or.inl ⟨hb.2.symm, fun _ _ _ => hb.1, by simp⟩
  case closeConnection => exact Or.inr (Or.inr ⟨Or.inl rfl, hb.symm⟩)
  case exit => exact Or.inr (Or.inr ⟨Or.inr (Or.inl rfl), hb.symm⟩)
  case crash => exact Or.inr (Or.inr ⟨Or.inr (Or.inr rfl), hb.symm⟩)
  all_goals exact Or.inl ⟨hb.symm, by simp⟩

/-- The owner of the name has finished its startup, and only the owner has requests. -/
structure Served (f : Fleet) : Prop where
  prepared : ∀ p, Prepared (f.processes p)
  owner : ∀ p, f.name.owner = some p →
    (f.processes p).stage = .waiting ∨ (f.processes p).stage = .returning
  busy : ∀ p h, (f.processes p).connected = true → (f.processes p).handlers h ≠ .idle →
    f.name.owner = some p

/-- The daemon that owns the name is past its startup. -/
theorem Served.not_early {f : Fleet} (hf : Served f) {p : ℕ} (hp : f.name.owner = some p) :
    (f.processes p).early = false := by
  rcases hf.owner p hp with h | h <;> simp [Daemon.early, h]

/-- The owner's main thread is waiting or returning, and only its end takes the name away. -/
theorem waiting_of_step {d t : Daemon} {l : Daemon.Label} (hs : d.step l = some t)
    (hd : d.stage = .waiting ∨ d.stage = .returning) (hclose : l ≠ .closeConnection)
    (hexit : l ≠ .exit) (hcrash : l ≠ .crash) : t.stage = .waiting ∨ t.stage = .returning := by
  by_cases hp : l.party = .main
  · cases l <;> simp only [Daemon.Label.party, reduceCtorEq] at hp
    case wake =>
      simp only [Daemon.step, Option.ite_none_right_eq_some, Option.some.injEq] at hs
      obtain ⟨-, rfl⟩ := hs
      exact Or.inr rfl
    case closeConnection => exact absurd rfl hclose
    case exit => exact absurd rfl hexit
    case crash => exact absurd rfl hcrash
    all_goals
      simp only [Daemon.step, Option.ite_none_right_eq_some] at hs
      rcases hd with hd | hd <;> simp [hd] at hs
  · rw [((Daemon.frame_of_party hs).1 hp).1]
    exact hd

/-- A process that is up after a step of its main thread was up before it or has just begun. -/
theorem connected_of_main {d t : Daemon} {l : Daemon.Label} (hs : d.step l = some t)
    (hp : l.party = .main) (ht : t.connected = true) : d.connected = true ∨ d.early = true := by
  cases l <;> simp only [Daemon.Label.party, reduceCtorEq] at hp
  case crash =>
    simp only [Daemon.step, Option.ite_none_left_eq_some, Option.some.injEq] at hs
    obtain ⟨-, rfl⟩ := hs
    simp [Daemon.connected] at ht
  all_goals
    simp only [Daemon.step, Option.ite_none_right_eq_some, Option.some.injEq] at hs
    obtain ⟨hstage, rfl⟩ := hs
  case startTray => exact Or.inr (by simp [Daemon.early, hstage])
  case serve => exact Or.inr (by simp [Daemon.early, hstage])
  case requestName => exact Or.inr (by simp [Daemon.early, hstage])
  case wake => exact Or.inl (by simp [Daemon.connected, hstage.1])
  case closeConnection => simp [Daemon.connected] at ht
  case exit => simp [Daemon.connected] at ht

/-- A process that has requests after a step of its own owned the name before it. -/
theorem owner_of_busy {f : Fleet} {p : ℕ} {l : Daemon.Label} {t : Daemon} (hf : Served f)
    (hs : (f.processes p).step l = some t)
    (hreceive : ∀ h r, l = .receive h r → f.name.owner = some p) {h : ℕ}
    (ht : t.connected = true) (hh : t.handlers h ≠ .idle) : f.name.owner = some p := by
  obtain ⟨hmain, hhandler, -, -⟩ := Daemon.frame_of_party hs
  by_cases hp : l.party = .handler
  · obtain ⟨k, hk⟩ : ∃ k, l.handler = some k := by
      cases l <;> simp_all [Daemon.Label.party, Daemon.Label.handler]
    obtain ⟨hd, hidle⟩ := Daemon.connected_of_handler hs hk
    by_cases hbusy : (f.processes p).handlers k = .idle
    · obtain ⟨r, hr⟩ := hidle hbusy
      exact hreceive k r hr
    · exact hf.busy p k hd hbusy
  · rw [(hhandler hp).1] at hh
    have hnotEarly : (f.processes p).early ≠ true :=
      fun hearly => hh ((hf.prepared p).idle hearly h)
    have hd : (f.processes p).connected = true := by
      by_cases hm : l.party = .main
      · exact (connected_of_main hs hm ht).resolve_right hnotEarly
      · unfold Daemon.connected at ht ⊢
        rw [(hmain hm).1] at ht
        exact ht
    exact hf.busy p h hd hh

/-- Every step of the fleet keeps it in service. -/
theorem served_step {f g : Fleet} {a : ℕ × Daemon.Label} (hs : f.step a = some g)
    (hf : Served f) : Served g := by
  obtain ⟨p, l⟩ := a
  obtain ⟨name, d, hb, hd, rfl⟩ := Fleet.step_eq_some.mp hs
  simp only at hb hd ⊢
  have hbus := bus_cases hb
  have hreceive : ∀ h r, l = .receive h r → f.name.owner = some p := by
    rcases hbus with ⟨-, h, -⟩ | ⟨rfl, -⟩ | ⟨hl, -⟩
    · exact h
    · simp
    · rcases hl with rfl | rfl | rfl <;> simp
  refine ⟨fun q => ?_, fun q hq => ?_, fun q h hc hh => ?_⟩
  · by_cases hqp : q = p
    · subst hqp
      simp only [Function.update_self]
      exact prepared_step hd (fun h r hl => hf.not_early (hreceive h r hl)) (hf.prepared q)
    · simp only [Function.update_of_ne hqp]
      exact hf.prepared q
  · by_cases hqp : q = p
    · subst hqp
      simp only [Function.update_self]
      rcases hbus with ⟨rfl, -, hclose, hexit, hcrash⟩ | ⟨rfl, -, rfl⟩ | ⟨-, rfl⟩
      · exact waiting_of_step hd (hf.owner q hq) hclose hexit hcrash
      · simp only [Daemon.step, Option.ite_none_right_eq_some, Option.some.injEq] at hd
        obtain ⟨-, rfl⟩ := hd
        exact Or.inl rfl
      · exact absurd rfl (BusName.owner_close.mp hq).2
    · simp only [Function.update_of_ne hqp]
      apply hf.owner q
      rcases hbus with ⟨rfl, -⟩ | ⟨-, -, rfl⟩ | ⟨-, rfl⟩
      · exact hq
      · exact absurd (Option.some.inj hq).symm hqp
      · exact (BusName.owner_close.mp hq).1
  · by_cases hqp : q = p
    · subst hqp
      simp only [Function.update_self] at hc hh
      have howner := owner_of_busy hf hd hreceive hc hh
      rcases hbus with ⟨rfl, -⟩ | ⟨-, hnone, -⟩ | ⟨hl, -⟩
      · exact howner
      · simp [hnone] at howner
      · -- the connection has just been closed
        exfalso
        rcases hl with rfl | rfl | rfl
        · simp only [Daemon.step, Option.ite_none_right_eq_some, Option.some.injEq] at hd
          obtain ⟨-, rfl⟩ := hd
          simp [Daemon.connected] at hc
        · simp only [Daemon.step, Option.ite_none_right_eq_some, Option.some.injEq] at hd
          obtain ⟨-, rfl⟩ := hd
          simp [Daemon.connected] at hc
        · simp only [Daemon.step, Option.ite_none_left_eq_some, Option.some.injEq] at hd
          obtain ⟨-, rfl⟩ := hd
          simp [Daemon.connected] at hc
    · simp only [Function.update_of_ne hqp] at hc hh
      have howner := hf.busy q h hc hh
      rcases hbus with ⟨rfl, -⟩ | ⟨-, hnone, -⟩ | ⟨-, rfl⟩
      · exact howner
      · simp [hnone] at howner
      · exact BusName.owner_close.mpr ⟨howner, hqp⟩

/-- No daemon loses its tray. -/
theorem fleet_hasTray_stays {f g : Fleet} {a : ℕ × Daemon.Label} (hs : f.step a = some g)
    (hf : Served f) {q : ℕ} (htrue : (f.processes q).hasTray = true) :
    (g.processes q).hasTray = true := by
  obtain ⟨name, d, -, hd, rfl⟩ := Fleet.step_eq_some.mp hs
  by_cases hq : q = a.1
  · subst hq
    simp only [Function.update_self]
    exact hasTray_stays hd (hf.prepared a.1) htrue
  · simp only [Function.update_of_ne hq]
    exact htrue

/-! ## The windows -/

/-- A window that offers the setting has been told of a tray by a daemon that has one, and so
has the sender of every pending request to keep running. -/
structure Sourced (x : Desktop × TrayOrigin) : Prop where
  served : Served x.1.fleet
  window : ∀ w client r, x.1.guis w = .opened client r → client.hasTray = true →
    ∃ q, x.2.source w = some q ∧ (x.1.fleet.processes q).hasTray = true
  pending : ∀ p h, (x.1.fleet.processes p).handlers h = .received (.setKeepRunningInTray true) →
    ∃ q, x.2.sender p h = some q ∧ (x.1.fleet.processes q).hasTray = true

/-- A window that is open after a step has been before it, with the same `has_tray`, or opens
with the answer of this step. -/
theorem opened_before {g g' : GuiProcess} {l : GuiProcess.Label} (hs : g.step l = some g')
    {client : DaemonClient} {r : Reading} (hg' : g' = .opened client r) :
    (∃ client' r', g = .opened client' r' ∧ client'.hasTray = client.hasTray ∧
        ∀ value, l ≠ .askTray value) ∨
      ∃ value, l = .askTray value ∧ client.hasTray = value.getD false := by
  subst hg'
  unfold GuiProcess.step at hs
  split at hs
  case h_7 last value =>
    cases hs
    exact Or.inr ⟨value, rfl, rfl⟩
  case h_8 client' r' value =>
    left
    split at hs <;> cases hs
    · rename_i status _
      refine ⟨client', r', rfl, ?_, by simp⟩
      cases status <;> rfl
    · exact ⟨client, r', rfl, rfl, by simp⟩
  case h_9 client' r' request dispatched =>
    simp only [Option.ite_none_right_eq_some, Option.some.injEq, GuiProcess.opened.injEq] at hs
    obtain ⟨-, rfl, -⟩ := hs
    exact Or.inl ⟨client', r', rfl, rfl, by simp⟩
  case h_3 reply => cases reply <;> simp [ConnectError.ofReply] at hs
  case h_6 => split at hs <;> simp at hs
  case h_11 => simp at hs
  case h_12 => cases hs
  all_goals
    simp only [Option.some.injEq] at hs
    revert hs
    repeat' split
    all_goals simp

/-- A window that sends the request to keep running has a tray on record. -/
theorem hasTray_of_send {g g' : GuiProcess} {wanted : Bool} {h : Option ℕ}
    (hs : g.step (.send (.setKeepRunningInTray wanted) h) = some g') :
    ∃ client r, g = .opened client r ∧ client.hasTray = true := by
  cases g <;> simp only [GuiProcess.step, reduceCtorEq, Option.ite_none_right_eq_some] at hs
  case opened client r =>
    refine ⟨client, r, rfl, ?_⟩
    simp only [DaemonClient.offers, Bool.and_eq_true] at hs
    exact hs.1.2.1

/-- A step of a daemon keeps the origins. -/
theorem sourced_daemon {x y : Desktop} {g : TrayOrigin} {p : ℕ} {l : Daemon.Label}
    (hs : x.step (.daemon p l) = some y) (hx : Sourced (x, g)) :
    Sourced (y, g.update x (.daemon p l)) := by
  obtain ⟨hnot, f, hf, rfl⟩ := Desktop.daemon_eq_some.mp hs
  have hstays : ∀ q, (x.fleet.processes q).hasTray = true → (f.processes q).hasTray = true :=
    fun q => fleet_hasTray_stays hf hx.served
  refine ⟨served_step hf hx.served, fun w client r hw htrue => ?_, fun q h hh => ?_⟩
  · obtain ⟨q, hq, hhas⟩ := hx.window w client r hw htrue
    exact ⟨q, hq, hstays q hhas⟩
  · have hbefore : (x.fleet.processes q).handlers h = .received (.setKeepRunningInTray true) := by
      obtain ⟨name, d, -, hd, rfl⟩ := Fleet.step_eq_some.mp hf
      by_cases hqp : q = p
      · subst hqp
        simp only [Function.update_self] at hh
        exact (Daemon.received_before hd hh).resolve_right (hnot h _)
      · simp only [Function.update_of_ne hqp] at hh
        exact hh
    obtain ⟨o, ho, hhas⟩ := hx.pending q h hbefore
    exact ⟨o, ho, hstays o hhas⟩

/-- What a window's step does to the daemons and to the record of the senders: a request
that reaches the owner is received under a free number, with its sender's source. -/
theorem deliver_cases {x : Desktop} {g : TrayOrigin} {w : ℕ} {l : GuiProcess.Label} {f : Fleet}
    (hf : x.deliver l = some f) :
    (∃ p h r d, l = .send r (some h) ∧ x.fleet.name.owner = some p ∧
        x.fleet.step (p, .receive h r) = some f ∧
        (x.fleet.processes p).step (.receive h r) = some d ∧
        f.processes = Function.update x.fleet.processes p d ∧
        (g.update x (.gui w l)).sender =
          Function.update g.sender p (Function.update (g.sender p) h (g.source w))) ∨
      (f = x.fleet ∧ (g.update x (.gui w l)).sender = g.sender) := by
  unfold Desktop.deliver at hf
  split at hf
  · rename_i r h
    obtain ⟨p, hp, hstep⟩ := Option.bind_eq_some_iff.mp hf
    obtain ⟨name, d, -, hd, rfl⟩ := Fleet.step_eq_some.mp hstep
    exact Or.inl ⟨p, h, r, d, rfl, hp, hstep, hd, rfl, by simp [TrayOrigin.update, hp]⟩
  · refine Or.inr ⟨(Option.some.inj hf).symm, ?_⟩
    unfold TrayOrigin.update
    split <;> simp_all

/-- Only the answer to a window's `has_tray` changes where its view comes from. -/
theorem source_update {x : Desktop} {g : TrayOrigin} {v w : ℕ} {l : GuiProcess.Label}
    (hother : v = w → ∀ value, l ≠ .askTray value) :
    (g.update x (.gui w l)).source v = g.source v := by
  unfold TrayOrigin.update
  split
  · rename_i heq
    simp only [Desktop.Label.gui.injEq] at heq
    obtain ⟨rfl, hl⟩ := heq
    exact Function.update_of_ne (fun hv => hother hv _ hl) _ _
  · split <;> rfl
  · rfl

/-- A step of a window keeps the origins. -/
theorem sourced_gui {x y : Desktop} {g : TrayOrigin} {w : ℕ} {l : GuiProcess.Label}
    (hs : x.step (.gui w l) = some y) (hx : Sourced (x, g)) :
    Sourced (y, g.update x (.gui w l)) := by
  obtain ⟨hpermits, g', f, hg, hf, rfl⟩ := Desktop.gui_eq_some.mp hs
  have hdeliver := deliver_cases (g := g) (w := w) hf
  have hserved : Served f := by
    rcases hdeliver with ⟨p, h, r, d, -, -, hstep, -⟩ | ⟨rfl, -⟩
    · exact served_step hstep hx.served
    · exact hx.served
  have hstays : ∀ q, (x.fleet.processes q).hasTray = true → (f.processes q).hasTray = true := by
    intro q htrue
    rcases hdeliver with ⟨p, h, r, d, -, -, hstep, -⟩ | ⟨rfl, -⟩
    · exact fleet_hasTray_stays hstep hx.served htrue
    · exact htrue
  refine ⟨hserved, fun v client r hv htrue => ?_, fun q k hk => ?_⟩
  · by_cases hvw : v = w
    · subst hvw
      simp only [Function.update_self] at hv
      rcases opened_before hg hv with ⟨client', r', hbefore, hsame, hnot⟩ | ⟨value, rfl, hvalue⟩
      · obtain ⟨q, hq, hhas⟩ := hx.window v client' r' hbefore (hsame.trans htrue)
        exact ⟨q, (source_update fun _ => hnot).trans hq, hstays q hhas⟩
      · -- the answer of the owner of the name
        obtain rfl : value = some true := by
          cases value <;> simp_all
        cases howner : x.fleet.name.owner with
        | none => simp [Desktop.permits, Desktop.answering, howner] at hpermits
        | some q =>
            have hhas : (x.fleet.processes q).hasTray = true := by
              simpa [Desktop.permits, Desktop.answering, howner] using hpermits
            exact ⟨q, by simp [TrayOrigin.update, howner], hstays q hhas⟩
    · simp only [Function.update_of_ne hvw] at hv
      obtain ⟨q, hq, hhas⟩ := hx.window v client r hv htrue
      exact ⟨q, (source_update fun h => absurd h hvw).trans hq, hstays q hhas⟩
  · rcases hdeliver with ⟨p, h, r, d, rfl, -, -, hd, hprocesses, hsender⟩ | ⟨rfl, hsender⟩
    · simp only [hprocesses] at hk
      simp only [hsender]
      have hfree : (x.fleet.processes p).handlers h = .idle := by
        simp only [Daemon.step, Option.ite_none_right_eq_some] at hd
        exact hd.1.2
      by_cases hqp : q = p
      · subst hqp
        simp only [Function.update_self] at hk ⊢
        rcases Daemon.received_before hd hk with hbefore | hlabel
        · have hkh : k ≠ h := by
            rintro rfl
            rw [hfree] at hbefore
            cases hbefore
          rw [Function.update_of_ne hkh]
          obtain ⟨o, ho, hhas⟩ := hx.pending q k hbefore
          exact ⟨o, ho, hstays o hhas⟩
        · cases hlabel
          rw [Function.update_self]
          obtain ⟨client, r, hopen, htrue⟩ := hasTray_of_send hg
          obtain ⟨o, ho, hhas⟩ := hx.window w client r hopen htrue
          exact ⟨o, ho, hstays o hhas⟩
      · simp only [Function.update_of_ne hqp] at hk ⊢
        obtain ⟨o, ho, hhas⟩ := hx.pending q k hk
        exact ⟨o, ho, hstays o hhas⟩
    · simp only [hsender]
      exact hx.pending q k hk

/-- Every step keeps the origins. -/
theorem sourced_step (x : Desktop × TrayOrigin) (a : Desktop.Label) (y : Desktop × TrayOrigin)
    (hs : answered.step x a = some y) (hx : Sourced x) : Sourced y := by
  obtain ⟨hd, hy⟩ := Machine.monitor_step_eq_some.mp hs
  obtain ⟨d, g⟩ := x
  obtain ⟨t, g'⟩ := y
  simp only at hd hy
  subst hy
  cases a with
  | daemon p l => exact sourced_daemon hd hx
  | gui w l => exact sourced_gui hd hx

/-! ## The trap -/

/-- A step of a daemon that stores the window setting is that of a handler with the request,
or of the tray's own item. -/
theorem stores_cases {d t : Daemon} {l : Daemon.Label} (hs : d.step l = some t) {value : Bool}
    (hv : d.stores l = some value) :
    (∃ h ans, l = .handle h ans ∧ d.handlers h = .received (.setKeepRunningInTray value)) ∨
      d.callback ≠ .idle := by
  unfold Daemon.stores at hv
  obtain ⟨call, hc, hop⟩ := Option.bind_eq_some_iff.mp hv
  cases l <;> simp only [Daemon.callOf, reduceCtorEq, Option.some.injEq] at hc
  case handle h ans =>
    obtain ⟨request, hh, -⟩ := Daemon.handle_eq_some.mp hs
    rw [hh] at hc
    simp only [Option.some.injEq] at hc
    subst hc
    cases request <;> simp only [Request.op, Op.stores, reduceCtorEq, Option.some.injEq] at hop
    subst hop
    exact Or.inl ⟨h, ans, rfl, hh⟩
  case screenItemSet ans =>
    obtain ⟨wanted, hcallback, -⟩ := Daemon.screenItemSet_eq_some.mp hs
    exact Or.inr (by simp [hcallback])
  case runningItemSet ans =>
    obtain ⟨wanted, hcallback, -⟩ := Daemon.runningItemSet_eq_some.mp hs
    exact Or.inr (by simp [hcallback])
  all_goals
    subst hc
    cases hop

/-- One step of a fleet stays out of the trap exactly when it is not the handling of a
request to keep running in a daemon without a tray. -/
theorem noTrap_fleet {f g : Fleet} {p : ℕ} {l : Daemon.Label} (hs : f.step (p, l) = some g)
    (hf : Served f) (hsafe : NoTrap f) :
    NoTrap g ↔ ∀ h ans, l = .handle h ans →
      (f.processes p).handlers h = .received (.setKeepRunningInTray true) →
        (f.processes p).hasTray = true := by
  obtain ⟨name, d, hb, hd, rfl⟩ := Fleet.step_eq_some.mp hs
  simp only at hb hd
  have hbus := bus_cases hb
  have hrunning := Daemon.running_of_step hd
  constructor
  · rintro hsafe' h ans rfl hh
    -- the daemon that handles a request owns the name, and then has the setting on
    obtain ⟨hconnected, -⟩ := Daemon.connected_of_handler hd rfl
    have howner := hf.busy p h hconnected (by simp [hh])
    have hname : name = f.name := by
      rcases hbus with ⟨hname, -⟩ | ⟨hl, -⟩ | ⟨hl, -⟩
      · exact hname
      · cases hl
      · simp at hl
    have hon : d.state.snapshot.keepRunningInTray = true := by
      rw [hrunning]
      simp [Daemon.stores, Daemon.callOf, hh, Request.op, Op.stores]
    have htrue := hsafe' p (by rw [hname]; exact howner) (by simpa using hon)
    simp only [Function.update_self] at htrue
    rwa [((Daemon.frame_of_party hd).1 (by simp [Daemon.Label.party])).2] at htrue
  · intro hC q hq hon
    by_cases hqp : q = p
    · subst hqp
      simp only [Function.update_self] at hon ⊢
      apply hasTray_stays hd (hf.prepared q)
      cases hv : (f.processes q).stores l with
      | none =>
          have hon : (f.processes q).state.snapshot.keepRunningInTray = true := by
            rw [hrunning, hv] at hon
            exact hon
          rcases hbus with ⟨rfl, -⟩ | ⟨rfl, -, -⟩ | ⟨-, rfl⟩
          · exact hsafe q hq hon
          · have hearly : (f.processes q).early = true := by
              simp only [Daemon.step, Option.ite_none_right_eq_some] at hd
              simp [Daemon.early, hd.1]
            exact (hf.prepared q).setting hearly hon
          · exact absurd rfl (BusName.owner_close.mp hq).2
      | some value =>
          rw [hrunning, hv] at hon
          simp only [Option.getD_some] at hon
          subst hon
          rcases stores_cases hd hv with ⟨h, ans, rfl, hh⟩ | hcallback
          · exact hC h ans rfl hh
          · exact (hf.prepared q).callback hcallback
    · simp only [Function.update_of_ne hqp] at hon ⊢
      apply hsafe q _ hon
      rcases hbus with ⟨rfl, -⟩ | ⟨-, -, rfl⟩ | ⟨-, rfl⟩
      · exact hq
      · exact absurd (Option.some.inj hq).symm hqp
      · exact (BusName.owner_close.mp hq).1

/-- One step of the desktop stays out of the trap exactly when no daemon without a tray takes
the request of another daemon's window. -/
theorem noTrap_step (x : Desktop × TrayOrigin) (a : Desktop.Label) (y : Desktop × TrayOrigin)
    (hs : answered.step x a = some y) (hx : Sourced x) (hsafe : NoTrap x.1.fleet) :
    NoTrap y.1.fleet ↔ OwnAnswer x a := by
  obtain ⟨hd, -⟩ := Machine.monitor_step_eq_some.mp hs
  obtain ⟨x, g⟩ := x
  obtain ⟨y, g'⟩ := y
  simp only at hd hsafe ⊢
  cases a with
  | gui w l =>
      refine iff_of_true ?_ (fun p h ans ha => by cases ha)
      obtain ⟨-, g', f, -, hf, rfl⟩ := Desktop.gui_eq_some.mp hd
      rcases deliver_cases (g := g) (w := w) hf with ⟨p, h, r, d, -, -, hstep, -⟩ | ⟨rfl, -⟩
      · exact (noTrap_fleet hstep hx.served hsafe).mpr (fun k ans hl => by cases hl)
      · exact hsafe
  | daemon p l =>
      obtain ⟨-, f, hf, rfl⟩ := Desktop.daemon_eq_some.mp hd
      rw [noTrap_fleet hf hx.served hsafe]
      constructor
      · rintro hC q h ans ha hh
        simp only [Desktop.Label.daemon.injEq] at ha
        obtain ⟨rfl, rfl⟩ := ha
        exact Or.inr (hC h ans rfl hh)
      · rintro hC h ans rfl hh
        rcases hC p h ans rfl hh with hsender | htrue
        · obtain ⟨q, hq, hhas⟩ := hx.pending p h hh
          rw [hsender] at hq
          cases hq
          exact hhas
        · exact htrue

/-- **No trap exactly while windows are answered by the daemon they ask.** Along every run of
daemons and windows, with daemons that start, exit, crash and replace each other on the name
and reads that may fail at any point, the owner of the name keeps running only if it has a
tray, in every state, exactly when every request to keep running is handled by the daemon
whose `has_tray` its window has read, or by one that has a tray.
SOURCE: sleep-blockd.rs:141-199, client.rs:91-121, client.rs:137-185, main.rs:275-296 -/
theorem tray_trap_iff {run : List Desktop.Label} {x : Desktop} (hr : desktop.run {} run = some x) :
    answered.Everywhere (fun x => NoTrap x.1.fleet) ({}, {}) run ↔
      answered.Along OwnAnswer ({}, {}) run := by
  apply Machine.monitor_iff_along sourced_step noTrap_step hr
  · refine ⟨⟨fun p => ⟨fun _ => rfl, by simp, fun _ _ => rfl, fun _ h => ?_⟩, ?_, ?_⟩, ?_, ?_⟩
    · cases h
    · intro p hp
      cases hp
    · intro p h _ hh
      exact absurd rfl hh
    · intro w client r hw
      cases hw
    · intro p h hh
      cases hh
  · intro p hp
    cases hp

/-- A window opens on a daemon that has a tray; that daemon is killed, another one that finds
no tray takes the name, and the user switches "Keep running in tray" on. -/
def replacedDaemon : List Desktop.Label :=
  [.daemon 0 (.startTray true), .daemon 0 (.serve true), .daemon 0 (.requestName .primaryOwner),
    .gui 0 .launch, .gui 0 (.session true), .gui 0 (.claim .primaryOwner), .gui 0 (.probe true),
    .gui 0 (.read (some false)), .gui 0 (.read (some false)), .gui 0 (.read (some false)),
    .gui 0 (.read (some false)), .gui 0 (.askTray (some true)), .daemon 0 .crash,
    .daemon 1 (.startTray false), .daemon 1 (.serve true), .daemon 1 (.requestName .primaryOwner),
    .gui 0 (.send (.setKeepRunningInTray true) (some 0)),
    .daemon 1 (.handle 0 ⟨.granted 5, .granted 6, true⟩)]

/-- The daemon that owns the name then stays without a window and has no tray. -/
theorem replacedDaemon_trapped :
    ∃ y, answered.run ({}, {}) replacedDaemon = some y ∧ ¬ NoTrap y.1.fleet := by
  refine ⟨_, rfl, fun h => ?_⟩
  exact absurd (h 1 rfl rfl) (by decide)

/-- The same window on the daemon that it asked. -/
theorem tray_trap_iff_same_daemon :
    let run : List Desktop.Label :=
      [.daemon 0 (.startTray true), .daemon 0 (.serve true),
        .daemon 0 (.requestName .primaryOwner)] ++ launch 0 ++
      [.gui 0 (.probe true), .gui 0 (.read (some false)), .gui 0 (.read (some false)),
        .gui 0 (.read (some false)), .gui 0 (.read (some false)), .gui 0 (.askTray (some true)),
        .gui 0 (.send (.setKeepRunningInTray true) (some 0)),
        .daemon 0 (.handle 0 ⟨.granted 5, .granted 6, true⟩)]
    (∃ x, desktop.run {} run = some x ∧
      (x.fleet.processes 0).state.snapshot.keepRunningInTray = true) ∧
      (answered.Everywhere (fun x => NoTrap x.1.fleet) ({}, {}) run ↔
        answered.Along OwnAnswer ({}, {}) run) :=
  ⟨⟨_, rfl, rfl⟩, tray_trap_iff rfl⟩

end SleepBlocker.Analysis
