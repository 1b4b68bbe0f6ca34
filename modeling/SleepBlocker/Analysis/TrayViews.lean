import SleepBlocker.Model.Tray

/-!
# When the tray shows what it should

The tray's view depends on the status and on the tray's own error, and the watcher compares
statuses only, starting from a snapshot of its own that it takes some time after the tray
was first published. `tray_view_iff` says along every run when the view has caught up after
a completed poll: exactly when each property was looked after at the most recent change.
Either the change left the status different from the one the watcher had seen last, or the
update under way was still to publish the property, or what was published showed the change
already, or ksni has published the property by itself since, after a callback. The theorem
holds whether ksni does so or not, and so does the failure at the start (`changedAtStart`).
-/

set_option autoImplicit false

namespace SleepBlocker.Analysis

open SleepBlocker.Computation SleepBlocker.Model

/-- A property is looked after: the watcher has a status to notice that differs from the one it
saw last, or the update under way has the property still to publish, or what has been
published of it agrees with the status and the error as they are. -/
def Noticeable (x : Panel) (part : Part) : Prop :=
  ∀ v, x.shown = some v →
    match x.watcher with
    | .polling published => x.daemon.state.snapshot ≠ published ∨ v.Agrees x.view part
    | .updating published todo =>
      x.daemon.state.snapshot ≠ published ∨ part ∈ todo ∨ v.Agrees x.view part
    | .absent | .starting | .stopped => v.Agrees x.view part

/-- What a run has seen since the most recent change of the status or the error. -/
structure ViewHistory where
  /-- A poll that began after it has found a new status. -/
  begun : Bool := false
  /-- A poll that began after it has been completed. -/
  polled : Bool := false
  /-- The properties that ksni has published by itself since, after a callback. -/
  republished : List Part := []
  /-- The state that the change has left. -/
  changed : Panel := {}

/-- The status and the tray's error are the same. -/
def SameInputs (x y : Panel) : Prop :=
  y.daemon.state.snapshot = x.daemon.state.snapshot ∧ y.daemon.error = x.daemon.error

/-- Whether they are can be evaluated. -/
instance (x y : Panel) : Decidable (SameInputs x y) := inferInstanceAs (Decidable (_ ∧ _))

/-- What the history records of a step. -/
def ViewHistory.update (republishes : Bool) (g : ViewHistory) (x : Panel) (a : Panel.Label) :
    ViewHistory :=
  match x.step republishes a with
  | none => g
  | some y =>
    if SameInputs x y then
      match a, y.watcher with
      | .poll, .updating _ _ => { g with begun := true }
      | .poll, _ => { g with polled := true }
      | .publish _, .polling _ => { g with polled := g.polled || g.begun }
      | .republish part, _ => { g with republished := part :: g.republished }
      | _, _ => g
    else { changed := y }

/-- The panel with its history beside it. -/
def watched (republishes : Bool) : Machine (Panel × ViewHistory) Panel.Label :=
  (panels republishes).monitor (ViewHistory.update republishes)

/-- Once a poll that began after the most recent change is complete, the tray shows the view
of the status and the error as they are. -/
def CaughtUp (x : Panel × ViewHistory) : Prop :=
  x.2.polled = true → ∀ v, x.1.shown = some v → v = x.1.view

/-- Where such a poll is complete, each property was looked after at the most recent change, or
ksni has published it by itself since. -/
def LastChangeNoticed (x : Panel × ViewHistory) : Prop :=
  x.2.polled = true → x.1.shown.isSome = true →
    ∀ part, part ∈ x.2.republished ∨ Noticeable x.2.changed part

/-! ## Views -/

/-- Two views are the same when they agree in every property. -/
theorem TrayView.ext_agrees {v w : TrayView} : v = w ↔ ∀ part, v.Agrees w part := by
  constructor
  · rintro rfl part
    cases part <;> rfl
  · intro h
    have hicon : v.icon = w.icon := h .icon
    have htip : v.toolTip = w.toolTip := h .toolTip
    have hmenu : v.menu = w.menu := h .menu
    cases v
    cases w
    simp only at hicon htip hmenu
    rw [hicon, htip, hmenu]

/-- Publishing a property makes it agree and leaves the others. -/
theorem agrees_put {v now : TrayView} {part other : Part} :
    (v.put now part).Agrees now other ↔ other = part ∨ v.Agrees now other := by
  cases part <;> cases other <;> simp [TrayView.put, TrayView.Agrees]

/-- The view to be published depends on the status and the error only. -/
theorem view_of_sameInputs {x y : Panel} (h : SameInputs x y) : y.view = x.view := by
  unfold Panel.view
  rw [h.1, h.2]

/-! ## What the steps preserve -/

variable {republishes : Bool}

/-- The status that the watcher saw last. -/
def seen : Watcher → Option Status
  | .polling published | .updating published _ => some published
  | .absent | .starting | .stopped => none

/-- What the view and the watcher have to do with the history. -/
structure Traced (x : Panel × ViewHistory) : Prop where
  /-- Before the tray is started nothing has been shown or changed. -/
  early : x.1.daemon.stage = .starting → x.1.shown = none ∧ x.1.watcher = .absent ∧ x.2 = {}
  /-- What is looked after was so when the change was made, or has been published since. -/
  notice : x.1.shown.isSome = true → ∀ part,
    (Noticeable x.1 part ↔ part ∈ x.2.republished ∨ Noticeable x.2.changed part)
  /-- A poll that has found a new status since the change has found the one there is. -/
  begun : x.2.begun = true → x.1.shown.isSome = true →
    seen x.1.watcher = some x.1.daemon.state.snapshot
  /-- A poll completed since the change leaves the watcher with the status there is. -/
  polled : x.2.polled = true → x.1.shown.isSome = true →
    x.1.watcher = .polling x.1.daemon.state.snapshot

/-- Of a tray that is not there nothing has to be looked after. -/
theorem noticeable_none {x : Panel} (h : x.shown = none) (part : Part) : Noticeable x part := by
  intro v hv
  rw [h] at hv
  cases hv

/-- What is looked after while the watcher sleeps. -/
theorem noticeable_polling {x : Panel} {v : TrayView} {published : Status} {part : Part}
    (hshown : x.shown = some v) (hwatcher : x.watcher = .polling published) :
    Noticeable x part ↔ x.daemon.state.snapshot ≠ published ∨ v.Agrees x.view part := by
  simp only [Noticeable, hshown, Option.some.injEq, forall_eq', hwatcher]

/-- What is looked after while the watcher updates the tray. -/
theorem noticeable_updating {x : Panel} {v : TrayView} {published : Status} {todo : List Part}
    {part : Part} (hshown : x.shown = some v) (hwatcher : x.watcher = .updating published todo) :
    Noticeable x part ↔
      x.daemon.state.snapshot ≠ published ∨ part ∈ todo ∨ v.Agrees x.view part := by
  simp only [Noticeable, hshown, Option.some.injEq, forall_eq', hwatcher]

/-- A panel whose tray is gone is followed trivially. -/
theorem traced_gone {x : Panel} {g : ViewHistory} (hshown : x.shown = none)
    (hearly : x.daemon.stage = .starting → x.watcher = .absent ∧ g = {}) : Traced (x, g) where
  early h := ⟨hshown, hearly h⟩
  notice h := by simp [hshown] at h
  begun _ h := by simp [hshown] at h
  polled _ h := by simp [hshown] at h

/-- What a step of the daemon does to its panel. -/
theorem daemon_eq_some {x y : Panel} {l : Daemon.Label}
    (hs : x.step republishes (.daemon l) = some y) :
    ∃ d, x.daemon.step l = some d ∧ (l.party = .tray → x.shown ≠ none) ∧
      y = x.follow republishes d l := by
  simp only [Panel.step, Option.ite_none_left_eq_some, Option.map_eq_some_iff] at hs
  obtain ⟨hgone, d, hd, rfl⟩ := hs
  exact ⟨d, hd, fun hp hnone => hgone ⟨hp, Or.inl hnone⟩, rfl⟩

/-- A step other than the start of the tray leaves the published view and the watcher. -/
theorem follow_of_ne (r : Bool) (x : Panel) (d : Daemon) {l : Daemon.Label}
    (hl : l ≠ .startTray true) :
    ∃ due, x.follow r d l = { x with daemon := d, due := due } := by
  unfold Panel.follow
  rw [if_neg hl]
  split
  · exact ⟨_, rfl⟩
  · exact ⟨x.due, rfl⟩

/-- No step of the daemon ends before the tray is started. -/
theorem stage_of_daemon {x : Panel} {d : Daemon} {l : Daemon.Label}
    (hd : x.daemon.step l = some d) (htray : l.party = .tray → x.shown ≠ none)
    (hearly : x.daemon.stage = .starting → x.shown = none) : d.stage ≠ .starting := by
  intro hstage
  have hframe := Daemon.frame_of_party hd
  cases hp : l.party with
  | main => exact (Daemon.startup_of_main hd hp).2.1 hstage
  | handler =>
      obtain ⟨h, hh⟩ : ∃ h, l.handler = some h := by
        cases l <;> simp [Daemon.Label.party] at hp <;> exact ⟨_, rfl⟩
      have hconnected := (Daemon.connected_of_handler hd hh).1
      rw [(hframe.1 (by simp [hp])).1] at hstage
      simp [Daemon.connected, hstage] at hconnected
  | tray =>
      rw [(hframe.1 (by simp [hp])).1] at hstage
      exact htray hp (hearly hstage)

/-- What is looked after depends on the daemon through the status and the error only. -/
theorem noticeable_congr {x : Panel} {d : Daemon} {due : List Part} {part : Part}
    (h : SameInputs x { x with daemon := d, due := due }) :
    Noticeable { x with daemon := d, due := due } part ↔ Noticeable x part := by
  have hview := view_of_sameInputs h
  have hsnapshot : d.state.snapshot = x.daemon.state.snapshot := h.1
  simp only [Noticeable, hview, hsnapshot]

/-- A step of the daemon keeps track. -/
theorem traced_daemon {x y : Panel} {g : ViewHistory} {l : Daemon.Label}
    (hs : x.step republishes (.daemon l) = some y) (hx : Traced (x, g)) :
    Traced (y, g.update republishes x (.daemon l)) := by
  have hupdate : g.update republishes x (.daemon l) =
      if SameInputs x y then g else { changed := y } := by
    unfold ViewHistory.update
    rw [hs]
  obtain ⟨d, hd, htray, hy⟩ := daemon_eq_some hs
  have hstage := stage_of_daemon hd htray fun h => (hx.early h).1
  rw [hupdate]
  by_cases hstart : l = .startTray true
  · -- the view is published as it is, and nothing has happened before
    subst hstart
    simp only [Daemon.step, Option.ite_none_right_eq_some, Option.some.injEq] at hd
    obtain ⟨hstarting, rfl⟩ := hd
    obtain ⟨-, -, hg⟩ := hx.early hstarting
    simp only at hg
    subst hg hy
    rw [if_pos ⟨rfl, rfl⟩]
    refine ⟨fun h => absurd h hstage, fun _ part => ?_, by simp, by simp⟩
    refine iff_of_true ?_ (Or.inr (noticeable_none rfl part))
    intro v hv
    simp only [Panel.follow, if_true, Option.some.injEq] at hv
    subst hv
    exact TrayView.ext_agrees.mp rfl part
  · obtain ⟨due, hfollow⟩ := follow_of_ne republishes x d hstart
    rw [hfollow] at hy
    subst hy
    by_cases hsame : SameInputs x { x with daemon := d, due := due }
    · rw [if_pos hsame]
      have hsnapshot : d.state.snapshot = x.daemon.state.snapshot := hsame.1
      refine ⟨fun h => absurd h hstage, fun h part => ?_, fun hg h => ?_, fun hg h => ?_⟩
      · exact (noticeable_congr hsame).trans (hx.notice h part)
      · simp only [hsnapshot]
        exact hx.begun hg h
      · simp only [hsnapshot]
        exact hx.polled hg h
    · rw [if_neg hsame]
      exact ⟨fun h => absurd h hstage, fun _ part => by simp, by simp, by simp⟩

/-- Publishing a property of an update under way leaves what is looked after: it counted
already. -/
theorem mem_filter_or_agrees (v now : TrayView) {part other : Part} {todo : List Part}
    (hpart : part ∈ todo) :
    other ∈ todo.filter (· != part) ∨ (v.put now part).Agrees now other ↔
      other ∈ todo ∨ v.Agrees now other := by
  simp only [List.mem_filter, bne_iff_ne, agrees_put]
  by_cases hother : other = part
  · simp [hother, hpart]
  · simp [hother]

/-- A watcher that is there is there after the start. -/
theorem Traced.not_starting {x : Panel} {g : ViewHistory} (hx : Traced (x, g))
    (h : x.watcher ≠ .absent) : x.daemon.stage ≠ .starting :=
  fun hstage => h (hx.early hstage).2.1

/-- A step that leaves the status and the error is recorded by what it is. -/
theorem ViewHistory.update_of_sameInputs (g : ViewHistory) {x y : Panel} {a : Panel.Label} :
    x.step republishes a = some y → SameInputs x y → g.update republishes x a =
      match a, y.watcher with
      | .poll, .updating _ _ => { g with begun := true }
      | .poll, _ => { g with polled := true }
      | .publish _, .polling _ => { g with polled := g.polled || g.begun }
      | .republish part, _ => { g with republished := part :: g.republished }
      | _, _ => g := by
  intro hs hsame
  simp only [ViewHistory.update, hs]
  exact if_pos hsame

/-- The first snapshot keeps track: it gives the watcher nothing to notice. -/
theorem traced_firstSnapshot {x y : Panel} {g : ViewHistory}
    (hs : x.step republishes .firstSnapshot = some y) (hx : Traced (x, g)) :
    Traced (y, g.update republishes x .firstSnapshot) := by
  have hstep := hs
  simp only [Panel.step, Option.ite_none_right_eq_some, Option.some.injEq] at hs
  obtain ⟨⟨hwatcher, -⟩, rfl⟩ := hs
  have hupdate : g.update republishes x .firstSnapshot = g :=
    g.update_of_sameInputs hstep ⟨rfl, rfl⟩
  rw [hupdate]
  refine ⟨fun h => absurd h (hx.not_starting (by simp [hwatcher])), fun h part => ?_,
    fun hg h => ?_, fun hg h => ?_⟩
  · have hnotice := hx.notice h part
    rw [← hnotice]
    simp only [Noticeable, hwatcher, ne_eq, not_true_eq_false, false_or]
    rfl
  · have hseen := hx.begun hg h
    simp only [hwatcher, seen, reduceCtorEq] at hseen
  · rfl

/-- A poll keeps track: what it notices it has still to publish. -/
theorem traced_poll {x y : Panel} {g : ViewHistory} (hs : x.step republishes .poll = some y)
    (hx : Traced (x, g)) : Traced (y, g.update republishes x .poll) := by
  have hstep := hs
  simp only [Panel.step] at hs
  split at hs <;> try cases hs
  rename_i published hwatcher
  simp only [Option.ite_none_left_eq_some] at hs
  obtain ⟨-, hs⟩ := hs
  have hearly := hx.not_starting (by simp [hwatcher])
  split at hs <;> simp only [Option.some.injEq] at hs <;> subst hs
  · rename_i hnew
    have hupdate : g.update republishes x .poll = { g with begun := true } :=
      g.update_of_sameInputs hstep ⟨rfl, rfl⟩
    rw [hupdate]
    refine ⟨fun h => absurd h hearly, fun h part => ?_, fun _ _ => rfl, fun hg h => ?_⟩
    · -- the status was there to be noticed, and now nothing has been published
      have hnotice := hx.notice h part
      rw [← hnotice]
      refine iff_of_true ?_ ?_
      · intro v _
        refine Or.inr (Or.inl ?_)
        cases part <;> simp
      · intro v _
        simp only [hwatcher]
        exact Or.inl hnew
    · have hpolled := hx.polled hg h
      simp only [hwatcher, Watcher.polling.injEq] at hpolled
      exact absurd hpolled.symm hnew
  · rename_i hold
    have hold : x.daemon.state.snapshot = published := by simpa using hold
    have hupdate : g.update republishes x .poll = { g with polled := true } := by
      rw [g.update_of_sameInputs hstep ⟨rfl, rfl⟩, hwatcher]
    rw [hupdate]
    refine ⟨fun h => absurd h hearly, hx.notice, hx.begun, fun _ _ => ?_⟩
    simp only [hwatcher, hold]

/-- Publishing a property of the watcher's update keeps track. -/
theorem traced_publish {x y : Panel} {g : ViewHistory} {part : Part}
    (hs : x.step republishes (.publish part) = some y) (hx : Traced (x, g)) :
    Traced (y, g.update republishes x (.publish part)) := by
  have hstep := hs
  simp only [Panel.step] at hs
  split at hs <;> try cases hs
  rename_i published todo v hwatcher hshown
  simp only [Option.ite_none_right_eq_some, Option.some.injEq] at hs
  obtain ⟨⟨hpart, -⟩, hs⟩ := hs
  have hearly := hx.not_starting (by simp [hwatcher])
  have hbefore : ∀ other, x.daemon.state.snapshot ≠ published ∨
      other ∈ todo.filter (· != part) ∨ (v.put x.view part).Agrees x.view other ↔
        other ∈ g.republished ∨ Noticeable g.changed other := fun other => by
    rw [mem_filter_or_agrees v x.view hpart, ← noticeable_updating hshown hwatcher]
    exact hx.notice (by simp [hshown]) other
  have hseen : g.begun = true → x.daemon.state.snapshot = published := by
    intro hg
    have hseen := hx.begun hg (by simp [hshown])
    simp only [hwatcher, seen, Option.some.injEq] at hseen
    exact hseen.symm
  have hpolled : g.polled ≠ true := by
    intro hg
    have hpolled := hx.polled hg (by simp [hshown])
    simp [hwatcher] at hpolled
  cases hrest : todo.filter (· != part) with
  | nil =>
      simp only [hrest] at hs
      subst hs
      have hupdate : g.update republishes x (.publish part) =
          { g with polled := g.polled || g.begun } :=
        g.update_of_sameInputs hstep ⟨rfl, rfl⟩
      rw [hupdate]
      refine ⟨fun h => absurd h hearly, fun _ other => ?_, fun hg _ => ?_, fun hg _ => ?_⟩
      · rw [← hbefore, hrest, noticeable_polling rfl rfl]
        simp only [List.not_mem_nil, false_or]
        rfl
      · simp only [seen, hseen hg]
      · simp only [Bool.or_eq_true] at hg
        rcases hg with hg | hg
        · exact absurd hg hpolled
        · simp only [hseen hg]
  | cons next rest =>
      simp only [hrest] at hs
      subst hs
      have hupdate : g.update republishes x (.publish part) = g :=
        g.update_of_sameInputs hstep ⟨rfl, rfl⟩
      rw [hupdate]
      refine ⟨fun h => absurd h hearly, fun _ other => ?_, fun hg _ => ?_,
        fun hg _ => absurd hg hpolled⟩
      · rw [← hbefore, hrest, noticeable_updating rfl rfl]
        rfl
      · simp only [seen, hseen hg]

/-- Publishing a property makes that one looked after and leaves the others. -/
theorem noticeable_put {x : Panel} {v : TrayView} (hshown : x.shown = some v) (part : Part)
    (due : List Part) (other : Part) :
    Noticeable { x with shown := some (v.put x.view part), due := due } other ↔
      other = part ∨ Noticeable x other := by
  have hview :
      Panel.view { x with shown := some (v.put x.view part), due := due } = x.view := rfl
  simp only [Noticeable, hshown, hview, Option.some.injEq, forall_eq']
  cases x.watcher <;> simp only [agrees_put] <;> tauto

/-- ksni's own publishing keeps track: it is what the history counts. -/
theorem traced_republish {x y : Panel} {g : ViewHistory} {part : Part}
    (hs : x.step republishes (.republish part) = some y) (hx : Traced (x, g)) :
    Traced (y, g.update republishes x (.republish part)) := by
  have hstep := hs
  simp only [Panel.step] at hs
  split at hs
  · rename_i v hshown
    simp only [Option.ite_none_right_eq_some, Option.some.injEq] at hs
    obtain ⟨-, rfl⟩ := hs
    have hsome : x.shown.isSome = true := by simp [hshown]
    have hearly : x.daemon.stage ≠ .starting := by
      intro hstage
      have hnone : x.shown = none := (hx.early hstage).1
      simp [hnone] at hsome
    have hupdate : g.update republishes x (.republish part) =
        { g with republished := part :: g.republished } :=
      g.update_of_sameInputs hstep ⟨rfl, rfl⟩
    rw [hupdate]
    refine ⟨fun h => absurd h hearly, fun _ other => ?_, fun hg _ => hx.begun hg hsome,
      fun hg _ => hx.polled hg hsome⟩
    rw [noticeable_put hshown, hx.notice hsome, List.mem_cons, or_assoc]
  · cases hs

/-- A callback that leaves the status and the error keeps track. -/
theorem traced_otherCallback {x y : Panel} {g : ViewHistory}
    (hs : x.step republishes .otherCallback = some y) (hx : Traced (x, g)) :
    Traced (y, g.update republishes x .otherCallback) := by
  have hstep := hs
  simp only [Panel.step, Option.ite_none_right_eq_some, Option.some.injEq] at hs
  obtain ⟨-, rfl⟩ := hs
  have hupdate : g.update republishes x .otherCallback = g :=
    g.update_of_sameInputs hstep ⟨rfl, rfl⟩
  rw [hupdate]
  exact ⟨hx.early, hx.notice, hx.begun, hx.polled⟩

/-- An update that finds the tray gone keeps track. -/
theorem traced_updateFails {x y : Panel} {g : ViewHistory}
    (hs : x.step republishes .updateFails = some y) (hx : Traced (x, g)) :
    Traced (y, g.update republishes x .updateFails) := by
  have hstep := hs
  simp only [Panel.step] at hs
  split at hs
  · rename_i published todo hwatcher hshown
    simp only [Option.some.injEq] at hs
    subst hs
    have hupdate : g.update republishes x .updateFails = g :=
      g.update_of_sameInputs hstep ⟨rfl, rfl⟩
    rw [hupdate]
    exact traced_gone hshown fun h => absurd h (hx.not_starting (by simp [hwatcher]))
  · cases hs

/-- The end of the tray service keeps track. -/
theorem traced_shutDown {x y : Panel} {g : ViewHistory}
    (hs : x.step republishes .shutDown = some y) (hx : Traced (x, g)) :
    Traced (y, g.update republishes x .shutDown) := by
  have hstep := hs
  simp only [Panel.step, Option.some.injEq] at hs
  subst hs
  have hupdate : g.update republishes x .shutDown = g :=
    g.update_of_sameInputs hstep ⟨rfl, rfl⟩
  rw [hupdate]
  exact traced_gone rfl fun h => (hx.early h).2

/-- Every step keeps track of what is looked after. -/
theorem traced_step (x : Panel × ViewHistory) (a : Panel.Label) (y : Panel × ViewHistory)
    (hs : (watched republishes).step x a = some y) (hx : Traced x) : Traced y := by
  obtain ⟨x, g⟩ := x
  obtain ⟨y, g'⟩ := y
  obtain ⟨hd, hg⟩ := Machine.monitor_step_eq_some.mp hs
  simp only at hd hg
  subst hg
  cases a with
  | daemon l => exact traced_daemon hd hx
  | otherCallback => exact traced_otherCallback hd hx
  | republish part => exact traced_republish hd hx
  | firstSnapshot => exact traced_firstSnapshot hd hx
  | poll => exact traced_poll hd hx
  | publish part => exact traced_publish hd hx
  | updateFails => exact traced_updateFails hd hx
  | shutDown => exact traced_shutDown hd hx

/-- After a completed poll the tray shows what it should exactly when every property was looked
after. -/
theorem caughtUp_iff {x : Panel × ViewHistory} (hx : Traced x) :
    CaughtUp x ↔ LastChangeNoticed x := by
  refine forall_congr' fun hpolled => ?_
  cases hshown : x.1.shown with
  | none => simp
  | some v =>
      have hsome : x.1.shown.isSome = true := by simp [hshown]
      have hsame : ∀ part, part ∈ x.2.republished ∨ Noticeable x.2.changed part ↔
          v.Agrees x.1.view part := fun part => by
        rw [← hx.notice hsome, noticeable_polling hshown (hx.polled hpolled hsome)]
        simp
      simp only [Option.some.injEq, forall_eq', Option.isSome_some, forall_const, hsame]
      exact TrayView.ext_agrees

/-- **The tray catches up exactly with the changes that are looked after.** Along every run of
tray callbacks, handlers and the watcher thread, whether ksni publishes by itself after a
callback or not, in every state in which a poll that began after the most recent change of
the status or the error is complete, the tray shows the view of the status and the error as
they are, exactly when for each property that change left the watcher something to notice
or nothing to do, or ksni has published it by itself since.
SOURCE: tray.rs:60-105, tray.rs:117-240 -/
theorem tray_view_iff (republishes : Bool) (run : List Panel.Label) :
    (watched republishes).Everywhere CaughtUp ({}, {}) run ↔
      (watched republishes).Everywhere LastChangeNoticed ({}, {}) run := by
  apply Machine.everywhere_congr traced_step fun x => caughtUp_iff
  exact traced_gone rfl fun _ => ⟨rfl, rfl⟩

/-- The tray is published; a Toggle over D-Bus is granted before the watcher takes its first
snapshot; then the watcher polls. -/
def changedAtStart : List Panel.Label :=
  [.daemon (.startTray true), .daemon (.serve true), .daemon (.requestName .primaryOwner),
    .daemon (.receive 0 .toggle), .daemon (.handle 0 ⟨.granted 5, .granted 6, true⟩),
    .firstSnapshot, .poll]

/-- A click blocks sleep and ksni publishes that by itself; a Toggle over D-Bus ends it again
before the watcher polls. -/
def undoneBetweenPolls : List Panel.Label :=
  [.daemon (.startTray true), .firstSnapshot, .daemon (.serve true),
    .daemon (.requestName .primaryOwner), .daemon (.activate ⟨.granted 5, .granted 6, true⟩),
    .republish .icon, .republish .toolTip, .republish .menu, .daemon (.receive 0 .toggle),
    .daemon (.handle 0 ⟨.granted 7, .granted 8, true⟩), .poll]

/-- Sleep is blocked, the poll is complete and the icon is the idle one, whether ksni
publishes by itself or not; and where it does, the icon may also be left active with sleep
allowed. -/
theorem changedAtStart_not_caughtUp :
    (∃ y, (watched false).run ({}, {}) changedAtStart = some y ∧ ¬ CaughtUp y ∧
      y.1.shown.map TrayView.icon = some .idle ∧ y.1.view.icon = .active) ∧
    (∃ y, (watched true).run ({}, {}) changedAtStart = some y ∧ ¬ CaughtUp y ∧
      y.1.shown.map TrayView.icon = some .idle ∧ y.1.view.icon = .active) ∧
    ∃ y, (watched true).run ({}, {}) undoneBetweenPolls = some y ∧ ¬ CaughtUp y ∧
      y.1.shown.map TrayView.icon = some .active ∧ y.1.view.icon = .idle := by
  refine ⟨⟨_, rfl, fun h => ?_, rfl, rfl⟩, ⟨_, rfl, fun h => ?_, rfl, rfl⟩,
    ⟨_, rfl, fun h => ?_, rfl, rfl⟩⟩ <;>
  exact absurd (h rfl _ rfl) (by decide)

end SleepBlocker.Analysis
