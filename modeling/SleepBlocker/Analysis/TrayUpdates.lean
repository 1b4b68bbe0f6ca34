import Mathlib.Data.List.Permutation
import SleepBlocker.Analysis.QuitFinality
import SleepBlocker.Analysis.StatusHistory
import SleepBlocker.Computation.Serialization

/-!
# When tray and D-Bus updates are serializable

The two checkmark items of the tray's menu read a flag in one critical section and set its
negation in another; D-Bus handlers may run in between. If nothing in between moves the
flag, the item acts when it sets it. If a D-Bus setter moves it, the item may be ordered
right before that setter, which then finds its work done. But a toggle whose screen lock
fails also resets "Also keep screen on", and before such a toggle the flip is not what the
services have answered. `tray_updates_serializable` builds the order along every run in
which that does not happen between the item's snapshot and its set.
-/

set_option autoImplicit false

namespace SleepBlocker.Analysis

open SleepBlocker.Computation SleepBlocker.Model

/-! ## Actions done one at a time -/

/-- The two checkmark items. -/
inductive Item where
  | screen
  | running
  deriving DecidableEq, Repr

/-- The flag that the item shows. -/
def Item.get : Item → Status → Bool
  | .screen, s => s.keepScreenAwake
  | .running, s => s.keepRunningInTray

/-- The call that the item makes. -/
def Item.set : Item → Bool → Op
  | .screen, wanted => .setKeepScreenAwake wanted
  | .running, wanted => .setKeepRunningInTray wanted

/-- What the order is made of. -/
inductive Action where
  /-- One call into `SleepBlock`, from a handler or from the tray. -/
  | call (op : Op)
  /-- A checkmark item, as an atomic flip. -/
  | flip (item : Item)
  deriving DecidableEq, Repr

/-- The call that an action makes when it is done in one piece. -/
def Action.opOn (s : SleepBlock) : Action → Op
  | .call op => op
  | .flip item => item.set (!item.get s.snapshot)

/-- What an action's caller learns: a call's value, or the error that an item keeps. -/
inductive Seen where
  | returned (value : Option (Option (Except Error Status)))
  | noted (error : Option String)
  deriving DecidableEq

/-- What the caller of an action gets to see. -/
def Action.seen (value : Option (Option (Except Error Status))) : Action → Seen
  | .call _ => .returned value
  | .flip _ => .noted (Daemon.errorOf value)

/-- An action of a run with its interval and what its caller learned. -/
structure Deed where
  action : Action
  time : Interval
  seen : Seen
  deriving DecidableEq

/-- The machine that does actions one at a time, each with the answers it is given. -/
def serial : Machine SleepBlock (Deed × Answers) where
  step s e := some (perform ⟨e.1.action.opOn s, e.2⟩ s).state

/-- The call asks a service for a lock. -/
def Effect.asks : Effect → Bool
  | .inhibit _ | .screenInhibit _ => true
  | _ => false

/-- The acquire calls that an action makes, with their answers. -/
def acquires (s : SleepBlock) (e : Deed × Answers) : List Effect :=
  (perform ⟨e.1.action.opOn s, e.2⟩ s).effects.filter Effect.asks

/-- The action's caller learns what it learned in the run. -/
def SeesSame (s : SleepBlock) (e : Deed × Answers) : Prop :=
  e.1.action.seen (perform ⟨e.1.action.opOn s, e.2⟩ s).value = e.1.seen

/-! ## The actions of a run -/

/-- The action that a step with a call completes. -/
def actionOf (call : Call) : Daemon.Label → Action
  | .screenItemSet _ => .flip .screen
  | .runningItemSet _ => .flip .running
  | _ => .call call.op

/-- The item that the tray's callback is at, and the value it will set. -/
def openItem : Callback → Option (Item × Bool)
  | .screenItem wanted => some (.screen, wanted)
  | .runningItem wanted => some (.running, wanted)
  | _ => none

/-- A D-Bus handler's step is the setter of the open item's flag and moves the flag. -/
def movesOpen (d : Daemon) (a : Daemon.Label) : Bool :=
  match a, openItem d.callback, d.callOf a with
  | .handle _ _, some (item, _), some call =>
    [item.set false, item.set true].contains call.op &&
      item.get (perform call d.state).state.snapshot != item.get d.state.snapshot
  | _, _, _ => false

/-- What a run has done. -/
structure Chronicle where
  /-- The actions, in the order of their critical sections. -/
  log : List Deed := []
  /-- The acquire calls made, with their answers. -/
  acquires : List Effect := []
  /-- How many actions were decided when the request under this number was dispatched. -/
  begun : ℕ → ℕ := fun _ => 0
  /-- How many were when the open item took its snapshot. -/
  opened : ℕ := 0
  /-- A D-Bus setter has moved the open item's flag since. -/
  moved : Bool := false

namespace Chronicle

/-- When the action that a step completes began. -/
def begunAt (g : Chronicle) : Daemon.Label → ℕ
  | .handle h _ => g.begun h
  | .screenItemSet _ | .runningItemSet _ => g.opened
  | _ => g.log.length

/-- The deed of a call in this step. -/
def deed (g : Chronicle) (d : Daemon) (a : Daemon.Label) (call : Call) : Deed where
  action := actionOf call a
  time := ⟨g.begunAt a, g.log.length⟩
  seen := (actionOf call a).seen (perform call d.state).value

/-- What the history records of a step. -/
def update (g : Chronicle) (d : Daemon) (a : Daemon.Label) : Chronicle where
  log := g.log ++ ((d.callOf a).map (g.deed d a)).toList
  acquires := g.acquires ++ (stepEffects d a).filter Effect.asks
  begun :=
    match a with
    | .receive h _ => Function.update g.begun h g.log.length
    | _ => g.begun
  opened := if a = .screenItemRead ∨ a = .runningItemRead then g.log.length else g.opened
  moved := !(a == .screenItemRead || a == .runningItemRead) && (g.moved || movesOpen d a)

end Chronicle

/-- The daemon with the chronicle of its calls. -/
def chronicle : Machine (Daemon × Chronicle) Daemon.Label := daemon.monitor Chronicle.update

/-- The actions decided so far have a one-at-a-time order, compatible with the order of
those that do not overlap, that makes the same acquire calls with the same answers, tells
every caller the same and ends in the same status. -/
def Serializable (x : Daemon × Chronicle) : Prop :=
  ∃ (order : List (Deed × Answers)) (t : SleepBlock),
    (order.map Prod.fst).Perm x.2.log ∧
      InTime Deed.time (order.map Prod.fst) ∧
      serial.Plays acquires SeesSame .new order x.2.acquires t ∧
      t.snapshot = x.1.state.snapshot

/-- When "Also keep screen on" sets what it has computed, the preference is still the one it
read, or a D-Bus setter has moved it since: it is not that a toggle alone has reset it. -/
def NoResetInGap (x : Daemon × Chronicle) (a : Daemon.Label) : Prop :=
  ∀ ans wanted, a = .screenItemSet ans → x.1.callback = .screenItem wanted →
    x.1.state.snapshot.keepScreenAwake = !wanted ∨ x.2.moved = true

/-- Whether a step resets in the gap can be evaluated. -/
instance (x : Daemon × Chronicle) (a : Daemon.Label) : Decidable (NoResetInGap x a) :=
  decidable_of_iff ((match a, x.1.callback with
    | .screenItemSet _, .screenItem wanted =>
      x.1.state.snapshot.keepScreenAwake == !wanted || x.2.moved
    | _, _ => true) = true) <| by
    unfold NoResetInGap
    split <;> simp_all

/-! ## Setting a flag -/

section Setting

variable {item : Item} {wanted : Bool} {ans : Answers} {s : SleepBlock}

/-- What a call leaves, from its body's outcome: a call that returns poisons nothing. -/
theorem perform_of_run {call : Call} {es : List Effect} {data : Inner}
    {value : Option (Except Error Status)}
    (h : (call.op.body call.answers).run s.inner.data = ⟨es, data, some value⟩) :
    perform call s = ⟨es, ⟨⟨data, s.inner.poisoned⟩⟩, some value⟩ := by
  unfold perform SleepBlock.critical
  rw [SleepBlock.lock_eq, h]
  simp

/-- A setter that finds its flag as wanted changes nothing. -/
theorem perform_set_idle (hget : item.get s.snapshot = wanted)
    (hs : item = .screen → Settled s.inner.data) :
    perform ⟨item.set wanted, ans⟩ s = ⟨[], s, some (some (.ok s.snapshot))⟩ := by
  rw [SleepBlock.snapshot_eq] at hget ⊢
  cases item with
  | running =>
      have hdata : { s.inner.data with keepRunningInTray := wanted } = s.inner.data := by
        rw [← hget]
        rfl
      apply perform_of_run
      simp only [Item.set, Op.body, Effectful.run_bind, setKeepRunningInTray_run, hdata,
        Effectful.run_pure, List.append_nil]
  | screen =>
      have hpref : s.inner.data.keepScreenAwake = wanted := hget
      have hsettled := hs rfl
      have hrec : (wanted && s.inner.data.inhibitor.isSome) = false ∨
          s.inner.data.screen.isSome = true := by
        rw [hsettled, hpref, Bool.and_comm]
        cases s.inner.data.inhibitor.isSome && wanted <;> simp
      have hscreen : (if (wanted && s.inner.data.inhibitor.isSome) = true then s.inner.data.screen
          else none) = s.inner.data.screen := by
        split
        · rfl
        · rename_i hw
          have hnone : s.inner.data.screen.isSome = false := by
            rw [hsettled, hpref, Bool.and_comm]
            simpa using hw
          exact (Option.isSome_eq_false_iff.mp hnone |> Option.isNone_iff_eq_none.mp).symm
      apply perform_of_run
      simp only [Item.set]
      rw [Op.body, run_return_some, setKeepScreenAwake_run_record hrec]
      have hdata : { s.inner.data with keepScreenAwake := wanted } = s.inner.data := by
        rw [← hpref]
      have heffects : (if (wanted && s.inner.data.inhibitor.isSome) = true then []
          else dropped ans.saver s.inner.data.screen) = [] := by
        split
        · rfl
        · rename_i hw
          rw [← hscreen, if_neg hw]
          rfl
      simp only [hscreen, heffects, hdata, Option.map_some]

/-- A setter that returns with its flag as wanted has returned the status it leaves. -/
theorem perform_set_done (hcalm : ans.calm = true)
    (hget : item.get (perform ⟨item.set wanted, ans⟩ s).state.snapshot = wanted) :
    (perform ⟨item.set wanted, ans⟩ s).value =
        some (some (.ok (perform ⟨item.set wanted, ans⟩ s).state.snapshot)) ∧
      (item = .screen → Settled (perform ⟨item.set wanted, ans⟩ s).state.inner.data) := by
  rw [SleepBlock.snapshot_eq] at hget ⊢
  obtain ⟨-, hstate, hvalue⟩ := perform_eq ⟨item.set wanted, ans⟩ s
  rw [hstate] at hget ⊢
  rw [hvalue]
  cases item with
  | running =>
      refine ⟨?_, fun h => by cases h⟩
      simp [Item.set, Op.body, Effectful.run_bind, setKeepRunningInTray_run]
  | screen =>
      simp only [Item.set, Item.get, Op.body, run_return_some] at hget ⊢
      rcases setKeepScreenAwake_split wanted s.inner.data with ⟨hw, hscreen⟩ | hrec
      · rw [setKeepScreenAwake_run_acquire hw hscreen] at hget ⊢
        obtain ⟨rfl, hi⟩ := Bool.and_eq_true_iff.mp hw
        cases ha : ans.screen.grant with
        | some cookie =>
            rw [acquireScreen_run_granted (Answer.grant_eq_some.mp ha)]
            exact ⟨rfl, fun _ => by simp [Settled, hi]⟩
        | none =>
            -- without a grant the preference has been reset, or the call never returned
            rw [acquireScreen_run_ungranted ha] at hget
            simp only [Answers.calm, Bool.and_eq_true] at hcalm
            obtain ⟨-, hcalm⟩ := hcalm
            cases hanswer : ans.screen <;>
              simp_all [statusOf, Answer.fails, Answer.grant, Answer.calm]
      · rw [setKeepScreenAwake_run_record hrec]
        refine ⟨rfl, fun _ => ?_⟩
        cases hw : (wanted && s.inner.data.inhibitor.isSome) with
        | true =>
            rw [hw] at hrec
            obtain ⟨rfl, hi⟩ := Bool.and_eq_true_iff.mp hw
            simpa [Settled, hi] using hrec
        | false =>
            rw [Bool.and_comm] at hw
            simp [Settled, hw]

/-- On a settled state a setter that moves its flag moves it to what is wanted. -/
theorem get_of_moved (hs : Settled s.inner.data)
    (hmoved : item.get (perform ⟨item.set wanted, ans⟩ s).state.snapshot ≠
      item.get s.snapshot) :
    item.get s.snapshot = !wanted ∧
      item.get (perform ⟨item.set wanted, ans⟩ s).state.snapshot = wanted := by
  have hbefore : item.get s.snapshot = !wanted := by
    by_contra hne
    have hget : item.get s.snapshot = wanted := by
      simpa using hne
    rw [perform_set_idle hget fun _ => hs] at hmoved
    exact hmoved rfl
  refine ⟨hbefore, ?_⟩
  rw [hbefore] at hmoved
  simpa using hmoved

end Setting

/-! ## The order -/

/-- Somewhere in the order a D-Bus setter moves the item's flag, and from there on every
action was decided after the item was opened. -/
structure Absorbs (item : Item) (opened : ℕ) (pre : List (Deed × Answers))
    (setter : Deed × Answers) (post : List (Deed × Answers)) (wanted : Bool) : Prop where
  sets : setter.1.action = .call (item.set wanted)
  calm : setter.2.calm = true
  moves : ∀ es s, serial.Plays acquires SeesSame .new pre es s →
    item.get s.snapshot = (!wanted) ∧
      item.get (perform ⟨item.set wanted, setter.2⟩ s).state.snapshot = wanted
  late : ∀ f ∈ setter :: post, opened ≤ f.1.time.decided

/-- Later actions leave room for the item where it was. -/
theorem Absorbs.concat {item : Item} {opened : ℕ} {pre post : List (Deed × Answers)}
    {setter e : Deed × Answers} {wanted : Bool} (h : Absorbs item opened pre setter post wanted)
    (he : opened ≤ e.1.time.decided) :
    Absorbs item opened pre setter (post ++ [e]) wanted := by
  refine ⟨h.sets, h.calm, h.moves, fun f hf => ?_⟩
  rw [← List.cons_append, List.mem_append, List.mem_singleton] at hf
  rcases hf with hf | rfl
  · exact h.late f hf
  · exact he

/-- Right before the setter the item does the setter's work: the setter finds it done, and
nobody can tell the difference. -/
theorem Absorbs.plays {item : Item} {opened : ℕ} {pre post : List (Deed × Answers)}
    {setter : Deed × Answers} {wanted : Bool} (h : Absorbs item opened pre setter post wanted)
    {flip : Deed} (hflip : flip.action = .flip item) (hseen : flip.seen = .noted none)
    {es : List Effect} {t : SleepBlock}
    (hplays : serial.Plays acquires SeesSame .new (pre ++ setter :: post) es t) :
    serial.Plays acquires SeesSame .new (pre ++ (flip, setter.2) :: setter :: post) es t := by
  apply Machine.Plays.replace [setter] [(flip, setter.2), setter] hplays
  intro fs gs s v hpre hmid
  obtain ⟨hbefore, hafter⟩ := h.moves fs s hpre
  obtain ⟨u, hs, hstep, hsame, hnil, rfl⟩ := Machine.plays_cons.mp hmid
  obtain ⟨rfl, rfl⟩ := Machine.plays_nil.mp hnil
  -- the flip makes the very call of the setter, and the setter then finds its flag set
  have hop : setter.1.action.opOn s = item.set wanted := by
    rw [h.sets]
    rfl
  have hopFlip : flip.action.opOn s = item.set wanted := by
    rw [hflip, Action.opOn, hbefore, Bool.not_not]
  obtain ⟨hvalue, hsettled⟩ := perform_set_done h.calm hafter
  have hu : (perform ⟨item.set wanted, setter.2⟩ s).state = u := by
    rw [← hop]
    exact Option.some.inj hstep
  have hagain : perform ⟨setter.1.action.opOn u, setter.2⟩ u =
      ⟨[], u, some (some (.ok u.snapshot))⟩ := by
    rw [h.sets, Action.opOn]
    rw [hu] at hafter hsettled
    exact perform_set_idle hafter hsettled
  have hflipStep : serial.step s (flip, setter.2) = some u := by
    show some (perform ⟨flip.action.opOn s, setter.2⟩ s).state = some u
    rw [hopFlip, hu]
  have hflipSees : SeesSame s (flip, setter.2) := by
    show flip.action.seen (perform ⟨flip.action.opOn s, setter.2⟩ s).value = flip.seen
    rw [hopFlip, hvalue, hseen, hflip]
    rfl
  have hflipAcquires : acquires s (flip, setter.2) = acquires s setter := by
    unfold acquires
    rw [hopFlip, hop]
  have hagainStep : serial.step u setter = some u := by
    show some (perform ⟨setter.1.action.opOn u, setter.2⟩ u).state = some u
    rw [hagain]
  have hagainSees : SeesSame u setter := by
    have hsame : setter.1.action.seen (perform ⟨setter.1.action.opOn s, setter.2⟩ s).value =
        setter.1.seen := hsame
    show setter.1.action.seen (perform ⟨setter.1.action.opOn u, setter.2⟩ u).value = setter.1.seen
    rw [hagain, ← hsame, hop, hvalue, hu]
  have hagainAcquires : acquires u setter = [] := by
    unfold acquires
    rw [hagain]
    rfl
  refine Machine.plays_cons.mpr ⟨u, [], hflipStep, hflipSees, ?_, by rw [hflipAcquires]⟩
  refine Machine.plays_cons.mpr ⟨u, [], hagainStep, hagainSees, Machine.plays_nil.mpr ⟨rfl, rfl⟩, ?_⟩
  rw [hagainAcquires]
  rfl

/-- The order serializes what a run has done so far. -/
structure OrderedBy (x : Daemon × Chronicle) (order : List (Deed × Answers)) : Prop where
  perm : (order.map Prod.fst).Perm x.2.log
  inTime : InTime Deed.time (order.map Prod.fst)
  plays : serial.Plays acquires SeesSame .new order x.2.acquires x.1.state

/-- An item whose flag a D-Bus setter has moved has a place in the order. -/
def Roomy (x : Daemon × Chronicle) (order : List (Deed × Answers)) : Prop :=
  ∀ item wanted, openItem x.1.callback = some (item, wanted) → x.2.moved = true →
    ∃ pre setter post value, order = pre ++ setter :: post ∧
      Absorbs item x.2.opened pre setter post value

/-- What the order relies on: nothing began later than now, the daemon is settled, and
nobody but a D-Bus setter moves the setting that an item has read. -/
structure Kept (x : Daemon × Chronicle) : Prop where
  begun : ∀ e ∈ x.2.log, e.time.begun ≤ x.2.log.length
  dispatched : ∀ h, x.2.begun h ≤ x.2.log.length
  opened : x.2.opened ≤ x.2.log.length
  settled : Settled x.1.state.inner.data
  running : ∀ wanted, openItem x.1.callback = some (.running, wanted) →
    Item.running.get x.1.state.snapshot = (!wanted) ∨ x.2.moved = true

/-- With an item open, calls come from the D-Bus handlers only, and no callback starts. -/
theorem openItem_of_step {d t : Daemon} {a : Daemon.Label} (hs : d.step a = some t)
    {item : Item} {wanted : Bool} (ht : openItem t.callback = some (item, wanted)) :
    (a = .screenItemRead ∧ wanted = !Item.screen.get d.state.snapshot ∧ item = .screen) ∨
    (a = .runningItemRead ∧ wanted = !Item.running.get d.state.snapshot ∧ item = .running) ∨
    (openItem d.callback = some (item, wanted) ∧ a ≠ .screenItemRead ∧ a ≠ .runningItemRead ∧
      ∀ call, d.callOf a = some call → ∃ h ans, a = .handle h ans) := by
  cases a with
  | handle h ans =>
      obtain ⟨request, -, -, -, rfl⟩ := Daemon.handle_eq_some.mp hs
      exact Or.inr (Or.inr ⟨ht, by simp, by simp, fun _ _ => ⟨h, ans, rfl⟩⟩)
  | activate ans | toggleItem ans =>
      -- the tray's callback is idle
      obtain ⟨hfree, -, rfl⟩ := Daemon.trayToggle_eq_some.mp hs
      simp only [Daemon.trayFree, Bool.and_eq_true, beq_iff_eq] at hfree
      simp [hfree.2, openItem] at ht
  | screenItemSet ans =>
      obtain ⟨value, -, -, -, rfl⟩ := Daemon.screenItemSet_eq_some.mp hs
      cases ht
  | runningItemSet ans =>
      obtain ⟨value, -, -, -, rfl⟩ := Daemon.runningItemSet_eq_some.mp hs
      cases ht
  | quitItem ans =>
      obtain ⟨-, -, rfl⟩ := Daemon.quitItem_eq_some.mp hs
      cases ht
  | screenItemRead =>
      simp only [Daemon.step, Option.ite_none_right_eq_some, Option.some.injEq] at hs
      obtain ⟨-, rfl⟩ := hs
      cases ht
      exact Or.inl ⟨rfl, rfl, rfl⟩
  | runningItemRead =>
      simp only [Daemon.step, Option.ite_none_right_eq_some, Option.some.injEq] at hs
      obtain ⟨-, rfl⟩ := hs
      cases ht
      exact Or.inr (Or.inl ⟨rfl, rfl, rfl⟩)
  | quitItemNotify =>
      simp only [Daemon.step, Option.ite_none_right_eq_some, Option.some.injEq] at hs
      obtain ⟨-, rfl⟩ := hs
      cases ht
  | readProperty | sendSignal | notify | reply | crash | startTray | serve | requestName | wake
  | closeConnection | exit | receive =>
      have hkeep := ((Daemon.frame_of_party hs).2.2.1 (by simp [Daemon.Label.party])).1
      rw [hkeep] at ht
      exact Or.inr (Or.inr ⟨ht, by simp, by simp, fun _ hc => by cases hc⟩)

/-! ## What a step adds to the order -/

section Steps

variable {d t : Daemon} {a : Daemon.Label} {g : Chronicle} {order : List (Deed × Answers)}

/-- A step with a call adds its deed and its acquires. -/
theorem update_of_call {call : Call} (hc : d.callOf a = some call) :
    (g.update d a).log = g.log ++ [g.deed d a call] ∧
      (g.update d a).acquires =
        g.acquires ++ (perform call d.state).effects.filter Effect.asks := by
  simp [Chronicle.update, stepEffects, hc]

/-- A step without a call adds nothing. -/
theorem update_of_no_call (hc : d.callOf a = none) :
    (g.update d a).log = g.log ∧ (g.update d a).acquires = g.acquires ∧
      movesOpen d a = false := by
  refine ⟨by simp [Chronicle.update, hc], by simp [Chronicle.update, stepEffects, hc], ?_⟩
  unfold movesOpen
  rw [hc]
  split <;> simp_all

/-- The log only grows. -/
theorem length_le_update : g.log.length ≤ (g.update d a).log.length := by
  simp [Chronicle.update]

/-- An action has not begun before the log. -/
theorem begunAt_le (hk : Kept (d, g)) : g.begunAt a ≤ g.log.length := by
  cases a with
  | handle h ans => exact hk.dispatched h
  | screenItemSet ans | runningItemSet ans => exact hk.opened
  | _ => exact Nat.le_refl _

/-- The flag of an open item is moved by its D-Bus setter alone. -/
theorem movesOpen_iff {item : Item} {wanted : Bool} {call : Call}
    (hopen : openItem d.callback = some (item, wanted)) (hc : d.callOf a = some call) :
    movesOpen d a = true ↔ (∃ h ans, a = .handle h ans) ∧ (∃ value, call.op = item.set value) ∧
      item.get (perform call d.state).state.snapshot ≠ item.get d.state.snapshot := by
  unfold movesOpen
  rw [hopen, hc]
  cases a <;> simp [or_comm]

/-- Between an item's snapshot and its set, `moved` records what D-Bus setters do. -/
theorem update_moved (ha : a ≠ .screenItemRead) (ha' : a ≠ .runningItemRead) :
    (g.update d a).moved = (g.moved || movesOpen d a) ∧ (g.update d a).opened = g.opened := by
  simp [Chronicle.update, ha, ha']

/-- The step's bookkeeping. -/
theorem kept_step (hs : d.step a = some t) (hk : Kept (d, g)) : Kept (t, g.update d a) := by
  have hlength : g.log.length ≤ (g.update d a).log.length := length_le_update
  refine ⟨?_, ?_, ?_, ?_, ?_⟩
  · intro e he
    rcases List.mem_append.mp he with he | he
    · exact Nat.le_trans (hk.begun e he) hlength
    · simp only [Option.mem_toList, Option.map_eq_some_iff] at he
      obtain ⟨call, -, rfl⟩ := he
      exact Nat.le_trans (begunAt_le hk) hlength
  · intro h
    refine Nat.le_trans ?_ hlength
    cases a <;> try exact hk.dispatched h
    case receive k request =>
      show Function.update g.begun k g.log.length h ≤ g.log.length
      by_cases hkh : h = k
      · rw [hkh, Function.update_self]
      · rw [Function.update_of_ne hkh]
        exact hk.dispatched h
  · refine Nat.le_trans ?_ hlength
    show (if _ then _ else _) ≤ _
    split
    · exact Nat.le_refl _
    · exact hk.opened
  · rcases Daemon.step_cases hs with ⟨call, -, hstate, -, -, hcalm⟩ | ⟨-, hstate⟩
    · rw [hstate, (perform_eq call d.state).2.1]
      exact (body_moves call.op hcalm hk.settled).settled
    · rw [hstate]
      exact hk.settled
  · intro wanted ht
    rcases openItem_of_step hs ht with ⟨-, -, hitem⟩ | ⟨rfl, hw, -⟩ | ⟨hopen, ha, ha', hcalls⟩
    · cases hitem
    · left
      rcases Daemon.step_cases hs with ⟨call, hc, -⟩ | ⟨-, hstate⟩
      · cases hc
      · rw [hstate, hw, Bool.not_not]
    · rw [(update_moved ha ha').1, Bool.or_eq_true]
      rcases hk.running wanted hopen with hold | hmoved
      · by_cases hsame : Item.running.get t.state.snapshot = Item.running.get d.state.snapshot
        · exact Or.inl (hsame.trans hold)
        · right
          right
          rcases Daemon.step_cases hs with ⟨call, hc, hstate, -⟩ | ⟨-, hstate⟩
          · rw [hstate] at hsame
            refine (movesOpen_iff hopen hc).mpr ⟨hcalls call hc, ?_, hsame⟩
            have hstores := perform_running call d.state
            cases hop : call.op with
            | setKeepRunningInTray value => exact ⟨value, rfl⟩
            | _ =>
                exfalso
                apply hsame
                rw [hop] at hstores
                simpa [Item.get, SleepBlock.snapshot_eq, statusOf, Op.stores] using hstores
          · exact absurd (by rw [hstate]) hsame
      · exact Or.inr (Or.inl hmoved)

/-- The order's actions are those of the log, so none began later than now. -/
theorem OrderedBy.begun_le (ho : OrderedBy (d, g) order) (hk : Kept (d, g)) :
    ∀ f ∈ order.map Prod.fst, f.time.begun ≤ g.log.length :=
  fun f hf => hk.begun f (ho.perm.mem_iff.mp hf)

/-- An action whose atomic form is the call it made goes last. -/
theorem OrderedBy.concat (ho : OrderedBy (d, g) order) (hk : Kept (d, g)) {call : Call}
    (hc : d.callOf a = some call) (hstate : t.state = (perform call d.state).state)
    (hop : (actionOf call a).opOn d.state = call.op) :
    OrderedBy (t, g.update d a) (order ++ [(g.deed d a call, call.answers)]) := by
  obtain ⟨hlog, hacquires⟩ := update_of_call (g := g) hc
  have hcall : (⟨(g.deed d a call).action.opOn d.state, call.answers⟩ : Call) = call := by
    show (⟨(actionOf call a).opOn d.state, call.answers⟩ : Call) = call
    rw [hop]
  refine ⟨?_, ?_, ?_⟩
  · rw [hlog, List.map_append]
    exact ho.perm.append_right _
  · rw [List.map_append]
    apply inTime_concat ho.inTime
    exact ho.begun_le hk
  · have hstep : serial.step d.state (g.deed d a call, call.answers) = some t.state := by
      show some (perform ⟨(g.deed d a call).action.opOn d.state, call.answers⟩ d.state).state = _
      rw [hcall, hstate]
    have hsees : SeesSame d.state (g.deed d a call, call.answers) := by
      unfold SeesSame
      rw [hcall]
      rfl
    have hplays := ho.plays.concat hstep hsees
    unfold acquires at hplays
    rw [hcall] at hplays
    rw [hacquires]
    exact hplays

/-- An item whose flag is as it wants it goes right before the setter that moved it. -/
theorem OrderedBy.insert (ho : OrderedBy (d, g) order) (hk : Kept (d, g)) {call : Call}
    (hc : d.callOf a = some call) (hstate : t.state = (perform call d.state).state)
    {item : Item} (hbegun : g.begunAt a = g.opened) (haction : actionOf call a = .flip item)
    (hidle : perform call d.state = ⟨[], d.state, some (some (.ok d.state.snapshot))⟩)
    {pre post : List (Deed × Answers)} {setter : Deed × Answers} {value : Bool}
    (horder : order = pre ++ setter :: post)
    (habsorbs : Absorbs item g.opened pre setter post value) :
    OrderedBy (t, g.update d a) (pre ++ (g.deed d a call, setter.2) :: setter :: post) := by
  obtain ⟨hlog, hacquires⟩ := update_of_call (g := g) hc
  subst horder
  have hbegunLe := ho.begun_le hk
  refine ⟨?_, ?_, ?_⟩
  · rw [hlog]
    refine List.Perm.trans ?_ (ho.perm.append_right _)
    simp only [List.map_append, List.map_cons, List.append_assoc]
    apply List.Perm.append_left
    exact (List.perm_append_singleton _ _).symm
  · have hpost : ∀ f ∈ (setter :: post).map Prod.fst,
        (g.deed d a call).time.begun ≤ f.time.decided := by
      intro f hf
      obtain ⟨e, he, rfl⟩ := List.mem_map.mp hf
      show g.begunAt a ≤ _
      rw [hbegun]
      exact habsorbs.late e he
    have hin := ho.inTime
    rw [List.map_append] at hin hbegunLe ⊢
    exact inTime_insert hin (fun f hf => hbegunLe f (List.mem_append_left _ hf)) hpost
  · have hseen : (g.deed d a call).seen = .noted none := by
      show (actionOf call a).seen (perform call d.state).value = _
      rw [haction, hidle]
      rfl
    have hplays := habsorbs.plays haction hseen ho.plays
    rw [hacquires, hidle, hstate, hidle]
    simpa using hplays

/-- A checkmark item's set ends the item, and makes the call that sets what was computed. -/
theorem flip_of_step (hs : d.step a = some t) {call : Call} (hc : d.callOf a = some call)
    {item : Item} (haction : actionOf call a = .flip item) : ∃ wanted,
      openItem d.callback = some (item, wanted) ∧ call.op = item.set wanted ∧
        openItem t.callback = none ∧ g.begunAt a = g.opened ∧
        (item = .screen → ∃ ans, a = .screenItemSet ans ∧ d.callback = .screenItem wanted) := by
  cases a <;> simp only [actionOf, Action.flip.injEq, reduceCtorEq] at haction
  case screenItemSet ans =>
    obtain ⟨wanted, hcallback, -, -, rfl⟩ := Daemon.screenItemSet_eq_some.mp hs
    subst haction
    simp only [Daemon.callOf, hcallback, Option.some.injEq] at hc
    subst hc
    exact ⟨wanted, by rw [hcallback]; rfl, rfl, rfl, rfl, fun _ => ⟨ans, rfl, hcallback⟩⟩
  case runningItemSet ans =>
    obtain ⟨wanted, hcallback, -, -, rfl⟩ := Daemon.runningItemSet_eq_some.mp hs
    subst haction
    simp only [Daemon.callOf, hcallback, Option.some.injEq] at hc
    subst hc
    exact ⟨wanted, by rw [hcallback]; rfl, rfl, rfl, rfl, fun hitem => by cases hitem⟩

/-- A D-Bus setter that moves the open item's flag, placed last, leaves room before itself. -/
theorem absorbs_of_moved (ho : OrderedBy (d, g) order) (hk : Kept (d, g)) {call : Call}
    (hcalm : call.answers.calm = true) (haction : actionOf call a = .call call.op) {item : Item}
    {value : Bool} (hop : call.op = item.set value)
    (hmoved : item.get (perform call d.state).state.snapshot ≠ item.get d.state.snapshot) :
    Absorbs item g.opened order (g.deed d a call, call.answers) [] value := by
  have hcall : call = ⟨item.set value, call.answers⟩ := by
    rw [← hop]
  refine ⟨haction.trans (by rw [hop]), hcalm, fun es s hplays => ?_, fun f hf => ?_⟩
  · have hsame : s = d.state := Option.some.inj (hplays.run.symm.trans ho.plays.run)
    subst hsame
    rw [hcall] at hmoved
    exact get_of_moved hk.settled hmoved
  · rw [List.mem_singleton] at hf
    subst hf
    exact hk.opened

/-- A step without a call leaves the order as it is. -/
theorem ordered_of_no_call (hs : d.step a = some t) (hc : d.callOf a = none)
    (hstate : t.state = d.state) (ho : OrderedBy (d, g) order) (hroom : Roomy (d, g) order) :
    OrderedBy (t, g.update d a) order ∧ Roomy (t, g.update d a) order := by
  obtain ⟨hlog, hacquires, hnot⟩ := update_of_no_call (g := g) hc
  refine ⟨⟨?_, ho.inTime, ?_⟩, fun item wanted ht hmoved => ?_⟩
  · rw [hlog]
    exact ho.perm
  · rw [hacquires, hstate]
    exact ho.plays
  · rcases openItem_of_step hs ht with ⟨rfl, -, -⟩ | ⟨rfl, -, -⟩ | ⟨hopen, ha, ha', -⟩
    · cases hmoved
    · cases hmoved
    · obtain ⟨hupdate, hopened⟩ := update_moved (d := d) (g := g) ha ha'
      rw [hupdate, hnot, Bool.or_false] at hmoved
      rw [hopened]
      exact hroom item wanted hopen hmoved

/-- A step with a call adds its action to the order. -/
theorem ordered_of_call (hs : d.step a = some t) {call : Call} (hc : d.callOf a = some call)
    (hstate : t.state = (perform call d.state).state) (hcalm : call.answers.calm = true)
    (hC : NoResetInGap (d, g) a) (hk : Kept (d, g)) (ho : OrderedBy (d, g) order)
    (hroom : Roomy (d, g) order) :
    ∃ order', OrderedBy (t, g.update d a) order' ∧ Roomy (t, g.update d a) order' := by
  cases haction : actionOf call a with
  | flip item =>
      obtain ⟨wanted, hopen, hop, hclosed, hbegun, hscreen⟩ := flip_of_step (g := g) hs hc haction
      have hroom' : ∀ order', Roomy (t, g.update d a) order' := by
        intro order' item' wanted' ht
        simp [hclosed] at ht
      by_cases hget : item.get d.state.snapshot = !wanted
      · refine ⟨_, ho.concat hk hc hstate ?_, hroom' _⟩
        rw [haction, Action.opOn, hget, Bool.not_not, hop]
      · have hget : item.get d.state.snapshot = wanted := by
          simpa using hget
        have hne : wanted ≠ !wanted := by
          cases wanted <;> simp
        have hmoved : g.moved = true := by
          cases item with
          | screen =>
              obtain ⟨ans, ha, hcallback⟩ := hscreen rfl
              rcases hC ans wanted ha hcallback with hold | hmoved
              · exact absurd (hget.symm.trans hold) hne
              · exact hmoved
          | running =>
              rcases hk.running wanted hopen with hold | hmoved
              · exact absurd (hget.symm.trans hold) hne
              · exact hmoved
        obtain ⟨pre, setter, post, value, horder, habsorbs⟩ := hroom item wanted hopen hmoved
        have hidle : perform call d.state =
            ⟨[], d.state, some (some (.ok d.state.snapshot))⟩ := by
          have hcall : call = ⟨item.set wanted, call.answers⟩ := by
            rw [← hop]
          rw [hcall]
          exact perform_set_idle hget fun _ => hk.settled
        exact ⟨_, ho.insert hk hc hstate hbegun haction hidle horder habsorbs, hroom' _⟩
  | call op =>
      have hop : op = call.op := by
        cases a <;> simp_all [actionOf]
      subst hop
      refine ⟨_, ho.concat hk hc hstate (by rw [haction]; rfl), fun item wanted ht hmoved => ?_⟩
      rcases openItem_of_step hs ht with ⟨rfl, -, -⟩ | ⟨rfl, -, -⟩ | ⟨hopen, ha, ha', -⟩
      · cases hc
      · cases hc
      · obtain ⟨hupdate, hopened⟩ := update_moved (d := d) (g := g) ha ha'
        rw [hopened]
        rw [hupdate, Bool.or_eq_true] at hmoved
        rcases hmoved with hmoved | hmoves
        · obtain ⟨pre, setter, post, value, rfl, habsorbs⟩ := hroom item wanted hopen hmoved
          refine ⟨pre, setter, post ++ [(g.deed d a call, call.answers)], value, by simp, ?_⟩
          exact habsorbs.concat hk.opened
        · obtain ⟨-, ⟨value, hset⟩, hchange⟩ := (movesOpen_iff hopen hc).mp hmoves
          exact ⟨order, _, [], value, rfl, absorbs_of_moved ho hk hcalm haction hset hchange⟩

end Steps

/-- The invariant: the bookkeeping, and an order with room for the open item. -/
def Ordered (x : Daemon × Chronicle) : Prop :=
  Kept x ∧ ∃ order, OrderedBy x order ∧ Roomy x order

/-- Every step that does not reset in the gap keeps the order. -/
theorem ordered_step (x : Daemon × Chronicle) (a : Daemon.Label) (y : Daemon × Chronicle)
    (hs : chronicle.step x a = some y) (hC : NoResetInGap x a) (hx : Ordered x) : Ordered y := by
  obtain ⟨hd, hy⟩ := Machine.monitor_step_eq_some.mp hs
  obtain ⟨d, g⟩ := x
  obtain ⟨t, g'⟩ := y
  simp only at hd hy
  subst hy
  obtain ⟨hk, order, ho, hroom⟩ := hx
  refine ⟨kept_step hd hk, ?_⟩
  rcases Daemon.step_cases hd with ⟨call, hc, hstate, -, -, hcalm⟩ | ⟨hc, hstate⟩
  · exact ordered_of_call hd hc hstate hcalm hC hk ho hroom
  · exact ⟨order, ordered_of_no_call hd hc hstate ho hroom⟩

/-- An order of the deeds that the chronicle keeps makes the state serializable. -/
theorem serializable_of_ordered (x : Daemon × Chronicle) (hx : Ordered x) : Serializable x := by
  obtain ⟨-, order, ho, -⟩ := hx
  exact ⟨order, x.1.state, ho.perm, ho.inTime, ho.plays, rfl⟩

/-- **Tray and D-Bus updates are serializable** in every state of every run, any interleaving
of the tray's callbacks with the D-Bus handlers, in which "Also keep screen on" never sets
what it has computed after toggles alone have reset the preference that it read.
SOURCE: tray.rs:181-217, state.rs:54-127, sleep-blockd.rs:43-72 -/
theorem tray_updates_serializable {run : List Daemon.Label}
    (hC : chronicle.Along NoResetInGap ({}, {}) run) :
    chronicle.Everywhere Serializable ({}, {}) run := by
  apply Machine.Everywhere.mono serializable_of_ordered
  apply Machine.everywhere_of_along ordered_step hC
  refine ⟨⟨by simp, fun _ => Nat.le_refl _, Nat.le_refl _, rfl, by simp [openItem]⟩, [], ?_, ?_⟩
  · exact ⟨.refl _, List.Pairwise.nil, Machine.plays_nil.mpr ⟨rfl, rfl⟩⟩
  · intro item wanted hopen
    cases hopen

/-- A run in which a D-Bus setter and the item's flip both clear the preference: the flip is
ordered first, and the setter finds it done. -/
theorem tray_updates_serializable_cleared :
    let run : List Daemon.Label :=
      [.startTray true, .serve true, .requestName .primaryOwner,
        .receive 0 (.setKeepScreenAwake true), .handle 0 ⟨.granted 5, .granted 6, true⟩,
        .receive 1 (.setKeepScreenAwake false), .screenItemRead,
        .handle 1 ⟨.granted 5, .granted 6, true⟩, .screenItemSet ⟨.granted 5, .granted 6, true⟩]
    (∃ y, chronicle.run ({}, {}) run = some y ∧ y.2.log.length = 3) ∧
      chronicle.Everywhere Serializable ({}, {}) run :=
  ⟨⟨_, rfl, rfl⟩, tray_updates_serializable (by decide)⟩

/-- The preference is set while sleep is not blocked, and its setter has been answered; the
tray's item reads it, and before it sets the negation a Toggle is granted by logind and
refused by ScreenSaver. -/
def resetInGap : List Daemon.Label :=
  let announcement : List Daemon.Label := [.readProperty 0, .sendSignal 0]
  [.startTray true, .serve true, .requestName .primaryOwner,
    .receive 0 (.setKeepScreenAwake true), .handle 0 ⟨.granted 5, .granted 6, true⟩] ++
    announcement ++ announcement ++ announcement ++ announcement ++
    [.reply 0, .screenItemRead, .receive 1 .toggle, .handle 1 ⟨.granted 5, .refused "no", true⟩,
      .screenItemSet ⟨.granted 7, .granted 8, true⟩]

/-- What sets the preference in that run. -/
def setterDeed : Deed where
  action := .call (.setKeepScreenAwake true)
  time := ⟨0, 0⟩
  seen := .returned (some (some (.ok ⟨false, false, true, false⟩)))

/-- Its Toggle, which reports ScreenSaver's refusal. -/
def toggleDeed : Deed where
  action := .call .toggle
  time := ⟨1, 1⟩
  seen := .returned (some (some (.error (.inhibit "no"))))

/-- Its click on "Also keep screen on", which reports nothing. -/
def flipDeed : Deed where
  action := .flip .screen
  time := ⟨1, 2⟩
  seen := .noted none

/-- What the run has decided, and what it has asked the services. -/
theorem resetInGap_run : ∃ y, chronicle.run ({}, {}) resetInGap = some y ∧
    y.2.log = [setterDeed, toggleDeed, flipDeed] ∧
      y.2.acquires = [.inhibit (.granted 5), .screenInhibit (.refused "no")] :=
  ⟨_, rfl, rfl, rfl⟩

/-- The state with the preference set and nothing held. -/
def preferring : SleepBlock := ⟨⟨{ keepScreenAwake := true }, false⟩⟩

/-- With the preference set the Toggle asks logind, and ScreenSaver when logind grants. -/
theorem acquires_toggle (b : Answers) :
    acquires preferring (toggleDeed, b) =
      .inhibit b.logind :: if b.logind.grant.isSome then [.screenInhibit b.screen] else [] := by
  obtain ⟨logind, screen, saver⟩ := b
  cases logind <;> cases screen <;> rfl

/-- With sleep blocked and the preference reset the flip asks ScreenSaver. -/
theorem acquires_flip (inhibitor : Inhibitor) (c : Answers) :
    acquires ⟨⟨{ inhibitor := some inhibitor }, false⟩⟩ (flipDeed, c) =
      [.screenInhibit c.screen] := by
  obtain ⟨logind, screen, saver⟩ := c
  cases screen <;> rfl

/-- After the Toggle the flip asks ScreenSaver a second time. -/
theorem flip_after_toggle (a b c : Answers) :
    serial.emitted acquires .new [(setterDeed, a), (toggleDeed, b), (flipDeed, c)] ≠
      [.inhibit (.granted 5), .screenInhibit (.refused "no")] := by
  intro h
  have hemitted : serial.emitted acquires .new
      [(setterDeed, a), (toggleDeed, b), (flipDeed, c)] = acquires preferring (toggleDeed, b) ++
        (acquires (perform ⟨.toggle, b⟩ preferring).state (flipDeed, c) ++ []) := rfl
  rw [hemitted, acquires_toggle] at h
  obtain ⟨logind, screen, saver⟩ := b
  simp only [List.cons_append, List.cons.injEq, Effect.inhibit.injEq] at h
  obtain ⟨rfl, h⟩ := h
  simp only [Answer.grant, Option.isSome_some, if_true, List.cons_append, List.nil_append,
    List.cons.injEq, Effect.screenInhibit.injEq, List.append_nil] at h
  obtain ⟨rfl, h⟩ := h
  have hstate : (perform ⟨.toggle, ⟨.granted 5, .refused "no", saver⟩⟩ preferring).state =
      ⟨⟨{ inhibitor := some ⟨5⟩ }, false⟩⟩ := rfl
  rw [hstate, acquires_flip] at h
  cases h

/-- Before the Toggle the flip leaves it nothing to ask ScreenSaver for. -/
theorem flip_before_toggle (a b c : Answers) :
    serial.emitted acquires .new [(setterDeed, a), (flipDeed, c), (toggleDeed, b)] ≠
      [.inhibit (.granted 5), .screenInhibit (.refused "no")] := by
  intro h
  have hemitted : serial.emitted acquires .new
      [(setterDeed, a), (flipDeed, c), (toggleDeed, b)] = acquires .new (toggleDeed, b) ++ [] := rfl
  have htoggle : acquires .new (toggleDeed, b) = [.inhibit b.logind] := by
    obtain ⟨logind, screen, saver⟩ := b
    cases logind <;> rfl
  rw [hemitted, htoggle] at h
  simp at h

/-- No order of the three actions makes the two acquire calls of that run and no others. -/
theorem resetInGap_not_serializable :
    ∃ y, chronicle.run ({}, {}) resetInGap = some y ∧ ¬ Serializable y := by
  obtain ⟨y, hrun, hlog, hacquires⟩ := resetInGap_run
  refine ⟨y, hrun, ?_⟩
  rintro ⟨order, t, hperm, hin, hplays, -⟩
  have hemits := hplays.emits
  rw [hlog] at hperm
  rw [hacquires] at hemits
  have horders : [setterDeed, toggleDeed, flipDeed].permutations' =
      [[setterDeed, toggleDeed, flipDeed], [toggleDeed, setterDeed, flipDeed],
        [toggleDeed, flipDeed, setterDeed], [setterDeed, flipDeed, toggleDeed],
        [flipDeed, setterDeed, toggleDeed], [flipDeed, toggleDeed, setterDeed]] := rfl
  have hmem := List.mem_permutations'.mpr hperm
  rw [horders] at hmem
  simp only [List.mem_cons, List.not_mem_nil, or_false] at hmem
  -- the setter is decided before the others begin, so it comes first
  rcases hmem with h | h | h | h | h | h
  case inr.inl | inr.inr.inl | inr.inr.inr.inr.inl | inr.inr.inr.inr.inr =>
    rw [h] at hin
    revert hin
    unfold InTime
    decide
  case inl =>
    simp only [List.map_eq_cons_iff, List.map_eq_nil_iff] at h
    obtain ⟨⟨_, a⟩, _, rfl, rfl, ⟨_, b⟩, _, rfl, rfl, ⟨_, c⟩, _, rfl, rfl, rfl⟩ := h
    exact flip_after_toggle a b c hemits
  case inr.inr.inr.inl =>
    simp only [List.map_eq_cons_iff, List.map_eq_nil_iff] at h
    obtain ⟨⟨_, a⟩, _, rfl, rfl, ⟨_, c⟩, _, rfl, rfl, ⟨_, b⟩, _, rfl, rfl, rfl⟩ := h
    exact flip_before_toggle a b c hemits

end SleepBlocker.Analysis
