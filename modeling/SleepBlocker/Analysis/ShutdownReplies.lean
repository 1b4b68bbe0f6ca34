import SleepBlocker.Analysis.QuitFinality

/-!
# When a shutdown cuts replies

A Quit ends the process by notifying the main thread and not by exiting inside a callback,
so that a window whose Toggle is under way gets the error reply and not a dropped
connection. But the main thread waits for the event alone: it returns whatever the handlers
have still to do. So a Quit cuts no reply when it comes to a daemon in which no handler of a
decided Toggle or SetKeepScreenAwake has announcements or its reply to send, and whenever it
comes to another the main thread may cut one (`shutdown_cuts_no_reply`). After its call into
`SleepBlock` such a handler has nine steps of its own to make, four reads and four sends for
the announcements and then the reply; `replies_sent_iff_drained` says that these have to fit
in before `main` returns.
-/

set_option autoImplicit false

namespace SleepBlocker.Analysis

open SleepBlocker.Computation SleepBlocker.Model

/-- The Toggle or SetKeepScreenAwake call that a step decides, under its number, with its
result. -/
def decides (d : Daemon) : Daemon.Label → Option (ℕ × Except Error Status)
  | .handle h ans =>
    match d.handlers h with
    | .received .toggle => ((perform ⟨.toggle, ans⟩ d.state).value.getD none).map (h, ·)
    | .received (.setKeepScreenAwake wanted) =>
      ((perform ⟨.setKeepScreenAwake wanted, ans⟩ d.state).value.getD none).map (h, ·)
    | _ => none
  | _ => none

/-- The handler that the step brings nearer to its reply. -/
def advances : Daemon.Label → Option ℕ
  | .readProperty h | .sendSignal h | .reply h => some h
  | _ => none

/-- What a run has seen of the calls and the shutdown. -/
structure Backlog where
  /-- The Toggle and SetKeepScreenAwake calls decided, oldest first. -/
  decided : List (ℕ × Except Error Status) := []
  /-- The steps that each handler has still to make for the call it has decided. -/
  left : ℕ → ℕ := fun _ => 0
  /-- The calls that were decided when the latest Quit completed `release_all`. -/
  due : List (ℕ × Except Error Status) := []
  /-- The steps still to be made for the calls that are due. -/
  dueLeft : ℕ → ℕ := fun _ => 0
  /-- `main` has returned. -/
  exited : Bool := false

/-- What the history records of a step. -/
def Backlog.update (g : Backlog) (d : Daemon) (a : Daemon.Label) : Backlog where
  decided := g.decided ++ (decides d a).toList
  left h :=
    -- four announcements of two steps each, and the reply
    if (decides d a).map Prod.fst = some h then 2 * 4 + 1
    else if advances a = some h then g.left h - 1
    else g.left h
  due := if releases d a then g.decided else g.due
  dueLeft h :=
    if releases d a then g.left h
    else if advances a = some h then g.dueLeft h - 1
    else g.dueLeft h
  exited := g.exited || a == .exit

/-- The daemon with the tally of what its handlers owe. -/
def draining : Machine (Daemon × Backlog) Daemon.Label := daemon.monitor Backlog.update

/-- The replies that the results of the calls under one number ask for, in order. -/
def resultsOf (h : ℕ) (l : List (ℕ × Except Error Status)) : List Reply :=
  (l.filter (·.1 == h)).map fun x => Reply.of x.2

/-- The replies with a result that were sent under one number, in order. -/
def answersOf (h : ℕ) (l : List (ℕ × Reply)) : List Reply :=
  (l.filter fun x => x.1 == h && x.2 != .empty).map Prod.snd

/-- Once `main` has returned, every Toggle or SetKeepScreenAwake call decided before a Quit
has had its reply sent, with the result of that call. -/
def RepliesSent (x : Daemon × Backlog) : Prop :=
  x.2.exited = true → ∀ h, resultsOf h x.2.due <+: answersOf h x.1.replies

/-- `main` does not return before each handler whose call was decided before the Quit has
made its nine steps. -/
def Drained (x : Daemon × Backlog) (a : Daemon.Label) : Prop :=
  a = .exit → ∀ h, x.2.dueLeft h = 0

/-! ## What a handler owes -/

/-- The reply with a result that a handler carries, and the steps until it is sent. -/
def owes : Handler → Option (ℕ × Reply)
  | .announcing todo r => if r = .empty then none else some (2 * todo.length + 1, r)
  | .sending _ _ todo r => if r = .empty then none else some (2 * todo.length + 2, r)
  | _ => none

/-- Who owes a reply has a step left to make. -/
theorem owes_pos {x : Handler} {n : ℕ} {r : Reply} (h : owes x = some (n, r)) : 0 < n := by
  cases x <;> simp only [owes, Option.ite_none_left_eq_some, Option.some.injEq, Prod.mk.injEq,
    reduceCtorEq] at h <;> omega

/-- The reply of a Toggle or SetKeepScreenAwake says something. -/
theorem of_ne_empty (result : Except Error Status) : Reply.of result ≠ .empty := by
  cases result <;> simp [Reply.of]

/-- A handler that has called into `SleepBlock` owes the result that was decided, nine steps
away, or nothing. -/
theorem owes_after (d : Daemon) (h : ℕ) (request : Request) (ans : Answers)
    (hh : d.handlers h = .received request) :
    owes (request.after ((perform ⟨request.op, ans⟩ d.state).value.getD none)) =
      (decides d (.handle h ans)).map fun x => (2 * 4 + 1, Reply.of x.2) := by
  have hresult : ∀ result : Option (Except Error Status),
      owes (.announcing [.sleepBlocked, .screenBlocked, .keepScreenAwake, .keepRunningInTray]
        (result.elim .empty Reply.of)) =
        (result.map (h, ·)).map fun x : ℕ × Except Error Status => (2 * 4 + 1, Reply.of x.2) := by
    intro result
    cases result with
    | none => rfl
    | some e => simp [owes, of_ne_empty e]
  cases request with
  | toggle =>
      simp only [decides, hh]
      exact hresult _
  | setKeepScreenAwake wanted =>
      simp only [decides, hh]
      exact hresult _
  | setKeepRunningInTray wanted => simp [decides, hh, Request.after, owes]
  | quit => simp [decides, hh, Request.after, owes]

/-- A step decides the call of the handler that it is a step of. -/
theorem handler_of_decides {d : Daemon} {a : Daemon.Label} {x : ℕ × Except Error Status}
    (hd : decides d a = some x) : ∃ ans, a = .handle x.1 ans := by
  cases a <;> simp only [decides, reduceCtorEq] at hd
  case handle h ans =>
    have hx : x.1 = h := by
      split at hd
      · obtain ⟨e, -, rfl⟩ := Option.map_eq_some_iff.mp hd
        rfl
      · obtain ⟨e, -, rfl⟩ := Option.map_eq_some_iff.mp hd
        rfl
      · cases hd
    exact ⟨ans, by rw [hx]⟩

/-- What a step does to one handler: it decides the handler's call, brings it one step nearer
to its reply, sends the reply, or leaves what the handler owes and has sent. -/
inductive Advance (d : Daemon) (a : Daemon.Label) (t : Daemon) (h : ℕ) : Prop where
  | decide (e : Except Error Status) (hdecides : decides d a = some (h, e))
      (before : owes (d.handlers h) = none) (after : owes (t.handlers h) = some (9, Reply.of e))
      (same : answersOf h t.replies = answersOf h d.replies)
  | move (n : ℕ) (r : Reply) (hadvances : advances a = some h)
      (before : owes (d.handlers h) = some (n + 1, r)) (after : owes (t.handlers h) = some (n, r))
      (same : answersOf h t.replies = answersOf h d.replies)
  | send (r : Reply) (hadvances : advances a = some h)
      (before : owes (d.handlers h) = some (1, r)) (after : owes (t.handlers h) = none)
      (sent : answersOf h t.replies = answersOf h d.replies ++ [r])
  | keep (hdecides : ∀ e, decides d a ≠ some (h, e))
      (hadvances : advances a = some h → owes (d.handlers h) = none)
      (before : owes (t.handlers h) = owes (d.handlers h))
      (same : answersOf h t.replies = answersOf h d.replies)

/-- A handler that is none of the step's keeps what it owes and has sent. -/
theorem advance_other {d t : Daemon} {a : Daemon.Label} {h : ℕ}
    (hdecides : ∀ e, decides d a ≠ some (h, e)) (hadvances : advances a ≠ some h)
    (hhandler : t.handlers h = d.handlers h)
    (same : answersOf h t.replies = answersOf h d.replies) : Advance d a t h :=
  .keep hdecides (fun hadv => absurd hadv hadvances) (by rw [hhandler]) same

/-- Every step advances every handler in one of the ways there are. -/
theorem advance_of_step {d t : Daemon} {a : Daemon.Label} (hs : d.step a = some t) (h : ℕ) :
    Advance d a t h := by
  by_cases hown : a.handler = some h
  · cases a <;> simp only [Daemon.Label.handler, Option.some.injEq, reduceCtorEq] at hown <;>
      subst hown
    case receive h request =>
      simp only [Daemon.step, Option.ite_none_right_eq_some, Option.some.injEq] at hs
      obtain ⟨⟨-, hidle⟩, rfl⟩ := hs
      exact .keep (fun e => by simp [decides]) (fun _ => by rw [hidle]; rfl)
        (by simp [Daemon.setHandler, hidle, owes]) rfl
    case handle h ans =>
      obtain ⟨request, hh, -, -, rfl⟩ := Daemon.handle_eq_some.mp hs
      have hbefore : owes (d.handlers h) = none := by
        rw [hh]
        rfl
      have hafter := owes_after d h request ans hh
      cases hd : decides d (.handle h ans) with
      | none =>
          refine .keep (fun e => by simp [hd]) (fun hadv => by cases hadv) ?_ rfl
          simp [Daemon.setHandler, hafter, hd, hbefore]
      | some x =>
          obtain ⟨k, e⟩ := x
          obtain ⟨ans', hk⟩ := handler_of_decides hd
          cases hk
          refine .decide e hd hbefore ?_ rfl
          simp [Daemon.setHandler, hafter, hd]
    case readProperty h =>
      obtain ⟨p, todo, r, hh, -, rfl⟩ := Daemon.readProperty_eq_some.mp hs
      by_cases hr : r = .empty
      · exact .keep (fun e => by simp [decides]) (fun _ => by simp [hh, owes, hr])
          (by simp [Daemon.setHandler, hh, owes, hr]) rfl
      · exact .move (2 * todo.length + 2) r rfl (by simp [hh, owes, hr]; omega)
          (by simp [Daemon.setHandler, owes, hr]) rfl
    case sendSignal h =>
      obtain ⟨p, value, todo, r, hh, -, rfl⟩ := Daemon.sendSignal_eq_some.mp hs
      by_cases hr : r = .empty
      · exact .keep (fun e => by simp [decides]) (fun _ => by simp [hh, owes, hr])
          (by simp [Daemon.setHandler, hh, owes, hr]) rfl
      · exact .move (2 * todo.length + 1) r rfl (by simp [hh, owes, hr])
          (by simp [Daemon.setHandler, owes, hr]) rfl
    case notify h =>
      obtain ⟨hh, -, rfl⟩ := Daemon.notify_eq_some.mp hs
      exact .keep (fun e => by simp [decides]) (fun _ => by rw [hh]; rfl)
        (by simp [Daemon.setHandler, hh, owes]) rfl
    case reply h =>
      obtain ⟨r, hh, -, rfl⟩ := Daemon.reply_eq_some.mp hs
      by_cases hr : r = .empty
      · exact .keep (fun e => by simp [decides]) (fun _ => by simp [hh, owes, hr])
          (by simp [Daemon.setHandler, hh, owes, hr])
          (by simp [Daemon.setHandler, answersOf, hr])
      · exact .send r rfl (by simp [hh, owes, hr]) (by simp [Daemon.setHandler, owes])
          (by simp [Daemon.setHandler, answersOf, hr])
  · have hhandler := (Daemon.frame_of_step hs).1 h hown
    have hdecides : ∀ e, decides d a ≠ some (h, e) := by
      intro e he
      obtain ⟨ans, rfl⟩ := handler_of_decides he
      exact hown rfl
    have hadvances : advances a ≠ some h := by
      intro he
      cases a <;> simp_all [advances, Daemon.Label.handler]
    apply advance_other hdecides hadvances hhandler
    cases a with
    | reply k =>
        obtain ⟨r, -, -, rfl⟩ := Daemon.reply_eq_some.mp hs
        have hk : k ≠ h := fun hk => hown (congrArg some hk)
        simp [Daemon.setHandler, answersOf, hk]
    | _ => rw [Daemon.replies_of_step hs (by simp)]

/-! ## The tally -/

/-- The steps left and the replies still missing agree with what the handler owes. -/
structure Tallied (x : Daemon × Backlog) (h : ℕ) : Prop where
  left : x.2.left h = ((owes (x.1.handlers h)).map Prod.fst).getD 0
  missing : resultsOf h x.2.decided =
    answersOf h x.1.replies ++ ((owes (x.1.handlers h)).map Prod.snd).toList
  settled : x.2.dueLeft h = 0 → resultsOf h x.2.due <+: answersOf h x.1.replies
  outstanding : x.2.dueLeft h ≠ 0 →
    x.2.dueLeft h = x.2.left h ∧ resultsOf h x.2.due = resultsOf h x.2.decided

/-- A handler with nothing left to do owes nothing. -/
theorem Tallied.owes_none {x : Daemon × Backlog} {h : ℕ} (ht : Tallied x h)
    (hleft : x.2.left h = 0) : owes (x.1.handlers h) = none := by
  cases ho : owes (x.1.handlers h) with
  | none => rfl
  | some y =>
      have hpos := owes_pos (n := y.1) (r := y.2) ho
      have hy := ht.left
      rw [ho, hleft] at hy
      simp only [Option.map_some, Option.getD_some] at hy
      omega

/-- What is due has been answered exactly when no step is left for it. -/
theorem Tallied.settled_iff {x : Daemon × Backlog} {h : ℕ} (ht : Tallied x h) :
    resultsOf h x.2.due <+: answersOf h x.1.replies ↔ x.2.dueLeft h = 0 := by
  constructor
  · intro hprefix
    by_contra hne
    obtain ⟨hleft, hdue⟩ := ht.outstanding hne
    rw [hdue, ht.missing] at hprefix
    cases ho : owes (x.1.handlers h) with
    | none =>
        have := ht.left
        rw [ho] at this
        simp only [Option.map_none, Option.getD_none] at this
        omega
    | some y =>
        rw [ho] at hprefix
        have hlength := hprefix.length_le
        simp only [Option.map_some, Option.toList_some, List.length_append, List.length_singleton]
          at hlength
        omega
  · exact ht.settled

/-- The results of an appended list. -/
theorem resultsOf_append (h : ℕ) (l : List (ℕ × Except Error Status))
    (x : Option (ℕ × Except Error Status)) :
    resultsOf h (l ++ x.toList) = resultsOf h l ++ resultsOf h x.toList := by
  simp [resultsOf]

/-- A step that decides no call of the handler adds no result of it. -/
theorem resultsOf_none {h : ℕ} {x : Option (ℕ × Except Error Status)}
    (hx : ∀ e, x ≠ some (h, e)) : resultsOf h x.toList = [] := by
  cases x with
  | none => rfl
  | some y =>
      have hy : y.1 ≠ h := by
        rintro rfl
        exact hx y.2 rfl
      simp [resultsOf, hy]

/-- A Quit's `release_all` brings no handler nearer to its reply and decides no call. -/
theorem releases_silent {d : Daemon} {a : Daemon.Label} (hrel : releases d a = true) :
    decides d a = none ∧ advances a = none := by
  cases a <;> simp only [releases, Daemon.callOf, Option.any_none, Bool.false_eq_true] at hrel
  case handle h ans =>
    cases hh : d.handlers h with
    | received request => cases request <;> simp_all [decides, advances, Request.op]
    | _ => simp_all
  all_goals exact ⟨rfl, rfl⟩

/-- Where no step is left at all, none is left of what is due. -/
theorem Tallied.dueLeft_eq_zero {x : Daemon × Backlog} {h : ℕ} (ht : Tallied x h)
    (hleft : x.2.left h = 0) : x.2.dueLeft h = 0 := by
  by_contra hne
  exact hne ((ht.outstanding hne).1.trans hleft)

/-- A step towards a reply decides no call. -/
theorem decides_of_advances {d : Daemon} {a : Daemon.Label} {h : ℕ}
    (hadvances : advances a = some h) : decides d a = none := by
  cases a <;> simp_all [advances, decides]

section Tally

variable {d t : Daemon} {g : Backlog} {a : Daemon.Label} {h : ℕ}

/-- A Quit makes everything decided so far due. -/
theorem Tallied.release (ht : Tallied (d, g) h) (hrel : releases d a = true)
    (hadvance : Advance d a t h) : Tallied (t, g.update d a) h := by
  obtain ⟨hdecides, hadvances⟩ := releases_silent hrel
  cases hadvance with
  | decide e he => simp [hdecides] at he
  | move n r hadv => simp [hadvances] at hadv
  | send r hadv => simp [hadvances] at hadv
  | keep _ _ hsame hanswers =>
      have hmissing : resultsOf h g.decided =
          answersOf h t.replies ++ ((owes (t.handlers h)).map Prod.snd).toList := by
        rw [hsame, hanswers]
        exact ht.missing
      refine ⟨?_, ?_, ?_, ?_⟩
      · simpa [Backlog.update, hdecides, hadvances, hsame] using ht.left
      · simpa [Backlog.update, hdecides] using hmissing
      · intro hleft
        simp only [Backlog.update, hrel, if_true] at hleft ⊢
        have hnone := ht.owes_none hleft
        rw [hmissing, hsame, hnone]
        simp
      · intro _
        simp [Backlog.update, hrel, hdecides, hadvances]

/-- The step that decides a call starts its tally. -/
theorem Tallied.decide (ht : Tallied (d, g) h) (hrel : releases d a = false)
    {e : Except Error Status} (he : decides d a = some (h, e))
    (hbefore : owes (d.handlers h) = none) (hafter : owes (t.handlers h) = some (9, Reply.of e))
    (hanswers : answersOf h t.replies = answersOf h d.replies) :
    Tallied (t, g.update d a) h := by
  have hadvances : advances a = none := by
    obtain ⟨ans, rfl⟩ := handler_of_decides he
    rfl
  have hdue : g.dueLeft h = 0 := ht.dueLeft_eq_zero (by simpa [hbefore] using ht.left)
  have hmissing := ht.missing
  simp only [hbefore, Option.map_none, Option.toList_none, List.append_nil] at hmissing
  refine ⟨?_, ?_, ?_, ?_⟩
  · simp [Backlog.update, he, hafter]
  · simp only [Backlog.update, resultsOf_append, hmissing, hanswers, hafter, he]
    simp [resultsOf]
  · intro _
    simpa [Backlog.update, hrel, hanswers] using ht.settled hdue
  · intro hne
    simp [Backlog.update, hrel, hadvances, hdue] at hne

/-- A read or a send takes one from the tally. -/
theorem Tallied.move (ht : Tallied (d, g) h) (hrel : releases d a = false) {n : ℕ} {r : Reply}
    (hadv : advances a = some h) (hbefore : owes (d.handlers h) = some (n + 1, r))
    (hafter : owes (t.handlers h) = some (n, r))
    (hanswers : answersOf h t.replies = answersOf h d.replies) :
    Tallied (t, g.update d a) h := by
  have hdecides : decides d a = none := decides_of_advances hadv
  have hleft : g.left h = n + 1 := by
    simpa [hbefore] using ht.left
  have hmissing := ht.missing
  rw [hbefore] at hmissing
  refine ⟨?_, ?_, ?_, ?_⟩
  · simp [Backlog.update, hdecides, hadv, hafter, hleft]
  · simp [Backlog.update, hdecides, hafter, hanswers, hmissing]
  · intro hzero
    -- the handler still owes its reply, so nothing of it can have been due
    have hn := owes_pos hafter
    have hdue : g.dueLeft h = 0 := by
      by_contra hne
      have hsame : g.dueLeft h = g.left h := (ht.outstanding hne).1
      simp only [Backlog.update, hrel, hadv, if_true, Bool.false_eq_true, if_false] at hzero
      omega
    simpa [Backlog.update, hrel, hanswers] using ht.settled hdue
  · intro hne
    simp only [Backlog.update, hrel, hadv, hdecides, Option.map_none, reduceCtorEq,
      Bool.false_eq_true, if_false, if_true, Option.toList_none, List.append_nil] at hne ⊢
    have hsame : g.dueLeft h = g.left h ∧ resultsOf h g.due = resultsOf h g.decided :=
      ht.outstanding fun hzero => hne (by rw [hzero])
    exact ⟨by rw [hsame.1], hsame.2⟩

/-- The reply settles the tally. -/
theorem Tallied.send (ht : Tallied (d, g) h) (hrel : releases d a = false) {r : Reply}
    (hadv : advances a = some h) (hbefore : owes (d.handlers h) = some (1, r))
    (hafter : owes (t.handlers h) = none)
    (hanswers : answersOf h t.replies = answersOf h d.replies ++ [r]) :
    Tallied (t, g.update d a) h := by
  have hdecides : decides d a = none := decides_of_advances hadv
  have hleft : g.left h = 1 := by
    simpa [hbefore] using ht.left
  have hmissing := ht.missing
  rw [hbefore] at hmissing
  simp only [Option.map_some, Option.toList_some] at hmissing
  refine ⟨?_, ?_, ?_, ?_⟩
  · simp [Backlog.update, hdecides, hadv, hafter, hleft]
  · simp [Backlog.update, hdecides, hafter, hanswers, hmissing]
  · intro _
    simp only [Backlog.update, hrel, Bool.false_eq_true, if_false, hanswers]
    by_cases hdue : g.dueLeft h = 0
    · exact (ht.settled hdue).trans (List.prefix_append _ _)
    · have hequal := (ht.outstanding hdue).2.trans hmissing
      exact hequal ▸ List.prefix_rfl
  · intro hne
    simp only [Backlog.update, hrel, hadv, Bool.false_eq_true, if_false, if_true] at hne
    have hsame : g.dueLeft h = g.left h := (ht.outstanding fun hzero => hne (by rw [hzero])).1
    omega

/-- What the handler has nothing to do with leaves its tally. -/
theorem Tallied.keep (ht : Tallied (d, g) h) (hrel : releases d a = false)
    (hdecides : ∀ e, decides d a ≠ some (h, e))
    (hadv : advances a = some h → owes (d.handlers h) = none)
    (hsame : owes (t.handlers h) = owes (d.handlers h))
    (hanswers : answersOf h t.replies = answersOf h d.replies) :
    Tallied (t, g.update d a) h := by
  have houtstanding : g.dueLeft h ≠ 0 →
      g.dueLeft h = g.left h ∧ resultsOf h g.due = resultsOf h g.decided := ht.outstanding
  have hmap : (decides d a).map Prod.fst ≠ some h := by
    intro hmap
    obtain ⟨x, hx, rfl⟩ := Option.map_eq_some_iff.mp hmap
    exact hdecides x.2 hx
  -- a handler that owes nothing has no step to count down
  have hdown : ∀ n : ℕ, (n ≠ 0 → n = g.left h) →
      (if advances a = some h then n - 1 else n) = n := by
    intro n hn
    split
    · rename_i hown
      have hzero : g.left h = 0 := by
        simpa [hadv hown] using ht.left
      by_cases hn0 : n = 0
      · rw [hn0]
      · have := hn hn0
        omega
    · rfl
  have hleft : (g.update d a).left h = g.left h := by
    show (if _ then _ else _) = _
    rw [if_neg hmap, hdown (g.left h) fun _ => rfl]
  have hdueLeft : (g.update d a).dueLeft h = g.dueLeft h := by
    show (if _ then _ else _) = _
    rw [hrel, if_neg (by simp), hdown (g.dueLeft h) fun hne => (houtstanding hne).1]
  have hdecided : resultsOf h (g.update d a).decided = resultsOf h g.decided := by
    simp only [Backlog.update, resultsOf_append, resultsOf_none hdecides, List.append_nil]
  have hdue : (g.update d a).due = g.due := by
    simp [Backlog.update, hrel]
  refine ⟨?_, ?_, ?_, ?_⟩
  · simpa only [hleft, hsame] using ht.left
  · simpa only [hdecided, hsame, hanswers] using ht.missing
  · simpa only [hdueLeft, hdue, hanswers] using ht.settled
  · simpa only [hdueLeft, hleft, hdue, hdecided] using houtstanding

end Tally

/-- Every step keeps the tally of every handler. -/
theorem tallied_step (x : Daemon × Backlog) (a : Daemon.Label) (y : Daemon × Backlog)
    (hs : draining.step x a = some y) (hx : ∀ h, Tallied x h) (h : ℕ) : Tallied y h := by
  obtain ⟨hd, hy⟩ := Machine.monitor_step_eq_some.mp hs
  obtain ⟨d, g⟩ := x
  obtain ⟨t, g'⟩ := y
  simp only at hd hy
  subst hy
  have ht := hx h
  have hadvance := advance_of_step hd h
  cases hrel : releases d a with
  | true => exact ht.release hrel hadvance
  | false =>
      cases hadvance with
      | decide e he hbefore hafter hanswers => exact ht.decide hrel he hbefore hafter hanswers
      | move n r hadv hbefore hafter hanswers => exact ht.move hrel hadv hbefore hafter hanswers
      | send r hadv hbefore hafter hanswers => exact ht.send hrel hadv hbefore hafter hanswers
      | keep hdecides hadv hsame hanswers => exact ht.keep hrel hdecides hadv hsame hanswers

/-- The tally stands for every handler, and `main` has returned only where the process is
gone. -/
def TalliedUp (x : Daemon × Backlog) : Prop :=
  (∀ h, Tallied x h) ∧ (x.2.exited = true → x.1.stage = .exited)

/-- Every step keeps the tally, and the end of the process with it. -/
theorem talliedUp_step (x : Daemon × Backlog) (a : Daemon.Label) (y : Daemon × Backlog)
    (hs : draining.step x a = some y) (hx : TalliedUp x) : TalliedUp y := by
  refine ⟨tallied_step x a y hs hx.1, ?_⟩
  obtain ⟨hd, hy⟩ := Machine.monitor_step_eq_some.mp hs
  intro hexited
  rw [hy] at hexited
  simp only [Backlog.update, Bool.or_eq_true, beq_iff_eq] at hexited
  rcases hexited with hexited | rfl
  · exact absurd (hx.2 hexited) (Daemon.stage_of_step hd)
  · have hd : (if x.1.stage = .returning ∨ x.1.stage = .closed then
        some { x.1 with stage := .exited } else none) = some y.1 := hd
    simp only [Option.ite_none_right_eq_some, Option.some.injEq] at hd
    rw [← hd.2]

/-- One step keeps the replies sent exactly when it is no return of `main` that comes too
early. -/
theorem repliesSent_step (x : Daemon × Backlog) (a : Daemon.Label) (y : Daemon × Backlog)
    (hs : draining.step x a = some y) (hx : TalliedUp x) (_ : RepliesSent x) :
    RepliesSent y ↔ Drained x a := by
  obtain ⟨hd, hy⟩ := Machine.monitor_step_eq_some.mp hs
  have hrunning : x.2.exited = false := by
    by_contra hexited
    exact Daemon.stage_of_step hd (hx.2 (by simpa using hexited))
  by_cases ha : a = .exit
  · subst ha
    have hreplies : y.1.replies = x.1.replies :=
      Daemon.replies_of_step (a := .exit) hd (by simp)
    have hdue : y.2.due = x.2.due := by
      rw [hy]
      rfl
    have hexited : y.2.exited = true := by
      simp [hy, Backlog.update]
    constructor
    · intro hsent _ h
      have hprefix := hsent hexited h
      rw [hdue, hreplies] at hprefix
      exact (hx.1 h).settled_iff.mp hprefix
    · intro hdrained _ h
      rw [hdue, hreplies]
      exact (hx.1 h).settled_iff.mpr (hdrained rfl h)
  · have hexited : y.2.exited = false := by
      simp [hy, Backlog.update, hrunning, ha]
    refine iff_of_true (fun h => ?_) (fun h => absurd h ha)
    simp [hexited] at h

/-- Before anything has happened nothing is due. -/
theorem talliedUp_start : TalliedUp ({}, {}) :=
  ⟨fun h => ⟨rfl, rfl, fun _ => List.nil_prefix, fun hne => absurd rfl hne⟩, fun h => by cases h⟩

/-- Along every run each call decided before a Quit has its reply sent before `main` returns
exactly when its handler has made its nine steps by then. -/
theorem replies_sent_iff_drained {run : List Daemon.Label} {d : Daemon}
    (hr : daemon.run {} run = some d) :
    draining.Everywhere RepliesSent ({}, {}) run ↔ draining.Along Drained ({}, {}) run :=
  Machine.monitor_iff_along talliedUp_step repliesSent_step hr talliedUp_start fun h => by cases h

/-! ## Quits that come at rest -/

/-- Where a Quit completes `release_all`, no handler of a Toggle or SetKeepScreenAwake call that
has been decided has an announcement or its reply still to send. -/
def QuitAtRest (d : Daemon) (a : Daemon.Label) : Prop :=
  releases d a = true → ∀ h, owes (d.handlers h) = none

/-- Nothing that is due is still to be sent. -/
def NothingDue (x : Daemon × Backlog) : Prop := TalliedUp x ∧ ∀ h, x.2.dueLeft h = 0

/-- A Quit at rest makes nothing due. -/
theorem nothingDue_step (x : Daemon × Backlog) (a : Daemon.Label) (y : Daemon × Backlog)
    (hs : draining.step x a = some y) (hrest : QuitAtRest x.1 a) (hx : NothingDue x) :
    NothingDue y := by
  refine ⟨talliedUp_step x a y hs hx.1, fun h => ?_⟩
  obtain ⟨-, hy⟩ := Machine.monitor_step_eq_some.mp hs
  rw [hy]
  simp only [Backlog.update]
  split
  · rename_i hrel
    have hleft := (hx.1.1 h).left
    rwa [hrest hrel h] at hleft
  · split
    · rw [hx.2 h]
    · exact hx.2 h

/-- What is due and has nothing left to send has been answered. -/
theorem NothingDue.repliesSent {x : Daemon × Backlog} (hx : NothingDue x) : RepliesSent x :=
  fun _ h => (hx.1.1 h).settled (hx.2 h)

/-- A condition on the daemon alone holds along a run beside the tally. -/
theorem along_draining {C : Daemon → Daemon.Label → Prop} {run : List Daemon.Label} {d : Daemon}
    (hC : daemon.Along C d run) (g : Backlog) :
    draining.Along (fun x a => C x.1 a) (d, g) run := by
  induction run generalizing d g with
  | nil => trivial
  | cons a run ih =>
      refine ⟨hC.1, fun y hs => ?_⟩
      obtain ⟨hd, -⟩ := Machine.monitor_step_eq_some.mp hs
      exact ih (hC.2 y.1 hd) y.2

/-! ## A Quit that does not -/

/-- A step of `main`, or the notification of a Quit. -/
def OfMainOrQuit (a : Daemon.Label) : Prop :=
  (a.party = .main ∧ a ≠ .crash) ∨ a = .quitItemNotify ∨ ∃ h, a = .notify h

/-- How `main` gets from a stage to its end, once it has been notified. -/
def mainOut : Stage → List Daemon.Label
  | .starting => [.startTray true, .serve false, .exit]
  | .trayStarted => [.serve false, .exit]
  | .serving => [.requestName .nameTaken, .exit]
  | .waiting => [.wake, .exit]
  | .returning | .closed => [.exit]
  | .exited => []

/-- A main thread that has been notified can return from wherever it is. -/
theorem run_mainOut {d : Daemon} (hnotified : d.notified = true) :
    ∃ e, daemon.run d (mainOut d.stage) = some e := by
  cases hstage : d.stage <;>
    simp [mainOut, Machine.run_cons, daemon, Daemon.step, hstage, hnotified]

/-- It does so without the handlers. -/
theorem ofMainOrQuit_mainOut (stage : Stage) : ∀ a ∈ mainOut stage, OfMainOrQuit a := by
  cases stage <;> simp [mainOut, OfMainOrQuit, Daemon.Label.party]

/-- Its last step is the return, unless the process is gone. -/
theorem exit_mem_mainOut {stage : Stage} (h : stage ≠ .exited) : .exit ∈ mainOut stage := by
  cases stage <;> simp_all [mainOut]

/-- Steps of `main` and notifications leave what is due, and what is still to be sent of it. -/
theorem dueLeft_of_quiet {x y : Daemon × Backlog} {rest : List Daemon.Label}
    (hquiet : ∀ a ∈ rest, OfMainOrQuit a) (hr : draining.run x rest = some y) :
    y.2.dueLeft = x.2.dueLeft ∧ (x.2.exited = true ∨ .exit ∈ rest → y.2.exited = true) := by
  induction rest generalizing x with
  | nil =>
      simp only [Machine.run_nil, Option.some.injEq] at hr
      simp [hr]
  | cons a rest ih =>
      obtain ⟨ha, hrest⟩ := List.forall_mem_cons.mp hquiet
      obtain ⟨u, hu, hr⟩ := Machine.run_cons_eq_some.mp hr
      obtain ⟨hdue, hexit⟩ := ih hrest hr
      obtain ⟨-, hg⟩ := Machine.monitor_step_eq_some.mp hu
      have hsilent : releases x.1 a = false ∧ advances a = none := by
        rcases ha with ⟨ha, -⟩ | rfl | ⟨h, rfl⟩
        · cases a <;> simp_all [Daemon.Label.party, releases, Daemon.callOf, advances]
        · exact ⟨rfl, rfl⟩
        · exact ⟨rfl, rfl⟩
      refine ⟨?_, fun h => hexit ?_⟩
      · rw [hdue, hg]
        funext h
        simp [Backlog.update, hsilent.1, hsilent.2]
      · rw [hg]
        simp only [Backlog.update, Bool.or_eq_true, beq_iff_eq]
        rcases h with h | h
        · exact Or.inl (Or.inl h)
        · rcases List.mem_cons.mp h with h | h
          · exact Or.inl (Or.inr h.symm)
          · exact Or.inr h

/-- A Quit that has completed `release_all` notifies the event next. -/
theorem notifies_next {d e : Daemon} {a : Daemon.Label} (hs : d.step a = some e)
    (hrel : releases d a = true) :
    ∃ b t, OfMainOrQuit b ∧ e.step b = some t ∧ t.notified = true ∧ t.stage = e.stage ∧
      e.stage ≠ .exited := by
  cases a <;> simp only [releases, Daemon.callOf, Option.any_none, Bool.false_eq_true] at hrel
  case handle h ans =>
    obtain ⟨request, hh, hup, -, rfl⟩ := Daemon.handle_eq_some.mp hs
    have hquit : request = .quit := by
      simp only [hh, Option.any_some, beq_iff_eq] at hrel
      cases request <;> simp_all [Request.op]
    subst hquit
    refine ⟨.notify h, _, Or.inr (Or.inr ⟨h, rfl⟩),
      Daemon.notify_eq_some.mpr ⟨Function.update_self .., hup, rfl⟩, rfl, rfl, ?_⟩
    exact Daemon.stage_of_connected hup
  case quitItem ans =>
    obtain ⟨hfree, -, rfl⟩ := Daemon.quitItem_eq_some.mp hs
    have hstage := Daemon.stage_of_trayFree hfree
    exact ⟨.quitItemNotify, _, Or.inr (Or.inl rfl), if_pos ⟨rfl, hstage⟩, rfl, rfl, hstage⟩
  case screenItemSet ans => split at hrel <;> simp at hrel
  case runningItemSet ans => split at hrel <;> simp at hrel
  all_goals simp at hrel

/-- **A shutdown cuts no reply if the Quit comes at rest.** Take any run of the daemon, any
interleaving of its handlers, the tray's callbacks and the main thread. If no Quit completes
`release_all` while a handler of a decided Toggle or SetKeepScreenAwake has announcements or
its reply to send, each such call decided before a Quit has its reply, with its own result,
sent before `main` returns. And wherever a Quit does, it and the main thread alone can go on so
that `main` returns with such a reply unsent.
SOURCE: sleep-blockd.rs:43-79, sleep-blockd.rs:112-143, sleep-blockd.rs:201-207, tray.rs:219-233 -/
theorem shutdown_cuts_no_reply {run : List Daemon.Label} {d : Daemon}
    (hr : daemon.run {} run = some d) :
    (daemon.Along QuitAtRest {} run → draining.Everywhere RepliesSent ({}, {}) run) ∧
      ∀ a e, daemon.step d a = some e → ¬ QuitAtRest d a →
        ∃ rest t, (∀ b ∈ rest, OfMainOrQuit b) ∧ daemon.run e rest = some t ∧
          ¬ draining.Everywhere RepliesSent ({}, {}) (run ++ a :: rest) := by
  constructor
  · intro hrest
    have hnothing : NothingDue ({}, {}) := ⟨talliedUp_start, fun _ => rfl⟩
    refine (Machine.everywhere_of_along (I := NothingDue) ?_ (along_draining hrest {})
      hnothing).mono fun x hx => hx.repliesSent
    exact fun x a y hs hC hx => nothingDue_step x a y hs hC hx
  · intro a e hs hbusy
    obtain ⟨hrel, h, howes⟩ : releases d a = true ∧ ∃ h, owes (d.handlers h) ≠ none := by
      simpa only [QuitAtRest, Classical.not_imp, not_forall] using hbusy
    obtain ⟨b, t, hb, ht, hnotified, hstage, halive⟩ := notifies_next hs hrel
    obtain ⟨u, hu⟩ := run_mainOut hnotified
    have hquiet : ∀ c ∈ b :: mainOut t.stage, OfMainOrQuit c :=
      List.forall_mem_cons.mpr ⟨hb, ofMainOrQuit_mainOut t.stage⟩
    have hrest : daemon.run e (b :: mainOut t.stage) = some u :=
      Machine.run_cons_eq_some.mpr ⟨t, ht, hu⟩
    refine ⟨b :: mainOut t.stage, u, hquiet, hrest, fun hsent => ?_⟩
    -- the same run beside the tally
    have hall : daemon.run {} (run ++ a :: b :: mainOut t.stage) = some u :=
      Machine.run_append_eq_some.mpr ⟨d, hr, Machine.run_cons_eq_some.mpr ⟨e, hs, hrest⟩⟩
    have hmonitored := Machine.run_monitor (M := daemon) Backlog.update {} ({} : Backlog)
      (run ++ a :: b :: mainOut t.stage)
    rw [hall, Option.map_eq_some_iff] at hmonitored
    obtain ⟨z, hz, -⟩ := hmonitored
    obtain ⟨x, hx, hxz⟩ := Machine.run_append_eq_some.mp hz
    obtain ⟨y, hxy, hyz⟩ := Machine.run_cons_eq_some.mp hxz
    have hx' : x.1 = d := by
      have hfirst := Machine.run_monitor (M := daemon) Backlog.update {} ({} : Backlog) run
      rw [hr] at hfirst
      simpa [draining, hx] using hfirst
    have htallied : ∀ {l : List Daemon.Label} {w : Daemon × Backlog},
        draining.run ({}, {}) l = some w → TalliedUp w := fun hl =>
      (Machine.everywhere_of_step talliedUp_step _ talliedUp_start).last hl
    -- what is left of the handler is due, and stays so
    obtain ⟨hdue, hexited⟩ := dueLeft_of_quiet hquiet hyz
    have hleft : z.2.dueLeft h ≠ 0 := by
      obtain ⟨-, hy⟩ := Machine.monitor_step_eq_some.mp hxy
      rw [hdue, hy]
      simp only [Backlog.update, hx', hrel, if_true]
      intro hzero
      exact howes (hx' ▸ ((htallied hx).1 h).owes_none hzero)
    have hlast := hsent.last hz (hexited (Or.inr (List.mem_cons_of_mem _
      (exit_mem_mainOut (hstage ▸ halive)))))
    exact hleft (((htallied hz).1 h).settled_iff.mp (hlast h))

/-- The startup of a daemon, and a Toggle that logind refuses with a Quit behind it: the main
thread is woken and returns while the Toggle is still announcing. -/
def cutReply : List Daemon.Label :=
  [.startTray true, .serve true, .requestName .primaryOwner, .receive 0 .toggle,
    .receive 1 .quit, .handle 0 ⟨.refused "no", .granted 6, true⟩,
    .handle 1 ⟨.refused "no", .granted 6, true⟩, .notify 1, .wake, .exit]

/-- The refused Toggle is decided before the Quit, and its caller never gets the error. -/
theorem cutReply_unanswered :
    ∃ y, draining.run ({}, {}) cutReply = some y ∧ ¬ RepliesSent y := by
  refine ⟨_, rfl, fun hsent => ?_⟩
  have hprefix := (hsent rfl 0).length_le
  revert hprefix
  decide

/-- As long as no Quit is asked for, the condition asks for nothing. -/
theorem along_quitAtRest {d : Daemon} {run : List Daemon.Label}
    (hd : ∀ h, d.handlers h ≠ .received .quit)
    (hrun : ∀ a ∈ run, (∀ h, a ≠ .receive h .quit) ∧ ∀ ans, a ≠ .quitItem ans) :
    daemon.Along QuitAtRest d run := by
  induction run generalizing d with
  | nil => trivial
  | cons a run ih =>
      obtain ⟨⟨hreceive, hitem⟩, hrun⟩ := List.forall_mem_cons.mp hrun
      refine ⟨fun hrel => ?_, fun e hs => ih (fun h hquit => ?_) hrun⟩
      · cases a <;> simp only [releases, Daemon.callOf, Option.any_none, Bool.false_eq_true] at hrel
        case handle h ans =>
          cases hh : d.handlers h with
          | received request => cases request <;> simp_all [Request.op]
          | _ => simp [hh] at hrel
        case quitItem ans => exact absurd rfl (hitem ans)
        case screenItemSet ans => split at hrel <;> simp at hrel
        case runningItemSet ans => split at hrel <;> simp at hrel
        all_goals simp at hrel
      · rcases Daemon.received_before hs hquit with hbefore | rfl
        · exact hd h hbefore
        · exact hreceive h rfl

/-- Steps that release nothing meet the condition wherever they are taken. -/
theorem along_of_silent {d : Daemon} {run : List Daemon.Label}
    (hrun : ∀ a ∈ run, ∀ e, releases e a = false) : daemon.Along QuitAtRest d run := by
  induction run generalizing d with
  | nil => trivial
  | cons a run ih =>
      obtain ⟨ha, hrun⟩ := List.forall_mem_cons.mp hrun
      exact ⟨fun hrel => absurd ((ha d).symm.trans hrel) Bool.false_ne_true, fun e _ => ih hrun⟩

/-- A handler that takes no step stays as it is. -/
theorem handlers_of_run {d e : Daemon} {run : List Daemon.Label} {h : ℕ}
    (hrun : ∀ a ∈ run, a.handler ≠ some h) (hr : daemon.run d run = some e) :
    e.handlers h = d.handlers h :=
  Machine.rel_of_run (R := fun d e : Daemon => e.handlers h = d.handlers h) (fun _ => rfl)
    (fun _ _ _ h₁ h₂ => h₂.trans h₁) (fun _ _ _ ha hs => (Daemon.frame_of_step hs).1 h ha) hrun hr

/-- The startup, and a Toggle that logind refuses up to its call into `SleepBlock`. -/
def refused : List Daemon.Label :=
  [.startTray true, .serve true, .requestName .primaryOwner, .receive 0 .toggle,
    .handle 0 ⟨.refused "no", .granted 6, true⟩]

/-- What the handler has still to do. -/
def nineSteps : List Daemon.Label :=
  [.readProperty 0, .sendSignal 0, .readProperty 0, .sendSignal 0, .readProperty 0, .sendSignal 0,
    .readProperty 0, .sendSignal 0, .reply 0]

/-- A Quit, and the return of `main`. -/
def quitAfter : List Daemon.Label :=
  [.receive 1 .quit, .handle 1 ⟨.refused "no", .granted 6, true⟩, .notify 1, .wake, .exit]

/-- A Quit that comes after the nine steps of the Toggle cuts nothing; one before them may. -/
theorem shutdown_cuts_no_reply_refused :
    (∃ d, daemon.run {} (refused ++ nineSteps ++ quitAfter) = some d ∧
      d.replies = [(0, .failed "logind refused the inhibitor: no")]) ∧
      draining.Everywhere RepliesSent ({}, {}) (refused ++ nineSteps ++ quitAfter) ∧
      ∃ rest, ¬ draining.Everywhere RepliesSent ({}, {})
        (refused ++ [.receive 1 .quit] ++ .handle 1 ⟨.refused "no", .granted 6, true⟩ :: rest) := by
  refine ⟨⟨_, rfl, rfl⟩, (shutdown_cuts_no_reply rfl).1 ?_, ?_⟩
  · have hbefore : ∃ d, daemon.run {} (refused ++ nineSteps) = some d ∧ d.handlers 0 = .idle :=
      ⟨_, rfl, rfl⟩
    obtain ⟨d, hr, hzero⟩ := hbefore
    have hown : ∀ a ∈ refused ++ nineSteps, a.handler = none ∨ a.handler = some 0 := by
      simp [refused, nineSteps, Daemon.Label.handler]
    have hidle : ∀ h, d.handlers h = .idle := by
      intro h
      by_cases hh : h = 0
      · exact hh ▸ hzero
      · refine handlers_of_run (fun a ha hsome => ?_) hr
        have hcases := hown a ha
        rw [hsome] at hcases
        simp [hh] at hcases
    have hno : ∀ a ∈ refused ++ nineSteps, (∀ h, a ≠ .receive h .quit) ∧
        ∀ ans, a ≠ .quitItem ans := by
      simp [refused, nineSteps]
    refine (Machine.along_append hr).mpr ⟨along_quitAtRest (fun h => by simp) hno, ?_⟩
    -- where the Quit is handled, the other handlers are idle
    refine ⟨fun h => absurd h Bool.false_ne_true, fun e he => ⟨fun _ h => ?_, fun _ _ => ?_⟩⟩
    · simp only [daemon, Daemon.step, Option.ite_none_right_eq_some, Option.some.injEq] at he
      obtain ⟨-, rfl⟩ := he
      by_cases hh : h = 1
      · simp [Daemon.setHandler, hh, owes]
      · simp [Daemon.setHandler, Function.update_of_ne hh, hidle h, owes]
    · exact along_of_silent (by simp [releases, Daemon.callOf])
  · have hbusy : ∃ d e, daemon.run {} (refused ++ [.receive 1 .quit]) = some d ∧
        daemon.step d (.handle 1 ⟨.refused "no", .granted 6, true⟩) = some e ∧
        releases d (.handle 1 ⟨.refused "no", .granted 6, true⟩) = true ∧
        owes (d.handlers 0) ≠ none := ⟨_, _, rfl, rfl, rfl, by decide⟩
    obtain ⟨d, e, hr, hs, hrel, howes⟩ := hbusy
    obtain ⟨rest, -, -, -, hcut⟩ :=
      (shutdown_cuts_no_reply hr).2 _ e hs fun hrest => howes (hrest hrel 0)
    exact ⟨rest, hcut⟩

end SleepBlocker.Analysis
