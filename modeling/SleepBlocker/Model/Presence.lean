import Mathlib.Logic.Function.Basic
import SleepBlocker.Computation.BusName
import SleepBlocker.Computation.Machine

/-!
# The presence of a window

The model of `spawn.rs`. `GuiPresence` is one flag with two writers: the watch thread,
which seeds it and then applies the ownership changes of the window's bus name one by one,
and `spawn_gui`, which sets it after it has launched a process. `windows` puts both beside
the bus and the window processes. Every call to the bus, every signal and every store to
the flag is a step of its own, and every early return of the watch thread is one too. The
path of the executable, which no step depends on, is left out.
-/

set_option autoImplicit false

namespace SleepBlocker.Model

open SleepBlocker.Computation

/-- The name that a window claims. -/
def guiBusName : String := "net.phantomnet.SleepBlock1.Gui"

/-- A `NameOwnerChanged` signal: one whose arguments do not parse, or a name with its new
owner. -/
inductive Change where
  | malformed
  | ownerChanged (name : String) (newOwner : Option ℕ)
  deriving DecidableEq, Repr

/-- What the seed comes from: no call because the name does not convert, a call that fails,
or the answer of `NameHasOwner`. -/
inductive Seed where
  | invalidName
  | failed
  | hasOwner (owned : Bool)
  deriving DecidableEq, Repr

/-- Where the watch thread is. -/
inductive Watch where
  | starting
  | connected
  | proxied
  /-- The match rule is registered; from here on signals are queued. -/
  | subscribed
  /-- The seed has been asked for and not yet stored. -/
  | seeding (seed : Seed)
  | following
  | stopped
  deriving DecidableEq, Repr

/-- The flag, the watch thread, and the signals queued for it, oldest first. -/
structure Presence where
  running : Bool := false
  watch : Watch := .starting
  queue : List Change := []
  deriving DecidableEq, Repr

namespace Presence

/-- `GuiPresence::is_running`. -/
def isRunning (p : Presence) : Bool := p.running

/-- `GuiPresence::set`. -/
def set (p : Presence) (running : Bool) : Presence := { p with running := running }

/-- Whether the bus queues signals for the watch thread. -/
def listening (p : Presence) : Bool :=
  match p.watch with
  | .subscribed | .seeding _ | .following => true
  | _ => false

/-- The bus sends a signal; without a match rule it is dropped. -/
def send (p : Presence) (c : Change) : Presence :=
  if p.listening then { p with queue := p.queue ++ [c] } else p

/-- The body of the loop over `changes`. -/
def apply (p : Presence) (name : String) : Change → Presence
  | .malformed => p
  | .ownerChanged n newOwner => if n ≠ name then p else p.set newOwner.isSome

/-- A step of the watch thread; `ok` is whether the call it makes succeeds. -/
inductive Label where
  | session (ok : Bool)
  | proxy (ok : Bool)
  | subscribe (ok : Bool)
  /-- The bus answers `NameHasOwner`, unless the name is invalid or the call fails. -/
  | ask (convertible ok : Bool)
  | seed
  | applyNext
  deriving DecidableEq, Repr

/-- `GuiPresence::watch`, step by step; `owned` is whether the name has an owner now. -/
def step (p : Presence) (name : String) (owned : Bool) : Label → Option Presence
  | .session ok =>
    if p.watch = .starting then some { p with watch := if ok then .connected else .stopped }
    else none
  | .proxy ok =>
    if p.watch = .connected then some { p with watch := if ok then .proxied else .stopped }
    else none
  | .subscribe ok =>
    if p.watch = .proxied then some { p with watch := if ok then .subscribed else .stopped }
    else none
  | .ask convertible ok =>
    if p.watch = .subscribed then
      some { p with
        watch := .seeding (if convertible then if ok then .hasOwner owned else .failed
          else .invalidName) }
    else none
  | .seed =>
    match p.watch with
    | .seeding .invalidName => some { p with watch := .following }
    | .seeding .failed => some { p with watch := .following, running := false }
    | .seeding (.hasOwner b) => some { p with watch := .following, running := b }
    | _ => none
  | .applyNext =>
    match p.watch, p.queue with
    | .following, c :: rest => some (({ p with queue := rest } : Presence).apply name c)
    | _, _ => none

end Presence

/-- A window process; `closed` is one whose connection is gone while it still runs. -/
inductive Gui where
  | absent
  | launched
  | owner
  | closed
  | gone
  deriving DecidableEq, Repr

/-- The process is there. -/
def Gui.alive : Gui → Bool
  | .launched | .owner | .closed => true
  | .absent | .gone => false

/-- Where a `spawn_gui` call is: it has found the flag unset, or has launched a process. -/
inductive Spawn where
  | idle
  | checked
  | spawned
  deriving DecidableEq, Repr

/-- The flag of a daemon, the `spawn_gui` calls by number, the bus name of the window, and
the window processes by number. -/
structure Windows where
  presence : Presence := {}
  spawns : ℕ → Spawn := fun _ => .idle
  name : BusName ℕ := {}
  guis : ℕ → Gui := fun _ => .absent

namespace Windows

/-- A step of the watch thread, of a callback or of a window process. -/
inductive Label where
  | watch (l : Presence.Label)
  /-- `spawn_gui` is called and reads the flag. -/
  | enter (k : ℕ)
  /-- Its `Command::spawn` starts a process. -/
  | launch (k g : ℕ)
  | launchFails (k : ℕ)
  /-- Its `presence.set(true)`. -/
  | store (k : ℕ)
  /-- A window launched by the user or by anything but the daemon. -/
  | userLaunch (g : ℕ)
  /-- The process claims the name and gets it. -/
  | claim (g : ℕ)
  /-- Its connection closes, because the claim failed or on its way out. -/
  | disconnect (g : ℕ)
  | exit (g : ℕ)
  | other (c : Change)
  deriving DecidableEq, Repr

/-- The bus announces who owns the window's name now. -/
def announce (w : Windows) (name : String) : Windows :=
  { w with presence := w.presence.send (.ownerChanged name w.name.owner) }

/-- The connection of process `g` closes; the bus announces it if that freed the name. -/
def closeConnection (w : Windows) (name : String) (g : ℕ) : Windows :=
  if w.name.owner = some g then ({ w with name := w.name.close g } : Windows).announce name else w

/-- One step of one party, for a window that uses the bus name `name`. -/
def step (name : String) (w : Windows) : Label → Option Windows
  | .watch l =>
    (w.presence.step name w.name.owner.isSome l).map fun p => { w with presence := p }
  | .enter k =>
    if w.spawns k = .idle then
      if w.presence.isRunning then some w
      else some { w with spawns := Function.update w.spawns k .checked }
    else none
  | .launch k g =>
    if w.spawns k = .checked ∧ w.guis g = .absent then
      some { w with
        spawns := Function.update w.spawns k .spawned
        guis := Function.update w.guis g .launched }
    else none
  | .launchFails k =>
    if w.spawns k = .checked then some { w with spawns := Function.update w.spawns k .idle }
    else none
  | .store k =>
    if w.spawns k = .spawned then
      some { w with
        presence := w.presence.set true
        spawns := Function.update w.spawns k .idle }
    else none
  | .userLaunch g =>
    if w.guis g = .absent then some { w with guis := Function.update w.guis g .launched } else none
  | .claim g =>
    if w.guis g = .launched then
      (w.name.request g).map fun n =>
        ({ w with name := n, guis := Function.update w.guis g .owner } : Windows).announce name
    else none
  | .disconnect g =>
    if w.guis g = .launched ∨ w.guis g = .owner then
      some ({ w with guis := Function.update w.guis g .closed }.closeConnection name g)
    else none
  | .exit g =>
    if (w.guis g).alive then
      some ({ w with guis := Function.update w.guis g .gone }.closeConnection name g)
    else none
  | .other c =>
    match c with
    | .malformed => some { w with presence := w.presence.send .malformed }
    | .ownerChanged n newOwner =>
      if n = name then none
      else some { w with presence := w.presence.send (.ownerChanged n newOwner) }

end Windows

/-- The windows as a machine. -/
def windows (name : String) : Machine Windows Windows.Label where
  step := Windows.step name

/-- The signal is about this name. -/
def Change.isAbout (name : String) : Change → Bool
  | .malformed => false
  | .ownerChanged n _ => n == name

/-- The flag of a daemon that launches no window, beside a bus on which the name's owner
changes in any way. -/
structure Listener where
  presence : Presence := {}
  owner : Option ℕ := none
  deriving DecidableEq, Repr

namespace Listener

/-- A step of the watch thread, or a change of an owner on the bus. -/
inductive Label where
  | watch (l : Presence.Label)
  /-- The name is acquired, handed over or released. -/
  | change (owner : Option ℕ)
  | other (c : Change)
  deriving DecidableEq, Repr

/-- One step; only changes of the owner of the window's name move the owner. -/
def step (name : String) (x : Listener) : Label → Option Listener
  | .watch l => (x.presence.step name x.owner.isSome l).map fun p => { x with presence := p }
  | .change owner =>
    if owner = x.owner then none
    else some ⟨x.presence.send (.ownerChanged name owner), owner⟩
  | .other c =>
    if c.isAbout name then none else some { x with presence := x.presence.send c }

end Listener

/-- The listener as a machine. -/
def listener (name : String) : Machine Listener Listener.Label where
  step := Listener.step name

end SleepBlocker.Model
