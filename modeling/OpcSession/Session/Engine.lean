import OpcSession.Session.Machine
import OpcSession.Timer.Basic

/-!
# The machine with its watcher and its timer

While a session is in use a watcher reads the notices of the channel and
raises an event when the connection is lost or the server does not know
the session any more; then it has nothing more to do.  Notices wait for
the watcher in a mailbox of limited size, from which the oldest are lost.
The delay before an attempt to reactivate is a timer.
-/

namespace OpcSession.Session

/-- What a channel lets its watchers know, apart from the outcomes of
calls. -/
inductive Notice
  | inactive
  | serviceFault (status : StatusCode)
deriving DecidableEq, Repr, Inhabited

/-- The event that a notice gives rise to.  Of all faults only the one that
says the session id is invalid does. -/
def Notice.event? : Notice → Option Event
  | inactive => some .connectionLost
  | serviceFault status =>
    if status = .badSessionIdInvalid then some .sessionInvalid else none

/-- Watches the channel on behalf of one epoch, from the moment at which a
session is in use. -/
structure Watcher where
  /-- The epoch that its events are stamped with. -/
  epoch : Nat
  /-- The notices that it has not read yet, the oldest first. -/
  unread : List Notice := []
deriving DecidableEq, Repr, Inhabited

/-- The machine with what raises events for it when nobody asks: a watcher of
the channel, and timers. -/
structure Engine where
  machine : Machine := {}
  /-- The watcher of the session in use, if there is one. -/
  watcher? : Option Watcher := none
  /-- The clock, with the timers of waits. -/
  timers : Timers Nat := {}
deriving Repr, Inhabited

namespace Engine

/-- Only the newest `capacity` entries: what does not fit is lost from the
front. -/
def newest {α : Type} (capacity : Nat) (xs : List α) : List α :=
  xs.drop (xs.length - capacity)

/-- A notice reaches the mailbox of the watcher, where it may push out the
oldest; without a watcher nobody sees it. -/
def notify (capacity : Nat) (e : Engine) (n : Notice) : Engine :=
  { e with watcher? := e.watcher?.map fun w =>
      { w with unread := newest capacity (w.unread ++ [n]) } }

/-- An event is raised for an epoch, if anyone is left to see it. -/
def raise (e : Engine) (attended : Bool) (event : Event) (epoch : Nat) : Engine :=
  if attended then { e with machine := e.machine.push (.stamped event epoch) } else e

/-- The watcher reads its mailbox, up to the notice that gives rise to an
event. -/
def watch (e : Engine) (attended : Bool) : Engine :=
  match e.watcher? with
  | none => e
  | some w =>
    match w.unread.findSome? Notice.event? with
    | none => { e with watcher? := some { w with unread := [] } }
    | some event => { e with watcher? := none }.raise attended event w.epoch

/-- The timers of an epoch are cancelled, as a state that waits is left. -/
def unschedule (e : Engine) (epoch : Nat) : Engine :=
  let due := e.timers.waiting.filter (·.task = epoch)
  { e with timers := due.foldl (fun ts t => (ts.cancel t.id).2) e.timers }

/-- What an effect of the machine does to its watcher and its timer. -/
def apply (e : Engine) : Effect → Engine
  | .watched epoch => { e with watcher? := some { epoch := epoch } }
  | .unwatched epoch =>
    { e with watcher? := e.watcher?.filter (·.epoch ≠ epoch) }
  | .scheduled epoch delay => { e with timers := (e.timers.schedule delay epoch).2 }
  | .unscheduled epoch => e.unschedule epoch
  | _ => e

/-- A step of the machine, with what its effects do to the watcher and to the
timers. -/
def step (e : Engine) (f : Machine → Progress) : Engine × List Effect :=
  let p := f e.machine
  (p.effects.foldl apply { e with machine := p.machine }, p.effects)

/-- Runs the timers that are due, at most `fuel` of them, and counts them. -/
def fire (attended : Bool) : (fuel : Nat) → Engine → Nat × Engine
  | 0, e => (0, e)
  | fuel + 1, e =>
    match e.timers.takeDue? with
    | none => (0, e)
    | some (timer, timers) =>
      let (n, e) := fire attended fuel
        ({ e with timers := timers }.raise attended .reactivateRequested timer.task)
      (n + 1, e)

/-- Moves the clock and runs what is due, the earliest first; says how many
timers have fired. -/
def advance (e : Engine) (attended : Bool) (d : Duration) : Nat × Engine :=
  let timers := e.timers.elapse d
  fire attended timers.waiting.length { e with timers := timers }

end Engine

end OpcSession.Session
