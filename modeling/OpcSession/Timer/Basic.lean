import OpcSession.Duration

/-!
# Timers on a clock moved by hand

A timer is scheduled with a delay and a task, and waits until the clock
is moved to its deadline.  Timers are numbered in the order in which they
are scheduled.  Of the timers that are due the one with the earliest
deadline is taken first, and of those with one deadline the one that was
scheduled first.  A timer leaves the waiting ones once: it is taken, and
then has fired, or it is cancelled.
-/

namespace OpcSession

/-- A timer that waits, with what is to be done when it fires. -/
structure Timer (α : Type) where
  /-- The number that tells it from all others. -/
  id : Nat
  deadline : Duration
  task : α
deriving Repr

/-- What has become of a timer: it waits, or has fired, or was cancelled
before it could. -/
inductive TimerStatus
  | pending | fired | cancelled
deriving DecidableEq, Repr

def TimerStatus.name : TimerStatus → String
  | pending => "pending"
  | fired => "fired"
  | cancelled => "cancelled"

/-- The clock and the timers on it, with a record of what was asked of
them. -/
structure Timers (α : Type) where
  now : Duration := .zero
  nextId : Nat := 0
  waiting : List (Timer α) := []
  /-- The numbers of those that were cancelled in time. -/
  cancelled : List Nat := []
  /-- The delays of all that were scheduled, in order. -/
  requested : List Duration := []
deriving Repr

namespace Timer

variable {α : Type}

/-- Whether a timer is to be taken before another one: it is due earlier, or
at the same time and was scheduled before. -/
def before (a b : Timer α) : Bool :=
  a.deadline.nanos < b.deadline.nanos ∨ (a.deadline = b.deadline ∧ a.id < b.id)

/-- The timer to be taken first, if there is any. -/
def first? : List (Timer α) → Option (Timer α)
  | [] => none
  | t :: ts => match first? ts with
    | none => some t
    | some u => some (if u.before t then u else t)

end Timer

namespace Timers

variable {α : Type}

/-- Schedules a task; the answer is the number of its timer, which no other
timer gets. -/
def schedule (t : Timers α) (delay : Duration) (task : α) : Nat × Timers α :=
  (t.nextId,
    { t with
      nextId := t.nextId + 1
      waiting := t.waiting ++ [⟨t.nextId, t.now + delay, task⟩]
      requested := t.requested ++ [delay] })

def isWaiting (t : Timers α) (id : Nat) : Bool := t.waiting.any (·.id = id)

/-- Cancels a timer; says whether it was still waiting, since one that has
fired cannot be cancelled. -/
def cancel (t : Timers α) (id : Nat) : Bool × Timers α :=
  if t.isWaiting id then
    (true, { t with
      waiting := t.waiting.filter (·.id ≠ id)
      cancelled := id :: t.cancelled })
  else (false, t)

def status (t : Timers α) (id : Nat) : TimerStatus :=
  if t.isWaiting id then .pending
  else if t.cancelled.contains id then .cancelled
  else .fired

/-- Moves the clock, and runs nothing yet. -/
def elapse (t : Timers α) (by_ : Duration) : Timers α := { t with now := t.now + by_ }

/-- Takes the first timer that is due, if there is one, before its task is
run. -/
def takeDue? (t : Timers α) : Option (Timer α × Timers α) :=
  (Timer.first? (t.waiting.filter (·.deadline ≤ t.now))).map fun timer =>
    (timer, { t with waiting := t.waiting.filter (·.id ≠ timer.id) })

end Timers

end OpcSession
