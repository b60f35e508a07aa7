import OpcSession.Timer.Basic

/-!
# Programs on timers

A program schedules named tasks, which are programs themselves, cancels
them and moves the clock.  Moving the clock runs the tasks that are due,
one after the other, also those that become due or are scheduled
meanwhile; a task that moves the clock itself runs due tasks from within.
A name stands for the timer that was last scheduled under it.

Every task runs at most once, so the number of steps in the program and
in the waiting tasks bounds the run; `fuel` is computed from it.
-/

namespace OpcSession.Timer

/-- One step of a program.  Tasks are programs, so steps are nested. -/
inductive Step
  | schedule (name : String) (delay : Duration) (task : List Step)
  | cancel (name : String)
  | status (name : String)
  | advance (by_ : Duration)
  | requested
deriving Inhabited

/-- What a step answers, by what it was. -/
inductive Answer
  | nothing
  | cancelled (won : Bool)
  | status (s : TimerStatus)
  | ran (count : Nat)
  | requested (delays : List Duration)

mutual

/-- How many steps there are in a step, with those of its task. -/
def Step.size : Step → Nat
  | .schedule _ _ task => sizeAll task + 1
  | _ => 1

/-- How many steps there are in a program, with those of its tasks. -/
def sizeAll : List Step → Nat
  | [] => 0
  | s :: rest => s.size + sizeAll rest

end

/-- A run of a program: the timers, what their names stand for, and the names
of the tasks that ran, in order. -/
structure Run where
  timers : Timers (String × List Step) := {}
  handles : List (String × Nat) := []
  fired : List String := []

namespace Run

def handle? (r : Run) (name : String) : Option Nat :=
  (r.handles.find? (·.1 = name)).map (·.2)

/-- Enough for the step and all that waits, since each task runs once at
most. -/
def fuel (r : Run) (s : Step) : Nat :=
  let waiting := r.timers.waiting.foldr (fun t n => sizeAll t.task.2 + 1 + n) 0
  4 * (s.size + waiting) + 4

mutual

/-- Performs one step, with the fuel for all that it sets going. -/
def performWithin : (fuel : Nat) → Step → Run → Answer × Run
  | 0, _, r => (.nothing, r)
  | fuel + 1, step, r =>
    match step with
    | .schedule name delay task =>
      let (id, timers) := r.timers.schedule delay (name, task)
      (.nothing, { r with
        timers := timers
        handles := (name, id) :: r.handles.filter (·.1 ≠ name) })
    | .cancel name =>
      match r.handle? name with
      | none => (.nothing, r)
      | some id =>
        let (won, timers) := r.timers.cancel id
        (.cancelled won, { r with timers := timers })
    | .status name =>
      match r.handle? name with
      | none => (.nothing, r)
      | some id => (.status (r.timers.status id), r)
    | .advance by_ =>
      let (ran, r) := fireWithin fuel 0 { r with timers := r.timers.elapse by_ }
      (.ran ran, r)
    | .requested => (.requested r.timers.requested, r)

/-- Performs all steps of a task, one after the other, with the fuel for all
that they set going. -/
def runWithin : (fuel : Nat) → List Step → Run → Run
  | 0, _, r => r
  | _, [], r => r
  | fuel + 1, step :: rest, r => runWithin fuel rest (performWithin fuel step r).2

/-- Runs the tasks that are due and counts them, until none is due, also of
those that a task has scheduled. -/
def fireWithin : (fuel : Nat) → (count : Nat) → Run → Nat × Run
  | 0, count, r => (count, r)
  | fuel + 1, count, r =>
    match r.timers.takeDue? with
    | none => (count, r)
    | some (timer, timers) =>
      let (name, task) := timer.task
      let r := { r with timers := timers, fired := r.fired ++ [name] }
      fireWithin fuel (count + 1) (runWithin fuel task r)

end

/-- Performs one step, with enough fuel for it to come to its end. -/
def perform (r : Run) (s : Step) : Answer × Run := performWithin (r.fuel s) s r

/-- Runs what is due without moving the clock, as scheduling without a delay
makes something due at once. -/
def settle (r : Run) : Run := (r.perform (.advance .zero)).2

end Run

end OpcSession.Timer
