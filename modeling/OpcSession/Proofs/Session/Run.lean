import OpcSession.Session.Engine

/-!
# Runs of the session machine

A *run* is everything that can happen to a machine with its watcher and its
timer.  What happens next is up to the surroundings: somebody asks
something, the machine takes its next command, the call it waits for ends
in whatever way, the channel gives notice, the watcher reads its mailbox, a
timer fires, the clock moves, listeners come and go.  A run is any sequence
of such *occurrences*, in any order; one for which the moment has not come
changes nothing.

The *history* of a run records the commands that were taken, how the calls
of the channel ended, and what the machine did.

* `Run.proceed_andThen` — a step made of two steps is one after the other;
* `Reachable.invariant` — what every occurrence keeps holds all along a run.
-/

namespace OpcSession.Session

/-- One entry in the history of a run: something that came to the machine, or
something that it did. -/
inductive Happening
  /-- The machine has taken a command. -/
  | taken (c : Command)
  /-- A call that it made has ended. -/
  | returned (o : Outcome)
  | did (f : Effect)

/-- Whether an entry of a history is a move of the machine, which it makes
known as its first effect. -/
def Happening.isMove : Happening → Bool
  | did (.published _) => true
  | _ => false

/-- Whether a command is an event stamped with an epoch.  Nobody outside the
engine can ask for one. -/
def Command.isStamped : Command → Bool
  | .stamped _ _ => true
  | _ => false

/-- What can happen to an engine.  Each says what the machine finds in its
surroundings at that moment. -/
inductive Occurrence
  | asked (c : Command)
  /-- The machine gets a turn, and takes the first command if it waits for no
  call. -/
  | taking (s : Surroundings)
  /-- The call that the machine waits for ends. -/
  | ended (s : Surroundings) (o : Outcome)
  /-- A notice reaches a watcher whose mailbox holds `capacity` of them; those
  that do not fit are lost. -/
  | noticed (capacity : Nat) (n : Notice)
  /-- The watcher gets a turn, and reads what it has. -/
  | watching (attended : Bool)
  /-- The timer with a number fires, whenever the scheduler sees fit. -/
  | fired (attended : Bool) (id : Nat)
  | elapsed (d : Duration)
  /-- The listeners are others from now on. -/
  | listening (ls : Listeners)

/-- A notice gives rise to nothing but the events that leave a session in
use. -/
theorem Notice.lost_or_invalid {n : Notice} {e : Event} (h : n.event? = some e) :
    e = .connectionLost ∨ e = .sessionInvalid := by
  cases n with
  | inactive => exact .inl (Option.some.inj h).symm
  | serviceFault status =>
      simp only [event?, Option.ite_none_right_eq_some] at h
      exact .inr (Option.some.inj h.2).symm

/-- What the watcher sees first it raises, and what comes after it is not
looked at. -/
theorem Engine.machine_watch {e : Engine} {w : Watcher} {event : Event}
    (hwatcher : e.watcher? = some w) (hseen : w.unread.findSome? Notice.event? = some event) :
    (e.watch true).machine = e.machine.push (.stamped event w.epoch) := by
  simp only [watch, hwatcher, hseen]
  rfl

/-- An engine, and what has happened to it.  The engine is all that the
program knows; the history is there to state laws about it. -/
structure Run where
  /-- The machine with its timer and its watcher. -/
  engine : Engine := {}
  /-- All that has happened, in order. -/
  history : List Happening := []

namespace Run

abbrev machine (r : Run) : Machine := r.engine.machine

/-- The same run with another machine, for what happens outside of a step. -/
def withMachine (r : Run) (m : Machine) : Run :=
  { r with engine := { r.engine with machine := m } }

/-- How often the machine has moved so far, by its history. -/
def moves (r : Run) : Nat := r.history.countP (·.isMove)

def record (r : Run) (x : Happening) : Run := { r with history := r.history ++ [x] }

/-- A step of the machine, with the record of what it does: the effects are
carried out by the engine, and noted in the history. -/
def proceed (r : Run) (p : Progress) : Run where
  engine := (r.engine.step fun _ => p).1
  history := r.history ++ p.effects.map .did

/-- The timer with a number fires, if it waits; a number that no timer has
does nothing. -/
def fire (r : Run) (attended : Bool) (id : Nat) : Run :=
  match r.engine.timers.waiting.find? (·.id = id) with
  | none => r
  | some timer =>
    let left := r.engine.timers.waiting.filter (·.id ≠ timer.id)
    let e : Engine := { r.engine with timers := { r.engine.timers with waiting := left } }
    { r with engine := e.raise attended .reactivateRequested timer.task }

/-- What an occurrence makes of a run.  Occurrences that cannot come about at
this point, such as the end of a call that was not made, leave it as it is. -/
def happen (r : Run) : Occurrence → Run
  | .asked c => if c.isStamped then r else r.withMachine (r.machine.push c)
  | .taking s =>
    match r.machine.entry?, r.machine.queue with
    | none, c :: _ => (r.record (.taken c)).proceed (r.machine.take s)
    | _, _ => r
  | .ended s o =>
    match r.machine.entry? with
    | some _ => (r.record (.returned o)).proceed (r.machine.resume s o)
    | none => r
  | .noticed capacity n => { r with engine := r.engine.notify capacity n }
  | .watching attended => { r with engine := r.engine.watch attended }
  | .fired attended id => r.fire attended id
  | .elapsed d => { r with engine := { r.engine with timers := r.engine.timers.elapse d } }
  | .listening ls => r.withMachine { r.machine with listeners := ls }

end Run

/-- A later point of a run in which only such things happen as `P` allows. -/
inductive Reaches (P : Occurrence → Prop) (r : Run) : Run → Prop
  | refl : Reaches P r r
  /-- What is reached goes on by what is allowed. -/
  | step {r' : Run} (o : Occurrence) (hbefore : Reaches P r r') (hallowed : P o) :
      Reaches P r (r'.happen o)

/-- The points of the runs that start with nothing, by occurrences that are
allowed. -/
abbrev Reachable (P : Occurrence → Prop) : Run → Prop := Reaches P {}

section Reaching

variable {P : Occurrence → Prop} {r r' r'' : Run}

/-- **Run lemma.**  What holds at a point of a run and is kept by every
occurrence holds from then on. -/
theorem Reaches.invariant {I : Run → Prop} (hstart : I r)
    (hkept : ∀ r o, P o → I r → I (r.happen o)) (h : Reaches P r r') : I r' := by
  induction h with
  | refl => exact hstart
  | step o _ hallowed ih => exact hkept _ o hallowed ih

theorem Reaches.trans (h : Reaches P r r') (h' : Reaches P r' r'') : Reaches P r r'' := by
  induction h' with
  | refl => exact h
  | step o _ hallowed ih => exact .step o ih hallowed

theorem Reaches.mono {P' : Occurrence → Prop} (hallowed : ∀ o, P o → P' o) (h : Reaches P r r') :
    Reaches P' r r' := by
  induction h with
  | refl => exact .refl
  | step o _ h ih => exact .step o ih (hallowed o h)

/-- A run may be given by the list of what happens in it. -/
theorem Reaches.ofList (os : List Occurrence) (hallowed : ∀ o ∈ os, P o) :
    Reaches P r (os.foldl Run.happen r) := by
  induction os generalizing r with
  | nil => exact .refl
  | cons o os ih =>
      have hfirst : Reaches P r (r.happen o) := .step o .refl (hallowed o List.mem_cons_self)
      exact hfirst.trans (ih fun o ho => hallowed o (List.mem_cons_of_mem _ ho))

end Reaching

/-! ## What a step does to the engine -/

namespace Engine

/-- What an effect does to the watcher: it is set up, or given up if it is
that of the epoch. -/
def watcherAfter (w : Option Watcher) : Effect → Option Watcher
  | .watched epoch => some { epoch := epoch }
  | .unwatched epoch => w.filter (·.epoch ≠ epoch)
  | _ => w

/-- What an effect does to the timers: one is started, or those of an epoch
are cancelled. -/
def timersAfter (ts : Timers Nat) : Effect → Timers Nat
  | .scheduled epoch delay => (ts.schedule delay epoch).2
  | .unscheduled epoch =>
    (ts.waiting.filter (·.task = epoch)).foldl (fun ts t => (ts.cancel t.id).2) ts
  | _ => ts

theorem apply_eq (e : Engine) (f : Effect) :
    e.apply f =
      { machine := e.machine
        watcher? := watcherAfter e.watcher? f
        timers := timersAfter e.timers f } := by
  cases f <;> rfl

/-- Effects act on the watcher and on the timers, each by itself, and on
nothing else of the engine. -/
theorem foldl_apply (e : Engine) (fs : List Effect) :
    fs.foldl apply e =
      { machine := e.machine
        watcher? := fs.foldl watcherAfter e.watcher?
        timers := fs.foldl timersAfter e.timers } := by
  induction fs generalizing e with
  | nil => rfl
  | cons f fs ih =>
      rw [List.foldl_cons, ih, apply_eq]
      rfl

end Engine

namespace Run

variable (r : Run)

@[simp] theorem machine_withMachine (m : Machine) : (r.withMachine m).machine = m := rfl

@[simp] theorem history_withMachine (m : Machine) :
    (r.withMachine m).history = r.history := rfl

@[simp] theorem watcher_withMachine (m : Machine) :
    (r.withMachine m).engine.watcher? = r.engine.watcher? := rfl

@[simp] theorem timers_withMachine (m : Machine) :
    (r.withMachine m).engine.timers = r.engine.timers := rfl

@[simp] theorem engine_record (x : Happening) : (r.record x).engine = r.engine := rfl

@[simp] theorem history_record (x : Happening) :
    (r.record x).history = r.history ++ [x] := rfl

theorem proceed_engine (p : Progress) :
    (r.proceed p).engine =
      { machine := p.machine
        watcher? := p.effects.foldl Engine.watcherAfter r.engine.watcher?
        timers := p.effects.foldl Engine.timersAfter r.engine.timers } :=
  Engine.foldl_apply _ _

@[simp] theorem machine_proceed (p : Progress) : (r.proceed p).machine = p.machine := by
  rw [machine, proceed_engine]

@[simp] theorem watcher_proceed (p : Progress) :
    (r.proceed p).engine.watcher? =
      p.effects.foldl Engine.watcherAfter r.engine.watcher? := by
  rw [proceed_engine]

@[simp] theorem timers_proceed (p : Progress) :
    (r.proceed p).engine.timers =
      p.effects.foldl Engine.timersAfter r.engine.timers := by
  rw [proceed_engine]

@[simp] theorem history_proceed (p : Progress) :
    (r.proceed p).history = r.history ++ p.effects.map .did := rfl

@[simp] theorem moves_withMachine (m : Machine) : (r.withMachine m).moves = r.moves := rfl

theorem moves_record {x : Happening} (hstill : ¬ x.isMove) : (r.record x).moves = r.moves := by
  rw [moves, history_record, List.countP_append, List.countP_cons_of_neg hstill]
  rfl

@[simp] theorem moves_proceed (p : Progress) :
    (r.proceed p).moves = r.moves + (p.effects.map Happening.did).countP Happening.isMove :=
  List.countP_append

/-- The machine has taken the first command of its queue, and has still to
obey it. -/
def dequeue (c : Command) (rest : List Command) : Run :=
  (r.record (.taken c)).withMachine { r.machine with queue := rest }

@[simp] theorem machine_dequeue (c : Command) (rest : List Command) :
    (r.dequeue c rest).machine = { r.machine with queue := rest } := rfl

@[simp] theorem watcher_dequeue (c : Command) (rest : List Command) :
    (r.dequeue c rest).engine.watcher? = r.engine.watcher? := rfl

@[simp] theorem timers_dequeue (c : Command) (rest : List Command) :
    (r.dequeue c rest).engine.timers = r.engine.timers := rfl

@[simp] theorem history_dequeue (c : Command) (rest : List Command) :
    (r.dequeue c rest).history = r.history ++ [.taken c] := rfl

@[simp] theorem moves_dequeue (c : Command) (rest : List Command) :
    (r.dequeue c rest).moves = r.moves := r.moves_record (by simp [Happening.isMove])

theorem ext_engine {r r' : Run} (hmachine : r.machine = r'.machine)
    (hwatcher : r.engine.watcher? = r'.engine.watcher?)
    (htimers : r.engine.timers = r'.engine.timers) (hhistory : r.history = r'.history) :
    r = r' := by
  obtain ⟨⟨m, w, t⟩, h⟩ := r
  obtain ⟨⟨m', w', t'⟩, h'⟩ := r'
  cases hmachine
  cases hwatcher
  cases htimers
  cases hhistory
  rfl

/-- A step that is one step after another is recorded as the one and then the
other. -/
theorem proceed_andThen (p : Progress) (f : Machine → Progress) :
    r.proceed (p.andThen f) = (r.proceed p).proceed (f (r.proceed p).machine) := by
  apply ext_engine <;> simp [Progress.andThen]

/-- A step starts from the machine it is a step of, whatever machine the run
had before. -/
@[simp] theorem withMachine_proceed (m : Machine) (p : Progress) :
    (r.withMachine m).proceed p = r.proceed p := by
  apply ext_engine <;> simp

/-- A step without effects only exchanges the machine, and leaves the history
as it is. -/
@[simp] theorem proceed_silent (m : Machine) :
    r.proceed { machine := m } = r.withMachine m := by
  apply ext_engine <;> simp

/-- To take a command is to carry it out once it has left the queue. -/
theorem happen_taking {c : Command} {rest : List Command} (s : Surroundings)
    (hidle : r.machine.entry? = none) (hqueue : r.machine.queue = c :: rest) :
    r.happen (.taking s) =
      (r.dequeue c rest).proceed ((r.dequeue c rest).machine.obey s c) := by
  simp only [happen, hidle, hqueue, Machine.take, dequeue, withMachine_proceed,
    machine_withMachine]

/-- What somebody asks for goes to the end of the queue, unless it is a
stamped event, which nobody can ask for. -/
theorem asked_cases {motive : Run → Prop} {c : Command} (hnothing : motive r)
    (hqueued : ¬ c.isStamped → motive (r.withMachine (r.machine.push c))) :
    motive (r.happen (.asked c)) := by
  simp only [happen]
  split
  · exact hnothing
  · rename_i hunstamped
    exact hqueued hunstamped

/-- The machine takes nothing while it waits for a call or has nothing to
take. -/
theorem taking_cases {motive : Run → Prop} {s : Surroundings} (hnothing : motive r)
    (htaken : ∀ c rest, r.machine.entry? = none → r.machine.queue = c :: rest →
      motive ((r.dequeue c rest).proceed ((r.dequeue c rest).machine.obey s c))) :
    motive (r.happen (.taking s)) := by
  cases hidle : r.machine.entry? with
  | some entry =>
      simp only [happen, hidle]
      exact hnothing
  | none =>
      cases hqueue : r.machine.queue with
      | nil =>
          simp only [happen, hidle, hqueue]
          exact hnothing
      | cons c rest =>
          rw [happen_taking r s hidle hqueue]
          exact htaken c rest hidle hqueue

/-- When the call that the machine waits for has ended it goes on; no call
ends that it does not wait for. -/
theorem ended_cases {motive : Run → Prop} {s : Surroundings} {o : Outcome} (hnothing : motive r)
    (hresumed : ∀ entry, r.machine.entry? = some entry →
      motive ((r.record (.returned o)).proceed (r.machine.resume s o))) :
    motive (r.happen (.ended s o)) := by
  simp only [happen]
  split
  · rename_i entry hwaiting
    exact hresumed entry hwaiting
  · exact hnothing

/-- All that a watcher does to the machine is to raise what it has seen. -/
theorem machine_watching (attended : Bool) :
    (r.happen (.watching attended)).machine = r.machine ∨
      ∃ e k, (e = .connectionLost ∨ e = .sessionInvalid) ∧
        (r.happen (.watching attended)).machine = r.machine.push (.stamped e k) := by
  simp only [happen, Engine.watch]
  split
  · exact .inl rfl
  · rename_i w _
    split
    · exact .inl rfl
    · rename_i event hseen
      obtain ⟨n, -, hn⟩ := List.exists_of_findSome?_eq_some hseen
      cases attended with
      | false => exact .inl rfl
      | true => exact .inr ⟨event, w.epoch, Notice.lost_or_invalid hn, rfl⟩

/-- All that a timer does to the machine is to ask for the next attempt. -/
theorem machine_fired (attended : Bool) (id : Nat) :
    (r.happen (.fired attended id)).machine = r.machine ∨
      ∃ k, (r.happen (.fired attended id)).machine =
        r.machine.push (.stamped .reactivateRequested k) := by
  simp only [happen, fire]
  split
  · exact .inl rfl
  · rename_i timer _
    cases attended with
    | false => exact .inl rfl
    | true => exact .inr ⟨timer.task, rfl⟩

theorem history_fired (attended : Bool) (id : Nat) :
    (r.happen (.fired attended id)).history = r.history := by
  simp only [happen, fire]
  split <;> rfl

end Run

/-! ## Runs in which a session comes into use -/

/-- Surroundings that stand in nobody's way: there is an endpoint and a token
for it, and the connection holds. -/
def Surroundings.placid : Surroundings where
  settings := { sessionName := "plant" }
  identify _ _ := .ok (.anonymous "anonymous", {})
  endpoint? := some (.unsecured "opc.tcp://plant:4840")
  sign _ := .ok .null
  connected := true
  subscriptionIds? := none
  attended := true
  clientNonce := []

/-- The answer of a server that creates a session under a token, with nothing
else in particular. -/
def creation (token : NodeId) : Outcome :=
  .response { header := .good 1, body := .createSession { (default : SessionCreated) with
    token := token } }

/-- The answer of a server that activates a session, with the nonce for the
next time. -/
def activation (nonce : ByteString) : Outcome :=
  .response { header := .good 2, body := .activateSession nonce [] }

/-- A caller asks for a session and gets one: the client connects, and the
server creates and activates it. -/
def opening (ticket : Ticket) (token : NodeId) (nonce : ByteString) : List Occurrence :=
  let s : Surroundings := .placid
  [.asked (.getSession ticket), .taking s, .ended s .done, .ended s (creation token),
    .taking s, .ended s (activation nonce), .taking s]

/-- The connection is lost, and the session is reactivated over another one
after a wait of no time. -/
def reopening (nonce : ByteString) : List Occurrence :=
  let s : Surroundings := .placid
  [.noticed 8 .inactive, .watching true, .taking s, .fired true 0, .taking s, .ended s .done,
    .ended s (activation nonce), .taking s]

end OpcSession.Session
