import OpcSession.Session.Listener
import OpcSession.Session.Services
import OpcSession.Session.State

/-!
# The session machine

The machine takes commands from a queue, one at a time.  An event moves
it to another state; entering a state may take calls of the channel, and
while the machine waits for one of them it takes no further command.  How
entering a state ended is an event again, which goes to the end of the
queue under the *epoch* of the state.  Every move begins a new epoch, and
an event stamped with an old epoch is dropped when its turn comes.

A step of the machine is a function to the machine after it and the
effects it has on the surroundings, in order.

* `take` takes the next command;
* `resume` goes on when the call that the machine waits for has ended;
* `stop` gives up what the machine holds when nobody is left to use it.
-/

namespace OpcSession.Session

/-- What is asked of the machine, by callers or by what it has set up
itself. -/
inductive Command
  /-- An event; who asked for it is told the state it led to. -/
  | event (e : Event) (ticket : Option Ticket)
  /-- An event that counts only in the epoch in which it was raised. -/
  | stamped (e : Event) (epoch : Nat)
  /-- The session in use, or one that is to be created for it. -/
  | getSession (ticket : Ticket)
  /-- That the session is closed and the channel disconnected. -/
  | disconnect (ticket : Ticket)
deriving DecidableEq, Repr, Inhabited

/-- What a caller is answered, by what it asked for. -/
inductive Answer
  /-- The session, or why there is none. -/
  | session (r : Except SessionError Session)
  /-- The kind of the state after an event. -/
  | state (k : Kind)
  /-- That the disconnection is over, whatever came of it. -/
  | disconnected
deriving Repr, Inhabited

/-- What is asked of the channel, one call at a time. -/
inductive Call
  | connect
  | disconnect
  /-- To send a request and to wait for the response. -/
  | send (r : Request)
deriving DecidableEq, Repr, Inhabited

/-- How a call of the channel ended.  Each call ends in one of these, or
never. -/
inductive Outcome
  | done
  /-- There is a response, which is no fault. -/
  | response (r : Response)
  /-- It has failed, or the response is a fault. -/
  | failed (e : SessionError)
deriving DecidableEq, Repr, Inhabited

/-- What a step does to the surroundings, in the order in which it does it. -/
inductive Effect
  | published (t : Transition)
  /-- The channel is called; nothing comes after that. -/
  | call (c : Call)
  /-- The credentials were asked for a token against a nonce, which may have
  failed. -/
  | identified (nonce : ByteString)
  /-- Data were given to be signed, which may have failed. -/
  | signed (data : List UInt8)
  | answered (ticket : Ticket) (a : Answer)
  /-- A listener is told that a session is in use, or that it is not any
  more. -/
  | told (listener : Listener) (active : Bool) (session : Session)
  /-- The watcher of an epoch is set up. -/
  | watched (epoch : Nat)
  /-- The watcher of an epoch is given up. -/
  | unwatched (epoch : Nat)
  /-- The timer of an epoch is started. -/
  | scheduled (epoch : Nat) (delay : Duration)
  /-- The timers of an epoch are cancelled. -/
  | unscheduled (epoch : Nat)
  /-- Publishing is started, afresh or as it was. -/
  | startedPublishing (reset : Bool)
  /-- The results of a transfer are told to those who keep the
  subscriptions. -/
  | transferred (results : List (UInt32 × StatusCode))
deriving Repr, Inhabited

/-- The call that a machine waits for while it enters a state, and where it
goes on from there. -/
inductive Awaiting
  /-- The session of an attempt that was given up is closed. -/
  | closeAbandoned
  /-- The connection of such an attempt is closed. -/
  | dropConnection
  /-- The channel is connected for a new session. -/
  | connectToCreate
  | createSession
  | activateSession
  /-- The subscriptions with these ids are transferred to it. -/
  | transfer (ids : List UInt32)
  | closeSession
  | closeConnection
  /-- The channel is connected again for the old session. -/
  | connectToReactivate
  | reactivateSession
deriving DecidableEq, Repr, Inhabited

/-- Whom the machine answers when it has entered a state, besides those who
wait in the state itself. -/
inductive Owed
  | nobody
  | state (ticket : Ticket)
  | disconnect (ticket : Ticket)
deriving DecidableEq, Repr, Inhabited

/-- A state that is being entered. -/
structure Entry where
  awaiting : Awaiting
  owed : Owed
deriving DecidableEq, Repr, Inhabited

structure Machine where
  state : State := .inactive none
  epoch : Nat := 0
  queue : List Command := []
  listeners : Listeners := {}
  entry? : Option Entry := none
deriving DecidableEq, Repr, Inhabited

/-- A machine after a step, and the effects of the step. -/
structure Progress where
  machine : Machine
  effects : List Effect := []
deriving Repr, Inhabited

/-- One step after another. -/
def Progress.andThen (p : Progress) (f : Machine → Progress) : Progress :=
  let q := f p.machine
  { machine := q.machine, effects := p.effects ++ q.effects }

namespace Machine

/-- A command goes to the end of the queue. -/
def push (m : Machine) (c : Command) : Machine := { m with queue := m.queue ++ [c] }

/-- Raises an event in the epoch of the state, if anyone is left to see it. -/
def raise (s : Surroundings) (m : Machine) (e : Event) : Machine :=
  if s.attended then m.push (.stamped e m.epoch) else m

/-- Answers every one of the callers. -/
def answers (tickets : List Ticket) (a : Answer) : List Effect :=
  tickets.map fun t => .answered t a

/-! ## Listeners -/

def react (s : Surroundings) (m : Machine) : Reaction → Machine
  | .add name => { m with listeners := m.listeners.add { name := name } }
  | .remove name => { m with listeners := (m.listeners.remove name).2 }
  | .raise e => if s.attended then m.push (.event e none) else m

/-- Tells all listeners of an edge; each reacts before the next is told. -/
def tell (s : Surroundings) (m : Machine) (active : Bool) (session : Session) : Progress where
  machine := m.listeners.snapshot.foldl
    (fun m l => (l.reactions active).foldl (react s) m) m
  effects := m.listeners.snapshot.map fun l => .told l active session

/-! ## Leaving and entering states -/

/-- What is given up when a state is left. -/
def leave (state : State) (epoch : Nat) : List Effect :=
  match state with
  | .active _ _ => [.unwatched epoch]
  | .closing _ completions => answers completions .disconnected
  | .reactivateDelay _ _ _ => [.unscheduled epoch]
  | _ => []

/-- Answers the one who asked for the step that is over. -/
def pay (m : Machine) : Owed → Progress
  | .nobody => { machine := m }
  | .state t => { machine := m, effects := [.answered t (.state m.state.kind)] }
  | .disconnect t =>
    match m.state with
    | .closing session cs => { machine := { m with state := .closing session (cs ++ [t]) } }
    | _ => { machine := m, effects := [.answered t .disconnected] }

/-- Where a session is in use the listeners are told of it, and then the
callers get it. -/
def announce (s : Surroundings) (m : Machine) : Progress :=
  match m.state with
  | .active ws session =>
    (m.tell s true session).andThen fun m =>
      { machine := { m with state := m.state.withWaiters [] }
        effects := answers ws (.session (.ok session)) }
  | _ => { machine := m }

/-- A state has been entered, which is announced before the outcome is
raised. -/
def conclude (s : Surroundings) (owed : Owed) (followUp : Option Event) (m : Machine) :
    Progress :=
  ((announce s { m with entry? := none }).andThen fun m =>
    { machine := followUp.elim m (m.raise s) }).andThen (pay · owed)

/-- The machine makes a call and waits for it, and takes no command until it
has ended. -/
def waitFor (m : Machine) (owed : Owed) (awaiting : Awaiting) (c : Call) : Progress where
  machine := { m with entry? := some { awaiting := awaiting, owed := owed } }
  effects := [.call c]

/-- The callers that wait for a session learn why there is none, and the
failure is raised. -/
def fail (s : Surroundings) (owed : Owed) (e : SessionError) (followUp : Event)
    (m : Machine) : Progress :=
  { machine := { m with state := m.state.withWaiters [] }
    effects := answers m.state.waiters (.session (.error e)) : Progress }.andThen
    (conclude s owed (some followUp))

/-- A failed reactivation: the session is given up where the server does not
know it any more. -/
def failReactivation (s : Surroundings) (owed : Owed) (e : SessionError) (m : Machine) :
    Progress :=
  m.fail s owed e (if e.status.isSessionInvalid then .reactivateInvalid else .reactivateFailed)

/-- Asks for a session to be activated, with an identity and a signature over
the latest nonce of the server. -/
def activate (s : Surroundings) (owed : Owed) (awaiting : Awaiting) (session : Session)
    (failed : SessionError → Machine → Progress) (m : Machine) : Progress :=
  match s.endpoint? with
  | none => failed .noEndpoint m
  | some endpoint =>
    let identified : Progress :=
      { machine := m, effects := [.identified session.serverNonce] }
    match s.identify endpoint session.serverNonce with
    | .error e => identified.andThen (failed e)
    | .ok (identity, tokenSignature) =>
      let (data, signature) := s.clientSignature session
      let signed := identified.andThen fun m =>
        { machine := m, effects := data.toList.map .signed }
      match signature with
      | .error e => signed.andThen (failed e)
      | .ok signature => signed.andThen fun m =>
          m.waitFor owed awaiting
            (.send (s.activateRequest session identity tokenSignature signature))

/-- Enters the state that the machine is in, to which `event` has led. -/
def enter (s : Surroundings) (event : Event) (owed : Owed) (m : Machine) : Progress :=
  match m.state with
  | .inactive abandoned =>
    if event = .disconnectSucceeded then m.conclude s owed none
    else
      let m := { m with state := .inactive none }
      match abandoned with
      | some session => m.waitFor owed .closeAbandoned (.send (s.closeRequest session))
      | none => m.waitFor owed .dropConnection .disconnect
  | .creating _ _ => m.waitFor owed .connectToCreate .connect
  | .activating _ session =>
    m.activate s owed .activateSession session (fail s owed · .activateFailed)
  | .active _ session =>
    let watched : Progress := { machine := m, effects := [.watched m.epoch] }
    if !s.connected then watched.andThen (conclude s owed (some .connectionLost))
    else
      let fresh : Bool := event = .activateSucceeded
      match s.subscriptionIds? with
      | none => watched.andThen (conclude s owed none)
      | some ids =>
        if fresh && !ids.isEmpty then
          watched.andThen fun m =>
            m.waitFor owed (.transfer ids) (.send (s.transferRequest session ids))
        else
          (watched.andThen fun m => { machine := m, effects := [.startedPublishing fresh] }).andThen
            (conclude s owed none)
  | .closing session _ => m.waitFor owed .closeSession (.send (s.closeRequest session))
  | .reactivateDelay _ delay _ =>
    { machine := m, effects := [.scheduled m.epoch (.ofSecs delay)] : Progress }.andThen
      (conclude s owed none)
  | .reactivateExecute _ _ _ _ => m.waitFor owed .connectToReactivate .connect

/-! ## Taking commands -/

/-- A caller joins those that wait for a session, or is answered at once where
the state has a session or will have none. -/
def attach (m : Machine) (ticket : Ticket) : Progress :=
  match m.state with
  | .active _ session =>
    { machine := m, effects := [.answered ticket (.session (.ok session))] }
  | .inactive _ | .closing _ _ =>
    { machine := m, effects := [.answered ticket (.session (.error .closed))] }
  | state => { machine := { m with state := state.withWaiters (state.waiters ++ [ticket]) } }

/-- The machine moves to another state: the move is published, the old state
is given up and with it the callers left behind, and the listeners learn of
the loss of a session that was in use. -/
def move (s : Surroundings) (m : Machine) (event : Event) (move : State.Move) : Progress :=
  let published : Effect := .published ⟨m.state.kind, event, move.next.kind⟩
  let p : Progress := {
    machine := { m with state := move.next, epoch := m.epoch + 1 }
    effects := published :: leave m.state m.epoch
      ++ answers move.left (.session (.error .closed)) }
  match m.state.activeSession? with
  | some session => p.andThen (tell s · false session)
  | none => p

/-- Handles an event, on behalf of a caller that wants a session or is owed an
answer.  Without a move the machine stays in its state, and the caller joins
it there. -/
def handle (s : Surroundings) (m : Machine) (event : Event) (waiter : Option Ticket)
    (owed : Owed) : Progress :=
  let join (m : Machine) : Progress := waiter.elim { machine := m } m.attach
  match m.state.transition? event with
  | none => (join m).andThen (pay · owed)
  | some next => ((m.move s event next).andThen join).andThen (enter s event owed)

/-- Carries out a command.  A stamped event counts only in its own epoch, and
a session in use is given at once. -/
def obey (s : Surroundings) (m : Machine) : Command → Progress
  | .stamped e epoch =>
    if epoch = m.epoch then m.handle s e none .nobody else { machine := m }
  | .event e none => m.handle s e none .nobody
  | .event e (some t) => m.handle s e none (.state t)
  | .getSession t =>
    match m.state.activeSession? with
    | some session => { machine := m, effects := [.answered t (.session (.ok session))] }
    | none => m.handle s .sessionRequested (some t) .nobody
  | .disconnect t => m.handle s .disconnectRequested none (.disconnect t)

/-- Whether the machine could take a command, which it cannot while it waits
for a call. -/
def isIdle (m : Machine) : Bool := m.entry?.isNone

/-- Takes the next command, if the machine waits for no call and there is
one. -/
def take (s : Surroundings) (m : Machine) : Progress :=
  match m.entry?, m.queue with
  | none, c :: rest => ({ m with queue := rest } : Machine).obey s c
  | _, _ => { machine := m }

/-! ## Going on after a call -/

/-- A session was created: the state comes by it, and its entry is over. -/
def created (s : Surroundings) (owed : Owed) (session : Session) (m : Machine) : Progress :=
  match m.state with
  | .creating ws _ =>
    ({ m with state := .creating ws (some session) } : Machine).conclude s owed
      (some .createSucceeded)
  | _ => m.conclude s owed none

/-- A session was activated: it has another nonce, and its entry is over. -/
def activated (s : Surroundings) (owed : Owed) (nonce : ByteString) (m : Machine) : Progress :=
  match m.state with
  | .activating ws session =>
    ({ m with state := .activating ws (session.withNonce nonce) } : Machine).conclude s owed
      (some .activateSucceeded)
  | _ => m.conclude s owed none

/-- A session was reactivated: the state comes by it with its new nonce, and
its entry is over. -/
def reactivated (s : Surroundings) (owed : Owed) (nonce : ByteString) (m : Machine) :
    Progress :=
  match m.state with
  | .reactivateExecute previous delay ws _ =>
    let session := previous.reactivated s.settings.sessionName nonce
    ({ m with state := .reactivateExecute previous delay ws (some session) } : Machine).conclude
      s owed (some .reactivateSucceeded)
  | _ => m.conclude s owed none

/-- The response, or why there is none; a call that was no request has
none. -/
def outcomeResponse : Outcome → Except SessionError Response
  | .response r => .ok r
  | .failed e => .error e
  | .done => .error .closed

/-- Goes on when the call that the machine waits for has ended, from where it
was left and for whom. -/
def resume (s : Surroundings) (m : Machine) (o : Outcome) : Progress :=
  match m.entry? with
  | none => { machine := m }
  | some { awaiting, owed } =>
    match awaiting with
    | .closeAbandoned => m.waitFor owed .dropConnection .disconnect
    | .dropConnection => m.conclude s owed none
    | .connectToCreate =>
      match o with
      | .failed e => m.fail s owed e .createFailed
      | _ => match s.endpoint? with
        | none => m.fail s owed .noEndpoint .createFailed
        | some endpoint => m.waitFor owed .createSession (.send (s.createRequest endpoint))
    | .createSession =>
      match (outcomeResponse o).bind (createdSession s.settings.sessionName) with
      | .error e => m.fail s owed e .createFailed
      | .ok session => m.created s owed session
    | .activateSession =>
      match (outcomeResponse o).bind activationNonce with
      | .error e => m.fail s owed e .activateFailed
      | .ok nonce => m.activated s owed nonce
    | .transfer ids =>
      { machine := m
        effects := [.transferred (transferResults ids (outcomeResponse o)),
          .startedPublishing true] : Progress }.andThen (conclude s owed none)
    | .closeSession => m.waitFor owed .closeConnection .disconnect
    | .closeConnection => m.conclude s owed (some .disconnectSucceeded)
    | .connectToReactivate =>
      match o, m.state with
      | .failed e, _ => m.failReactivation s owed e
      | _, .reactivateExecute previous _ _ _ =>
        m.activate s owed .reactivateSession previous (failReactivation s owed)
      | _, _ => m.conclude s owed none
    | .reactivateSession =>
      match (outcomeResponse o).bind activationNonce with
      | .error e => m.failReactivation s owed e
      | .ok nonce => m.reactivated s owed nonce

/-- Gives up what the machine holds, as a state that is left is given up;
nothing is entered after it. -/
def stop (m : Machine) : Progress where
  machine := { m with state := match m.state with
    | .closing session _ => .closing session []
    | state => state }
  effects := leave m.state m.epoch

end Machine

end OpcSession.Session
