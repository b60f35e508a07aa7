import OpcSession.Client.Call
import OpcSession.Credentials
import OpcSession.Simulation.Peer
import OpcSession.Subscription.Program

/-!
# Rehearsals of the client

A rehearsal runs a whole client against a peer: the session machine, its
watcher, the reader of the connection, and the callers.  Each of them is a
task.  A task that has something to do is *ready*, and ready tasks run one
after the other in the order in which they became ready, each until it has
to wait for something.  A call starts to run where it is made.

There are two clocks: one for the delays of the machine and the age of the
cache, and one for the timeouts of connecting and of requests.
-/

namespace OpcSession.Simulation

open Session Client

/-- What runs by itself: between two of its waits a task does all that it does
at once. -/
inductive Task
  | machine
  | watcher
  | reader (connection : ConnectionId)
  /-- What makes the call of one caller. -/
  | caller (ticket : Ticket)
deriving DecidableEq, Repr, Inhabited

/-- The task that goes on when something comes of what an owner does. -/
def taskOf : Owner → Task
  | .machine => .machine
  | .caller t => .caller t

/-- What an owner is doing on the channel, from the start of a call to its
outcome. -/
inductive Activity
  /-- It waits for its turn to connect. -/
  | connecting
  /-- It waits for the connection, until a deadline. -/
  | dialing (deadline : Duration)
  /-- It waits for its turn to disconnect. -/
  | disconnecting
  /-- It waits for the connection to be closed. -/
  | closing
  /-- It waits for the response with a handle, until a deadline. -/
  | exchanging (handle : UInt32) (service : String) (deadline : Duration)
deriving DecidableEq, Repr, Inhabited

/-- When an activity times out, if it does at all. -/
def Activity.deadline? : Activity → Option Duration
  | dialing d | exchanging _ _ d => some d
  | _ => none

/-- The gate that an activity waits at, if there is one for it in a
rehearsal. -/
def Activity.gate? : Activity → Option String
  | dialing _ => some "connect"
  | closing => some "close"
  | _ => none

/-- A call that is not over.  A *direct* call is made on the machine or the
channel, not on the client. -/
structure Caller where
  ticket : Ticket
  id : String
  direct : Bool
  goal : Goal
deriving Repr, Inhabited

/-- A call that is over, under the id by which it was started, and its
result. -/
structure Finished where
  id : String
  direct : Bool
  result : Result
deriving Repr, Inhabited

/-- What can be observed from outside, in order: what the transport is asked
for, and what listeners are told. -/
inductive ClientRun.Observation
  | connect
  | opened (c : ConnectionId)
  | sent (e : RequestEnvelope) (c : ConnectionId)
  | close (c : ConnectionId)
  | told (listener : String) (active : Bool) (sessionId : NodeId)
  | transferFailed (f : TransferFailure)
deriving Repr, Inhabited

/-- What is done to the client and its surroundings, by callers, by the
server, or by the passing of time. -/
inductive ClientRun.Action
  | hold (gate : String)
  | release (gate : String)
  | script (name : String) (s : PeerScript)
  | call (id : String) (direct : Bool) (goal : Goal)
  | raise (e : Event)
  | addListener (l : Listener)
  | removeListener (name : String)
  /-- Adds a listener and removes it again, twice, so that the second removal
  finds nothing. -/
  | addListenerBriefly (l : Listener)
  | sign
  | setValue (node : NodeId) (a : AttributeId) (v : DataValue)
  | push (i : Incoming)
  | pushResponse (handle : UInt32) (r : Response)
  | failEncoding (text : String)
  | advance (d : Duration)
  | elapse (d : Duration)
  | lookUp (node : NodeId) (a : AttributeId)
  | invalidate (node : NodeId)
  | describe
  | describeAll
  | inspect
  | registry (s : Registry.Step)
  | batch (actions : List ClientRun.Action)
deriving Inhabited

/-- What the settings of a client have come to, as far as it can be asked
for. -/
structure ClientRun.Facts where
  policy : SecurityPolicy
  endpoint : EndpointDescription
  maxEntries : Nat
  expireAfter : Duration
  requestTimeout : UInt64
deriving Repr, Inhabited

/-- What an action answers at once, before any task has run. -/
inductive ClientRun.Reply
  | nothing
  | accepted
  | fired (count : Nat)
  | removed (was : List (Option Bool))
  | refused (e : SessionError)
  | data (v : Option DataValue)
  | texts (ss : List String)
  | facts (f : ClientRun.Facts)
  | registry (a : Registry.Answer)
  | replies (rs : List ClientRun.Reply)
deriving Inhabited

/-- A client with its surroundings: all its tasks, what each of them is at,
and the peer that it talks to. -/
structure ClientRun where
  url : String
  settings : ClientSettings
  credentials : Credentials := .anonymous
  /-- The channel, which callers and the machine share. -/
  channel : Channel
  cache : DataCache
  registry : Registry := {}
  /-- The machine with its watcher and its timers. -/
  engine : Engine := {}
  peer : Peer := {}
  /-- The time that deadlines are measured by. -/
  elapsed : Duration := .zero
  /-- What owners are at on the channel. -/
  activities : List (Owner × Activity) := []
  /-- What has come of it, for owners who have not seen it yet. -/
  outcomes : List (Owner × Outcome) := []
  /-- What the machine has answered, for callers who have not seen it yet. -/
  answers : List (Ticket × Session.Answer) := []
  callers : List Caller := []
  nextTicket : Ticket := 0
  /-- The tasks that can go on, in the order in which they will. -/
  ready : List Task := []
  log : List ClientRun.Observation := []
  transitions : List Transition := []
  done : List Finished := []

namespace ClientRun

/-- A client that has not done anything, made for an endpoint with settings
and credentials. -/
def start (url : String) (settings : ClientSettings) (endpoint : EndpointDescription)
    (credentials : Credentials) : ClientRun where
  url := url
  settings := settings
  credentials := credentials
  channel := { endpoint := endpoint }
  cache := .ofSettings settings.cache

def now (r : ClientRun) : Duration := r.engine.timers.now

def observe (r : ClientRun) (o : Observation) : ClientRun := { r with log := r.log ++ [o] }

/-- A task becomes ready, unless it is already; it runs behind those that
are. -/
def wake (r : ClientRun) (t : Task) : ClientRun :=
  if r.ready.contains t then r else { r with ready := r.ready ++ [t] }

def notify (r : ClientRun) (n : Notice) : ClientRun :=
  let r := { r with engine := r.engine.notify Channel.mailbox n }
  if r.engine.watcher?.isSome then r.wake .watcher else r

/-! ## Activities on the channel -/

def activity? (r : ClientRun) (o : Owner) : Option Activity :=
  (r.activities.find? (·.1 = o)).map (·.2)

def dropActivity (r : ClientRun) (o : Owner) : ClientRun :=
  { r with activities := r.activities.filter (·.1 ≠ o) }

def setActivity (r : ClientRun) (o : Owner) (a : Activity) : ClientRun :=
  let r := r.dropActivity o
  { r with activities := r.activities ++ [(o, a)] }

/-- Something has come of what an owner did, who is woken to see it. -/
def conclude (r : ClientRun) (o : Owner) (outcome : Outcome) : ClientRun :=
  let r := r.dropActivity o
  { r with outcomes := r.outcomes ++ [(o, outcome)] }

/-- The turn to connect or disconnect goes to the next owner, who is woken to
take it. -/
def passTurn (r : ClientRun) : ClientRun :=
  let r := { r with channel := r.channel.passTurn }
  match r.channel.turns with
  | o :: _ => r.wake (taskOf o)
  | [] => r

/-- Requests are lost with their connection, and those who wait for them are
told so. -/
def abandon (r : ClientRun) (pending : List (UInt32 × Owner)) : ClientRun :=
  pending.foldl (fun r (_, o) =>
    match r.activity? o with
    | some (.exchanging _ service _) =>
      (r.conclude o (.failed (Channel.abandoned service))).wake (taskOf o)
    | _ => r) r

/-- An incoming item for the connection that was opened last, whose reader is
woken. -/
def push (r : ClientRun) (i : Incoming) : ClientRun :=
  { r with peer := r.peer.push i }.wake (.reader r.peer.current)

/-- A request is given a handle under which its owner waits for the response;
what is to be sent is the first part of the answer. -/
def post (r : ClientRun) (o : Owner) (request : Request) : Option RequestEnvelope × ClientRun :=
  match r.channel.current? with
  | none => (none, r.conclude o (.failed Channel.notConnected))
  | some link =>
    let (handle, channel) := r.channel.allocate
    let r := { r with channel := channel }
    match r.peer.encodingFailure? with
    | some text =>
      (none, { r with peer := { r.peer with encodingFailure? := none } }.conclude o
        (.failed (.transport (MessageError.encode text).message)))
    | none =>
      let envelope : RequestEnvelope := { handle := handle, body := request.withHandle handle }
      (some envelope, { r with channel := r.channel.register handle o }.observe
        (.sent envelope link.connection))

/-- The connection has taken what was to be sent, or failed to.  The response
may have come before that, or the request have been lost with the link. -/
def handOver (r : ClientRun) (o : Owner) (envelope : RequestEnvelope) :
    Option TransportError → ClientRun
  | some e =>
    let channel :=
      if r.channel.awaits envelope.handle o then r.channel.withdraw envelope.handle
      else r.channel
    { r with channel := channel, outcomes := r.outcomes.filter (·.1 ≠ o) }.conclude o
      (.failed (.transport e.message))
  | none =>
    if r.channel.awaits envelope.handle o then
      let timeout := r.settings.transport.requestDuration
      if timeout = .zero then
        { r with channel := r.channel.withdraw envelope.handle }.conclude o (.failed .timeout)
      else
        r.setActivity o (.exchanging envelope.handle envelope.body.service (r.elapsed + timeout))
    else if r.outcomes.any (·.1 = o) then r
    else r.conclude o (.failed (Channel.abandoned envelope.body.service))

/-- A request is sent to a peer that takes it at once; its owner waits for the
response.  A connection may also take its time: the request is then posted and
handed over in two steps, between which others go on.  `Traffic` keeps the
steps apart, for peers that are not rehearsed. -/
def send (r : ClientRun) (o : Owner) (request : Request) : ClientRun :=
  match r.post o request with
  | (none, r) => r
  | (some envelope, r) =>
    let (error, peer) := r.peer.send envelope
    ({ r with peer := peer }.wake (.reader peer.current)).handOver o envelope error

/-- An owner starts to use the channel: it queues up for its turn, or sends
its request at once. -/
def use (r : ClientRun) (o : Owner) : Call → ClientRun
  | .connect => { r with channel := r.channel.queueUp o }.setActivity o .connecting
  | .disconnect => { r with channel := r.channel.queueUp o }.setActivity o .disconnecting
  | .send request => r.send o request

/-- A connection that was asked for comes about, fails to, or is waited for
until the deadline. -/
def dial (r : ClientRun) (o : Owner) (deadline : Duration) : ClientRun :=
  if r.peer.isHeld "connect" then
    if deadline ≤ r.elapsed then
      let e := TransportError.timeout r.settings.transport.connectDuration
      (r.conclude o (.failed (.transport e.message))).passTurn
    else r
  else
    match r.peer.accept with
    | (.error e, peer) =>
      ({ r with peer := peer }.conclude o (.failed (.transport e.message))).passTurn
    | (.ok connection, peer) =>
      let r := { r with peer := peer, channel := r.channel.opened connection }
      (((r.observe (.opened connection)).wake (.reader connection)).conclude o .done).passTurn

/-- A connection is closed, unless the gate is held; whether that went well or
not, the turn ends. -/
def hangUp (r : ClientRun) (o : Owner) : ClientRun :=
  if r.peer.isHeld "close" then r
  else
    let (error, peer) := r.peer.close
    let outcome : Outcome := match error with
      | some e => .failed (.transport e.message)
      | none => .done
    ({ r with peer := peer }.conclude o outcome).passTurn

/-- What an owner does on the channel goes on as far as it can. -/
def proceed (r : ClientRun) (o : Owner) : ClientRun :=
  match r.activity? o with
  | none => r
  | some .connecting =>
    if !r.channel.hasTurn o then r
    else if r.channel.isConnected then (r.conclude o .done).passTurn
    else
      let deadline := r.elapsed + r.settings.transport.connectDuration
      ((r.observe .connect).setActivity o (.dialing deadline)).dial o deadline
  | some (.dialing deadline) => r.dial o deadline
  | some .disconnecting =>
    if !r.channel.hasTurn o then r
    else match r.channel.detach with
      | (none, _) => (r.conclude o .done).passTurn
      | (some (connection, pending), channel) =>
        let r := ({ r with channel := channel }.abandon pending).observe (.close connection)
        (r.setActivity o .closing).hangUp o
  | some .closing => r.hangUp o
  | some (.exchanging handle _ deadline) =>
    if deadline ≤ r.elapsed then
      { r with channel := r.channel.withdraw handle }.conclude o (.failed .timeout)
    else r

/-- What has come of what an owner did, if something has; it is seen once. -/
def takeOutcome? (r : ClientRun) (o : Owner) : Option (Outcome × ClientRun) :=
  (r.outcomes.find? (·.1 = o)).map fun (_, outcome) =>
    (outcome, { r with outcomes := r.outcomes.filter (·.1 ≠ o) })

/-! ## The reader -/

/-- The reader takes in a response: a fault is a notice, and whoever waited
for the response goes on. -/
def takeIn (r : ClientRun) (e : ResponseEnvelope) : ClientRun :=
  let (notice, owner, channel) := r.channel.receive e
  let r := { r with channel := channel }
  let r := notice.elim r r.notify
  owner.elim r fun o => (r.conclude o (Channel.outcome e.body)).wake (taskOf o)

/-- The stream of the connection in use has ended: its requests are lost, and
the watcher gets notice. -/
def cut (r : ClientRun) : ClientRun :=
  let (pending, channel) := r.channel.finish
  ({ r with channel := channel }.abandon pending).notify .inactive

/-- The reader takes in what has come on its connection; what is no response
is passed over. -/
def read (r : ClientRun) : List Incoming → ClientRun
  | [] => r
  | .finished :: _ => r.cut
  | .frame text :: rest => ((Wire.decodeResponse? text).elim r r.takeIn).read rest

/-- The reader of a connection runs while the connection is in use, and reads
what has come in on it. -/
def runReader (r : ClientRun) (connection : ConnectionId) : ClientRun :=
  if r.peer.current = connection ∧ r.channel.reads connection then
    { r with peer := { r.peer with incoming := [] } }.read r.peer.incoming
  else r

/-! ## The machine -/

def surroundings (r : ClientRun) : Surroundings where
  settings := r.settings.session
  identify := fun endpoint _ => r.credentials.token endpoint
  endpoint? := some r.channel.endpoint
  policy := r.channel.policy
  sign := Channel.sign
  connected := r.channel.isConnected
  subscriptionIds? := some r.registry.ids
  attended := true
  clientNonce := List.replicate 32 0

/-- What an effect of the machine does to the client around it. -/
def effect (r : ClientRun) : Effect → ClientRun
  | .published t => { r with transitions := r.transitions ++ [t] }
  | .call c => r.use .machine c
  | .answered t a => { r with answers := r.answers ++ [(t, a)] }.wake (.caller t)
  | .told l active session =>
    if l.silent then r else r.observe (.told l.name active session.sessionId)
  | .watched _ => r.wake .watcher
  | .startedPublishing reset => { r with registry := r.registry.startPublishing reset }
  | .transferred results =>
    let (registry, told) := r.registry.transferCompleted results
    { r with registry := registry, log := r.log ++ told.map .transferFailed }
  | _ => r

/-- A step of the machine, with what its effects do to the client, one after
the other. -/
def step (r : ClientRun) (f : Surroundings → Machine → Progress) : ClientRun :=
  let (engine, effects) := r.engine.step (f r.surroundings)
  effects.foldl effect { r with engine := engine }

/-- The machine goes on, for at most `fuel` steps, until it has to wait. -/
def runMachine : (fuel : Nat) → ClientRun → ClientRun
  | 0, r => r
  | fuel + 1, r =>
    let r := r.proceed .machine
    match r.takeOutcome? .machine with
    | some (outcome, r) => runMachine fuel (r.step fun s m => m.resume s outcome)
    | none =>
      if r.engine.machine.isIdle ∧ !r.engine.machine.queue.isEmpty then
        runMachine fuel (r.step fun s m => m.take s)
      else r

def pushCommand (r : ClientRun) (c : Command) : ClientRun :=
  { r with engine := { r.engine with machine := r.engine.machine.push c } }.wake .machine

def runWatcher (r : ClientRun) : ClientRun :=
  let engine := r.engine.watch true
  let raised : Bool := r.engine.machine.queue.length < engine.machine.queue.length
  let r := { r with engine := engine }
  if raised then r.wake .machine else r

/-! ## Callers -/

/-- A call is over, and its caller is gone. -/
def finish (r : ClientRun) (c : Caller) (result : Result) : ClientRun :=
  { r with
    callers := r.callers.filter (·.ticket ≠ c.ticket)
    done := r.done ++ [{ id := c.id, direct := c.direct, result := result }] }

/-- What has come of a call's use of the channel, if something has. -/
def collect (r : ClientRun) (c : Caller) : ClientRun :=
  let r := r.proceed (.caller c.ticket)
  match r.takeOutcome? (.caller c.ticket) with
  | none => r
  | some (outcome, r) =>
    let (result, cache) := c.goal.returned r.now r.cache outcome
    { r with cache := cache }.finish c result

/-- The next step of a call: to ask the machine, to use the channel, or to be
over. -/
def follow (r : ClientRun) (c : Caller) : Next → ClientRun
  | .over result => r.finish c result
  | .ask command => r.pushCommand command
  | .use call => (r.use (.caller c.ticket) call).collect c

/-- A call starts, and gets a ticket of its own. -/
def call (r : ClientRun) (id : String) (direct : Bool) (goal : Goal) : ClientRun :=
  let c : Caller := { ticket := r.nextTicket, id := id, direct := direct, goal := goal }
  let (next, cache) := goal.start c.ticket r.now r.cache
  { r with
    cache := cache
    nextTicket := r.nextTicket + 1
    callers := r.callers ++ [c] }.follow c next

/-- A call goes on with what has been answered, or with what has come of its
use of the channel. -/
def runCaller (r : ClientRun) (t : Ticket) : ClientRun :=
  match r.callers.find? (·.ticket = t) with
  | none => r
  | some c =>
    match r.answers.find? (·.1 = t) with
    | some (_, answer) =>
      { r with answers := r.answers.filter (·.1 ≠ t) }.follow c
        (c.goal.answered r.settings.session.timeoutHint answer)
    | none => r.collect c

/-! ## Running -/

/-- More steps than a rehearsal that comes to an end needs, so that the run of
the machine is a total function. -/
def patience : Nat := 100000

def run (r : ClientRun) : Task → ClientRun
  | .machine => r.runMachine patience
  | .watcher => r.runWatcher
  | .reader connection => r.runReader connection
  | .caller t => r.runCaller t

/-- Ready tasks run, at most `fuel` of them, until none is ready; each goes on
as far as it can. -/
def settle : (fuel : Nat) → ClientRun → ClientRun
  | 0, r => r
  | fuel + 1, r =>
    match r.ready with
    | [] => r
    | t :: rest => settle fuel ({ r with ready := rest }.run t)

/-- The owners at a gate go on when it is opened, in the order in which they
came there. -/
def wakeGate (r : ClientRun) (gate : String) : ClientRun :=
  r.activities.foldl (fun r (o, a) =>
    if a.gate? = some gate then r.wake (taskOf o) else r) r

/-- The owners whose deadlines have come, the earliest first, so that they are
told in this order. -/
def overdue (r : ClientRun) : List Owner :=
  let due := r.activities.filterMap fun (o, a) =>
    (a.deadline?.filter (· ≤ r.elapsed)).map fun d => (d, o)
  (due.mergeSort fun a b => a.1.nanos ≤ b.1.nanos).map (·.2)

def describe (r : ClientRun) : String :=
  "SessionFsm \x7b state: " ++ r.engine.machine.state.kind.name ++ " \x7d"

def describeClient (r : ClientRun) : String :=
  "UaClient \x7b url: " ++ Text.literal r.url ++ ", state: "
    ++ r.engine.machine.state.kind.name ++ ", cached: " ++ toString r.cache.size ++ " \x7d"

def describeChannel (r : ClientRun) : String :=
  "StackClient \x7b url: " ++ Text.literal r.url ++ ", connected: "
    ++ toString r.channel.isConnected ++ ", pending: "
    ++ toString r.channel.pending.length ++ " \x7d"

def facts (r : ClientRun) : Facts where
  policy := r.channel.policy
  endpoint := r.channel.endpoint
  maxEntries := r.cache.store.maxEntries
  expireAfter := r.cache.store.expireAfter
  requestTimeout := r.settings.transport.requestTimeout

def setListeners (r : ClientRun) (ls : Listeners) : ClientRun :=
  { r with engine := { r.engine with machine := { r.engine.machine with listeners := ls } } }

def listeners (r : ClientRun) : Listeners := r.engine.machine.listeners

mutual

/-- Does one thing, without letting the tasks run, and answers what can be
answered at once. -/
def act (r : ClientRun) : Action → Reply × ClientRun
  | .hold gate =>
    (.nothing, { r with peer := { r.peer with held := gate :: r.peer.held.filter (· ≠ gate) } })
  | .release gate =>
    (.nothing, { r with peer := { r.peer with
      held := r.peer.held.filter (· ≠ gate) } }.wakeGate gate)
  | .script name s =>
    (.nothing, { r with peer := { r.peer with scripts := r.peer.scripts ++ [(name, s)] } })
  | .call id direct goal => (.nothing, r.call id direct goal)
  | .raise e => (.accepted, r.pushCommand (.event e none))
  | .addListener l => (.nothing, r.setListeners (r.listeners.add l))
  | .removeListener name =>
    let (was, ls) := r.listeners.remove name
    (.removed [was], r.setListeners ls)
  | .addListenerBriefly l =>
    let (first, ls) := (r.listeners.add l).remove l.name
    let (second, ls) := ls.remove l.name
    (.removed [first, second], r.setListeners ls)
  | .sign => (match Channel.sign [] with
      | .error e => .refused e
      | .ok _ => .nothing, r)
  | .setValue node a v => (.nothing, { r with peer := r.peer.setValue node a v })
  | .push i => (.nothing, r.push i)
  | .pushResponse handle response =>
    (.nothing, { r with peer := r.peer.pushResponse handle response }.wake
      (.reader r.peer.current))
  | .failEncoding text =>
    (.nothing, { r with peer := { r.peer with encodingFailure? := some text } })
  | .advance d =>
    let (count, engine) := r.engine.advance true d
    let r := { r with engine := engine }
    (.fired count, if count = 0 then r else r.wake .machine)
  | .elapse d =>
    let r := { r with elapsed := r.elapsed + d }
    (.nothing, r.overdue.foldl (fun r o => r.wake (taskOf o)) r)
  | .lookUp node a =>
    let (v, cache) := r.cache.get r.now node a
    (.data v, { r with cache := cache })
  | .invalidate node => (.nothing, { r with cache := r.cache.invalidate node })
  | .describe => (.texts [r.describe], r)
  | .describeAll => (.texts [r.describeClient, r.describeChannel], r)
  | .inspect => (.facts r.facts, r)
  | .registry s =>
    let (answer, registry, told) := r.registry.perform s
    (.registry answer,
      { r with registry := registry, log := r.log ++ told.map .transferFailed })
  | .batch actions =>
    let (replies, r) := r.actAll actions
    (.replies replies, r)

/-- Does several things in order, and answers all that they answer. -/
def actAll (r : ClientRun) : List Action → List Reply × ClientRun
  | [] => ([], r)
  | a :: rest =>
    let (reply, r) := r.act a
    let (replies, r) := r.actAll rest
    (reply :: replies, r)

end

/-- Does one thing and lets the tasks run; what was observed before is
forgotten. -/
def perform (r : ClientRun) (a : Action) : Reply × ClientRun :=
  let (reply, r) := { r with log := [], transitions := [], done := [] }.act a
  (reply, r.settle patience)

end ClientRun

end OpcSession.Simulation
