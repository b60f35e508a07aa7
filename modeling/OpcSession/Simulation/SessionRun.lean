import OpcSession.Credentials
import OpcSession.Simulation.ScriptedChannel

/-!
# Rehearsals of the session machine

A rehearsal runs the session machine against a scripted channel.  After
each action everything goes on until nothing more can happen: the machine
takes its commands one at a time and each to its end, where a held gate
stops it; a watcher reads its notices when the machine can do nothing.

Callers keep the machine in use until they have read their answers, which
they do when the machine rests.  When nobody is left and nothing is in
its queue, the machine stops.
-/

namespace OpcSession.Simulation

open Session

/-- Who keeps the subscriptions: nobody, someone with ids, or someone who only
starts publishing. -/
inductive Keeper
  | nobody
  | recording (ids : List UInt32)
  | minimal
deriving Repr, Inhabited

/-- The ids a keeper reports, if there is a keeper; one that does the least
reports none. -/
def Keeper.ids? : Keeper → Option (List UInt32)
  | nobody => none
  | recording ids => some ids
  | minimal => some []

/-- What can be observed from outside, in order: calls of the channel, and
what listeners and keepers are told. -/
inductive SessionRun.Observation
  | connect
  | disconnect
  | refused (service : String)
  | request (r : Request)
  | signed (data : List UInt8)
  | told (listener : String) (active : Bool) (sessionId : NodeId)
  | startedPublishing (reset : Bool)
  | transferred (results : List (UInt32 × StatusCode))
deriving Repr, Inhabited

/-- What is done to the machine and its surroundings, by those who hold its
handle and by the channel. -/
inductive SessionRun.Action
  | hold (gate : String)
  | release (gate : String)
  | script (name : String) (s : Script)
  | dropConnection
  | fault (status : StatusCode)
  | advance (d : Duration)
  | setSubscriptions (ids : List UInt32)
  | dropHandle
  | getSession (id : String)
  | disconnect (id : String)
  | handleEvent (id : String) (e : Event)
  | raise (e : Event)
  | addListener (l : Listener)
  | removeListener (name : String)
  | describe
  | batch (actions : List Action)
deriving Inhabited

/-- What an action answers at once, before the machine has run. -/
inductive SessionRun.Reply
  | nothing
  | gone
  | accepted
  | fired (count : Nat)
  | removed (was : Option Bool)
  | text (s : String)
  | replies (rs : List Reply)
deriving Inhabited

/-- A machine on a scripted channel, with the callers who wait for it and all
that can be observed of it. -/
structure SessionRun where
  settings : SessionSettings
  credentials : Credentials := .anonymous
  endpoint? : Option EndpointDescription
  policy : SecurityPolicy := .none
  signature? : Option (List UInt8) := none
  keeper : Keeper := .nobody
  channel : ScriptedChannel := {}
  engine : Engine := {}
  /-- The call of the channel that the machine waits for. -/
  underway? : Option Underway := none
  /-- Whether anybody still holds the handle of the machine. -/
  hasHandle : Bool := true
  callers : List (Ticket × String) := []
  nextTicket : Ticket := 0
  /-- Callers that have an answer they have not read, and who count as present
  until they have. -/
  answered : List Ticket := []
  log : List SessionRun.Observation := []
  transitions : List Transition := []
  delays : List Duration := []
  done : List (String × Session.Answer) := []
deriving Inhabited

namespace SessionRun

/-- The channel's mailbox for notices, which is smaller than that of a real
channel. -/
def mailbox : Nat := 16

def attended (r : SessionRun) : Bool := r.hasHandle || !r.callers.isEmpty

/-- The signature that the channel makes, if it was given one to make. -/
def sign (r : SessionRun) : Except SessionError ByteString :=
  match r.signature? with
  | some bytes => .ok (.of bytes)
  | none => .error (.signature "mock channel cannot sign")

def surroundings (r : SessionRun) : Surroundings where
  settings := r.settings
  identify := fun endpoint _ => r.credentials.token endpoint
  endpoint? := r.endpoint?
  policy := r.policy
  sign := fun _ => r.sign
  connected := r.channel.connected
  subscriptionIds? := r.keeper.ids?
  attended := r.attended
  clientNonce := List.replicate 32 0

def observe (r : SessionRun) (o : Observation) : SessionRun := { r with log := r.log ++ [o] }

/-- A call of the channel begins, and is observed. -/
def call (r : SessionRun) (c : Call) : SessionRun :=
  let r := { r with underway? := some (r.channel.begin c) }
  r.observe (match c with
    | .connect => .connect
    | .disconnect => .disconnect
    | .send request =>
      if r.channel.connected then .request request else .refused request.service)

/-- What an effect of the machine looks like from outside, where it can be
seen there. -/
def display (r : SessionRun) : Effect → SessionRun
  | .published t => { r with transitions := r.transitions ++ [t] }
  | .call c => r.call c
  | .signed data => r.observe (.signed data)
  | .answered t a =>
    let ids := (r.callers.filter (·.1 = t)).map (·.2)
    { r with done := r.done ++ ids.map (·, a), answered := t :: r.answered }
  | .told l active session =>
    if l.silent then r else r.observe (.told l.name active session.sessionId)
  | .scheduled _ delay => { r with delays := r.delays ++ [delay] }
  | .startedPublishing reset => r.observe (.startedPublishing reset)
  | .transferred results => r.observe (.transferred results)
  | _ => r

/-- A step of the machine, with what its effects look like from outside. -/
def step (r : SessionRun) (f : Surroundings → Machine → Progress) : SessionRun :=
  let (engine, effects) := r.engine.step (f r.surroundings)
  effects.foldl display { r with engine := engine }

def notify (r : SessionRun) (n : Notice) : SessionRun :=
  { r with engine := r.engine.notify mailbox n }

/-- The callers that have answers read them and go, after which they may leave
the machine without anybody. -/
def dismiss (r : SessionRun) : SessionRun :=
  { r with
    callers := r.callers.filter fun c => !r.answered.contains c.1
    answered := [] }

/-- Everything goes on, for at most `fuel` steps, until nothing more can
happen. -/
def settle : (fuel : Nat) → SessionRun → SessionRun
  | 0, r => r
  | fuel + 1, r =>
    match r.underway? with
    | some underway =>
      match r.channel.pass? underway with
      | some (outcome, notices, channel) =>
        let r := notices.foldl notify { r with channel := channel, underway? := none }
        settle fuel (r.step fun s m => m.resume s outcome)
      | none =>
        let r := r.dismiss
        { r with engine := r.engine.watch r.attended }
    | none =>
      if r.engine.machine.queue.isEmpty then
        let r := r.dismiss
        let r := { r with engine := r.engine.watch r.attended }
        if !r.engine.machine.queue.isEmpty then settle fuel r
        else if r.attended then r
        else r.step fun _ m => m.stop
      else settle fuel (r.step fun s m => m.take s)

/-- More steps than a rehearsal that comes to an end needs, so that the run of
the machine is a total function. -/
def patience : Nat := 100000

def push (r : SessionRun) (c : Command) : SessionRun :=
  { r with engine := { r.engine with machine := r.engine.machine.push c } }

/-- A caller makes a call under an id, and gets a ticket of its own. -/
def request (r : SessionRun) (id : String) (c : Ticket → Command) : SessionRun :=
  ({ r with
    callers := r.callers ++ [(r.nextTicket, id)]
    nextTicket := r.nextTicket + 1 }).push (c r.nextTicket)

/-- What needs the handle is refused when it is gone, and changes nothing. -/
def withHandle (r : SessionRun) (f : SessionRun → Reply × SessionRun) : Reply × SessionRun :=
  if r.hasHandle then f r else (.gone, r)

def describe (r : SessionRun) : String :=
  "SessionFsm \x7b state: " ++ r.engine.machine.state.kind.name ++ " \x7d"

def setListeners (r : SessionRun) (ls : Listeners) : SessionRun :=
  { r with engine := { r.engine with machine := { r.engine.machine with listeners := ls } } }

mutual

/-- Does one thing, without letting the machine run, and answers what can be
answered at once. -/
def act (r : SessionRun) : Action → Reply × SessionRun
  | .hold gate => (.nothing, { r with channel := r.channel.hold gate })
  | .release gate => (.nothing, { r with channel := r.channel.release gate })
  | .script name s => (.nothing, { r with channel := r.channel.script name s })
  | .dropConnection =>
    (.nothing, { r with channel := { r.channel with connected := false } }.notify .inactive)
  | .fault status => (.nothing, r.notify (.serviceFault status))
  | .advance d =>
    let (count, engine) := r.engine.advance r.attended d
    (.fired count, { r with engine := engine })
  | .setSubscriptions ids =>
    (.nothing, { r with keeper := match r.keeper with
      | .recording _ => .recording ids
      | keeper => keeper })
  | .dropHandle => (.nothing, { r with hasHandle := false })
  | .getSession id => r.withHandle fun r => (.nothing, r.request id .getSession)
  | .disconnect id => r.withHandle fun r => (.nothing, r.request id .disconnect)
  | .handleEvent id e => r.withHandle fun r =>
      (.nothing, r.request id fun t => .event e (some t))
  | .raise e => r.withHandle fun r => (.accepted, r.push (.event e none))
  | .addListener l => r.withHandle fun r =>
      (.nothing, r.setListeners (r.engine.machine.listeners.add l))
  | .removeListener name => r.withHandle fun r =>
      let (was, ls) := r.engine.machine.listeners.remove name
      (.removed was, r.setListeners ls)
  | .describe => r.withHandle fun r => (.text r.describe, r)
  | .batch actions =>
    let (replies, r) := r.actAll actions
    (.replies replies, r)

/-- Does several things in order, and answers all that they answer. -/
def actAll (r : SessionRun) : List Action → List Reply × SessionRun
  | [] => ([], r)
  | a :: rest =>
    let (reply, r) := r.act a
    let (replies, r) := r.actAll rest
    (reply :: replies, r)

end

/-- Does one thing and lets everything go on; what was observed before is
forgotten. -/
def perform (r : SessionRun) (a : Action) : Reply × SessionRun :=
  let (reply, r) := { r with log := [], transitions := [], delays := [], done := [] }.act a
  (reply, r.settle patience)

end SessionRun

end OpcSession.Simulation
