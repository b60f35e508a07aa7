import OpcSession.Client.Channel
import OpcSession.Simulation.ScriptedChannel

/-!
# A server at the other end of the line

The peer accepts connections, keeps values of attributes, and answers
requests as a well-behaved server or by scripts.  What it sends goes to
the connection that was opened last.
-/

namespace OpcSession.Simulation

open Client

/-- What the peer makes of a request, or of a connection that is opened or
closed. -/
inductive PeerScript
  | sendError (text : String)
  | many (scripts : List PeerScript)
  | raw (text : String)
  | response (r : Response) (handleOffset : UInt32)
  | fault (status : StatusCode)
  | peerClose
  | receiveError (text : String)
  | silent
  | connectFailed (text : String)
  | connectionClosed (text : String)
  | standard
deriving Inhabited

/-- What comes in on a connection: frames of text, or its end. -/
inductive Incoming
  | frame (text : String)
  | finished
deriving Repr, Inhabited

/-- The other end: a server that keeps values, follows scripts where there are
any, and can be held up at gates. -/
structure Peer where
  held : List String := []
  /-- What is to be made of the next requests, by the names of their
  services. -/
  scripts : Queues PeerScript := []
  counters : Counters := {}
  values : List ((NodeId × AttributeId) × DataValue) := []
  /-- How many connections were opened, which is the number of the latest. -/
  connections : Nat := 0
  /-- What has come in on the last connection and was not read yet. -/
  incoming : List Incoming := []
  /-- Why the next frame cannot be written, if it cannot. -/
  encodingFailure? : Option String := none
deriving Inhabited

namespace Peer

def isHeld (p : Peer) (gate : String) : Bool := p.held.contains gate

def takeScript (p : Peer) (name : String) : PeerScript × Peer :=
  match p.scripts.take? name with
  | some (s, rest) => (s, { p with scripts := rest })
  | none => (.standard, p)

/-- The connection that was opened last, whether it is still open or not. -/
def current (p : Peer) : ConnectionId := ⟨UInt64.ofNat p.connections⟩

def push (p : Peer) (i : Incoming) : Peer :=
  if p.connections = 0 then p else { p with incoming := p.incoming ++ [i] }

def pushResponse (p : Peer) (handle : UInt32) (r : Response) : Peer :=
  p.push (.frame (Wire.encodeResponse { handle := handle, body := r }))

/-- A connection is asked for: it is opened with the next number, or fails as
the script says. -/
def accept (p : Peer) : Except TransportError ConnectionId × Peer :=
  let (s, p) := p.takeScript "connect"
  match s with
  | .connectFailed text => (.error (.connectFailed text), p)
  | .connectionClosed text => (.error (.connectionClosed text), p)
  | _ =>
    let p := { p with connections := p.connections + 1, incoming := [] }
    (.ok p.current, p)

/-- A connection is closed from this side, which may fail as the script
says. -/
def close (p : Peer) : Option TransportError × Peer :=
  let (s, p) := p.takeScript "close"
  match s with
  | .sendError text => (some (.sendFailed text), p)
  | _ => (none, p)

def valueAt (p : Peer) (node : NodeId) (a : AttributeId) : DataValue :=
  ((p.values.find? (·.1 = (node, a))).map (·.2)).getD { status := .badNodeIdUnknown }

def setValue (p : Peer) (node : NodeId) (a : AttributeId) (v : DataValue) : Peer :=
  { p with values := ((node, a), v) :: p.values.filter (·.1 ≠ (node, a)) }

/-- The answer of a well-behaved server that keeps values: reads give what was
written last. -/
def answer (p : Peer) (r : Request) : Response × Peer :=
  match r.body with
  | .read _ nodes =>
    ({ header := .good r.header.handle
       body := .read (nodes.map fun n => p.valueAt n.node n.attributeId) }, p)
  | .write nodes =>
    ({ header := .good r.header.handle, body := .write (nodes.map fun _ => .good) },
      nodes.foldl (fun p w => p.setValue w.node w.attributeId w.value) p)
  | _ =>
    let (response, counters) := p.counters.answer r
    (response, { p with counters := counters })

mutual

/-- Follows a script on a request; the answer is an error of sending. -/
def follow (p : Peer) (e : RequestEnvelope) : PeerScript → Option TransportError × Peer
  | .sendError text => (some (.sendFailed text), p)
  | .many scripts => p.followAll e scripts
  | .raw text => (none, p.push (.frame text))
  | .response r offset => (none, p.pushResponse (e.handle + offset) r)
  | .fault status =>
    let header : ResponseHeader := { handle := e.handle, result := status }
    (none, p.pushResponse e.handle { header := header, body := .serviceFault })
  | .peerClose | .receiveError _ => (none, p.push .finished)
  | .silent | .connectFailed _ | .connectionClosed _ => (none, p)
  | .standard =>
    let (response, p) := p.answer e.body
    (none, p.pushResponse e.handle response)

/-- Follows scripts in turn, until sending fails; what was sent before that
stays sent. -/
def followAll (p : Peer) (e : RequestEnvelope) :
    List PeerScript → Option TransportError × Peer
  | [] => (none, p)
  | s :: rest =>
    match p.follow e s with
    | (some error, p) => (some error, p)
    | (none, p) => p.followAll e rest

end

/-- A request is sent, and the script for its service says what comes of
it. -/
def send (p : Peer) (e : RequestEnvelope) : Option TransportError × Peer :=
  let (s, p) := p.takeScript e.body.service
  p.follow e s

end Peer

end OpcSession.Simulation
