import OpcSession.Message.Envelope
import OpcSession.Session.Engine
import OpcSession.Settings
import OpcSession.Transport

/-!
# The channel: requests and responses over one connection

The channel pairs each response with the request it answers by a handle
that no other request outstanding has.  Its *link* is the connection in
use, with the owners that wait for a response on it.  A link ends by
itself when its stream does, and on purpose when the channel disconnects;
either way everybody who waited on it is told at once.

Connecting and disconnecting take turns: one owner at a time, in the order
in which they came.
-/

namespace OpcSession.Client

open Session

/-- Who uses the channel: the session machine, or a caller with a ticket. -/
inductive Owner
  /-- The session machine, which uses it for one call at a time. -/
  | machine
  /-- A caller, who uses it for one call. -/
  | caller (ticket : Ticket)
deriving DecidableEq, Repr, Inhabited

/-- A connection, and who waits for a response on it.  It may be dead and
still there, until it is given up. -/
structure Link where
  connection : ConnectionId
  /-- Whether its stream has not ended yet. -/
  alive : Bool := true
  /-- Who waits for the response with which handle. -/
  pending : List (UInt32 × Owner) := []
deriving DecidableEq, Repr, Inhabited

/-- The channel: the endpoint that it leads to, the link if there is one, and
the order in which owners may change that. -/
structure Channel where
  endpoint : EndpointDescription
  /-- The handle of the next request, counted from one on. -/
  nextHandle : UInt32 := 1
  /-- The link, if there is a connection or has been one. -/
  link? : Option Link := none
  /-- The owner whose turn it is, and those that wait for theirs.  To connect
  and to disconnect takes a turn, so no two owners do so at once. -/
  turns : List Owner := []
deriving DecidableEq, Repr, Inhabited

namespace Channel

/-- How many notices wait for a watcher before the oldest are lost; a watcher
that is slow may miss some. -/
def mailbox : Nat := 32

/-- The link, while it is alive; a dead one is as good as none. -/
def current? (c : Channel) : Option Link := c.link?.filter (·.alive)

def isConnected (c : Channel) : Bool := c.current?.isSome

/-- The requests that wait for a response, on a link that is alive. -/
def pending (c : Channel) : List (UInt32 × Owner) :=
  (c.current?.map (·.pending)).getD []

/-- The policy of the endpoint; an unknown one counts as none, so that nothing
is signed. -/
def policy (c : Channel) : SecurityPolicy := c.endpoint.securityPolicy?.getD .none

/-! ## Turns -/

def queueUp (c : Channel) (o : Owner) : Channel := { c with turns := c.turns ++ [o] }

def hasTurn (c : Channel) (o : Owner) : Bool := c.turns.head? = some o

/-- The turn ends and goes to the next owner, in the order in which they
came. -/
def passTurn (c : Channel) : Channel := { c with turns := c.turns.tail }

/-! ## Links -/

/-- A connection is opened, with nobody waiting for anything on it, and takes
the place of the link. -/
def opened (c : Channel) (connection : ConnectionId) : Channel :=
  { c with link? := some { connection := connection } }

/-- The link is given up; it had these owners waiting, who have to be told. -/
def detach (c : Channel) : Option (ConnectionId × List (UInt32 × Owner)) × Channel :=
  (c.link?.map fun l => (l.connection, l.pending), { c with link? := none })

/-- Whether a connection is the one in use, so that what comes in on it
counts. -/
def reads (c : Channel) (connection : ConnectionId) : Bool :=
  c.current?.any (·.connection = connection)

/-- The stream of the connection in use has ended; these owners waited, and
the link stays there dead. -/
def finish (c : Channel) : List (UInt32 × Owner) × Channel :=
  (c.pending, { c with link? := c.link?.map fun l => { l with alive := false, pending := [] } })

/-! ## Requests and responses -/

/-- The next handle; zero is never one, since it stands for a request that has
none. -/
def allocate (c : Channel) : UInt32 × Channel :=
  if c.nextHandle = 0 then (1, { c with nextHandle := 2 })
  else (c.nextHandle, { c with nextHandle := c.nextHandle + 1 })

/-- An owner waits for the response with a handle, beside whoever waits
already.  A table that is kept by handles would put the owner in the place of
one that waits under the same handle.  The two differ only where a handle is
given out again while the request that had it last is outstanding;
`ClientRun.displace` takes the last owner away where that matters, and the
laws of `Cabling` hold with it. -/
def register (c : Channel) (handle : UInt32) (o : Owner) : Channel :=
  { c with link? := c.link?.map fun l => { l with pending := l.pending ++ [(handle, o)] } }

/-- Whether an owner waits for the response with a handle, on the link in
use. -/
def awaits (c : Channel) (handle : UInt32) (o : Owner) : Bool :=
  c.pending.contains (handle, o)

/-- Nobody waits for the response with a handle any more, be it that it came
or that it took too long. -/
def withdraw (c : Channel) (handle : UInt32) : Channel :=
  { c with link? := c.link?.map fun l =>
      { l with pending := l.pending.filter (·.1 ≠ handle) } }

/-- A response comes in: a fault is a notice, and whoever waits for the handle
gets the response. -/
def receive (c : Channel) (e : ResponseEnvelope) : Option Notice × Option Owner × Channel :=
  let owner := (c.pending.find? (·.1 = e.handle)).map (·.2)
  (e.body.fault?.map .serviceFault, owner, c.withdraw e.handle)

/-- What a response comes to for the one who waited for it: a fault is a
failure of the call, whatever else was asked. -/
def outcome (r : Response) : Outcome :=
  match r.fault? with
  | some status => .failed (.serviceFault status)
  | none => .response r

/-- The request is lost with its connection, which is all that its owner is
told. -/
def abandoned (service : String) : SessionError :=
  .transport (TransportError.connectionClosed (service ++ " request abandoned")).message

def notConnected : SessionError := .transport "not connected"

/-- The channel has no key to sign with, so every signature that is asked for
fails. -/
def sign (_ : List UInt8) : Except SessionError ByteString :=
  .error (.signature "no client private key configured")

end Channel

end OpcSession.Client
