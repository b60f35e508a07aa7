import OpcSession.Cache.Basic
import OpcSession.Client.Error
import OpcSession.Session.Machine

/-!
# Calls of the client

A call of the client asks the session machine, uses the channel, or does
first one and then the other.  Reading an attribute looks into the cache
first, and a good value that was read is kept there; writing one makes
the cache forget it.
-/

namespace OpcSession.Client

open Session

/-- What a caller wants of the client, or of the channel below it. -/
inductive Goal
  | session
  /-- That the session and the channel are closed. -/
  | close
  /-- That an event is handled, and to know the state afterwards. -/
  | handle (e : Event)
  | read (node : NodeId) (a : AttributeId)
  /-- To set one attribute of a node. -/
  | write (node : NodeId) (a : AttributeId) (value : DataValue)
  /-- A request of its own sent, and the response. -/
  | exchange (r : Request)
  /-- The channel connected, whatever becomes of sessions. -/
  | connect
  /-- The channel disconnected, whatever becomes of sessions. -/
  | disconnect
deriving DecidableEq, Repr, Inhabited

/-- What a caller gets when its call has gone well, by what it wanted. -/
inductive Value
  | nothing
  | session (s : Session)
  /-- The state that the event led to. -/
  | state (k : Kind)
  | data (v : DataValue)
  | response (r : Response)
deriving DecidableEq, Repr, Inhabited

abbrev Result := Except ClientError Value

/-- The next step of a call, which is over after two at most. -/
inductive Next
  /-- The machine is asked, and will answer. -/
  | ask (c : Command)
  /-- The channel is used, and will come to an outcome. -/
  | use (c : Call)
  | over (r : Result)
deriving Repr, Inhabited

abbrev DataCache := AttributeCache DataValue

/-- The request to read one attribute, without leave to answer with an old
value. -/
def readRequest (header : RequestHeader) (node : NodeId) (a : AttributeId) : Request where
  header := header
  body := .read (.ofNat 0) [{ node := node, attributeId := a }]

def writeRequest (header : RequestHeader) (node : NodeId) (a : AttributeId)
    (value : DataValue) : Request where
  header := header
  body := .write [{ node := node, attributeId := a, value := value }]

/-- The value in the answer to a request to read one; an answer of another
service, or without any value, is an error. -/
def readValue (r : Response) : Except ClientError DataValue :=
  match r.body with
  | .read (value :: _) => .ok value
  | .read [] => .error (.emptyResult "Read")
  | _ => .error (.unexpectedResponse "Read" r.service)

/-- The status in the answer to a request to write one value, which may be bad
without the call being an error. -/
def writeStatus (r : Response) : Except ClientError StatusCode :=
  match r.body with
  | .write (status :: _) => .ok status
  | .write [] => .error (.emptyResult "Write")
  | _ => .error (.unexpectedResponse "Write" r.service)

namespace Goal

/-- The first step of a call, which for reading is a look into the cache. -/
def start (g : Goal) (ticket : Ticket) (now : Duration) (cache : DataCache) :
    Next × DataCache :=
  match g with
  | session => (.ask (.getSession ticket), cache)
  | close => (.ask (.disconnect ticket), cache)
  | handle e => (.ask (.event e (some ticket)), cache)
  | read node a => match cache.get now node a with
    | (some value, cache) => (.over (.ok (.data value)), cache)
    | (none, cache) => (.ask (.getSession ticket), cache)
  | write _ _ _ => (.ask (.getSession ticket), cache)
  | exchange r => (.use (.send r), cache)
  | connect => (.use .connect, cache)
  | disconnect => (.use .disconnect, cache)

/-- The step that follows the answer of the machine: with a session the
channel can be used, and without one the call is over. -/
def answered (g : Goal) (hint : UInt32) : Answer → Next
  | .session (.error e) => .over (.error (.session e))
  | .session (.ok s) =>
    let header : RequestHeader := { token := s.token, timeoutHint := hint }
    match g with
    | read node a => .use (.send (readRequest header node a))
    | write node a value => .use (.send (writeRequest header node a value))
    | _ => .over (.ok (.session s))
  | .state k => .over (.ok (.state k))
  | .disconnected => .over (.ok .nothing)

/-- What a call of the channel comes to, and to the cache.  A value that was
read is kept, and one that was written makes the client forget what it
kept. -/
def returned (g : Goal) (now : Duration) (cache : DataCache) : Outcome → Result × DataCache
  | .failed e => (.error (.session e), cache)
  | .done => (.ok .nothing, cache)
  | .response r =>
    match g with
    | read node a => match readValue r with
      | .error e => (.error e, cache)
      | .ok value =>
        (.ok (.data value), if value.status.isGood then cache.put now node a value else cache)
    | write node a _ => match writeStatus r with
      | .error e => (.error e, cache)
      | .ok status =>
        if status.isGood then (.ok .nothing, cache.invalidateAttribute node a)
        else (.error (.status status), cache)
    | _ => (.ok (.response r), cache)

end Goal

end OpcSession.Client
