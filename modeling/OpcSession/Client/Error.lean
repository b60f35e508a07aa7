import OpcSession.Session.Error
import OpcSession.Subscription.Basic
import OpcSession.Transport

/-!
# Why a call of the client fails

An error of a lower layer keeps its own message; only errors of the
session and of a single operation come with a status code.
-/

namespace OpcSession

/-- A message that cannot be read or written, with what the reader or the
writer says. -/
inductive MessageError
  | encode (text : String)
  | invalid (text : String)
deriving DecidableEq, Repr, Inhabited

def MessageError.message : MessageError → String
  | encode text => "encode failed: " ++ text
  | invalid text => "invalid message: " ++ text

/-- What a call of the client can fail with, by the part of the client that it
comes from. -/
inductive ClientError
  | transport (e : TransportError)
  | message (e : MessageError)
  /-- From the session machine or the channel. -/
  | session (e : SessionError)
  | subscription (e : SubscriptionError)
  | unexpectedResponse (expected actual : String)
  /-- The server has answered without a value. -/
  | emptyResult (service : String)
  /-- The server has answered with a bad status. -/
  | status (s : StatusCode)
deriving DecidableEq, Repr, Inhabited

namespace ClientError

def text : ClientError → String
  | transport e => e.message
  | message e => e.message
  | session e => e.message
  | subscription e => e.message
  | unexpectedResponse expected actual =>
    "unexpected response: expected " ++ expected ++ ", got " ++ actual
  | emptyResult service => service ++ " returned no results"
  | status s => "operation failed: " ++ s.text

/-- The name of the kind of an error, with the kind of the error below it. -/
def kind : ClientError → String
  | transport _ => "Transport"
  | message _ => "Protocol"
  | session e => "Session." ++ e.kind
  | subscription _ => "Subscription"
  | unexpectedResponse _ _ => "UnexpectedResponse"
  | emptyResult _ => "EmptyResult"
  | status _ => "Status"

/-- The status that comes with an error, where it stands for one. -/
def status? : ClientError → Option StatusCode
  | session e => some e.status
  | status s => some s
  | _ => none

end ClientError

end OpcSession
