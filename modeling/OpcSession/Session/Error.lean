import OpcSession.StatusCode

/-!
# Why a session is not to be had

Every error counts as one status code, which decides whether a session
that cannot be reactivated is created anew.
-/

namespace OpcSession

/-- What callers are told where there is no session, or no answer for one. -/
inductive SessionError
  /-- The session was closed, or the attempt to come by one was given up. -/
  | closed
  /-- The server has answered with a fault. -/
  | serviceFault (status : StatusCode)
  /-- The connection could not be made, or was lost. -/
  | transport (text : String)
  | timeout
  /-- No token could be made for the endpoint. -/
  | identity (text : String)
  | signature (text : String)
  | noEndpoint
  | unexpectedResponse (expected actual : String)
  | shutdown
deriving DecidableEq, Repr, Inhabited

namespace SessionError

/-- The name of the kind of an error, without what else it says. -/
def kind : SessionError → String
  | closed => "SessionClosed"
  | serviceFault _ => "ServiceFault"
  | transport _ => "Transport"
  | timeout => "Timeout"
  | identity _ => "Identity"
  | signature _ => "Signature"
  | noEndpoint => "NoEndpoint"
  | unexpectedResponse _ _ => "UnexpectedResponse"
  | shutdown => "Shutdown"

def message : SessionError → String
  | closed => "session closed"
  | serviceFault status => "service fault: " ++ status.text
  | transport text => "transport error: " ++ text
  | timeout => "request timed out"
  | identity text => "identity token unavailable: " ++ text
  | signature text => "signing failed: " ++ text
  | noEndpoint => "cannot create session with no endpoint configured"
  | unexpectedResponse expected actual =>
    "unexpected response: expected " ++ expected ++ ", got " ++ actual
  | shutdown => "session state machine stopped"

/-- The status an error counts as, by which it is told whether the session is
lost or may be tried again. -/
def status : SessionError → StatusCode
  | closed => .badSessionClosed
  | serviceFault status => status
  | transport _ => .badCommunicationError
  | timeout => .badTimeout
  | identity _ => .badIdentityTokenInvalid
  | signature _ => .badUnexpectedError
  | noEndpoint => .bad
  | unexpectedResponse _ _ => .badUnexpectedError
  | shutdown => .badShutdown

end SessionError

end OpcSession
