import OpcSession.Duration
import OpcSession.Message.Response

/-!
# Sessions

A session as the client holds it: what the server said when it created
the session, the name it was asked for under, and the latest nonce of the
server, which the next activation has to sign.
-/

namespace OpcSession

/-- A session as the client holds it: what its requests need, and what the
next activation of it has to sign. -/
structure Session where
  token : NodeId
  /-- The name of the session on the server. -/
  sessionId : NodeId
  /-- Its name for a reader, by the settings. -/
  name : String
  /-- How long the server keeps it when it is idle. -/
  timeout : Duration
  /-- The longest request that the server accepts. -/
  maxRequestSize : UInt32
  /-- The certificate that is signed with the nonce. -/
  serverCertificate : ByteString
  /-- The certificates of the software of the server. -/
  softwareCertificates : List SoftwareCertificate
  /-- The nonce of the latest activation, or of the creation. -/
  serverNonce : ByteString
deriving DecidableEq, Repr, Inhabited

namespace Session

/-- The session that a server created.  Its timeout is the whole number of
milliseconds, as far as 64 bits hold it; less than none counts as none. -/
def created (name : String) (r : SessionCreated) : Session where
  token := r.token
  sessionId := r.sessionId
  name := name
  timeout := .ofMillis (r.revisedTimeout.truncated (Nat.pow 2 64 - 1))
  maxRequestSize := r.maxRequestSize
  serverCertificate := r.serverCertificate
  softwareCertificates := r.softwareCertificates
  serverNonce := r.serverNonce

/-- The session after an activation, which answers with another nonce and
changes nothing else. -/
def withNonce (s : Session) (nonce : ByteString) : Session :=
  { s with serverNonce := nonce }

/-- The session after a reactivation: the nonce is another, and the name is
that of the settings. -/
def reactivated (s : Session) (name : String) (nonce : ByteString) : Session :=
  { s with name := name, serverNonce := nonce }

end Session

end OpcSession
