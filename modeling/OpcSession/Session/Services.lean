import OpcSession.Message.Request
import OpcSession.Message.Response
import OpcSession.Session.Basic
import OpcSession.Session.Error
import OpcSession.Settings

/-!
# The requests of the session machine

What the machine needs to know of its surroundings, and the requests that
it makes of them: to create a session, to activate one, to close one, and
to transfer subscriptions to one.
-/

namespace OpcSession.Session

/-- The surroundings of the machine while it takes one step.  They may be
others at the next step, and the machine keeps nothing of them. -/
structure Surroundings where
  settings : SessionSettings
  /-- A token of identity for an endpoint against a nonce, and its signature,
  or why there is none. -/
  identify : EndpointDescription → ByteString →
    Except SessionError (UserToken × SignatureData)
  /-- The endpoint the channel leads to, if one is configured; without one no
  session can be created. -/
  endpoint? : Option EndpointDescription
  /-- The policy by which the channel signs. -/
  policy : SecurityPolicy := .none
  /-- Signs data with the key of the client, if it has one. -/
  sign : List UInt8 → Except SessionError ByteString
  connected : Bool
  /-- The ids of the subscriptions, if anyone keeps them; there may be
  none. -/
  subscriptionIds? : Option (List UInt32)
  /-- Whether anyone is left who could raise an event, without whom the
  machine raises none itself. -/
  attended : Bool
  /-- The bytes that were drawn for the server to sign. -/
  clientNonce : List UInt8
  timestamp : UInt64 := 0

/-- The hint to the server how long closing a session may take, in
milliseconds; the settings have no part in it. -/
def closeTimeoutHint : UInt32 := 5000

namespace Surroundings

variable (s : Surroundings)

def header (token : NodeId) (hint : UInt32) : RequestHeader where
  token := token
  timestamp := s.timestamp
  timeoutHint := hint

/-- The server behind a gateway is named by its own URI; no other is named at
all. -/
def serverUri? (e : EndpointDescription) : Option String :=
  match e.server.gatewayServerUri with
  | some uri => if uri.isEmpty then none else some e.server.applicationUri
  | none => none

def createRequest (e : EndpointDescription) : Request where
  header := s.header .null s.settings.timeoutHint
  body := .createSession {
    clientDescription := s.settings.application
    serverUri := serverUri? e
    endpointUrl := e.endpointUrl
    sessionName := s.settings.sessionName
    clientNonce := .of s.clientNonce
    clientCertificate := s.settings.clientCertificate
    requestedTimeout := .ofNat s.settings.sessionTimeout.toNat
    maxResponseSize := s.settings.maxResponseSize }

def closeRequest (session : Session) : Request where
  header := s.header session.token closeTimeoutHint
  body := .closeSession true

def transferRequest (session : Session) (ids : List UInt32) : Request where
  header := s.header session.token s.settings.timeoutHint
  body := .transferSubscriptions ids true

/-- What has to be signed to activate a session: the certificate of the server
and its latest nonce, one after the other. -/
def signedData (session : Session) : List UInt8 :=
  session.serverCertificate.bytes ++ session.serverNonce.bytes

/-- The data that is signed, if the policy asks for signatures, and the
signature. -/
def clientSignature (session : Session) :
    Option (List UInt8) × Except SessionError SignatureData :=
  match s.policy.signatureUri with
  | none => (none, .ok {})
  | some algorithm =>
    let data := signedData session
    (some data, (s.sign data).map fun signature =>
      { algorithm := some algorithm, signature := signature })

def activateRequest (session : Session) (identity : UserToken)
    (tokenSignature clientSignature : SignatureData) : Request where
  header := s.header session.token s.settings.timeoutHint
  body := .activateSession {
    clientSignature := clientSignature
    softwareCertificates := []
    localeIds := []
    identity := identity
    tokenSignature := tokenSignature }

end Surroundings

/-- The answer of another service than the one asked, which is an error of the
server. -/
def unexpected (expected : String) (r : Response) : SessionError :=
  .unexpectedResponse expected r.service

/-- The session in the answer to a request to create one, under the name of
the settings. -/
def createdSession (name : String) (r : Response) : Except SessionError Session :=
  match r.body with
  | .createSession created => .ok (.created name created)
  | _ => .error (unexpected "CreateSession" r)

/-- The nonce in the answer to a request to activate a session, which the next
request has to sign. -/
def activationNonce (r : Response) : Except SessionError ByteString :=
  match r.body with
  | .activateSession nonce _ => .ok nonce
  | _ => .error (unexpected "ActivateSession" r)

/-- How the transfer of each subscription ended: by the result at its place,
and by one status for all where the transfer failed as a whole. -/
def transferResults (ids : List UInt32) (r : Except SessionError Response) :
    List (UInt32 × StatusCode) :=
  match r with
  | .error e => ids.map fun id => (id, e.status)
  | .ok r => match r.body with
    | .transferSubscriptions results =>
      ids.zipIdx.map fun (id, i) =>
        (id, ((results[i]?).map (·.status)).getD .badUnexpectedError)
    | _ => ids.map fun id => (id, (unexpected "TransferSubscriptions" r).status)

end OpcSession.Session
