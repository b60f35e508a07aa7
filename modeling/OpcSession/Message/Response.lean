import OpcSession.DataValue
import OpcSession.Endpoint
import OpcSession.Message.Header

/-!
# Responses

A response is a header and the results of one service, or a fault, which
has nothing but the header.  A response counts as a fault also when its
header says that the service went bad.
-/

namespace OpcSession

/-- A session as the server created it, with what it says of itself to the
client. -/
structure SessionCreated where
  /-- The name of the session for other clients. -/
  sessionId : NodeId
  /-- The token that its requests have to carry. -/
  token : NodeId
  /-- How long the server keeps the idle session, in milliseconds. -/
  revisedTimeout : Binary64
  /-- The bytes that the client has to sign. -/
  serverNonce : ByteString
  /-- The certificate that the client has to sign with them. -/
  serverCertificate : ByteString
  serverEndpoints : List EndpointDescription
  softwareCertificates : List SoftwareCertificate
  /-- The signature over what the client sent. -/
  serverSignature : SignatureData
  /-- The longest request that the server accepts; zero is no limit. -/
  maxRequestSize : UInt32
deriving DecidableEq, Repr, Inhabited

/-- The outcome of transferring one subscription, at the place of its id in
the request. -/
structure TransferResult where
  status : StatusCode
  /-- Which of its notifications can be asked for again. -/
  availableNumbers : List UInt32
deriving DecidableEq, Repr, Inhabited

/-- What a response brings, by the service that has answered. -/
inductive ResponseBody
  | createSession (r : SessionCreated)
  /-- The next nonce to be signed, and what became of the certificates. -/
  | activateSession (serverNonce : ByteString) (results : List StatusCode)
  | closeSession
  | transferSubscriptions (results : List TransferResult)
  /-- A value for each attribute that was asked for. -/
  | read (results : List DataValue)
  /-- A status for each attribute that was to be set. -/
  | write (results : List StatusCode)
  /-- That the service failed, for the reason in the header. -/
  | serviceFault
deriving DecidableEq, Repr, Inhabited

/-- A response of a server: what all of them begin with, and what this one
brings. -/
structure Response where
  /-- Which request it answers, and how that went. -/
  header : ResponseHeader
  body : ResponseBody
deriving DecidableEq, Repr, Inhabited

namespace TransferResult

def toJson (t : TransferResult) : Json :=
  .record [("status_code", t.status.toJson),
    ("available_sequence_numbers", .list (fun n => .nat n.toNat) t.availableNumbers)]

def ofJson? (j : Json) : Option TransferResult := do
  let [status, numbers] ← j.fields? ["status_code", "available_sequence_numbers"]
    | none
  return {
    status := ← Json.needed StatusCode.ofJson? status
    availableNumbers := ← Json.needed (Json.asList? Json.asUInt32?) numbers }

end TransferResult

namespace ResponseBody

/-- The name of the service, or of the fault, which stands among the fields of
the response. -/
def service : ResponseBody → String
  | createSession _ => "CreateSession"
  | activateSession _ _ => "ActivateSession"
  | closeSession => "CloseSession"
  | transferSubscriptions _ => "TransferSubscriptions"
  | read _ => "Read"
  | write _ => "Write"
  | serviceFault => "ServiceFault"

def services : List String :=
  ["CreateSession", "ActivateSession", "CloseSession", "TransferSubscriptions",
   "Read", "Write", "ServiceFault"]

/-- The results as fields of a record, with their names on the wire. -/
def fields : ResponseBody → List (String × Json)
  | createSession r =>
    [("session_id", r.sessionId.toJson),
     ("authentication_token", r.token.toJson),
     ("revised_session_timeout", .double r.revisedTimeout),
     ("server_nonce", r.serverNonce.toJson),
     ("server_certificate", r.serverCertificate.toJson),
     ("server_endpoints", .list EndpointDescription.toJson r.serverEndpoints),
     ("server_software_certificates",
       .list SoftwareCertificate.toJson r.softwareCertificates),
     ("server_signature", r.serverSignature.toJson),
     ("max_request_message_size", .nat r.maxRequestSize.toNat)]
  | activateSession nonce results =>
    [("server_nonce", nonce.toJson), ("results", .list StatusCode.toJson results)]
  | closeSession => []
  | transferSubscriptions results =>
    [("results", .list TransferResult.toJson results)]
  | read results => [("results", .list DataValue.toJson results)]
  | write results => [("results", .list StatusCode.toJson results)]
  | serviceFault => []

/-- The names of the results of a service, in the order in which they are
written. -/
def fieldNames : (service : String) → List String
  | "CreateSession" =>
    ["session_id", "authentication_token", "revised_session_timeout",
     "server_nonce", "server_certificate", "server_endpoints",
     "server_software_certificates", "server_signature",
     "max_request_message_size"]
  | "ActivateSession" => ["server_nonce", "results"]
  | "TransferSubscriptions" | "Read" | "Write" => ["results"]
  | _ => []

/-- Reads the results of a service; `p` is the place of the fields. -/
def ofFields? (p : Json.Place) :
    (service : String) → List (Option Json) → Option ResponseBody
  | "CreateSession",
      [id, token, timeout, nonce, certificate, endpoints, software, signature, size] => do
    return createSession {
      sessionId := ← Json.needed (NodeId.ofJson? p) id
      token := ← Json.needed (NodeId.ofJson? p) token
      revisedTimeout := ← Json.needed Json.asDouble? timeout
      serverNonce := ← ByteString.ofField? nonce
      serverCertificate := ← ByteString.ofField? certificate
      serverEndpoints := ← Json.needed
        (Json.asList? (EndpointDescription.ofJson? p.inner)) endpoints
      softwareCertificates := ← Json.needed
        (Json.asList? SoftwareCertificate.ofJson?) software
      serverSignature := ← Json.needed SignatureData.ofJson? signature
      maxRequestSize := ← Json.needed Json.asUInt32? size }
  | "ActivateSession", [nonce, results] => do
    return activateSession (← ByteString.ofField? nonce)
      (← Json.needed (Json.asList? StatusCode.ofJson?) results)
  | "CloseSession", [] => some closeSession
  | "TransferSubscriptions", [results] => do
    return transferSubscriptions
      (← Json.needed (Json.asList? TransferResult.ofJson?) results)
  | "Read", [results] => do
    return read (← Json.needed (Json.asList? (DataValue.ofJson? p.inner)) results)
  | "Write", [results] => do
    return write (← Json.needed (Json.asList? StatusCode.ofJson?) results)
  | "ServiceFault", [] => some serviceFault
  | _, _ => none

end ResponseBody

namespace Response

/-- The name of the service that has answered, or of the fault. -/
def service (r : Response) : String := r.body.service

/-- The status a response fails with, if it is a fault or says that the
service as a whole went badly. -/
def fault? (r : Response) : Option StatusCode :=
  if r.body = .serviceFault ∨ r.header.result.isBad then some r.header.result
  else none

def toJson (r : Response) : Json :=
  .record (("type", .text r.service) :: ("response_header", r.header.toJson)
    :: r.body.fields)

def ofJson? (p : Json.Place) (j : Json) : Option Response := do
  let (service, rest) ← j.inline? "type" ResponseBody.services p
  match ← rest.fields? ("response_header" :: ResponseBody.fieldNames service) with
  | header :: fields =>
    return {
      header := ← Json.needed ResponseHeader.ofJson? header
      body := ← ResponseBody.ofFields? p.hold.inner service fields }
  | [] => none

end Response

end OpcSession
