import OpcSession.AttributeId
import OpcSession.DataValue
import OpcSession.Endpoint
import OpcSession.Message.Header
import OpcSession.UserToken

/-!
# Requests

A request is a header and the parameters of one of the services: the life
of a session, the transfer of subscriptions, and reading and writing
attributes.
-/

namespace OpcSession

/-- The parameters of creating a session: who asks, for what, and within which
limits. -/
structure CreateSession where
  clientDescription : ApplicationDescription
  /-- The server behind a gateway; left out if there is none. -/
  serverUri : Option String
  /-- The endpoint that the session is to be used at. -/
  endpointUrl : String
  /-- The name of the session for a reader. -/
  sessionName : String
  /-- Bytes drawn at random, for the server to sign. -/
  clientNonce : ByteString
  /-- The certificate of the client, null where it has none. -/
  clientCertificate : ByteString
  /-- How long the server is to keep the idle session, in milliseconds. -/
  requestedTimeout : Binary64
  /-- The longest response that is accepted; zero is no limit. -/
  maxResponseSize : UInt32
deriving DecidableEq, Repr, Inhabited

/-- The parameters of activating a session: the signature that shows it is the
same client, and the identity of its user. -/
structure ActivateSession where
  /-- Over the certificate and the nonce of the server. -/
  clientSignature : SignatureData
  /-- The certificates of the software; the client has none. -/
  softwareCertificates : List SoftwareCertificate
  /-- The locales of texts; none are asked for. -/
  localeIds : List String
  identity : UserToken
  /-- The signature that goes with the identity. -/
  tokenSignature : SignatureData
deriving DecidableEq, Repr, Inhabited

/-- One attribute of one node to read. -/
structure ReadId where
  node : NodeId
  attributeId : AttributeId
deriving DecidableEq, Repr, Inhabited

/-- One attribute of one node to write, and its value. -/
structure WriteItem where
  node : NodeId
  attributeId : AttributeId
  value : DataValue
deriving DecidableEq, Repr, Inhabited

/-- What a request asks for, by the service that it is addressed to. -/
inductive RequestBody
  | createSession (r : CreateSession)
  /-- That the session may be used, under an identity. -/
  | activateSession (r : ActivateSession)
  /-- That the session ends, perhaps with its subscriptions. -/
  | closeSession (deleteSubscriptions : Bool)
  /-- That subscriptions of another session belong to this one. -/
  | transferSubscriptions (ids : List UInt32) (sendInitialValues : Bool)
  /-- Values not older than an age, in milliseconds. -/
  | read (maxAge : Binary64) (nodes : List ReadId)
  | write (nodes : List WriteItem)
deriving DecidableEq, Repr, Inhabited

/-- A request to a server: what all of them begin with, and what this one asks
for. -/
structure Request where
  /-- Under which session and handle it is sent. -/
  header : RequestHeader
  body : RequestBody
deriving DecidableEq, Repr, Inhabited

namespace ReadId

def toJson (r : ReadId) : Json :=
  .record [("node_id", r.node.toJson), ("attribute_id", r.attributeId.toJson)]

def ofJson? (p : Json.Place) (j : Json) : Option ReadId := do
  let [node, id] ← j.fields? ["node_id", "attribute_id"] | none
  return {
    node := ← Json.needed (NodeId.ofJson? p.inner) node
    attributeId := ← Json.needed (AttributeId.ofJson? p.inner) id }

end ReadId

namespace WriteItem

def toJson (w : WriteItem) : Json :=
  .record [("node_id", w.node.toJson), ("attribute_id", w.attributeId.toJson),
    ("value", w.value.toJson)]

def ofJson? (p : Json.Place) (j : Json) : Option WriteItem := do
  let [node, id, value] ← j.fields? ["node_id", "attribute_id", "value"]
    | none
  return {
    node := ← Json.needed (NodeId.ofJson? p.inner) node
    attributeId := ← Json.needed (AttributeId.ofJson? p.inner) id
    value := ← Json.needed (DataValue.ofJson? p.inner) value }

end WriteItem

namespace RequestBody

/-- The name of the service, which stands among the fields of the request. -/
def service : RequestBody → String
  | createSession _ => "CreateSession"
  | activateSession _ => "ActivateSession"
  | closeSession _ => "CloseSession"
  | transferSubscriptions _ _ => "TransferSubscriptions"
  | read _ _ => "Read"
  | write _ => "Write"

def services : List String :=
  ["CreateSession", "ActivateSession", "CloseSession", "TransferSubscriptions",
   "Read", "Write"]

/-- The parameters as fields of a record, with their names on the wire. -/
def fields : RequestBody → List (String × Json)
  | createSession r =>
    [("client_description", r.clientDescription.toJson),
     ("server_uri", .optional .text r.serverUri),
     ("endpoint_url", .text r.endpointUrl),
     ("session_name", .text r.sessionName),
     ("client_nonce", r.clientNonce.toJson),
     ("client_certificate", r.clientCertificate.toJson),
     ("requested_session_timeout", .double r.requestedTimeout),
     ("max_response_message_size", .nat r.maxResponseSize.toNat)]
  | activateSession r =>
    [("client_signature", r.clientSignature.toJson),
     ("client_software_certificates",
       .list SoftwareCertificate.toJson r.softwareCertificates),
     ("locale_ids", .list .text r.localeIds),
     ("user_identity_token", r.identity.toJson),
     ("user_token_signature", r.tokenSignature.toJson)]
  | closeSession delete => [("delete_subscriptions", .bool delete)]
  | transferSubscriptions ids send =>
    [("subscription_ids", .list (fun id => .nat id.toNat) ids),
     ("send_initial_values", .bool send)]
  | read maxAge nodes =>
    [("max_age", .double maxAge), ("nodes_to_read", .list ReadId.toJson nodes)]
  | write nodes => [("nodes_to_write", .list WriteItem.toJson nodes)]

/-- The names of the parameters of a service, in the order in which they are
written. -/
def fieldNames : (service : String) → List String
  | "CreateSession" =>
    ["client_description", "server_uri", "endpoint_url", "session_name",
     "client_nonce", "client_certificate", "requested_session_timeout",
     "max_response_message_size"]
  | "ActivateSession" =>
    ["client_signature", "client_software_certificates", "locale_ids",
     "user_identity_token", "user_token_signature"]
  | "CloseSession" => ["delete_subscriptions"]
  | "TransferSubscriptions" => ["subscription_ids", "send_initial_values"]
  | "Read" => ["max_age", "nodes_to_read"]
  | _ => ["nodes_to_write"]

/-- Reads the parameters of a service; `p` is the place of the fields. -/
def ofFields? (p : Json.Place) :
    (service : String) → List (Option Json) → Option RequestBody
  | "CreateSession", [client, uri, url, name, nonce, certificate, timeout, size] => do
    return createSession {
      clientDescription := ← Json.needed (ApplicationDescription.ofJson? p) client
      serverUri := ← Json.maybe Json.asText? uri
      endpointUrl := ← Json.needed Json.asText? url
      sessionName := ← Json.needed Json.asText? name
      clientNonce := ← ByteString.ofField? nonce
      clientCertificate := ← ByteString.ofField? certificate
      requestedTimeout := ← Json.needed Json.asDouble? timeout
      maxResponseSize := ← Json.needed Json.asUInt32? size }
  | "ActivateSession", [signature, certificates, locales, identity, tokenSignature] => do
    return activateSession {
      clientSignature := ← Json.needed SignatureData.ofJson? signature
      softwareCertificates := ←
        Json.needed (Json.asList? SoftwareCertificate.ofJson?) certificates
      localeIds := ← Json.needed (Json.asList? Json.asText?) locales
      identity := ← Json.needed (UserToken.ofJson? p) identity
      tokenSignature := ← Json.needed SignatureData.ofJson? tokenSignature }
  | "CloseSession", [delete] => do
    return closeSession (← Json.needed Json.asBool? delete)
  | "TransferSubscriptions", [ids, send] => do
    return transferSubscriptions
      (← Json.needed (Json.asList? Json.asUInt32?) ids)
      (← Json.needed Json.asBool? send)
  | "Read", [maxAge, nodes] => do
    return read (← Json.needed Json.asDouble? maxAge)
      (← Json.needed (Json.asList? (ReadId.ofJson? p.inner)) nodes)
  | "Write", [nodes] => do
    return write (← Json.needed (Json.asList? (WriteItem.ofJson? p.inner)) nodes)
  | _, _ => none

end RequestBody

namespace Request

/-- The name of the service that the request is addressed to. -/
def service (r : Request) : String := r.body.service

/-- The same request under another handle, as the channel sends it. -/
def withHandle (r : Request) (handle : UInt32) : Request :=
  { r with header := { r.header with handle := handle } }

def toJson (r : Request) : Json :=
  .record (("type", .text r.service) :: ("request_header", r.header.toJson)
    :: r.body.fields)

def ofJson? (p : Json.Place) (j : Json) : Option Request := do
  let (service, rest) ← j.inline? "type" RequestBody.services p
  match ← rest.fields? ("request_header" :: RequestBody.fieldNames service) with
  | header :: fields =>
    return {
      header := ← Json.needed (RequestHeader.ofJson? p.hold.inner) header
      body := ← RequestBody.ofFields? p.hold.inner service fields }
  | [] => none

end Request

end OpcSession
