import OpcSession.Security

/-!
# Endpoints

An endpoint of a server is an address, the application behind it, the
security it asks for and the kinds of identity it accepts.
-/

namespace OpcSession

/-- The part an application plays, as it says of itself. -/
inductive ApplicationType
  | server | client | clientAndServer | discoveryServer
deriving DecidableEq, Repr

namespace ApplicationType

instance : Inhabited ApplicationType := ⟨client⟩

def table : List (ApplicationType × String) :=
  [(server, "Server"), (client, "Client"),
   (clientAndServer, "ClientAndServer"), (discoveryServer, "DiscoveryServer")]

def toJson (a : ApplicationType) : Json :=
  .text (((table.find? (·.1 = a)).map (·.2)).getD "")

def ofJson? (p : Json.Place) (j : Json) : Option ApplicationType :=
  (j.choice? (table.map (·.2)) p).bind fun s =>
    (table.find? (·.2 = s)).map (·.1)

end ApplicationType

/-- What an application says of itself: the client of itself when it asks for
a session, and the server in the descriptions of its endpoints. -/
structure ApplicationDescription where
  /-- The name of this instance of the application. -/
  applicationUri : String := ""
  /-- The name of the product that it is an instance of. -/
  productUri : String := ""
  applicationName : String := ""
  applicationType : ApplicationType := .client
  /-- The gateway through which a server is reached, if there is one. -/
  gatewayServerUri : Option String := none
deriving DecidableEq, Repr, Inhabited

namespace ApplicationDescription

def fieldNames : List String :=
  ["application_uri", "product_uri", "application_name", "application_type",
   "gateway_server_uri"]

def toJson (a : ApplicationDescription) : Json :=
  .record [("application_uri", .text a.applicationUri),
    ("product_uri", .text a.productUri),
    ("application_name", .text a.applicationName),
    ("application_type", a.applicationType.toJson),
    ("gateway_server_uri", .optional .text a.gatewayServerUri)]

def ofJson? (p : Json.Place) (j : Json) : Option ApplicationDescription := do
  let [uri, product, name, type, gateway] ← j.fields? fieldNames | none
  return {
    applicationUri := ← Json.needed Json.asText? uri
    productUri := ← Json.needed Json.asText? product
    applicationName := ← Json.needed Json.asText? name
    applicationType := ← Json.needed (ApplicationType.ofJson? p.inner) type
    gatewayServerUri := ← Json.maybe Json.asText? gateway }

end ApplicationDescription

/-- A kind of identity that a server may accept. -/
inductive UserTokenType
  | anonymous | userName | certificate | issuedToken
deriving DecidableEq, Repr, Inhabited

namespace UserTokenType

def table : List (UserTokenType × String) :=
  [(anonymous, "Anonymous"), (userName, "UserName"),
   (certificate, "Certificate"), (issuedToken, "IssuedToken")]

def name (t : UserTokenType) : String :=
  ((table.find? (·.1 = t)).map (·.2)).getD ""

def toJson (t : UserTokenType) : Json := .text t.name

def ofJson? (p : Json.Place) (j : Json) : Option UserTokenType :=
  (j.choice? (table.map (·.2)) p).bind fun s =>
    (table.find? (·.2 = s)).map (·.1)

end UserTokenType

/-- A kind of identity an endpoint accepts, and the policy that protects the
secrets in it. -/
structure UserTokenPolicy where
  /-- The name of the policy, by which a token says which one it answers
  to. -/
  policyId : Option String
  /-- The kind of identity that it takes. -/
  tokenType : UserTokenType
  /-- How a password has to be encrypted, if not as the endpoint says. -/
  securityPolicyUri : Option String := none
deriving DecidableEq, Repr, Inhabited

namespace UserTokenPolicy

def toJson (t : UserTokenPolicy) : Json :=
  .record [("policy_id", .optional .text t.policyId),
    ("token_type", t.tokenType.toJson),
    ("security_policy_uri", .optional .text t.securityPolicyUri)]

def ofJson? (p : Json.Place) (j : Json) : Option UserTokenPolicy := do
  let [id, type, uri] ←
    j.fields? ["policy_id", "token_type", "security_policy_uri"] | none
  return {
    policyId := ← Json.maybe Json.asText? id
    tokenType := ← Json.needed (UserTokenType.ofJson? p.inner) type
    securityPolicyUri := ← Json.maybe Json.asText? uri }

end UserTokenPolicy

/-- What a server offers at one address: how messages are secured there, and
which identities it accepts. -/
structure EndpointDescription where
  endpointUrl : String := ""
  server : ApplicationDescription := {}
  /-- The certificate of the server, null where it has none. -/
  serverCertificate : ByteString := .null
  securityMode : MessageSecurityMode := .none
  /-- By which rules, as a URI that the client need not know. -/
  securityPolicyUri : String := ""
  /-- The identities that are accepted, in the order in which the server lists
  them. -/
  userIdentityTokens : List UserTokenPolicy := []
deriving DecidableEq, Repr, Inhabited

namespace EndpointDescription

/-- The security policy, if the URI is known; what becomes of any other is for
the caller to say. -/
def securityPolicy? (e : EndpointDescription) : Option SecurityPolicy :=
  SecurityPolicy.ofUri? e.securityPolicyUri

/-- The first token policy of a kind.  Those behind it are not looked at,
whatever they ask for. -/
def tokenPolicy? (e : EndpointDescription) (t : UserTokenType) :
    Option UserTokenPolicy :=
  e.userIdentityTokens.find? (·.tokenType = t)

/-- An endpoint without message security that takes anonymous users and user
names, with passwords in plain text. -/
def unsecured (url : String) : EndpointDescription where
  endpointUrl := url
  securityPolicyUri := SecurityPolicy.none.uri
  userIdentityTokens :=
    [{ policyId := some "anonymous", tokenType := .anonymous },
     { policyId := some "username", tokenType := .userName }]

def fieldNames : List String :=
  ["endpoint_url", "server", "server_certificate", "security_mode",
   "security_policy_uri", "user_identity_tokens"]

def toJson (e : EndpointDescription) : Json :=
  .record [("endpoint_url", .text e.endpointUrl),
    ("server", e.server.toJson),
    ("server_certificate", e.serverCertificate.toJson),
    ("security_mode", e.securityMode.toJson),
    ("security_policy_uri", .text e.securityPolicyUri),
    ("user_identity_tokens", .list UserTokenPolicy.toJson e.userIdentityTokens)]

def ofJson? (p : Json.Place) (j : Json) : Option EndpointDescription := do
  let [url, server, certificate, mode, policy, tokens] ← j.fields? fieldNames
    | none
  return {
    endpointUrl := ← Json.needed Json.asText? url
    server := ← Json.needed (ApplicationDescription.ofJson? p.inner) server
    serverCertificate := ← ByteString.ofField? certificate
    securityMode := ← Json.needed (MessageSecurityMode.ofJson? p.inner) mode
    securityPolicyUri := ← Json.needed Json.asText? policy
    userIdentityTokens := ← Json.needed
      (Json.asList? (UserTokenPolicy.ofJson? p.inner.inner)) tokens }

end EndpointDescription

end OpcSession
