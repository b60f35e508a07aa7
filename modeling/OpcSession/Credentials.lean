import OpcSession.Endpoint
import OpcSession.Session.Error
import OpcSession.Text.Literal
import OpcSession.UserToken

/-!
# Credentials

Who the client says it is when it activates a session.  Credentials pick
the first token policy of their kind that the endpoint offers.  A
password is sent as it is, so a user name is presented only where the
policy asks for no encryption.
-/

namespace OpcSession

/-- What a client has to identify itself with: nothing, or a user name and its
password. -/
inductive Credentials
  /-- The client says nothing of its user. -/
  | anonymous
  /-- The client presents a user, with the password in plain text. -/
  | userName (name password : String)
deriving DecidableEq, Repr, Inhabited

namespace Credentials

/-- The URI of the security policy that protects a token: that of the token
policy, or of the endpoint where the former is absent or empty. -/
def protectionUri (e : EndpointDescription) (t : UserTokenPolicy) : String :=
  match t.securityPolicyUri with
  | some uri => if uri.isEmpty then e.securityPolicyUri else uri
  | none => e.securityPolicyUri

/-- The token for an endpoint and the signature that goes with it, or the
error that says why none can be made.  A password is put into the token only
where the first policy for user names asks for no encryption. -/
def token (c : Credentials) (e : EndpointDescription) :
    Except SessionError (UserToken × SignatureData) :=
  match c with
  | anonymous =>
    match e.tokenPolicy? .anonymous with
    | none => .error (.identity "no anonymous token policy found")
    | some policy => .ok (.anonymous (policy.policyId.getD ""), {})
  | userName name password =>
    match e.tokenPolicy? .userName with
    | none => .error (.identity "no username token policy found")
    | some policy =>
      let uri := protectionUri e policy
      match SecurityPolicy.ofUri? uri with
      | some .none =>
        .ok (.userName (policy.policyId.getD "") name
          (.of password.toUTF8.toList) none, {})
      | some other =>
        .error (.identity ("password encryption for " ++ other.name ++ " is not supported"))
      | none => .error (.identity ("unknown security policy: " ++ uri))

/-- Credentials as shown in logs, where the password is hidden and the name of
the user is not. -/
def text : Credentials → String
  | anonymous => "AnonymousProvider"
  | userName name _ =>
    "UsernameProvider \x7b user_name: " ++ Text.literal name
      ++ ", password: \"<redacted>\" \x7d"

end Credentials

end OpcSession
