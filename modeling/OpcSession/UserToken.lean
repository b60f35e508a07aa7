import OpcSession.ByteString

/-!
# User identity tokens

The identity that is presented when a session is activated.  Its first
field names the token policy of the endpoint that it answers to.
-/

namespace OpcSession

/-- The identity that is presented for a session: nobody in particular, or a
user with a password. -/
inductive UserToken
  /-- Nobody in particular, under a policy that allows it. -/
  | anonymous (policyId : String)
  /-- A user by name, with the bytes of the password and how they are
  encrypted, if they are. -/
  | userName (policyId userName : String) (password : ByteString)
      (encryptionAlgorithm : Option String)
deriving DecidableEq, Repr, Inhabited

namespace UserToken

/-- The policy of the endpoint that the token answers to. -/
def policyId : UserToken → String
  | anonymous id => id
  | userName id _ _ _ => id

def toJson : UserToken → Json
  | anonymous id => .record [("type", .text "Anonymous"), ("policy_id", .text id)]
  | userName id name password algorithm =>
    .record [("type", .text "UserName"), ("policy_id", .text id),
      ("user_name", .text name), ("password", password.toJson),
      ("encryption_algorithm", .optional .text algorithm)]

/-- A token is read by its kind, which stands among its fields and may stand
behind them. -/
def ofJson? (p : Json.Place) (j : Json) : Option UserToken := do
  match ← j.inline? "type" ["Anonymous", "UserName"] p with
  | ("Anonymous", rest) =>
    let [id] ← rest.fields? ["policy_id"] | none
    return anonymous (← Json.needed Json.asText? id)
  | (_, rest) =>
    let [id, name, password, algorithm] ←
      rest.fields? ["policy_id", "user_name", "password", "encryption_algorithm"]
      | none
    return userName (← Json.needed Json.asText? id)
      (← Json.needed Json.asText? name) (← ByteString.ofField? password)
      (← Json.maybe Json.asText? algorithm)

end UserToken

end OpcSession
