import OpcSession.NodeId.Basic
import OpcSession.StatusCode

/-!
# Message headers

Every request says on behalf of which session it is sent; every response
says how the service as a whole ended.  Both repeat the handle that pairs
them.
-/

namespace OpcSession

/-- What every request begins with. -/
structure RequestHeader where
  /-- Under which session it is sent; null before there is one. -/
  token : NodeId := .null
  /-- When it was made, in milliseconds since 1970. -/
  timestamp : UInt64 := 0
  /-- The handle that the channel gives it, and that its response repeats. -/
  handle : UInt32 := 0
  /-- How long the client is willing to wait, in milliseconds. -/
  timeoutHint : UInt32 := 0
deriving DecidableEq, Repr, Inhabited

namespace RequestHeader

def toJson (h : RequestHeader) : Json :=
  .record [("authentication_token", h.token.toJson),
    ("timestamp", .nat h.timestamp.toNat),
    ("request_handle", .nat h.handle.toNat),
    ("timeout_hint", .nat h.timeoutHint.toNat)]

def ofJson? (p : Json.Place) (j : Json) : Option RequestHeader := do
  let [token, timestamp, handle, hint] ←
    j.fields? ["authentication_token", "timestamp", "request_handle", "timeout_hint"]
    | none
  return {
    token := ← Json.needed (NodeId.ofJson? p.inner) token
    timestamp := ← Json.needed Json.asUInt64? timestamp
    handle := ← Json.needed Json.asUInt32? handle
    timeoutHint := ← Json.needed Json.asUInt32? hint }

end RequestHeader

/-- What every response begins with. -/
structure ResponseHeader where
  /-- When it was made, in milliseconds since 1970. -/
  timestamp : UInt64 := 0
  /-- The handle of the request that it answers. -/
  handle : UInt32 := 0
  /-- How the service as a whole went. -/
  result : StatusCode := .good
deriving DecidableEq, Repr, Inhabited

namespace ResponseHeader

/-- The header of a response to a request that went well, as far as the
service as a whole goes. -/
def good (handle : UInt32) : ResponseHeader := { handle := handle }

def toJson (h : ResponseHeader) : Json :=
  .record [("timestamp", .nat h.timestamp.toNat),
    ("request_handle", .nat h.handle.toNat),
    ("service_result", h.result.toJson)]

def ofJson? (j : Json) : Option ResponseHeader := do
  let [timestamp, handle, result] ←
    j.fields? ["timestamp", "request_handle", "service_result"] | none
  return {
    timestamp := ← Json.needed Json.asUInt64? timestamp
    handle := ← Json.needed Json.asUInt32? handle
    result := ← Json.needed StatusCode.ofJson? result }

end ResponseHeader

end OpcSession
