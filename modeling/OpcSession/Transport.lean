import OpcSession.Duration

/-!
# The transport

Connections are told apart by numbers; the transport fails to connect, to
send or to receive, or loses the connection.
-/

namespace OpcSession

/-- The number of a connection, by which the end of one is not taken for the
end of the next. -/
structure ConnectionId where
  number : UInt64
deriving DecidableEq, Repr, Inhabited

def ConnectionId.text (c : ConnectionId) : String := "conn-" ++ toString c.number.toNat

/-- What can fail below the messages, with the text of the cause. -/
inductive TransportError
  /-- There is nobody to connect to, or no way there. -/
  | connectFailed (text : String)
  /-- Nobody has answered within the time for it. -/
  | timeout (limit : Duration)
  | connectionClosed (text : String)
  /-- What was to be sent could not be. -/
  | sendFailed (text : String)
  | receiveFailed (text : String)
deriving DecidableEq, Repr, Inhabited

/-- The error for a reader, which is all that is left of it once it is told as
an error of the session. -/
def TransportError.message : TransportError → String
  | connectFailed text => "connect failed: " ++ text
  | timeout limit => "connect timed out after " ++ limit.text
  | connectionClosed text => "connection closed: " ++ text
  | sendFailed text => "send failed: " ++ text
  | receiveFailed text => "receive failed: " ++ text

end OpcSession
