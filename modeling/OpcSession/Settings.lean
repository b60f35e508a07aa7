import OpcSession.Duration
import OpcSession.Endpoint

/-!
# Settings

What can be set for the session, the cache and the transport.  As JSON a
record of settings may leave out any of its fields, which then have their
defaults.  Timeouts are kept in milliseconds in 64 bits: setting one from
a duration keeps its whole milliseconds, of which a longer count loses
its high bits.
-/

namespace OpcSession

/-- How sessions are asked for, and how long a client waits for answers in
one. -/
structure SessionSettings where
  /-- What the client says of itself to the server. -/
  application : ApplicationDescription := {
    applicationUri := "urn:ualink:client"
    productUri := "urn:ualink"
    applicationName := "ualink client" }
  /-- The name of the session for a reader; the default has a number drawn at
  random behind it. -/
  sessionName : String
  /-- How long the server is to keep an idle session, in milliseconds; it may
  answer with another time. -/
  sessionTimeout : UInt64 := 120000
  /-- How long a request may go unanswered, in milliseconds. -/
  requestTimeout : UInt64 := 60000
  /-- The longest response that is accepted, in bytes; zero is no limit. -/
  maxResponseSize : UInt32 := 0
  /-- The certificate of the client, null where it has none. -/
  clientCertificate : ByteString := .null
deriving DecidableEq, Repr, Inhabited

namespace SessionSettings

/-- A session without a name of its own is named after a random number. -/
def drawnName (draw : UInt32) : String :=
  "ualink-" ++ String.ofList ((Text.hexUpper 8 draw.toNat).map Char.toLower)

/-- The defaults, under the name drawn: all other fields have the same default
each time. -/
def standard (draw : UInt32) : SessionSettings := { sessionName := drawnName draw }

/-- The time that a request may take, as a duration again. -/
def requestDuration (s : SessionSettings) : Duration :=
  .ofMillis s.requestTimeout.toNat

/-- The same settings with another time for requests.  The milliseconds of the
duration are kept in 64 bits, so a time of more loses its high bits. -/
def withRequestTimeout (s : SessionSettings) (d : Duration) : SessionSettings :=
  { s with requestTimeout := UInt64.ofNat d.millis }

/-- The request timeout as a hint to the server, which has 32 bits for it. -/
def timeoutHint (s : SessionSettings) : UInt32 :=
  UInt32.ofNat (min s.requestTimeout.toNat 0xFFFFFFFF)

def fieldNames : List String :=
  ["application", "session_name", "session_timeout_ms", "request_timeout_ms",
   "max_response_message_size", "client_certificate"]

def toJson (s : SessionSettings) : Json :=
  .record [("application", s.application.toJson),
    ("session_name", .text s.sessionName),
    ("session_timeout_ms", .nat s.sessionTimeout.toNat),
    ("request_timeout_ms", .nat s.requestTimeout.toNat),
    ("max_response_message_size", .nat s.maxResponseSize.toNat),
    ("client_certificate", s.clientCertificate.toJson)]

def ofJson? (draw : UInt32) (p : Json.Place) (j : Json) : Option SessionSettings := do
  let d := standard draw
  let [application, name, session, request, size, certificate] ←
    j.settings? fieldNames | none
  return {
    application := ←
      Json.orElse d.application (ApplicationDescription.ofJson? p.inner) application
    sessionName := ← Json.orElse d.sessionName Json.asText? name
    sessionTimeout := ← Json.orElse d.sessionTimeout Json.asUInt64? session
    requestTimeout := ← Json.orElse d.requestTimeout Json.asUInt64? request
    maxResponseSize := ← Json.orElse d.maxResponseSize Json.asUInt32? size
    clientCertificate := ← ByteString.ofField? certificate }

end SessionSettings

/-- The bounds of the cache: how much it keeps, and for how long. -/
structure CacheSettings where
  maxEntries : UInt64 := 1024
  expireAfterSecs : UInt64 := 120
deriving DecidableEq, Repr, Inhabited

namespace CacheSettings

def expireAfter (s : CacheSettings) : Duration := .ofSecs s.expireAfterSecs.toNat

/-- A cache has room for at least one entry, whatever was asked for. -/
def validated (s : CacheSettings) : CacheSettings :=
  if s.maxEntries = 0 then { s with maxEntries := 1 } else s

def toJson (s : CacheSettings) : Json :=
  .record [("max_entries", .nat s.maxEntries.toNat),
    ("expire_after_secs", .nat s.expireAfterSecs.toNat)]

def ofJson? (j : Json) : Option CacheSettings := do
  let [entries, expiry] ← j.settings? ["max_entries", "expire_after_secs"] | none
  return {
    maxEntries := ← Json.orElse 1024 Json.asUInt64? entries
    expireAfterSecs := ← Json.orElse 120 Json.asUInt64? expiry }

end CacheSettings

/-- How long the transport waits, for a connection and for an answer. -/
structure TransportSettings where
  /-- For the answer to a request, in milliseconds. -/
  requestTimeout : UInt64 := 60000
  connectTimeout : UInt64 := 10000
deriving DecidableEq, Repr, Inhabited

namespace TransportSettings

def requestDuration (s : TransportSettings) : Duration :=
  .ofMillis s.requestTimeout.toNat

def connectDuration (s : TransportSettings) : Duration :=
  .ofMillis s.connectTimeout.toNat

def withRequestTimeout (s : TransportSettings) (d : Duration) : TransportSettings :=
  { s with requestTimeout := UInt64.ofNat d.millis }

def withConnectTimeout (s : TransportSettings) (d : Duration) : TransportSettings :=
  { s with connectTimeout := UInt64.ofNat d.millis }

def toJson (s : TransportSettings) : Json :=
  .record [("request_timeout_ms", .nat s.requestTimeout.toNat),
    ("connect_timeout_ms", .nat s.connectTimeout.toNat)]

def ofJson? (j : Json) : Option TransportSettings := do
  let [request, connect] ←
    j.settings? ["request_timeout_ms", "connect_timeout_ms"] | none
  return {
    requestTimeout := ← Json.orElse 60000 Json.asUInt64? request
    connectTimeout := ← Json.orElse 10000 Json.asUInt64? connect }

end TransportSettings

/-- All that can be set for a client.  Read from a file, what the file does
not name has its default. -/
structure ClientSettings where
  session : SessionSettings
  cache : CacheSettings := {}
  transport : TransportSettings := {}
deriving DecidableEq, Repr, Inhabited

namespace ClientSettings

def standard (draw : UInt32) : ClientSettings := { session := .standard draw }

def toJson (s : ClientSettings) : Json :=
  .record [("session", s.session.toJson), ("cache", s.cache.toJson),
    ("transport", s.transport.toJson)]

def ofJson? (draw : UInt32) (p : Json.Place) (j : Json) : Option ClientSettings := do
  let [session, cache, transport] ← j.settings? ["session", "cache", "transport"]
    | none
  return {
    session := ← Json.orElse (.standard draw) (SessionSettings.ofJson? draw p.inner) session
    cache := ← Json.orElse {} CacheSettings.ofJson? cache
    transport := ← Json.orElse {} TransportSettings.ofJson? transport }

end ClientSettings

end OpcSession
