import OpcSession.Duration
import OpcSession.Json.Shape

/-!
# Subscriptions

A subscription is published at an interval and lives as long as
`lifetimeCount` intervals pass without a sign of the client.
-/

namespace OpcSession

/-- A duration as a message carries it: whole seconds and the nanoseconds
beyond them. -/
def Duration.toJson (d : Duration) : Json :=
  .record [("secs", .nat d.secs), ("nanos", .nat d.subsecNanos)]

/-- Reads a duration.  Nanoseconds beyond a second carry over, as long as the
seconds are a number of 64 bits. -/
def Duration.ofJson? (j : Json) : Option Duration := do
  let [secs, nanos] ← j.closedFields? ["secs", "nanos"] | none
  let s ← Json.needed Json.asUInt64? secs
  let n ← Json.needed Json.asUInt32? nanos
  let d : Duration := ⟨s.toNat * 1000000000 + n.toNat⟩
  if d.fits then return d else none

/-- A subscription as the server granted it, so that it can be found again on
another session. -/
structure Subscription where
  /-- The number that the server knows it by. -/
  id : UInt32
  interval : Duration
  /-- After how many intervals without a request the server drops it. -/
  lifetimeCount : UInt32 := 30
  /-- After how many intervals without news it shows that it is alive. -/
  maxKeepAliveCount : UInt32 := 10
  publishingEnabled : Bool := true
deriving DecidableEq, Repr, Inhabited

namespace Subscription

def withCounts (s : Subscription) (lifetime keepAlive : UInt32) : Subscription :=
  { s with lifetimeCount := lifetime, maxKeepAliveCount := keepAlive }

/-- How long a subscription lives unattended, if a duration can be that
long. -/
def lifetime? (s : Subscription) : Option Duration :=
  s.interval.times? s.lifetimeCount.toNat

def text (s : Subscription) : String := "sub-" ++ toString s.id.toNat

def fieldNames : List String :=
  ["subscription_id", "publishing_interval", "lifetime_count",
   "max_keep_alive_count", "publishing_enabled"]

def toJson (s : Subscription) : Json :=
  .record [("subscription_id", .nat s.id.toNat),
    ("publishing_interval", s.interval.toJson),
    ("lifetime_count", .nat s.lifetimeCount.toNat),
    ("max_keep_alive_count", .nat s.maxKeepAliveCount.toNat),
    ("publishing_enabled", .bool s.publishingEnabled)]

def ofJson? (j : Json) : Option Subscription := do
  let [id, interval, lifetime, keepAlive, enabled] ← j.fields? fieldNames | none
  return {
    id := ← Json.needed Json.asUInt32? id
    interval := ← Json.needed Duration.ofJson? interval
    lifetimeCount := ← Json.needed Json.asUInt32? lifetime
    maxKeepAliveCount := ← Json.needed Json.asUInt32? keepAlive
    publishingEnabled := ← Json.needed Json.asBool? enabled }

end Subscription

/-- Why an operation on subscriptions is refused; a refused operation changes
nothing. -/
inductive SubscriptionError
  | notFound (id : UInt32)
  /-- There is one with this id already. -/
  | alreadyExists (id : UInt32)
  /-- The number of a notification is not beyond the last. -/
  | staleSequence (id last received : UInt32)
deriving DecidableEq, Repr, Inhabited

namespace SubscriptionError

/-- The name of the kind of an error, without its numbers. -/
def kind : SubscriptionError → String
  | notFound _ => "NotFound"
  | alreadyExists _ => "AlreadyExists"
  | staleSequence _ _ _ => "StaleSequence"

def message : SubscriptionError → String
  | notFound id => "subscription " ++ toString id.toNat ++ " not found"
  | alreadyExists id => "subscription " ++ toString id.toNat ++ " already registered"
  | staleSequence id last received =>
    "subscription " ++ toString id.toNat ++ ": sequence number "
      ++ toString received.toNat ++ " is not after " ++ toString last.toNat

end SubscriptionError

end OpcSession
