import OpcSession.StatusCode
import OpcSession.Subscription.Basic

/-!
# The registry of subscriptions

The registry keeps the client's subscriptions in the order of their ids,
each with the last sequence number that was accepted for it.  Starting to
publish on a new session resets the numbers and the count of
notifications.  After a transfer the subscriptions that the server did
not take over are dropped, and every listener is told of each of them.
-/

namespace OpcSession

/-- A registered subscription and how far its notifications are, by their
sequence numbers. -/
structure Registration where
  subscription : Subscription
  /-- The number of the last notification that was accepted; zero before the
  first. -/
  lastSequence : UInt32 := 0
deriving DecidableEq, Repr, Inhabited

/-- The id of the subscription registered, by which the registry is kept in
order. -/
def Registration.id (r : Registration) : UInt32 := r.subscription.id

/-- The registrations in the order of their ids, and who is told when one is
lost.  The two counts are of 64 bits where they are kept; natural numbers
stand for them here, from which they could differ only after `2 ^ 64`
notifications or starts. -/
structure Registry where
  /-- The registrations, ascending by their ids, each of which occurs once. -/
  entries : List Registration := []
  /-- Whether notifications are asked for, which is never taken back. -/
  publishing : Bool := false
  /-- How many notifications were accepted since the count was last reset. -/
  notifications : Nat := 0
  /-- How often publishing was started. -/
  publishStarts : Nat := 0
  /-- The names of the listeners, in the order in which they are told. -/
  listeners : List String := []
deriving DecidableEq, Repr, Inhabited

/-- A listener is told that a subscription was not transferred, and why. -/
structure TransferFailure where
  listener : String
  /-- Which subscription it was, with all that was granted. -/
  subscription : Subscription
  status : StatusCode
deriving DecidableEq, Repr, Inhabited

namespace Registry

/-- The entry for an id, if the id is registered. -/
def find? (r : Registry) (id : UInt32) : Option Registration :=
  r.entries.find? (·.id = id)

/-- Puts an entry at its place in the order of ids, where no entry has its id
yet. -/
def insertSorted (x : Registration) : List Registration → List Registration
  | [] => [x]
  | y :: ys => if x.id < y.id then x :: y :: ys else y :: insertSorted x ys

def add (r : Registry) (s : Subscription) : Except SubscriptionError Registry :=
  match r.find? s.id with
  | some _ => .error (.alreadyExists s.id)
  | none => .ok { r with entries := insertSorted { subscription := s } r.entries }

/-- The registry without an id, which may not have been there. -/
def erase (r : Registry) (id : UInt32) : Registry :=
  { r with entries := r.entries.filter (·.id ≠ id) }

def remove (r : Registry) (id : UInt32) :
    Except SubscriptionError (Subscription × Registry) :=
  match r.find? id with
  | none => .error (.notFound id)
  | some entry => .ok (entry.subscription, r.erase id)

def get? (r : Registry) (id : UInt32) : Option Subscription :=
  (r.find? id).map (·.subscription)

def subscriptions (r : Registry) : List Subscription := r.entries.map (·.subscription)

def ids (r : Registry) : List UInt32 := r.entries.map (·.id)

def size (r : Registry) : Nat := r.entries.length

/-- Accepts a notification if its sequence number is beyond the last; any
other is refused, and counts for nothing. -/
def record (r : Registry) (id sequence : UInt32) : Except SubscriptionError Registry :=
  match r.find? id with
  | none => .error (.notFound id)
  | some entry =>
    if sequence ≤ entry.lastSequence then
      .error (.staleSequence id entry.lastSequence sequence)
    else .ok { r with
      entries := r.entries.map fun e =>
        if e.id = id then { e with lastSequence := sequence } else e
      notifications := r.notifications + 1 }

def lastSequence? (r : Registry) (id : UInt32) : Option UInt32 :=
  (r.find? id).map (·.lastSequence)

/-- Publishing starts; on a new session everything is reset, so that the count
and the sequence numbers begin anew. -/
def startPublishing (r : Registry) (reset : Bool) : Registry :=
  let r := { r with publishing := true, publishStarts := r.publishStarts + 1 }
  if reset then
    { r with
      notifications := 0
      entries := r.entries.map fun e => { e with lastSequence := 0 } }
  else r

/-- Drops what was not transferred and collects it, in the order of the
results. -/
def dropFailed (r : Registry) :
    List (UInt32 × StatusCode) → Registry × List (Subscription × StatusCode)
  | [] => (r, [])
  | (id, status) :: results =>
    if status.isGood then r.dropFailed results
    else match r.find? id with
      | none => r.dropFailed results
      | some entry =>
        let (r, failed) := (r.erase id).dropFailed results
        (r, (entry.subscription, status) :: failed)

/-- A transfer is over: the failures are dropped and every listener is told of
each. -/
def transferCompleted (r : Registry) (results : List (UInt32 × StatusCode)) :
    Registry × List TransferFailure :=
  let (r, failed) := r.dropFailed results
  (r, failed.flatMap fun (s, status) =>
    r.listeners.map fun name => ⟨name, s, status⟩)

def addListener (r : Registry) (name : String) : Registry :=
  { r with listeners := r.listeners ++ [name] }

/-- Takes a listener away, however often it was added; says whether it was
there. -/
def removeListener (r : Registry) (name : String) : Bool × Registry :=
  (r.listeners.contains name,
    { r with listeners := r.listeners.filter (· ≠ name) })

def text (r : Registry) : String :=
  "SubscriptionRegistry \x7b subscriptions: " ++ toString r.size
    ++ ", publishing: " ++ toString r.publishing ++ " \x7d"

end Registry

end OpcSession
