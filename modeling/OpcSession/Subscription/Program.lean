import OpcSession.Subscription.Registry

/-!
# Programs on the registry

One step for each operation of the registry, what it answers, and whom of
the listeners it tells of failed transfers.
-/

namespace OpcSession.Registry

/-- What can be asked of a registry, one thing at a time. -/
inductive Step
  | add (s : Subscription)
  | remove (id : UInt32)
  | get (id : UInt32)
  | list
  | record (id sequence : UInt32)
  | last (id : UInt32)
  | addListener (name : String)
  | removeListener (name : String)
  | startPublishing (reset : Bool)
  | ids
  | transferred (results : List (UInt32 × StatusCode))
  | describe
deriving Repr, Inhabited

/-- What a step answers, by what was asked. -/
inductive Answer
  | nothing
  | accepted
  | refused (e : SubscriptionError)
  | subscription (s : Option Subscription)
  | subscriptions (ss : List Subscription)
  | number (n : Option UInt32)
  | numbers (ns : List UInt32)
  | removed (was : Bool)
  | text (s : String)
deriving Repr, Inhabited

/-- Performs one step: its answer, the registry after it, and what listeners
are told. -/
def perform (r : Registry) : Step → Answer × Registry × List TransferFailure
  | .add s => match r.add s with
    | .ok r => (.accepted, r, [])
    | .error e => (.refused e, r, [])
  | .remove id => match r.remove id with
    | .ok (s, r) => (.subscription (some s), r, [])
    | .error e => (.refused e, r, [])
  | .get id => (.subscription (r.get? id), r, [])
  | .list => (.subscriptions r.subscriptions, r, [])
  | .record id sequence => match r.record id sequence with
    | .ok r => (.accepted, r, [])
    | .error e => (.refused e, r, [])
  | .last id => (.number (r.lastSequence? id), r, [])
  | .addListener name => (.nothing, r.addListener name, [])
  | .removeListener name =>
    let (was, r) := r.removeListener name
    (.removed was, r, [])
  | .startPublishing reset => (.nothing, r.startPublishing reset, [])
  | .ids => (.numbers r.ids, r, [])
  | .transferred results =>
    let (r, told) := r.transferCompleted results
    (.nothing, r, told)
  | .describe => (.text r.text, r, [])

end OpcSession.Registry
