import OpcSession.Text.Digits

/-!
# Events and states of the session machine

The machine is in one of seven kinds of state and moves on thirteen
events.  A move that happened is written `S(from) x E(event) = S'(to)`.

A session whose connection was lost is reactivated after a delay: at once
for the first attempt, then after one second, and after twice the time
for each further attempt, up to `maxDelay` seconds.
-/

namespace OpcSession.Session

/-- All that can move the machine.  Events carry nothing with them: what came
about on the way is in the state that raised them. -/
inductive Event
  | sessionRequested | disconnectRequested
  | createSucceeded | createFailed
  | activateSucceeded | activateFailed
  | connectionLost | sessionInvalid
  | reactivateRequested | reactivateSucceeded
  | reactivateFailed | reactivateInvalid
  | disconnectSucceeded
deriving DecidableEq, Repr, Inhabited

namespace Event

def table : List (Event × String) :=
  [(sessionRequested, "SessionRequested"),
   (disconnectRequested, "DisconnectRequested"),
   (createSucceeded, "CreateSucceeded"), (createFailed, "ErrCreateFailed"),
   (activateSucceeded, "ActivateSucceeded"),
   (activateFailed, "ErrActivateFailed"),
   (connectionLost, "ErrConnectionLost"), (sessionInvalid, "ErrSessionInvalid"),
   (reactivateRequested, "ReactivateRequested"),
   (reactivateSucceeded, "ReactivateSucceeded"),
   (reactivateFailed, "ErrReactivateFailed"),
   (reactivateInvalid, "ErrReactivateInvalid"),
   (disconnectSucceeded, "DisconnectSucceeded")]

def name (e : Event) : String := ((table.find? (·.1 = e)).map (·.2)).getD ""

def ofName? (s : String) : Option Event := (table.find? (·.2 = s)).map (·.1)

end Event

/-- The kinds of states, which are all that is told of a state to those who
watch the machine. -/
inductive Kind
  | inactive | creating | activating | active | closing
  | reactivateDelay | reactivateExecute
deriving DecidableEq, Repr, Inhabited

namespace Kind

def table : List (Kind × String) :=
  [(inactive, "Inactive"), (creating, "CreatingSession"),
   (activating, "ActivatingSession"), (active, "Active"),
   (closing, "ClosingSession"), (reactivateDelay, "ReactivateDelay"),
   (reactivateExecute, "ReactivateExecute")]

def name (k : Kind) : String := ((table.find? (·.1 = k)).map (·.2)).getD ""

def ofName? (s : String) : Option Kind := (table.find? (·.2 = s)).map (·.1)

def isActive (k : Kind) : Bool := k = active

def isReactivating (k : Kind) : Bool := k = reactivateDelay ∨ k = reactivateExecute

end Kind

/-- A move of the machine, as it is made known: the kinds of both states, and
the event between them. -/
structure Transition where
  source : Kind
  event : Event
  target : Kind
deriving DecidableEq, Repr, Inhabited

def Transition.text (t : Transition) : String :=
  "S(" ++ t.source.name ++ ") x E(" ++ t.event.name ++ ") = S'(" ++ t.target.name ++ ")"

/-- The longest delay before an attempt to reactivate, in seconds; it is not
exceeded, however often attempts fail. -/
def maxDelay : Nat := 16

/-- The delay that follows a delay, in seconds: none, one, and then twice as
long each time up to the longest. -/
def nextDelay (delay : Nat) : Nat := if delay = 0 then 1 else min (2 * delay) maxDelay

end OpcSession.Session
