import OpcSession.Session.Basic
import OpcSession.Session.Event

/-!
# The states of the session machine

A state holds what its phase needs: the callers that wait for a session,
the session that is being built, used or given up, and the delay before
the next attempt to reactivate it.  A caller is known by its *ticket*.

`transition?` is the table of moves.  A move takes some of the waiting
callers along; those it leaves behind will not get a session from the
state that follows.
-/

namespace OpcSession.Session

/-- The number of one call that waits for an answer, under which it is
answered. -/
abbrev Ticket := Nat

/-- Where the machine is with its session, and who waits there. -/
inductive State
  /-- No session.  One that was created but not yet activated may have been
  abandoned and is still to be closed. -/
  | inactive (abandoned : Option Session)
  /-- A session is being created; it is held once the server has answered. -/
  | creating (waiters : List Ticket) (created : Option Session)
  /-- The session that was created is being activated. -/
  | activating (waiters : List Ticket) (session : Session)
  /-- The session is in use, and nobody waits once that has been told. -/
  | active (waiters : List Ticket) (session : Session)
  /-- The session is being closed, on behalf of those who asked for it. -/
  | closing (session : Session) (completions : List Ticket)
  /-- The connection was lost, and the next attempt comes after a delay. -/
  | reactivateDelay (previous : Session) (delay : Nat) (waiters : List Ticket)
  /-- The session is being activated over another connection, and held anew
  once it has been. -/
  | reactivateExecute (previous : Session) (delay : Nat) (waiters : List Ticket)
      (session : Option Session)
deriving DecidableEq, Repr, Inhabited

namespace State

def kind : State → Kind
  | inactive _ => .inactive
  | creating _ _ => .creating
  | activating _ _ => .activating
  | active _ _ => .active
  | closing _ _ => .closing
  | reactivateDelay _ _ _ => .reactivateDelay
  | reactivateExecute _ _ _ _ => .reactivateExecute

/-- The session in use, which is given to whoever asks. -/
def activeSession? : State → Option Session
  | active _ session => some session
  | _ => none

/-- The callers that wait for a session, in the order in which they came. -/
def waiters : State → List Ticket
  | creating ws _ | activating ws _ | active ws _ | reactivateDelay _ _ ws
  | reactivateExecute _ _ ws _ => ws
  | inactive _ | closing _ _ => []

/-- The callers that wait for the session to be closed, in the order in which
they came. -/
def completions : State → List Ticket
  | closing _ cs => cs
  | _ => []

/-- The same state with other callers waiting for a session; where nobody can
wait it stays as it is. -/
def withWaiters (ws : List Ticket) : State → State
  | creating _ created => creating ws created
  | activating _ session => activating ws session
  | active _ session => active ws session
  | reactivateDelay previous delay _ => reactivateDelay previous delay ws
  | reactivateExecute previous delay _ session => reactivateExecute previous delay ws session
  | inactive abandoned => inactive abandoned
  | closing session cs => closing session cs

/-- A state that an event leads to, and the callers left behind on the way
there. -/
structure Move where
  next : State
  /-- The callers who do not go along. -/
  left : List Ticket := []
deriving DecidableEq, Repr

/-- The table of moves; an event without a move is ignored.  Callers go along
where the next state still leads to a session. -/
def transition? : State → Event → Option Move
  | inactive _, .sessionRequested => some { next := creating [] none }
  | creating ws (some created), .createSucceeded =>
    some { next := activating ws created }
  | creating ws created, .disconnectRequested =>
    some { next := inactive created, left := ws }
  | creating ws _, .createFailed => some { next := inactive none, left := ws }
  | activating ws session, .activateSucceeded => some { next := active ws session }
  | activating ws _, .activateFailed => some { next := inactive none, left := ws }
  | activating ws session, .disconnectRequested =>
    some { next := closing session [], left := ws }
  | active ws session, .disconnectRequested =>
    some { next := closing session [], left := ws }
  | active ws session, .connectionLost =>
    some { next := reactivateDelay session 0 [], left := ws }
  | active ws _, .sessionInvalid => some { next := creating [] none, left := ws }
  | closing _ _, .disconnectSucceeded => some { next := inactive none }
  | closing _ _, .sessionRequested => some { next := creating [] none }
  | reactivateDelay previous _ ws, .disconnectRequested =>
    some { next := closing previous [], left := ws }
  | reactivateDelay previous delay ws, .reactivateRequested =>
    some { next := reactivateExecute previous delay ws none }
  | reactivateExecute previous _ ws session, .reactivateSucceeded =>
    some { next := active ws (session.getD previous) }
  | reactivateExecute previous delay ws _, .reactivateFailed =>
    some { next := reactivateDelay previous (nextDelay delay) [], left := ws }
  | reactivateExecute _ _ ws _, .reactivateInvalid =>
    some { next := creating [] none, left := ws }
  | reactivateExecute previous _ ws session, .disconnectRequested =>
    some { next := closing (session.getD previous) [], left := ws }
  | _, _ => none

end State

end OpcSession.Session
