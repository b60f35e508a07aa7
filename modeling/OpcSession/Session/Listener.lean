import OpcSession.Session.Event

/-!
# Listeners to the activity of the session

A listener is told when a session becomes active and when it stops being
so.  It may react by adding or removing listeners or by raising events.
Listeners are numbered as they are added; a name stands for the listener
that was last added under it.
-/

namespace OpcSession.Session

/-- What a listener does when it is told.  Listeners may change who listens,
and may raise events. -/
inductive Reaction
  /-- Another listener is added, which only listens. -/
  | add (name : String)
  /-- The listener with a name is removed. -/
  | remove (name : String)
  | raise (event : Event)
deriving DecidableEq, Repr, Inhabited

/-- Who is told when a session comes into use and when it goes out of it, and
what it does then. -/
structure Listener where
  /-- The name by which it can be removed. -/
  name : String
  /-- Whether nobody is shown that it was called. -/
  silent : Bool := false
  /-- What it does when a session comes into use. -/
  onActive : List Reaction := []
  /-- What it does when a session goes out of use. -/
  onInactive : List Reaction := []
deriving DecidableEq, Repr, Inhabited

/-- What a listener does when a session becomes active, or stops being, in
this order. -/
def Listener.reactions (l : Listener) (active : Bool) : List Reaction :=
  if active then l.onActive else l.onInactive

/-- The listeners by their numbers, and the numbers that names stand for.  A
name that is used again stands for the later listener; the earlier one
stays. -/
structure Listeners where
  lastId : Nat := 0
  /-- The listeners, in the order in which they were added. -/
  entries : List (Nat × Listener) := []
  names : List (String × Nat) := []
deriving DecidableEq, Repr, Inhabited

namespace Listeners

def add (ls : Listeners) (l : Listener) : Listeners where
  lastId := ls.lastId + 1
  entries := ls.entries ++ [(ls.lastId + 1, l)]
  names := (l.name, ls.lastId + 1) :: ls.names.filter (·.1 ≠ l.name)

/-- Removes the listener a name stands for; says whether it was still there,
and nothing of a name that stands for none. -/
def remove (ls : Listeners) (name : String) : Option Bool × Listeners :=
  match ls.names.find? (·.1 = name) with
  | none => (none, ls)
  | some (_, id) =>
    (some (ls.entries.any (·.1 = id)),
      { ls with entries := ls.entries.filter (·.1 ≠ id) })

/-- Those that are told of an edge: the ones that are there when it happens,
in the order in which they were added. -/
def snapshot (ls : Listeners) : List Listener := ls.entries.map (·.2)

end Listeners

end OpcSession.Session
