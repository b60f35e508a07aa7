import OpcSession.Session.Engine
import OpcSession.Simulation.Answers

/-!
# A channel that follows scripts

A channel for rehearsing the session machine.  Calls pass *gates* that can
be held, and are answered by scripts, one for each call, or else as a
well-behaved server would.  A script may also drop the connection.
-/

namespace OpcSession.Simulation

open Session

/-- What is made of one call: the connection may drop, the call may fail, or
an answer may be given in place of the usual one. -/
structure Script where
  drop : Bool := false
  error? : Option SessionError := none
  response? : Option Response := none
deriving Repr, Inhabited

/-- Things that wait in order, under names; those with one name keep their
order. -/
abbrev Queues (α : Type) := List (String × α)

namespace Queues

variable {α : Type}

/-- Takes the first thing that waits under a name, if there is one, and leaves
the others. -/
def take? (name : String) : Queues α → Option (α × Queues α)
  | [] => none
  | (n, x) :: rest =>
    if n = name then some (x, rest)
    else (take? name rest).map fun (y, rest) => (y, (n, x) :: rest)

end Queues

structure ScriptedChannel where
  connected : Bool := false
  held : List String := []
  scripts : Queues Script := []
  counters : Counters := {}
deriving Repr, Inhabited

/-- A call on its way: refused, or in front of a gate which may be held. -/
inductive Underway
  | refused
  | atGate (gate : String) (c : Call)
deriving Repr, Inhabited

namespace ScriptedChannel

def hold (c : ScriptedChannel) (gate : String) : ScriptedChannel :=
  { c with held := gate :: c.held.filter (· ≠ gate) }

def release (c : ScriptedChannel) (gate : String) : ScriptedChannel :=
  { c with held := c.held.filter (· ≠ gate) }

def script (c : ScriptedChannel) (name : String) (s : Script) : ScriptedChannel :=
  { c with scripts := c.scripts ++ [(name, s)] }

/-- The start of a call, up to the gate that it has to pass. -/
def begin (c : ScriptedChannel) : Call → Underway
  | .connect => .atGate "connect" .connect
  | .disconnect => .atGate "disconnect" .disconnect
  | .send r => if c.connected then .atGate r.service (.send r) else .refused

/-- The script for a call, which is used up; without one the call goes as
usual. -/
def takeScript (c : ScriptedChannel) (name : String) : Script × ScriptedChannel :=
  match c.scripts.take? name with
  | some (s, rest) => (s, { c with scripts := rest })
  | none => ({}, c)

/-- What a request comes to, with the notices it gives rise to: a fault gives
one, and so does a connection that drops. -/
def serve (c : ScriptedChannel) (r : Request) : Outcome × List Notice × ScriptedChannel :=
  let (s, c) := c.takeScript r.service
  let lost : List Notice := if s.drop then [.inactive] else []
  let c := if s.drop then { c with connected := false } else c
  match s.error?, s.response? with
  | some (.serviceFault status), _ =>
    (.failed (.serviceFault status), lost ++ [.serviceFault status], c)
  | some e, _ => (.failed e, lost, c)
  | none, some response => (.response response, lost, c)
  | none, none =>
    let (response, counters) := c.counters.answer r
    (.response response, lost, { c with counters := counters })

/-- What a call comes to behind its gate, with the notices it gives rise
to. -/
def finish (c : ScriptedChannel) : Call → Outcome × List Notice × ScriptedChannel
  | .connect =>
    let (s, c) := c.takeScript "connect"
    match s.error? with
    | some e => (.failed e, [], c)
    | none => (.done, [], { c with connected := true })
  | .disconnect =>
    let (s, c) := c.takeScript "disconnect"
    (s.error?.elim .done .failed, [], { c with connected := false })
  | .send r => c.serve r

/-- What a call on its way comes to, unless its gate is held. -/
def pass? (c : ScriptedChannel) : Underway → Option (Outcome × List Notice × ScriptedChannel)
  | .refused => some (.failed (.transport "not connected"), [], c)
  | .atGate gate call => if c.held.contains gate then none else some (c.finish call)

end ScriptedChannel

end OpcSession.Simulation
