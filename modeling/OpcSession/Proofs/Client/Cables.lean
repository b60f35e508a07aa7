import OpcSession.Proofs.Client.Standing

/-!
# All links that a client ever opened

A client opens one link after the other, and whoever uses one goes on to use that one, also when
another has taken its place.  Beside the client stands a ledger of all its links: the requests that
wait on each of them, whether somebody still reads from it, the owners whose calls hold it, and how
it came to its end.  What happens to a link happens to it wherever it is: a response that comes in
on it, a request that times out, the end of its stream.

* `Cable`, `Ending` — a link with all that belongs to it, and how it comes to its end;
* `Cabling`, `Occasion` — a client with all its links, and what may happen to it;
* `Cabling.rewired`, `Cabling.slotAfter`, `Cabling.news`, `Cabling.displaced` — what becomes of the
  links and of whoever waits under a handle that another one gets, and the notices;
* `Cabling.happen`, `Cabling.after` — what becomes of all of it.
-/

namespace OpcSession.Client

/-! ## What becomes of a link -/

namespace Link

variable (l : Link)

/-- Nobody waits under a handle any more.  Nothing else becomes of the link,
and where nobody waited nothing becomes of it at all. -/
def remove (handle : UInt32) : Link := { l with pending := l.pending.filter (·.1 ≠ handle) }

/-- An owner waits under a handle, in the place of whoever did before.  That
is what a table kept by handles does; `Cabling.displaced` tells the one that
is lost of it. -/
def insert (handle : UInt32) (o : Owner) : Link :=
  { l with pending := (l.remove handle).pending ++ [(handle, o)] }

/-- The link is not alive any more, and nobody waits on it.  It is still
there: the channel lets go of it only when it disconnects or dials again. -/
def finish : Link := { l with alive := false, pending := [] }

end Link

end OpcSession.Client

namespace OpcSession.Simulation

open Session Client

/-! ## Cables -/

/-- How a link comes to its end.  The two differ in what is told: the end of a
stream is a notice, and to disconnect is not. -/
inductive Ending
  /-- The stream ended, which the reader found. -/
  | lapsed
  /-- The channel disconnected, and gave the link up. -/
  | closed
deriving DecidableEq, Repr

/-- A link with all that belongs to it.  Calls hold the link that was in use
when they began, also when another has taken its place, so the ledger keeps
links that the channel has long forgotten. -/
structure Cable extends Link where
  /-- Links are numbered in the order in which they were opened. -/
  number : Nat
  /-- Whether its reader still takes in what comes.  A reader leaves with its
  link, or when another connection takes its place. -/
  reading : Bool := true
  /-- The owners whose calls began on this link and have not returned. -/
  users : List Owner := []
  /-- How it came to its end, if it has; the first way counts. -/
  ending? : Option Ending := none
deriving Repr

namespace Cable

variable (x : Cable)

/-- The same on a link in the ledger.  It does not follow that the owner's
call holds the link: that is written down on its own, by `hold`. -/
def insert (handle : UInt32) (o : Owner) : Cable := { x with toLink := x.toLink.insert handle o }

/-- The same on a link in the ledger; the call of whoever waited goes on
holding the link until it returns. -/
def remove (handle : UInt32) : Cable := { x with toLink := x.toLink.remove handle }

/-- A call begins to use the link, and holds it until its owner returns. -/
def hold (o : Owner) : Cable := { x with users := x.users ++ [o] }

/-- An owner has returned, and its call holds the link no longer. -/
def release (o : Owner) : Cable := { x with users := x.users.filter (· ≠ o) }

/-- Nobody reads from the link any more, since another connection has come
about.  The link was dead by then, so nothing is missed. -/
def silence : Cable := { x with reading := false }

/-- The link comes to its end, if it has not before: nobody waits on it,
nobody reads from it, and the way it ended is kept. -/
def finish (e : Ending) : Cable :=
  { x with toLink := x.toLink.finish, reading := false, ending? := x.ending?.or (some e) }

/-- Whether somebody reads from the link what comes in on a connection.  Links
that were replaced are read by nobody, whatever their connection was. -/
def reads (c : ConnectionId) : Bool := x.reading ∧ x.connection = c

end Cable

/-- A client with the ledger of its calls and the ledger of its links.  What
the channel forgets stays here: links that were replaced, and the notices that
were given, also those that a full mailbox dropped. -/
structure Cabling extends Traffic where
  /-- All links that were ever opened, the oldest first. -/
  cables : List Cable := []
  /-- The number of the link in use, if the channel has one. -/
  slot? : Option Nat := none
  /-- The notices in the order in which they were given, each with the number
  of the link that it came of. -/
  notices : List (Nat × Notice) := []
  /-- How many notices had been given when somebody began to listen; whoever
  listens has heard of none of them. -/
  since : Nat := 0

/-- What may happen to a client.  Beside the incidents of its traffic somebody
may begin to listen, which is all that the session machine does to the channel
without using it. -/
inductive Occasion
  | incident (i : Incident)
  /-- Somebody begins to listen to the notices, in place of whoever did
  before, and hears of what is given from now on. -/
  | subscribed (epoch : Nat)

namespace Cabling

variable (b : Cabling)

/-- A client that was just made: no link was opened, and no notice given. -/
def start (url : String) (settings : ClientSettings) (endpoint : EndpointDescription)
    (credentials : Credentials) : Cabling where
  toTraffic := .start url settings endpoint credentials

/-- Whether a link is the one in use.  A link that ended by itself stays in
use until the channel disconnects or dials again. -/
def inSlot (x : Cable) : Bool := b.slot? = some x.number

/-- The links after something has become of some of them; the others stay as
they are, and none is dropped or moved. -/
def change (P : Cable → Bool) (f : Cable → Cable) : List Cable :=
  b.cables.map fun x => if P x then f x else x

/-- What is on its way for an owner: the frame of its call, until the
connection has taken it or failed to. -/
def sending? (o : Owner) : Option RequestEnvelope :=
  (b.calls.find? (·.owner = o)).bind OpenCall.sending?

/-- Whether the call of an owner holds the link in use.  One that holds an
older link cannot take its handle away from whoever has it on the new one. -/
def holdsSlot (o : Owner) : Bool := b.cables.any fun x => b.inSlot x ∧ o ∈ x.users

/-- Whether an owner that goes on gives up the link: it disconnects, and it is
its turn. -/
def gives (o : Owner) : Bool :=
  b.client.activity? o = some .disconnecting ∧ b.client.channel.hasTurn o

/-- The connection that comes about when an owner goes on, if one does. -/
def opened? (o : Owner) : Option ConnectionId :=
  if b.client.channel.isConnected then none
  else (b.client.proceed o).channel.current?.map (·.connection)

/-- The links after an incident.

A request waits on the link in use, if that is alive.  A frame that could not
be sent, and a response that does not come in time, are removed from the link
that the call holds.  A new connection takes the place of the last one, from
which nobody reads any more. -/
def rewired : Incident → List Cable
  | .request o q =>
    if b.Idle o then
      b.change (fun x => b.inSlot x ∧ x.alive) fun x =>
        ((b.client.post o q).1.elim x fun e => x.insert e.handle o).hold o
    else b.cables
  | .handed o error =>
    match b.sending? o, error with
    | none, _ => b.cables
    | some e, some _ => b.change (fun x => o ∈ x.users) (·.remove e.handle)
    | some e, none =>
      if b.client.settings.transport.requestDuration = .zero then
        b.change (fun x => o ∈ x.users ∧ x.pending.contains (e.handle, o)) (·.remove e.handle)
      else b.cables
  | .proceed o =>
    match b.client.activity? o with
    | some (.exchanging handle _ deadline) =>
      if deadline ≤ b.client.elapsed then b.change (fun x => o ∈ x.users) (·.remove handle)
      else b.cables
    | _ =>
      if b.gives o then b.change b.inSlot (·.finish .closed)
      else match b.opened? o with
        | none => b.cables
        | some c =>
          b.change b.inSlot Cable.silence ++
            [{ connection := c, number := b.cables.length }]
  | .frame c text =>
    (Wire.decodeResponse? text).elim b.cables fun e => b.change (·.reads c) (·.remove e.handle)
  | .ended c => b.change (·.reads c) (·.finish .lapsed)
  | .returned o =>
    if (b.leave o).calls.any (·.owner = o) then b.cables
    else b.cables.map (·.release o)
  | _ => b.cables

/-- The number of the link in use after an incident.  Only to go on changes
it: an owner that disconnects leaves none, and one that dials makes the newest
link the one in use. -/
def slotAfter : Incident → Option Nat
  | .proceed o =>
    if b.gives o then none
    else (b.opened? o).elim b.slot? fun _ => some b.cables.length
  | _ => b.slot?

/-- The notices that an incident gives rise to: a fault that comes in is one,
and so is the end of a stream. -/
def news : Incident → List (Nat × Notice)
  | .frame c text =>
    ((Wire.decodeResponse? text).bind (·.body.fault?)).elim [] fun status =>
      (b.cables.filter (·.reads c)).map fun x => (x.number, .serviceFault status)
  | .ended c => (b.cables.filter (·.reads c)).map fun x => (x.number, .inactive)
  | _ => []

/-- The client when whoever waits under a handle that is given out anew, or
given up by another owner, does not wait any more. -/
def displaced : Incident → Traffic
  | .request o q =>
    if b.Idle o then
      (b.client.post o q).1.elim b.toTraffic fun e => b.beside (b.client.displace e.handle o)
    else b.toTraffic
  | .handed o (some _) =>
    if b.holdsSlot o then
      (b.sending? o).elim b.toTraffic fun e => b.beside (b.client.displace e.handle o)
    else b.toTraffic
  | _ => b.toTraffic

/-- What becomes of the client and its links by what happens.  Whoever is
displaced is told first, and then the client takes the step that it takes in
`Traffic`. -/
def happen : Occasion → Cabling
  | .incident i =>
    { b with
      toTraffic := (b.displaced i).step i
      cables := b.rewired i
      slot? := b.slotAfter i
      notices := b.notices ++ b.news i }
  | .subscribed epoch =>
    { b with
      toTraffic := b.beside { b.client with
        engine := { b.client.engine with watcher? := some { epoch := epoch } } }
      since := b.notices.length }

/-- What becomes of them by what happens one after the other, whatever that
is. -/
def after (os : List Occasion) : Cabling := os.foldl happen b

end Cabling

end OpcSession.Simulation
