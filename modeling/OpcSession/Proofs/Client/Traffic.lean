import Mathlib.Algebra.Group.Nat.Defs
import Mathlib.Data.List.Pairwise
import OpcSession.Proofs.Client.Errands

/-!
# Requests and responses on the channel, in any order

Many owners use the channel at once.  Each of them posts a request, has it handed
over to the connection, waits, and returns with what has come of it; others
connect and disconnect; frames of any kind come in, connections end, and time
goes by.  Between any two of these *incidents* any other may happen.

Beside the client stands a ledger that the client knows nothing of: the calls
that are open, the responses that were heard on each connection, and how many
handles were given out.

* `Traffic`, `Incident`, `Traffic.step` — a client with its ledger, and what may
  happen to it;
* `handleAt`, `allocate_next` — the handles that are given out, one after the
  other;
* `Traffic.Spares` — no call stays open while all handles are given out;
* `Traffic.Booked`, `Traffic.Booked.alone` — the ledger is in order, and then no
  two open calls have the same handle.
-/

namespace OpcSession.Simulation

open Session Client

/-- A call that sends a request and has not returned.  The client forgets a
request when nobody waits for it any more; the ledger keeps it until its owner
has taken what came of it. -/
structure OpenCall where
  /-- Whose call it is; an owner has one at a time. -/
  owner : Owner
  /-- What is asked, before it was given a handle. -/
  request : Request
  /-- The handle that was given to the request. -/
  handle : UInt32
  /-- The connection in use when the request was posted, on which alone the
  response may come in. -/
  connection : ConnectionId
  /-- What was to be sent for the request, if it could be encoded. -/
  sent? : Option RequestEnvelope
  /-- How many handles had been given out before; unlike the handle itself it
  never recurs. -/
  index : Nat
  /-- How many responses had been heard before, none of which can be meant for
  this call. -/
  since : Nat
  /-- Whether nothing is left to be handed over to the connection. -/
  handed : Bool

/-- The request under its handle: what the other side gets, and answers with
the same handle. -/
def OpenCall.envelope (p : OpenCall) : RequestEnvelope where
  handle := p.handle
  body := p.request.withHandle p.handle

/-- The frame that goes out for a call, if the request could be encoded. -/
def OpenCall.frame? (p : OpenCall) : Option String := p.sent?.map Wire.encodeRequest

/-- Two calls of two owners, each with a handle of its own at the time when it
was drawn. -/
def OpenCall.Apart (p q : OpenCall) : Prop := p.owner ≠ q.owner ∧ p.index ≠ q.index

instance : Std.Symm OpenCall.Apart where
  symm _ _ h := ⟨h.1.symm, h.2.symm⟩

/-- What is on its way to the connection.  Nothing is when the request could
not be encoded, or when the connection has taken the frame or failed to. -/
def OpenCall.sending? (p : OpenCall) : Option RequestEnvelope :=
  if p.handed then none else p.sent?

/-- The first response with the handle of a call that was heard on its
connection since the request was posted. -/
def OpenCall.answer? (p : OpenCall) (heard : List (ConnectionId × ResponseEnvelope)) :
    Option ResponseEnvelope :=
  ((heard.drop p.since).find? fun x => x.1 = p.connection ∧ x.2.handle = p.handle).map (·.2)

/-- A client with its ledger.  What a law says of requests and responses it
says of the ledger, since the client itself keeps no account of what has
been. -/
structure Traffic where
  /-- The client, which goes on without looking at the rest. -/
  client : ClientRun
  /-- The calls that are open, the oldest first. -/
  calls : List OpenCall := []
  /-- What was heard, on which connection, in the order in which it came
  in. -/
  heard : List (ConnectionId × ResponseEnvelope) := []
  /-- How many handles were given out. -/
  allocated : Nat := 0

/-- What may happen next on the channel.  An incident ends where its owner has
to wait, be it for the connection to take a frame, for a response, or for the
turn; so between any two of them any other may happen. -/
inductive Incident
  /-- A call begins: an owner posts a request. -/
  | request (o : Owner) (q : Request)
  /-- The connection has taken the frame of an owner, or failed to. -/
  | handed (o : Owner) (error : Option TransportError)
  /-- An owner that is idle asks to be connected. -/
  | connect (o : Owner)
  /-- An owner that is idle asks to be disconnected. -/
  | disconnect (o : Owner)
  /-- An owner goes on as far as it can; its deadline may have come. -/
  | proceed (o : Owner)
  /-- A text comes in on a connection, whatever it is. -/
  | frame (c : ConnectionId) (text : String)
  /-- A connection ends from the other side, or its stream breaks. -/
  | ended (c : ConnectionId)
  /-- An owner returns with what has come of what it did. -/
  | returned (o : Owner)
  /-- Time goes by on the clock of the timeouts. -/
  | elapse (d : Duration)
  /-- The peer becomes another; its connections are still numbered on. -/
  | peer (p : Peer)

/-! ## Handles -/

/-- The handle that is given out after `n` others: all but zero, in a
circle. -/
@[irreducible]
def handleAt (n : Nat) : UInt32 := UInt32.ofNat (n % (2 ^ 32 - 1) + 1)

/-- The handle in the place `n` of the circle of all handles but zero. -/
theorem toNat_handleAt (n : Nat) : (handleAt n).toNat = n % (2 ^ 32 - 1) + 1 := by
  rw [handleAt, UInt32.toNat_ofNat']
  omega

/-- A counter that stands anywhere gives the handle at its place in the
circle. -/
theorem allocate_eq (c : Channel) : c.allocate.1 = handleAt (c.nextHandle.toNat - 1) := by
  apply UInt32.toNat_inj.mp
  rw [toNat_handleAt, Channel.allocate]
  by_cases hzero : c.nextHandle = 0
  · rw [if_pos hzero, hzero]
    rfl
  · have hpositive : c.nextHandle.toNat ≠ 0 := fun hnone => hzero (UInt32.toNat_inj.mp hnone)
    have hrange := c.nextHandle.toNat_lt
    rw [if_neg hzero]
    dsimp only
    omega

/-- What is given out next depends on the last handle alone, and not on who
waits, or on what. -/
theorem allocate_congr {c c' : Channel} (h : c.nextHandle = c'.nextHandle) :
    c.allocate.1 = c'.allocate.1 := by
  unfold Channel.allocate
  rw [h]
  split <;> rfl

/-- After each handle comes the next one, with zero left out where the counter
begins anew. -/
theorem allocate_next {c : Channel} {n : Nat} (h : c.allocate.1 = handleAt n) :
    c.allocate.2.allocate.1 = handleAt (n + 1) := by
  have hnext : c.allocate.2.nextHandle = c.allocate.1 + 1 := by
    unfold Channel.allocate
    split <;> rfl
  have hvalue : (handleAt n + 1).toNat = (n % (2 ^ 32 - 1) + 2) % 2 ^ 32 := by
    rw [UInt32.toNat_add, toNat_handleAt]
    simp [Nat.add_assoc]
  rw [h] at hnext
  apply UInt32.toNat_inj.mp
  rw [toNat_handleAt, Channel.allocate, hnext]
  by_cases hzero : handleAt n + 1 = 0
  · rw [if_pos hzero]
    rw [hzero] at hvalue
    simp only [UInt32.toNat_zero, UInt32.toNat_one] at hvalue ⊢
    omega
  · rw [if_neg hzero]
    have : (handleAt n + 1).toNat ≠ 0 := fun h => hzero (UInt32.toNat_inj.mp h)
    rw [hvalue] at this ⊢
    omega

/-- Handles that are not a whole circle apart are different.  That is all that
keeps two requests from being taken for each other. -/
theorem handleAt_ne {m n : Nat} (hless : m < n) (hnear : n < m + (2 ^ 32 - 1)) :
    handleAt m ≠ handleAt n := by
  intro hsame
  have hequal := congrArg UInt32.toNat hsame
  rw [toNat_handleAt, toNat_handleAt] at hequal
  omega

namespace Traffic

open ClientRun

variable (w : Traffic)

/-- A client that was just made, with nothing in its ledger. -/
def start (url : String) (settings : ClientSettings) (endpoint : EndpointDescription)
    (credentials : Credentials) : Traffic where
  client := .start url settings endpoint credentials

/-- The same ledger beside another client; for what happens to the client
without a call being opened or closed. -/
def beside (r : ClientRun) : Traffic := { w with client := r }

/-- The client that a ledger was put beside is that one. -/
@[simp] theorem client_beside (r : ClientRun) : (w.beside r).client = r := rfl

/-- An owner that does nothing on the channel and has nothing to return
with. -/
def Idle (o : Owner) : Prop :=
  w.client.activity? o = none ∧ w.client.outcome? o = none ∧ ∀ p ∈ w.calls, p.owner ≠ o

instance (o : Owner) : Decidable (w.Idle o) := by
  unfold Idle
  infer_instance

/-- A call that gets the next handle.  It counts as handed over at once if
there is nothing to be sent for it. -/
def opening (o : Owner) (q : Request) (c : ConnectionId) (sent? : Option RequestEnvelope) :
    OpenCall where
  owner := o
  request := q
  handle := w.client.channel.allocate.1
  connection := c
  sent? := sent?
  index := w.allocated
  since := w.heard.length
  handed := sent?.isNone

/-- A request is posted; while there is a connection it gets a handle. -/
def post (o : Owner) (q : Request) : Traffic :=
  let (sent?, client) := w.client.post o q
  match w.client.channel.current? with
  | none => w.beside client
  | some link =>
    { w with
      client := client
      calls := w.calls ++ [w.opening o q link.connection sent?]
      allocated := w.allocated + 1 }

/-- Nothing of an owner is on its way to the connection any more. -/
def settle (o : Owner) : Traffic :=
  { w with calls := w.calls.map fun p => if p.owner = o then { p with handed := true } else p }

/-- What was on its way to the connection is not any more: the connection has
taken it, or failed to with an error. -/
def handOver (o : Owner) (error : Option TransportError) : Traffic :=
  match (w.calls.find? (·.owner = o)).bind OpenCall.sending? with
  | none => w
  | some e => (w.beside (w.client.handOver o e error)).settle o

/-- The reader of the connection in use takes in a text.  A text on another
connection reaches nobody, and one that is no response is passed over. -/
def hear (c : ConnectionId) (text : String) : Traffic :=
  if w.client.channel.reads c then
    { w with
      client := w.client.read [.frame text]
      heard := w.heard ++ ((Wire.decodeResponse? text).map (c, ·)).toList }
  else w

/-- An owner returns with what has come of what it did, unless what it sends
is still on its way. -/
def leave (o : Owner) : Traffic :=
  if ∀ p ∈ w.calls, p.owner = o → p.handed then
    match w.client.takeOutcome? o with
    | none => w
    | some (_, client) =>
      { w with client := client, calls := w.calls.filter (·.owner ≠ o) }
  else w

/-- What an incident makes of the client and its ledger.  One that is not
possible at the moment, such as a request of an owner that is busy, makes
nothing of them. -/
def step : Incident → Traffic
  | .request o q => if w.Idle o then w.post o q else w
  | .handed o error => w.handOver o error
  | .connect o => if w.Idle o then w.beside (w.client.use o .connect) else w
  | .disconnect o => if w.Idle o then w.beside (w.client.use o .disconnect) else w
  | .proceed o => w.beside (w.client.proceed o)
  | .frame c text => w.hear c text
  | .ended c =>
    if w.client.channel.reads c then w.beside (w.client.read [.finished]) else w
  | .returned o => w.leave o
  | .elapse d => w.beside { w.client with elapsed := w.client.elapsed + d }
  | .peer p =>
    w.beside { w.client with peer := { p with connections := w.client.peer.connections } }

/-- How many handles were given out after that of a call; for how long it has
been open, counted in requests. -/
def further (p : OpenCall) : Nat := w.allocated - (p.index + 1)

/-- No call is open for so long that all other handles were given out. -/
def Sparing : Prop := ∀ p ∈ w.calls, w.further p < 2 ^ 32 - 1

/-- What incidents make of the client and its ledger, one after the other. -/
def after : List Incident → Traffic → Traffic
  | [], w => w
  | i :: rest, w => after rest (w.step i)

/-- At no point a call is open for too long.  This is a condition on a whole
course of incidents, and says that handles never come around to one that is
still in use. -/
def Spares : List Incident → Traffic → Prop
  | [], w => w.Sparing
  | i :: rest, w => w.Sparing ∧ Spares rest (w.step i)

/-! ## The ledger -/

/-- The ledger is in order: handles were given out one after the other, no
owner has two calls, and what goes out for a call is its request under its
handle. -/
structure Booked : Prop where
  /-- The handle that comes next is the one whose turn it is. -/
  next : w.client.channel.allocate.1 = handleAt w.allocated
  /-- Each call has the handle whose turn it was. -/
  handle : ∀ p ∈ w.calls, p.handle = handleAt p.index
  /-- Handles of open calls were given out before. -/
  given : ∀ p ∈ w.calls, p.index < w.allocated
  /-- What had been heard when a call began is still in the ledger. -/
  heard : ∀ p ∈ w.calls, p.since ≤ w.heard.length
  /-- Open calls have different owners, and drew their handles at different
  times. -/
  apart : w.calls.Pairwise OpenCall.Apart
  /-- What goes out for a call is its request, under its handle. -/
  sent : ∀ p ∈ w.calls, ∀ e ∈ p.sent?, e = p.envelope

variable {w}

@[simp] theorem calls_start (url : String) (settings : ClientSettings)
    (endpoint : EndpointDescription) (credentials : Credentials) :
    (start url settings endpoint credentials).calls = [] := rfl

/-- The ledger is in order in the beginning: nothing is in it, and the first
handle is next. -/
theorem booked_start (url : String) (settings : ClientSettings) (endpoint : EndpointDescription)
    (credentials : Credentials) : (start url settings endpoint credentials).Booked where
  next := allocate_eq _
  handle := by simp
  given := by simp
  heard := by simp
  apart := .nil
  sent := by simp

/-- No owner has two open calls, so whatever comes of what an owner does comes
of its call. -/
theorem Booked.eq_of_owner (h : w.Booked) {p q : OpenCall} (hp : p ∈ w.calls)
    (hq : q ∈ w.calls) (howner : p.owner = q.owner) : p = q := by
  by_contra hother
  exact (h.apart.forall hp hq hother).1 howner

/-- **While no call stays open for too long, no two open calls have the same
handle.**  Their places on the circle differ by less than a whole round. -/
theorem Booked.alone (h : w.Booked) (hspare : w.Sparing) {p q : OpenCall} (hp : p ∈ w.calls)
    (hq : q ∈ w.calls) (hhandle : p.handle = q.handle) : p = q := by
  by_contra hother
  obtain ⟨-, hindex⟩ := h.apart.forall hp hq hother
  have hfurther : w.allocated - (p.index + 1) < 2 ^ 32 - 1 := hspare p hp
  have hfurther' : w.allocated - (q.index + 1) < 2 ^ 32 - 1 := hspare q hq
  have hgiven := h.given p hp
  have hgiven' := h.given q hq
  rw [h.handle p hp, h.handle q hq] at hhandle
  rcases Nat.lt_or_gt_of_ne hindex with hless | hless
  · exact handleAt_ne hless (by omega) hhandle
  · exact handleAt_ne hless (by omega) hhandle.symm

/-- What is on its way for an owner is the request of its call under its
handle, and is not on its way any more when it was handed over. -/
theorem Booked.handOver_cases (h : w.Booked) (o : Owner) (error : Option TransportError) :
    ((w.calls.find? (·.owner = o)).bind OpenCall.sending? = none ∧ w.handOver o error = w) ∨
    ∃ p ∈ w.calls, p.owner = o ∧ p.handed = false ∧
      (w.calls.find? (·.owner = o)).bind OpenCall.sending? = some p.envelope ∧
      w.handOver o error = (w.beside (w.client.handOver o p.envelope error)).settle o := by
  unfold Traffic.handOver
  cases hfound : (w.calls.find? (·.owner = o)).bind OpenCall.sending? with
  | none => exact .inl ⟨rfl, rfl⟩
  | some e =>
      obtain ⟨p, hfind, hsending⟩ := Option.bind_eq_some_iff.mp hfound
      have hp := List.mem_of_find?_eq_some hfind
      obtain ⟨hunhanded, hsent⟩ : p.handed = false ∧ p.sent? = some e := by
        unfold OpenCall.sending? at hsending
        split at hsending
        · cases hsending
        · rename_i hunhanded
          exact ⟨by simpa using hunhanded, hsending⟩
      obtain rfl := h.sent p hp e hsent
      exact .inr ⟨p, hp, by simpa using List.find?_some hfind, hunhanded, rfl, rfl⟩

/-- What gives out no handle leaves the ledger in order, whatever else it does
to the client. -/
theorem Booked.beside (h : w.Booked) {r : ClientRun}
    (hnext : r.channel.nextHandle = w.client.channel.nextHandle) : (w.beside r).Booked where
  next := (allocate_congr hnext).trans h.next
  handle := h.handle
  given := h.given
  heard := h.heard
  apart := h.apart
  sent := h.sent

/-- A call is opened with the next handle, by an owner that has no other. -/
theorem Booked.open (h : w.Booked) {p : OpenCall} {r : ClientRun}
    (hnext : r.channel.nextHandle = w.client.channel.allocate.2.nextHandle)
    (hfree : ∀ q ∈ w.calls, q.owner ≠ p.owner) (hhandle : p.handle = w.client.channel.allocate.1)
    (hindex : p.index = w.allocated) (hsince : p.since = w.heard.length)
    (hsent : ∀ e ∈ p.sent?, e = p.envelope) :
    ({ w with
      client := r
      calls := w.calls ++ [p]
      allocated := w.allocated + 1 } : Traffic).Booked := by
  have hall : ∀ {P : OpenCall → Prop}, (∀ q ∈ w.calls, P q) → P p → ∀ q ∈ w.calls ++ [p], P q := by
    intro P hold hnew q hq
    rcases List.mem_append.mp hq with hq | hq
    · exact hold q hq
    · exact List.mem_singleton.mp hq ▸ hnew
  refine ⟨?_, hall h.handle ?_, hall ?_ ?_, hall h.heard ?_, ?_, hall h.sent hsent⟩
  · exact (allocate_congr hnext).trans (allocate_next h.next)
  · rw [hhandle, hindex]
    exact h.next
  · intro q hq
    exact Nat.lt_succ_of_lt (h.given q hq)
  · exact hindex ▸ Nat.lt_succ_self _
  · exact hsince ▸ Nat.le_refl _
  · refine List.pairwise_append.mpr ⟨h.apart, by simp, ?_⟩
    intro q hq p' hp'
    rw [List.mem_singleton.mp hp']
    refine ⟨hfree q hq, ?_⟩
    have hgiven := h.given q hq
    omega

/-- Whatever else becomes of the calls, the ledger stays in order: to have
been handed over is nothing that it orders. -/
theorem Booked.settle (h : w.Booked) (o : Owner) : (w.settle o).Booked := by
  have hall : ∀ {P : OpenCall → Prop}, (∀ p, P p → P { p with handed := true }) →
      (∀ p ∈ w.calls, P p) → ∀ p ∈ (w.settle o).calls, P p := by
    intro P hstep hold p' hp'
    obtain ⟨p, hp, rfl⟩ := List.mem_map.mp hp'
    split
    · exact hstep p (hold p hp)
    · exact hold p hp
  refine ⟨h.next, hall (fun _ => id) h.handle, hall (fun _ => id) h.given,
    hall (fun _ => id) h.heard,
    ?_, hall (fun _ => id) h.sent⟩
  refine List.pairwise_map.mpr (h.apart.imp ?_)
  intro p q hapart
  split <;> split <;> exact hapart

/-- A call that has returned leaves the ledger, and those that are left are in
order as before. -/
theorem Booked.leave (h : w.Booked) (o : Owner) :
    ({ w with calls := w.calls.filter (·.owner ≠ o) } : Traffic).Booked where
  next := h.next
  handle := fun p hp => h.handle p (List.mem_filter.mp hp).1
  given := fun p hp => h.given p (List.mem_filter.mp hp).1
  heard := fun p hp => h.heard p (List.mem_filter.mp hp).1
  apart := h.apart.filter _
  sent := fun p hp => h.sent p (List.mem_filter.mp hp).1

/-- What is heard is added at the end, so it was heard after every call
began. -/
theorem Booked.hear (h : w.Booked) (x : ConnectionId × ResponseEnvelope) :
    ({ w with heard := w.heard ++ [x] } : Traffic).Booked where
  next := h.next
  handle := h.handle
  given := h.given
  heard := fun p hp => Nat.le_trans (h.heard p hp) (by simp)
  apart := h.apart
  sent := h.sent

end Traffic

end OpcSession.Simulation
