import Mathlib.Control.Monad.Basic
import OpcSession.Proofs.Client.Aside
import OpcSession.Proofs.Lists

/-!
# A value that a client and others read and write

A server holds the value of one attribute.  Calls of the client read and write it,
as many at once as there are, and others change it too.  The server answers the
request of a call when it comes to it, a read with the value that it holds then;
the answer comes in when it comes in, and its call goes on when its turn comes.

The *versions* are the values that the server has held, and the *past* is what
happened to the calls and at the server, in order.  The client knows of neither.

* `SharedValue`, `Dealing`, `SharedValue.deal` — the client with the server, and what
  may happen next;
* `SharedValue.Sourced`, `SharedValue.Told` — where values come from, and a past in
  which every deed is justified by those before it;
* `SharedValue.move_cases`, `SharedValue.call_cases`, `SharedValue.goOn_cases`,
  `SharedValue.answer_cases` — what may become of a move, a call and an answer;
* `SharedValue.client_move` — the client as it is told of.
-/

namespace OpcSession.Simulation

open Session Client

/-- What happened to a call, or at the server on its behalf.  The client does
not see the deeds of the server, so laws about what a read gives are stated of
the past. -/
inductive Deed
  | began (ticket : Ticket) (goal : Goal)
  /-- The server has answered, and then held the value with this number; a
  write that it has answered with success it has applied by then. -/
  | answered (ticket : Ticket) (goal : Goal) (response : Response) (version : Nat)
  /-- A call is over, with this result. -/
  | returned (ticket : Ticket) (goal : Goal) (result : Result)
deriving DecidableEq, Repr, Inhabited

namespace Deed

/-- The call that a deed is about. -/
def ticket : Deed → Ticket
  | began t _ | answered t _ _ _ | returned t _ _ => t

/-- What is wanted by the call that a deed is about. -/
def goal : Deed → Goal
  | began _ g | answered _ g _ _ | returned _ g _ => g

/-- Whom the server has answered, and what, if the deed is that. -/
def answer? : Deed → Option (Ticket × Response)
  | answered t _ r _ => some (t, r)
  | _ => none

/-- The number of what the server held when it answered. -/
def version? : Deed → Option Nat
  | answered _ _ _ version => some version
  | _ => none

end Deed

/-- What a server holds that answers a request to write with success; any
other answer leaves it with what it held. -/
def written? : Goal → Response → Option DataValue
  | .write _ _ value, r =>
    match writeStatus r with
    | .ok status => if status.isGood then some value else none
    | .error _ => none
  | _, _ => none

/-- A client, and a server that holds the value of an attribute.  The client
with its cache knows nothing of the versions and of the past, which only say
what it may give. -/
structure SharedValue where
  /-- The node and the attribute that the value is of. -/
  key : Cache.Key
  /-- The client, with its cache, its machine and its calls. -/
  client : ClientRun
  /-- What the server has held; the last of these is what it holds now. -/
  versions : List DataValue
  /-- What happened to the calls and at the server, in order. -/
  past : List Deed := []

/-- What may happen next, in any order: the client may be slow to go on, and a
response slow to come in. -/
inductive Dealing
  /-- The client makes a move.  Of several things that are done to it at once
  each is told by itself. -/
  | move (m : ClientRun.Move)
  /-- The server answers the request of a call; the response comes in by a
  move of the client, later. -/
  | answer (t : Ticket) (r : Response)
  /-- The server comes to hold a value on behalf of somebody else, at any
  time. -/
  | change (v : DataValue)

namespace SharedValue

open ClientRun

variable (s : SharedValue)

/-- A client that was just made, and the value that the server holds then. -/
def start (url : String) (settings : ClientSettings) (endpoint : EndpointDescription)
    (credentials : Credentials) (key : Cache.Key) (v : DataValue) : SharedValue where
  key := key
  client := .start url settings endpoint credentials
  versions := [v]

/-- What is wanted is to read or to write the value.  Calls about anything
else are made as well, and share the cache. -/
def About : Goal → Prop
  | .read node a | .write node a _ => (node, a) = s.key
  | _ => False

/-- Whether a call is about the value is told by its goal. -/
instance (g : Goal) : Decidable (s.About g) := by
  unfold About
  split <;> infer_instance

/-- Whom the server has answered so far, and what, in order. -/
def answers : List (Ticket × Response) := s.past.filterMap Deed.answer?

/-- What the server may answer: a read is answered with the value that it
holds. -/
def Truthful (g : Goal) (r : Response) : Prop :=
  match g, readValue r with
  | .read _ _, .ok v => s.versions.getLast? = some v
  | _, _ => True

/-- Whether the server may answer a request so is told by what it holds. -/
instance (g : Goal) (r : Response) : Decidable (s.Truthful g r) := by
  unfold Truthful
  split <;> infer_instance

/-- Whoever waits under the handle of a response to a request about the value
gets what the server has answered to that request. -/
def Admits (e : ResponseEnvelope) : Prop :=
  ∀ c ∈ s.client.callers, s.About c.goal →
    (e.handle, .caller c.ticket) ∈ s.client.channel.pending → (c.ticket, e.body) ∈ s.answers

/-- Whether a response is one that the server may have sent is told by what it
has answered. -/
instance (e : ResponseEnvelope) : Decidable (s.Admits e) := by
  unfold Admits
  infer_instance

/-- The calls of a caller that have come to be over, which is at most the one
that went on. -/
def returns (r : ClientRun) (t : Ticket) (g : Goal) : List Deed :=
  (r.done.drop s.client.done.length).map fun f => .returned t g f.result

/-- A call is made, under the next ticket.  It may be over at once, if the
cache holds what it wants. -/
def call (id : String) (direct : Bool) (g : Goal) : SharedValue :=
  let r := s.client.call id direct g
  { s with
    client := r
    past := s.past ++ [.began s.client.nextTicket g] ++ s.returns r s.client.nextTicket g }

/-- A call goes on, and may be over by that. -/
def goOn (t : Ticket) : SharedValue :=
  match s.client.callers.find? (·.ticket = t) with
  | none => s
  | some c =>
    let r := s.client.runCaller t
    { s with client := r, past := s.past ++ s.returns r t c.goal }

/-- A call that waits for the answer to its request, and has not got one. -/
def asking? (t : Ticket) : Option Caller :=
  if s.client.awaited.any (·.2 = .caller t) ∧ s.answers.all (·.1 ≠ t) then
    s.client.callers.find? (·.ticket = t)
  else none

/-- The server answers the request of a call about the value, if it may answer
so; else nothing happens. -/
def answer (t : Ticket) (r : Response) : SharedValue :=
  match s.asking? t with
  | none => s
  | some c =>
    if s.About c.goal ∧ s.Truthful c.goal r then
      let versions := s.versions ++ (written? c.goal r).toList
      { s with
        versions := versions
        past := s.past ++ [.answered t c.goal r (versions.length - 1)] }
    else s

/-- The client makes a move.  What is done to it in batches is left out, since
each part is a move of its own, and so are responses that the server has not
sent. -/
def move : Move → SharedValue
  | .act (.call id direct g) => s.call id direct g
  | .act (.batch _) => s
  | .caller t => s.goOn t
  | .received e => if s.Admits e then { s with client := s.client.move (.received e) } else s
  | m => { s with client := s.client.move m }

/-- What a dealing makes of the client and the server.  Only a change adds a
version by itself; a write adds one when it is answered. -/
def deal : Dealing → SharedValue
  | .move m => s.move m
  | .answer t r => s.answer t r
  | .change v => { s with versions := s.versions ++ [v] }

/-! ## Where values come from -/

/-- A call that reads the value, through the cache. -/
def reads : Goal := .read s.key.1 s.key.2

/-- A call that writes the value, and drops it from the cache where that
succeeds. -/
def writes (x : DataValue) : Goal := .write s.key.1 s.key.2 x

/-- A read has brought a value that the server held when it answered, and no
write has returned with success since. -/
def Sourced (past : List Deed) (v : DataValue) : Prop :=
  ∃ before t r version since, past = before ++ .returned t s.reads (.ok (.data v)) :: since ∧
    .answered t s.reads r version ∈ before ∧ s.versions[version]? = some v ∧
    ∀ w x, .returned w (s.writes x) (.ok .nothing) ∉ since

/-- What a read returns is what the server has answered, or was in the cache
when it began. -/
def Brought (before : List Deed) (t : Ticket) (v : DataValue) : Prop :=
  (∃ r version, .answered t s.reads r version ∈ before ∧ s.versions[version]? = some v) ∨
    ∃ earlier, before = earlier ++ [.began t s.reads] ∧ s.Sourced earlier v

/-- Why a deed may come after those before it.  A call begins once; the server
answers it once, with no version older than it had given before; and what a
call gives it was answered, or had from the cache. -/
def Justified (before : List Deed) : Deed → Prop
  | .began t _ => ∀ d ∈ before, d.ticket ≠ t
  | .answered t g r version => version < s.versions.length ∧
      (∀ d ∈ before, ∀ version' ∈ d.version?, d.ticket ≠ t ∧ version' ≤ version) ∧
      (∀ v, g = s.reads → readValue r = .ok v → s.versions[version]? = some v) ∧
      ∀ v, written? g r = some v → s.versions[version]? = some v
  | .returned t g result =>
      (∀ v, g = s.reads → result = .ok (.data v) → s.Brought before t v) ∧
      ∀ x, g = s.writes x → result = .ok .nothing →
        ∃ r version, .answered t g r version ∈ before ∧ s.versions[version]? = some x

/-- Every deed is justified by those before it, so a past can be read from its
end. -/
def Told (past : List Deed) : Prop :=
  ∀ before d after, past = before ++ d :: after → s.Justified before d

variable {s} {s' : SharedValue} {past before : List Deed} {d : Deed} {v : DataValue}

theorem told_nil : s.Told [] := by
  intro before d after hsplit
  simp at hsplit

/-- A deed that is justified may be added to the past. -/
theorem Told.snoc (h : s.Told past) (hjustified : s.Justified past d) : s.Told (past ++ [d]) :=
  fun _ _ _ hsplit => forall_split_snoc h hjustified hsplit

/-- Where a value comes from does not change by what happens later, unless a
write returns with success. -/
theorem Sourced.snoc (h : s.Sourced past v)
    (hother : ∀ w x, d ≠ .returned w (s.writes x) (.ok .nothing)) : s.Sourced (past ++ [d]) v := by
  obtain ⟨before, t, r, version, since, rfl, hanswered, hheld, hunwritten⟩ := h
  refine ⟨before, t, r, version, since ++ [d], by simp, hanswered, hheld, fun w x hreturned => ?_⟩
  rcases List.mem_append.mp hreturned with hold | hnew
  · exact hunwritten w x hold
  · exact hother w x (List.mem_singleton.mp hnew).symm

/-- The server has come to hold more values, and holds each under its number
as before. -/
structure Grows (s s' : SharedValue) : Prop where
  /-- The value is of the same attribute. -/
  key : s'.key = s.key
  /-- What was held before was held before the rest. -/
  versions : s.versions <+: s'.versions

theorem Grows.held (h : Grows s s') {version : Nat} (hheld : s.versions[version]? = some v) :
    s'.versions[version]? = some v := by
  obtain ⟨more, hsame⟩ := h.versions
  rw [← hsame, List.getElem?_append_left (List.getElem?_eq_some_iff.mp hheld).1]
  exact hheld

theorem Grows.reads (h : Grows s s') : s'.reads = s.reads := by
  rw [SharedValue.reads, h.key, ← SharedValue.reads]

theorem Grows.writes (h : Grows s s') : s'.writes = s.writes := by
  funext x
  rw [SharedValue.writes, h.key, ← SharedValue.writes]

/-- Where a value comes from does not change when the server comes to hold
others. -/
theorem Sourced.grows (h : s.Sourced past v) (hgrows : Grows s s') : s'.Sourced past v := by
  obtain ⟨before, t, r, version, since, rfl, hanswered, hheld, hunwritten⟩ := h
  unfold Sourced
  rw [hgrows.reads, hgrows.writes]
  exact ⟨before, t, r, version, since, rfl, hanswered, hgrows.held hheld, hunwritten⟩

/-- What a read has brought does not change when the server comes to hold
other values. -/
theorem Brought.grows {t : Ticket} (h : s.Brought before t v) (hgrows : Grows s s') :
    s'.Brought before t v := by
  unfold Brought
  rw [hgrows.reads]
  rcases h with ⟨r, version, hanswered, hheld⟩ | ⟨earlier, hsplit, hsourced⟩
  · exact .inl ⟨r, version, hanswered, hgrows.held hheld⟩
  · exact .inr ⟨earlier, hsplit, hsourced.grows hgrows⟩

/-- A deed stays justified when the server comes to hold more. -/
theorem Justified.grows (h : s.Justified before d) (hgrows : Grows s s') :
    s'.Justified before d := by
  cases d with
  | began t g => exact h
  | answered t g r version =>
      obtain ⟨hgiven, hlater, hread, hwritten⟩ := h
      refine ⟨Nat.lt_of_lt_of_le hgiven hgrows.versions.length_le, hlater, ?_, ?_⟩
      · rw [hgrows.reads]
        exact fun v his hwas => hgrows.held (hread v his hwas)
      · exact fun v hwas => hgrows.held (hwritten v hwas)
  | returned t g result =>
      obtain ⟨hread, hwritten⟩ := h
      refine ⟨?_, ?_⟩
      · rw [hgrows.reads]
        exact fun v his hwas => (hread v his hwas).grows hgrows
      · rw [hgrows.writes]
        intro x his hwas
        obtain ⟨r, version, hanswered, hheld⟩ := hwritten x his hwas
        exact ⟨r, version, hanswered, hgrows.held hheld⟩

/-- A past stays justified when the server comes to hold more. -/
theorem Told.grows (h : s.Told past) (hgrows : Grows s s') : s'.Told past :=
  fun before d after hsplit => (h before d after hsplit).grows hgrows

/-! ## What may become of a call -/

/-- A call that is finished is told to have returned, once. -/
theorem returns_finish {r : ClientRun} (c : Caller) (result : Result) (t : Ticket) (g : Goal)
    (hdone : r.done = s.client.done) :
    s.returns (r.finish c result) t g = [.returned t g result] := by
  simp [returns, ClientRun.finish, hdone]

/-- Where no call is over none is told to have returned. -/
theorem returns_same {r : ClientRun} (t : Ticket) (g : Goal) (hdone : r.done = s.client.done) :
    s.returns r t g = [] := by
  simp [returns, hdone]

/-- The first step of a call about the value is to look into the cache or to
ask for a session. -/
theorem start_cases (s : SharedValue) (g : Goal) (t : Ticket) (now : Duration) (cache : DataCache) :
    (∀ key v, (g.start t now cache).2.Holds key v → cache.Holds key v) ∧
      ((∃ node a v, g = .read node a ∧ a ≠ .value ∧ cache.Holds (node, a) v ∧
          (g.start t now cache).1 = .over (.ok (.data v))) ∨
        (∃ command, (g.start t now cache).1 = .ask command ∧
          ∀ d ∈ command.due?, d.ticket = t ∧ (s.About g → d = .session t)) ∨
        ∃ call, (g.start t now cache).1 = .use call ∧ ¬ s.About g) := by
  have hkept : ∀ key v, cache.Holds key v → cache.Holds key v := fun _ _ => id
  cases g with
  | read node a =>
      obtain ⟨hfound, hfewer⟩ := cache.holds_get now node a
      have hfleeting : ∀ v ∈ (cache.get now node a).1, a ≠ .value := fun v =>
        AttributeCache.not_value_of_get
      unfold Goal.start
      dsimp only
      generalize cache.get now node a = got at hfound hfewer hfleeting ⊢
      obtain ⟨v?, cache'⟩ := got
      cases v? with
      | some v => exact ⟨hfewer, .inl ⟨node, a, v, rfl, hfleeting v rfl, hfound v rfl, rfl⟩⟩
      | none =>
          refine ⟨hfewer, .inr (.inl ⟨_, rfl, ?_⟩)⟩
          rintro d ⟨⟩
          exact ⟨rfl, fun _ => rfl⟩
  | write node a x =>
      refine ⟨hkept, .inr (.inl ⟨_, rfl, ?_⟩)⟩
      rintro d ⟨⟩
      exact ⟨rfl, fun _ => rfl⟩
  | session | close | handle e =>
      refine ⟨hkept, .inr (.inl ⟨_, rfl, ?_⟩)⟩
      rintro d ⟨⟩
      exact ⟨rfl, False.elim⟩
  | exchange q | connect | disconnect => exact ⟨hkept, .inr (.inr ⟨_, rfl, False.elim⟩)⟩

/-- A call has begun, and the cache has let go of something at most. -/
structure Begun (r : ClientRun) (c : Caller) (r' : ClientRun) : Prop where
  new : c.ticket = r.nextTicket
  /-- It is added to the calls that are not over. -/
  callers : r'.callers = r.callers ++ [c]
  /-- The next call will have another ticket. -/
  tickets : r'.nextTicket = r.nextTicket + 1
  /-- Where it has looked the value up, the cache has come by nothing. -/
  cache : ∀ key v, r'.cache.Holds key v → r.cache.Holds key v
  /-- Nothing has happened on the channel. -/
  affairs : r'.affairs = r.affairs
  /-- Nothing has happened with the machine. -/
  engine : r'.engine = r.engine

theorem Begun.promises {r r' : ClientRun} {c : Caller} (h : Begun r c r') :
    r'.promises = r.promises :=
  promises_congr (congrArg Engine.machine h.engine) (congrArg (·.2.2.2) h.affairs)

theorem Begun.leaves {r r' : ClientRun} {c : Caller} (h : Begun r c r') (t : Ticket) :
    Leaves (.caller t) r r' :=
  leaves_of_affairs h.affairs _

/-- What becomes of a call that is made: it gives what it has found in the
cache, it asks for a session, or it uses the channel, and then is not about
the value. -/
inductive Made (s : SharedValue) (c : Caller) (r : ClientRun) : SharedValue → Prop
  /-- The cache holds what it wants, and it is over. -/
  | found {node : NodeId} {a : AttributeId} {v : DataValue} (hreading : c.goal = .read node a)
      (hfleeting : a ≠ .value) (hheld : s.client.cache.Holds (node, a) v) :
      Made s c r { s with
        client := r.finish c (.ok (.data v))
        past := s.past ++ [.began c.ticket c.goal] ++
          [.returned c.ticket c.goal (.ok (.data v))] }
  /-- It asks the machine for something, which for a call about the value is a
  session. -/
  | asks {command : Command}
      (hdue : ∀ d ∈ command.due?, d.ticket = c.ticket ∧
        (s.About c.goal → d = .session c.ticket)) :
      Made s c r { s with
        client := r.pushCommand command
        past := s.past ++ [.began c.ticket c.goal] }
  /-- It uses the channel by itself, which no call about the value does. -/
  | uses {call : Call} (hother : ¬ s.About c.goal) :
      Made s c r { s with
        client := (r.use (.caller c.ticket) call).collect c
        past := s.past ++ [.began c.ticket c.goal] ++
          ({ s with client := r } : SharedValue).returns
            ((r.use (.caller c.ticket) call).collect c) c.ticket c.goal }

/-- **What a call does that is made**: it begins, and then finds its value in
the cache, asks the machine, or uses the channel. -/
theorem call_cases (s : SharedValue) (id : String) (direct : Bool) (g : Goal) :
    ∃ c r, c.goal = g ∧ Begun s.client c r ∧ Made s c r (s.call id direct g) := by
  obtain ⟨hfewer, hstart⟩ := s.start_cases g s.client.nextTicket s.client.now s.client.cache
  let c : Caller := { ticket := s.client.nextTicket, id := id, direct := direct, goal := g }
  let r : ClientRun := { s.client with
    cache := (g.start s.client.nextTicket s.client.now s.client.cache).2
    nextTicket := s.client.nextTicket + 1
    callers := s.client.callers ++ [c] }
  have hdone : r.done = s.client.done := rfl
  have hcalled : s.client.call id direct g =
      r.follow c (g.start s.client.nextTicket s.client.now s.client.cache).1 := rfl
  refine ⟨c, r, rfl, ⟨rfl, rfl, rfl, hfewer, rfl, rfl⟩, ?_⟩
  unfold SharedValue.call
  dsimp only
  rw [hcalled]
  rcases hstart with ⟨node, a, v, hreading, hfleeting, hheld, hnext⟩ | ⟨command, hnext, hdue⟩ |
    ⟨call, hnext, hother⟩
  · rw [hnext, ClientRun.follow, s.returns_finish c _ _ _ hdone]
    exact .found hreading hfleeting hheld
  · have hdesk := (works_pushCommand r .machine command).desk
    rw [hnext, ClientRun.follow, s.returns_same _ _ ((congrArg (·.2.2.2) hdesk).trans hdone),
      List.append_nil]
    exact .asks hdue
  · rw [hnext, ClientRun.follow]
    exact .uses hother

/-- What becomes of a call that goes on: it is over with what the machine has
answered, or it uses the channel, and is over with what has come of that if
something has. -/
inductive Goes (s : SharedValue) (c : Caller) : SharedValue → Prop
  /-- The machine has answered, and that is the end of it. -/
  | told {answer : Session.Answer} {result : Result}
      (hgiven : s.client.answers.find? (·.1 = c.ticket) = some (c.ticket, answer))
      (hlast : c.goal.answered s.client.settings.session.timeoutHint answer = .over result) :
      Goes s c { s with
        client := ({ s.client with
          answers := s.client.answers.filter (·.1 ≠ c.ticket) } : ClientRun).finish c result
        past := s.past ++ [.returned c.ticket c.goal result] }
  /-- It sends its request if it has not, goes on with it on the channel, and
  is over if something has come of it. -/
  | carries {r₁ r' : ClientRun} (hsends : Sends s.client c r₁)
      (hcollects : Collects (r₁.proceed (.caller c.ticket)) c r') :
      Goes s c { s with
        client := r'
        past := s.past ++ s.returns r' c.ticket c.goal }

/-- **What a call does that goes on.**  One that is over does nothing. -/
theorem goOn_cases (s : SharedValue) (t : Ticket) :
    (s.client.callers.find? (·.ticket = t) = none ∧ s.goOn t = s) ∨
    ∃ c, s.client.callers.find? (·.ticket = t) = some c ∧ c ∈ s.client.callers ∧
      c.ticket = t ∧ (s.goOn t).client = s.client.runCaller t ∧ Goes s c (s.goOn t) := by
  unfold goOn
  cases hfound : s.client.callers.find? (·.ticket = t) with
  | none => exact .inl ⟨rfl, rfl⟩
  | some c =>
      obtain rfl : c.ticket = t := by simpa using List.find?_some hfound
      refine .inr ⟨c, rfl, List.mem_of_find?_eq_some hfound, rfl, rfl, ?_⟩
      dsimp only
      rcases runCaller_cases s.client hfound with
        ⟨answer, result, hgiven, hlast, hran⟩ | ⟨r₁, hsends, hcollects⟩
      · have hreturns := s.returns_finish
          (r := { s.client with answers := s.client.answers.filter (·.1 ≠ c.ticket) })
          c result c.ticket c.goal rfl
        rw [hran, hreturns]
        exact .told hgiven hlast
      · exact .carries hsends hcollects

/-- **What the server does** that answers the request of a call: nothing, or
it answers an open call about the value that waits for a response, truthfully
and for the first time. -/
theorem answer_cases (s : SharedValue) (t : Ticket) (b : Response) :
    s.answer t b = s ∨ ∃ c ∈ s.client.callers, c.ticket = t ∧ s.About c.goal ∧
      s.Truthful c.goal b ∧ (∃ handle, (handle, .caller t) ∈ s.client.awaited) ∧
      s.answers.all (·.1 ≠ t) ∧ s.answer t b = { s with
        versions := s.versions ++ (written? c.goal b).toList
        past := s.past ++ [.answered t c.goal b
          ((s.versions ++ (written? c.goal b).toList).length - 1)] } := by
  unfold SharedValue.answer
  cases hasking : s.asking? t with
  | none => exact .inl rfl
  | some c =>
      dsimp only
      split
      · rename_i hfine
        unfold asking? at hasking
        split at hasking
        · rename_i hasks
          obtain ⟨⟨handle, o⟩, hwaits, hown⟩ := List.any_eq_true.mp hasks.1
          obtain rfl : o = .caller t := by simpa using hown
          exact .inr ⟨c, List.mem_of_find?_eq_some hasking, by simpa using List.find?_some hasking,
            hfine.1, hfine.2, ⟨handle, hwaits⟩, hasks.2, rfl⟩
        · cases hasking
      · exact .inl rfl

/-- What a move comes to, by whether it is about a call; a case for each lemma
that a law about moves needs. -/
inductive Moved (s : SharedValue) : Move → SharedValue → Prop
  /-- Something is done beside the calls, which adds nothing to the past. -/
  | aside {m : Move} (haside : m.isAside) : Moved s m { s with client := s.client.move m }
  | calls {id : String} {direct : Bool} {g : Goal} :
      Moved s (.act (.call id direct g)) (s.call id direct g)
  | goesOn {t : Ticket} : Moved s (.caller t) (s.goOn t)
  /-- A response comes in that the server may have sent. -/
  | takesIn {e : ResponseEnvelope} (hadmits : s.Admits e)
      (htaken : s.client.move (.received e) = s.client.takeIn e) :
      Moved s (.received e) { s with client := s.client.takeIn e }
  | nothing {m : Move} : Moved s m s

theorem move_cases (s : SharedValue) (m : Move) : Moved s m (s.move m) := by
  by_cases haside : m.isAside
  · have hmoved : s.move m = { s with client := s.client.move m } := by
      cases m with
      | act a =>
          cases a with
          | call id direct g => cases haside
          | batch actions => cases haside
          | _ => rfl
      | caller t => cases haside
      | received e => cases haside
      | _ => rfl
    exact hmoved ▸ .aside haside
  · cases m with
    | act a =>
        cases a with
        | call id direct g => exact .calls
        | batch actions => exact .nothing
        | _ => exact absurd rfl haside
    | caller t => exact .goesOn
    | received e =>
        simp only [SharedValue.move]
        by_cases hadmits : s.Admits e
        · rw [if_pos hadmits]
          by_cases hconnected : s.client.channel.isConnected
          · have htaken : s.client.move (.received e) = s.client.takeIn e := if_pos hconnected
            exact htaken ▸ .takesIn hadmits htaken
          · have hleft : s.client.move (.received e) = s.client := if_neg hconnected
            rw [hleft]
            exact .nothing
        · rw [if_neg hadmits]
          exact .nothing
    | _ => exact absurd rfl haside

/-! ## The client as it is told of -/

/-- What is told of the client is what it does: nothing stands in the way of
its moves, but that of several things at once each is told by itself, and that
a response is one that the server has given. -/
theorem client_move (s : SharedValue) {m : Move} (hsingle : ∀ actions, m ≠ .act (.batch actions))
    (hadmitted : ∀ e, m = .received e → s.Admits e) : (s.move m).client = s.client.move m := by
  cases m with
  | act a =>
      cases a with
      | batch actions => exact absurd rfl (hsingle actions)
      | _ => rfl
  | caller t =>
      simp only [SharedValue.move, goOn, ClientRun.move]
      cases hfound : s.client.callers.find? (·.ticket = t) with
      | none => simp [runCaller, hfound]
      | some c => rfl
  | received e => simp only [SharedValue.move, if_pos (hadmitted e rfl)]
  | _ => rfl

/-- Several things that are done at once are done one after another, so
nothing is lost by leaving batches out. -/
theorem move_batch (r : ClientRun) (actions : List Action) :
    r.move (.act (.batch actions)) = actions.foldl (fun r a => r.move (.act a)) r := by
  have hall : ∀ r : ClientRun,
      (r.actAll actions).2 = actions.foldl (fun r a => r.move (.act a)) r := by
    induction actions with
    | nil => exact fun r => by rw [actAll, List.foldl_nil]
    | cons a rest ih =>
        intro r
        rw [actAll, List.foldl_cons]
        exact ih _
  simp only [ClientRun.move, act]
  exact hall r

end SharedValue

end OpcSession.Simulation
