import OpcSession.Proofs.Client.Bystanders

/-!
# The one request of a call

A call about a value sends at most one request, when it has been given a session.
The channel may refuse that; else the call waits, and what comes of that is the
response to its request, or the failure of it if no response has come in.

* `ClientRun.obstacle?` — why the channel sends nothing;
* `ClientRun.Got`, `ClientRun.Unanswered` — an owner that something has come for, and
  one whose request was sent and has no response so far;
* `ClientRun.Absent.send`, `ClientRun.Unanswered.takeIn` — how a request is sent, and
  how the response to it comes in.
-/

namespace OpcSession.Simulation

open Session Client

namespace ClientRun

variable {r r' : ClientRun} {o : Owner} {x : Outcome}

/-- Why the channel sends nothing: it is not connected, or the request cannot
be encoded.  Whatever it does send is then on the connection in use. -/
def obstacle? (r : ClientRun) : Option SessionError :=
  if r.channel.isConnected then
    r.peer.encodingFailure?.map fun text => .transport (MessageError.encode text).message
  else some Channel.notConnected

/-- An owner that something has come for, and that waits for nothing more. -/
structure Got (o : Owner) (x : Outcome) (r : ClientRun) : Prop where
  idle : r.activity? o = none
  /-- This is what it has to return with. -/
  came : r.outcome? o = some x
  alone : ∀ handle, (handle, o) ∉ r.awaited

/-- An owner whose request was sent, and that has got no response so far: it
waits for that, or its request has failed. -/
inductive Unanswered (o : Owner) (r : ClientRun) : Prop
  /-- It waits for the response to its request, and for no other. -/
  | waits {handle : UInt32} {service : String} {deadline : Duration}
      (hdoing : r.activity? o = some (.exchanging handle service deadline))
      (hnothing : r.outcome? o = none)
      (halone : ∀ handle', (handle', o) ∈ r.awaited → handle' = handle)
  /-- It has failed without a response. -/
  | failed {e : SessionError} (hgot : Got o (.failed e) r)

/-! ## What others do -/

/-- What has come for an owner stays with it whatever others do, until it
takes it. -/
theorem Got.leaves (h : Got o x r) (hleaves : Leaves o r r') : Got o x r' := by
  cases hleaves with
  | spared hactivity houtcome hawaited =>
      exact ⟨hactivity.trans h.idle, houtcome.trans h.came,
        fun handle hwaits => h.alone handle (hawaited handle hwaits)⟩
  | fails hdoing => exact absurd h.idle hdoing

/-- Others cannot answer a request; at most they fail it. -/
theorem Unanswered.leaves (h : Unanswered o r) (hleaves : Leaves o r r') : Unanswered o r' := by
  cases h with
  | failed hgot => exact .failed (hgot.leaves hleaves)
  | waits hdoing hnothing halone =>
      cases hleaves with
      | spared hactivity houtcome hawaited =>
          exact .waits (hactivity.trans hdoing) (houtcome.trans hnothing)
            fun handle hwaits => halone handle (hawaited handle hwaits)
      | @fails e _ hidle houtcome halone =>
          have hcame : r'.outcome? o = some (.failed e) := by
            rw [houtcome, hnothing, Option.none_or]
          exact .failed ⟨hidle, hcame, halone⟩

/-! ## What the owner does -/

/-- Something comes for an owner that nothing has come for yet, and it waits
for nothing any more. -/
theorem got_conclude (r : ClientRun) (x : Outcome) (hnothing : r.outcome? o = none)
    (halone : ∀ handle, (handle, o) ∉ r.awaited) : Got o x (r.conclude o x) where
  idle := by rw [activity?_conclude, if_pos rfl]
  came := by rw [outcome?_conclude, hnothing, if_pos rfl, Option.none_or]
  alone := halone

/-- Who does nothing does not go on: there is nothing that could time out or
come about. -/
theorem proceed_of_idle (hidle : r.activity? o = none) : r.proceed o = r := by
  unfold proceed
  simp only [hidle]

/-- Who waits for a response goes on waiting, or its request times out; it
sends nothing. -/
theorem Unanswered.proceed (h : Unanswered o r) :
    Unanswered o (r.proceed o) ∧ (r.proceed o).log = r.log := by
  cases h with
  | failed hgot =>
      rw [proceed_of_idle hgot.idle]
      exact ⟨.failed hgot, rfl⟩
  | @waits handle service deadline hdoing hnothing halone =>
      unfold ClientRun.proceed
      simp only [hdoing]
      split
      · refine ⟨.failed (got_conclude _ (.failed .timeout) hnothing fun handle' hwaits => ?_), rfl⟩
        obtain ⟨hwaits, hother⟩ := (mem_awaited_withdraw handle _).mp hwaits
        exact hother (halone handle' hwaits)
      · exact ⟨.waits hdoing hnothing halone, rfl⟩

/-- What comes for one whose request has no response is that it has failed. -/
theorem Unanswered.came (h : Unanswered o r) (hcame : r.outcome? o = some x) :
    ∃ e, x = .failed e := by
  cases h with
  | waits _ hnothing => cases hnothing.symm.trans hcame
  | failed hgot =>
      cases hgot.came.symm.trans hcame
      exact ⟨_, rfl⟩

/-- A request that was sent may have failed at once, but no response can have
come to it. -/
theorem Absent.unanswered_send (h : Absent o r) (q : Request) : Unanswered o (r.send o q) := by
  rcases send_cases r o q with
    ⟨r₁, e, hspares, hsent⟩ | ⟨r₁, handle, service, deadline, hregistered, hsent⟩
  · rw [hsent]
    have hnothing := (hspares.outcomes o (.inr h.nothing)).trans h.nothing
    exact .failed (got_conclude r₁ (.failed e) hnothing
      fun handle hwaits => h.alone handle (hspares.awaited _ hwaits))
  · rw [hsent]
    have hdoing : (r₁.setActivity o (.exchanging handle service deadline)).activity? o =
        some (.exchanging handle service deadline) := by
      rw [activity?_setActivity, if_pos rfl]
    refine .waits hdoing ((outcome?_of_affairs hregistered o).trans h.nothing)
      fun handle' hwaits => ?_
    rw [awaited, channel_setActivity, ← awaited, awaited_of_affairs hregistered] at hwaits
    exact ((awaited_register hwaits).resolve_left (h.alone handle')).1

/-- To make a task ready is not seen from outside. -/
theorem log_wake (r : ClientRun) (task : Task) : (r.wake task).log = r.log := by
  unfold wake
  split <;> rfl

/-- Only posting a request is seen from outside; that it was handed over is
not. -/
theorem log_handOver (r : ClientRun) (o : Owner) (envelope : RequestEnvelope)
    (error : Option TransportError) : (r.handOver o envelope error).log = r.log := by
  cases error with
  | some e => rfl
  | none =>
      dsimp only [handOver]
      split
      · split <;> rfl
      · split <;> rfl

/-- What an obstacle makes of a request: it fails with that error, and nothing
is seen from outside. -/
theorem post_of_obstacle {e : SessionError} (hobstacle : r.obstacle? = some e) (o : Owner)
    (q : Request) : ∃ r₁ : ClientRun, r.post o q = (none, r₁.conclude o (.failed e)) ∧
      r₁.affairs = r.affairs ∧ r₁.log = r.log := by
  unfold obstacle? Channel.isConnected at hobstacle
  unfold post
  cases hconnected : r.channel.current? with
  | none =>
      simp only [hconnected, Option.isSome_none, Bool.false_eq_true, if_false] at hobstacle
      cases hobstacle
      exact ⟨r, rfl, rfl, rfl⟩
  | some link =>
      simp only [hconnected, Option.isSome_some, if_true] at hobstacle
      obtain ⟨text, hfailure, rfl⟩ := Option.map_eq_some_iff.mp hobstacle
      simp only [hfailure]
      exact ⟨_, rfl, by rw [affairs, link?_allocate, ← affairs], rfl⟩

/-- Where nothing is in its way a request is sent, once, under the next
handle, and that is all that is seen. -/
theorem log_send (hfree : r.obstacle? = none) (o : Owner) (q : Request) :
    ∃ handle connection, (r.send o q).log =
      r.log ++ [.sent { handle := handle, body := q.withHandle handle } connection] := by
  unfold obstacle? Channel.isConnected at hfree
  unfold ClientRun.send post
  cases hconnected : r.channel.current? with
  | none => simp [hconnected] at hfree
  | some link =>
      simp only [hconnected, Option.isSome_some, if_true, Option.map_eq_none_iff] at hfree
      simp only [hfree]
      refine ⟨r.channel.allocate.1, link.connection, ?_⟩
      rw [log_handOver, log_wake]
      rfl

/-- **A request is sent**, or the channel refuses it.  Either the obstacle is
what comes of it, and nothing was sent, or it was sent and has no response so
far. -/
theorem Absent.send (h : Absent o r) (q : Request) :
    (∃ e, r.obstacle? = some e ∧ (r.send o q).log = r.log ∧ Got o (.failed e) (r.send o q)) ∨
    ∃ handle connection, (r.send o q).log =
        r.log ++ [.sent { handle := handle, body := q.withHandle handle } connection] ∧
      r.obstacle? = none ∧ Unanswered o (r.send o q) := by
  cases hobstacle : r.obstacle? with
  | none =>
      obtain ⟨handle, connection, hlog⟩ := log_send hobstacle o q
      exact .inr ⟨handle, connection, hlog, rfl, h.unanswered_send q⟩
  | some e =>
      obtain ⟨r₁, hposted, hsame, hlog⟩ := post_of_obstacle hobstacle o q
      have hsent : r.send o q = r₁.conclude o (.failed e) := by rw [ClientRun.send, hposted]
      rw [hsent]
      refine .inl ⟨e, rfl, hlog,
        got_conclude r₁ _ ((outcome?_of_affairs hsame o).trans h.nothing) ?_⟩
      rw [awaited_of_affairs hsame]
      exact h.alone

/-! ## The response -/

/-- Whoever gets a response waits for it, under its handle. -/
theorem pending_of_receive {c : Channel} {e : ResponseEnvelope}
    (hgets : (c.receive e).2.1 = some o) : (e.handle, o) ∈ c.pending := by
  obtain ⟨p, hfound, rfl⟩ := Option.map_eq_some_iff.mp hgets
  have hhandle : p.1 = e.handle := by simpa using List.find?_some hfound
  exact hhandle ▸ List.mem_of_find?_eq_some hfound

/-- What comes in is for the one that gets it: nothing becomes of the others,
and whatever is noticed is for the watcher. -/
theorem takeIn_receive (r : ClientRun) (e : ResponseEnvelope) :
    ∃ r₁ : ClientRun,
      r₁.affairs = ({ r with channel := r.channel.withdraw e.handle } : ClientRun).affairs ∧
      r.takeIn e = (r.channel.receive e).2.1.elim r₁ fun o =>
        (r₁.conclude o (Channel.outcome e.body)).wake (taskOf o) := by
  unfold takeIn
  generalize hreceived : r.channel.receive e = received
  obtain ⟨notice, owner, channel⟩ := received
  obtain rfl : r.channel.withdraw e.handle = channel := congrArg (·.2.2) hreceived
  cases notice with
  | none => exact ⟨_, rfl, rfl⟩
  | some n => exact ⟨_, affairs_notify _ n, rfl⟩

/-- **The response to a request comes in**, and its owner has what it comes
to. -/
theorem Unanswered.takeIn (h : Unanswered o r) {e : ResponseEnvelope}
    (hgets : (r.channel.receive e).2.1 = some o) :
    Got o (Channel.outcome e.body) (r.takeIn e) := by
  have hwaited := mem_awaited_of_pending (pending_of_receive hgets)
  obtain ⟨r₁, hwithdrawn, htaken⟩ := takeIn_receive r e
  cases h with
  | failed hgot => exact absurd hwaited (hgot.alone e.handle)
  | waits hdoing hnothing halone =>
      have hgot := got_conclude r₁ (Channel.outcome e.body)
        ((outcome?_of_affairs hwithdrawn o).trans hnothing) fun handle hwaits => by
          rw [awaited_of_affairs hwithdrawn] at hwaits
          obtain ⟨hwaits, hother⟩ := (mem_awaited_withdraw e.handle _).mp hwaits
          exact hother ((halone handle hwaits).trans (halone e.handle hwaited).symm)
      rw [htaken, hgets]
      exact hgot.leaves (leaves_of_affairs (affairs_wake _ _) o)

/-- Who only exchanges requests gets a response that it may get, when it gets
one. -/
theorem Exchanges.takeIn {P : Response → Prop} (h : Exchanges P o r) {e : ResponseEnvelope}
    (hgets : (r.channel.receive e).2.1 = some o)
    (hfine : (∃ error, Channel.outcome e.body = .failed error) ∨
      ∃ b, Channel.outcome e.body = .response b ∧ P b) : Exchanges P o (r.takeIn e) := by
  obtain ⟨r₁, hsame, htaken⟩ := takeIn_receive r e
  have hwithdrawn : Exchanges P o { r with channel := r.channel.withdraw e.handle } :=
    ⟨h.activity, h.outcome⟩
  rw [htaken, hgets]
  exact ((hwithdrawn.leaves (leaves_of_affairs hsame o)).conclude hfine).leaves
    (leaves_of_affairs (affairs_wake _ _) o)

/-- Others do not notice that a response comes in; a fault is told to the
watcher alone. -/
theorem leaves_takeIn {e : ResponseEnvelope} (hother : (r.channel.receive e).2.1 ≠ some o) :
    Leaves o r (r.takeIn e) := by
  obtain ⟨r₁, hsame, htaken⟩ := takeIn_receive r e
  have hwithdrawn : Leaves o r { r with channel := r.channel.withdraw e.handle } :=
    .spared rfl rfl fun handle hwaits => ((mem_awaited_withdraw e.handle _).mp hwaits).1
  replace hwithdrawn := hwithdrawn.trans (leaves_of_affairs hsame o)
  rw [htaken]
  cases hgets : (r.channel.receive e).2.1 with
  | none => exact hwithdrawn
  | some o' =>
      have hothers : o ≠ o' := by
        rintro rfl
        exact hother hgets
      exact (hwithdrawn.trans ((works_conclude r₁ o' _).others o hothers)).trans
        (leaves_of_affairs (affairs_wake _ _) o)

end ClientRun

end OpcSession.Simulation
