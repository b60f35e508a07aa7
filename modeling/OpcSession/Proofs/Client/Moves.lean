import OpcSession.Proofs.Client.Frame

/-!
# The moves of a client

A rehearsal lets the tasks of a client run in the order in which they became
ready.  Of themselves they could run in any order, and the peer could do
anything at any time.  A *move* is one stretch in which one task runs without
waiting, one response that comes in, the end of the connection, or something
that is done to the client; a client may make its moves in any order.

* `ClientRun.perform_moves` — a rehearsal is one of the orders.
-/

namespace OpcSession.Simulation

open Session Client

namespace ClientRun

/-- What a client, or its surroundings, may do next.

The owner of a request might be held back until the connection has taken the
frame, and others go on in the meantime.  No move stands for that, since a law
about moves loses nothing by it.  The request is registered before the frame
is sent, and its owner does nothing until the frame has been taken; what it
does then is noticed by nobody else (`works_post`, `works_handOver`).  A
response that comes in before might as well come in after (`handOver_takeIn`),
and so might the end of the link (`handOver_cut`).  A connection that fails to
take the frame after a while fails the one request, as its deadline would, if
by another error.  Which response is for which request, and who is told of the
end of a link, is stated of incidents, among which handing over is one of its
own (`Traffic`, `Cabling`). -/
inductive Move
  /-- Something is done to the client from outside. -/
  | act (a : Action)
  /-- The machine goes on to where it waits again, for the channel or for a
  command. -/
  | machine
  /-- The watcher reads all that is in its mailbox, and may report it. -/
  | watcher
  /-- A call goes on to where it waits again, or is over. -/
  | caller (t : Ticket)
  /-- A response comes in on the connection in use, whatever it answers, and
  whether or not anything was asked. -/
  | received (e : ResponseEnvelope)
  /-- The connection in use ends from the other side, with no request answered
  any more. -/
  | cut
  /-- The peer becomes another, and so answers, accepts and closes as it likes
  from then on. -/
  | peer (p : Peer)
  /-- Other tasks are ready, or in another order, so no law can depend on who
  runs when. -/
  | reorder (ready : List Task)
  /-- What was observed before is forgotten, as it is at the beginning of a
  rehearsed action. -/
  | forget

/-- What a move makes of a client.  Nothing comes in without a connection, and
the machine makes one step at a time. -/
def move (r : ClientRun) : Move → ClientRun
  | .act a => (r.act a).2
  | .machine => r.runMachine 1
  | .watcher => r.runWatcher
  | .caller t => r.runCaller t
  | .received e => if r.channel.isConnected then r.takeIn e else r
  | .cut => if r.channel.isConnected then r.cut else r
  | .peer p => { r with peer := p }
  | .reorder ready => { r with ready := ready }
  | .forget => { r with log := [], transitions := [], done := [] }

/-- Whether a move is something that is done to the client.  The others it
makes by itself, or the peer makes them. -/
def Move.isAct : Move → Bool
  | act _ => true
  | _ => false

/-- A client that has made moves, none of which was done to it. -/
def Goes (r r' : ClientRun) : Prop :=
  ∃ ms : List Move, (∀ m ∈ ms, ¬ m.isAct) ∧ r' = ms.foldl move r

variable {r r' r'' : ClientRun}

theorem Goes.refl (r : ClientRun) : r.Goes r := ⟨[], by simp, rfl⟩

/-- Moves that are made one after the other are moves. -/
theorem Goes.trans (h : r.Goes r') (h' : r'.Goes r'') : r.Goes r'' := by
  obtain ⟨ms, hown, rfl⟩ := h
  obtain ⟨ms', hown', rfl⟩ := h'
  refine ⟨ms ++ ms', ?_, List.foldl_append.symm⟩
  intro m hm
  rcases List.mem_append.mp hm with hm | hm
  · exact hown m hm
  · exact hown' m hm

/-- One move of its own is enough to have gone. -/
theorem Goes.one {m : Move} (hown : ¬ m.isAct) : r.Goes (r.move m) :=
  ⟨[m], by simpa using hown, rfl⟩

/-- To let the machine run is to let it make as many moves as it can. -/
theorem goes_runMachine (fuel : Nat) (r : ClientRun) : r.Goes (r.runMachine fuel) := by
  induction fuel generalizing r with
  | zero => exact .refl r
  | succ fuel ih =>
      have hfirst : r.Goes (r.runMachine 1) := .one (m := .machine) (by simp [Move.isAct])
      simp only [runMachine] at hfirst ⊢
      split at hfirst
      · exact hfirst.trans (ih _)
      · split at hfirst
        · rename_i hbusy
          rw [if_pos hbusy]
          exact hfirst.trans (ih _)
        · rename_i hidle
          rw [if_neg hidle]
          exact hfirst

@[simp] theorem channel_wake (r : ClientRun) (t : Task) : (r.wake t).channel = r.channel := by
  unfold wake
  split <;> rfl

@[simp] theorem channel_notify (r : ClientRun) (n : Notice) :
    (r.notify n).channel = r.channel := by
  unfold notify
  dsimp only
  split
  · exact channel_wake _ _
  · rfl

/-- All that a response does to the channel is that nobody waits for it any
more. -/
theorem channel_takeIn (r : ClientRun) (e : ResponseEnvelope) :
    (r.takeIn e).channel = r.channel.withdraw e.handle := by
  unfold takeIn
  generalize hreceived : r.channel.receive e = received
  obtain ⟨notice, owner, channel⟩ := received
  have hwithdrawn : channel = r.channel.withdraw e.handle := by
    unfold Channel.receive at hreceived
    cases hreceived
    rfl
  subst hwithdrawn
  cases notice with
  | none =>
      cases owner with
      | none => rfl
      | some o => exact channel_wake _ _
  | some n =>
      cases owner with
      | none => exact channel_notify _ _
      | some o => exact (channel_wake _ _).trans (channel_notify _ _)

/-- A link stays in use when requests are withdrawn from it, however many wait
on. -/
theorem isConnected_withdraw (c : Channel) (handle : UInt32) :
    (c.withdraw handle).isConnected = c.isConnected := by
  unfold Channel.isConnected Channel.current? Channel.withdraw
  cases c.link? with
  | none => rfl
  | some link => cases hlink : link.alive <;> simp [hlink]

/-- The reader takes in one response after the other, each of which is a move;
what it passes over is none. -/
theorem goes_read (items : List Incoming) (hconnected : r.channel.isConnected) :
    r.Goes (r.read items) := by
  induction items generalizing r with
  | nil => exact .refl r
  | cons item rest ih =>
      cases item with
      | finished =>
          have hended : r.Goes (r.move .cut) := .one (by simp [Move.isAct])
          rwa [move, if_pos hconnected] at hended
      | frame text =>
          rw [read]
          cases Wire.decodeResponse? text with
          | none => exact ih hconnected
          | some e =>
              have hfirst : r.Goes (r.move (.received e)) := .one (by simp [Move.isAct])
              rw [move, if_pos hconnected] at hfirst
              have hstill : (r.takeIn e).channel.isConnected := by
                rw [channel_takeIn, isConnected_withdraw]
                exact hconnected
              exact hfirst.trans (ih hstill)

/-- The reader of the connection in use makes moves; that of any other does
nothing. -/
theorem goes_runReader (connection : ConnectionId) : r.Goes (r.runReader connection) := by
  unfold runReader
  split
  · rename_i hcurrent
    have hemptied : r.Goes (r.move (.peer { r.peer with incoming := [] })) :=
      .one (by simp [Move.isAct])
    refine hemptied.trans (goes_read _ ?_)
    obtain ⟨link, hlink, -⟩ := (Option.any_eq_true _ _).mp hcurrent.2
    simp [move, Channel.isConnected, hlink]
  · exact .refl r

/-- Every task goes on by moves. -/
theorem goes_run (t : Task) : r.Goes (r.run t) := by
  cases t with
  | machine => exact goes_runMachine patience r
  | watcher => exact .one (m := .watcher) (by simp [Move.isAct])
  | reader connection => exact goes_runReader connection
  | caller t => exact .one (m := .caller t) (by simp [Move.isAct])

/-- Tasks that run in the order in which they became ready make moves, by
induction on how many run. -/
theorem goes_settle (fuel : Nat) (r : ClientRun) : r.Goes (r.settle fuel) := by
  induction fuel generalizing r with
  | zero => exact .refl r
  | succ fuel ih =>
      rw [settle]
      split
      · exact .refl r
      · rename_i t rest _
        have htaken : r.Goes (r.move (.reorder rest)) := .one (by simp [Move.isAct])
        exact (htaken.trans (goes_run t)).trans (ih _)

/-- **A rehearsal makes moves.**  To do something to a client and let its
tasks run is one of the orders in which it can make its moves. -/
theorem perform_moves (r : ClientRun) (a : Action) :
    ((r.move .forget).move (.act a)).Goes (r.perform a).2 :=
  goes_settle patience _

end ClientRun

end OpcSession.Simulation
