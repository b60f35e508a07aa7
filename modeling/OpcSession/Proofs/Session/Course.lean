import OpcSession.Proofs.Session.Exchanges
import OpcSession.Proofs.Session.Invariant
import OpcSession.Proofs.Session.Transitions

/-!
# The courses that a step can take

To enter a state, and to go on after a call, takes one of a few courses: the
state may come by its session, something is done on the way, and then the
machine waits for a call, concludes the entry of the state, or fails.  Each
course is told with the reason for which it is taken, so that laws about what a
step does go through the courses and need not look into a step again.

* `Enters`, `Machine.enter_course` — the courses of entering a state;
* `Resumes`, `Machine.resume_course` — the courses of going on after a call;
* `Course.queue_run`, `Course.callsLast`, … — what a course comes to;
* `Machine.Obeys`, `Run.Becomes` — what comes of a command that is taken, and of
  whatever happens.
-/

namespace OpcSession.Session

/-! ## Courses -/

/-- How a step ends.  There are three ways, and all that a step does to
callers, listeners and the queue can be told from which of them it is. -/
inductive Ending
  /-- It makes a call, and the machine waits for it. -/
  | waits (awaiting : Awaiting) (c : Call)
  /-- The state has been entered, and an event may be raised. -/
  | concludes (followUp : Option Event)
  /-- What the state is for has failed, which its event says. -/
  | fails (e : SessionError) (followUp : Event)

namespace Ending

/-- What the ending amounts to, at the machine that has come to it. -/
def run (s : Surroundings) (owed : Owed) : Ending → Machine → Progress
  | waits awaiting c => (·.waitFor owed awaiting c)
  | concludes followUp => Machine.conclude s owed followUp
  | fails e followUp => Machine.fail s owed e followUp

/-- The call that is made at the end of a step, if the machine waits for
one. -/
def call? : Ending → Option Call
  | waits _ c => some c
  | _ => none

/-- What the machine waits for afterwards, and for whom it enters the
state. -/
def entry? (owed : Owed) : Ending → Option Entry
  | waits awaiting _ => some { awaiting := awaiting, owed := owed }
  | _ => none

/-- The event that is raised at the end of a step, if any is. -/
def followUp? : Ending → Option Event
  | waits _ _ => none
  | concludes followUp => followUp
  | fails _ followUp => some followUp

/-- A step ends with a call, or it concludes the entry of the state. -/
theorem waits_or_rests (e : Ending) : (∃ awaiting c, e = .waits awaiting c) ∨ e.call? = none := by
  cases e with
  | waits awaiting c => exact .inl ⟨awaiting, c, rfl⟩
  | _ => exact .inr rfl

/-- The machine waits after a step just if the step ends in a call. -/
theorem entry?_eq_none {e : Ending} {owed : Owed} : e.entry? owed = none ↔ e.call? = none := by
  cases e <;> simp [call?, entry?]

/-- Where no call is made a step ends in the same way, whether it has failed
or not: it may raise an event, and answers whoever it is owed to. -/
theorem concludes_of_rests {Q : Event → Prop} {e : Ending} (hrests : e.call? = none)
    (s : Surroundings) (owed : Owed) {m : Machine} (h : m.listeners.RaiseOnly Q) :
    Concludes Q s e.followUp? m (e.run s owed m) := by
  cases e with
  | waits awaiting c => cases hrests
  | concludes followUp => exact Machine.conclude_concludes s owed followUp h
  | fails e followUp => exact Machine.fail_concludes s owed e followUp h

end Ending

/-- What the state has come by, what is done on the way, and the end. -/
structure Course where
  /-- The state with what it has come by. -/
  state : State
  /-- What is done on the way, which concerns no caller. -/
  before : List Effect := []
  ending : Ending

/-- What a course amounts to at a machine: the state is replaced, what lies on
the way is done, and the ending follows. -/
def Course.run (c : Course) (s : Surroundings) (owed : Owed) (m : Machine) : Progress :=
  ({ machine := { m with state := c.state }, effects := c.before } : Progress).andThen
    (c.ending.run s owed)

/-! ## To enter a state -/

/-- The courses of entering a state to which an event has led.  There is one
constructor for each way in which an entry can go, with the condition under
which it does. -/
inductive Enters (s : Surroundings) (event : Event) (epoch : Nat) : State → Course → Prop
  /-- The connection has been closed on purpose, and nothing is left to do. -/
  | closed {abandoned : Option Session} (hclosing : event = .disconnectSucceeded) :
      Enters s event epoch (.inactive abandoned)
        { state := .inactive abandoned, ending := .concludes none }
  /-- A session that was given up is closed first. -/
  | abandoned {session : Session} (hother : event ≠ .disconnectSucceeded) :
      Enters s event epoch (.inactive (some session))
        { state := .inactive none,
          ending := .waits .closeAbandoned (.send (s.closeRequest session)) }
  /-- The connection of an attempt that failed is let go. -/
  | givenUp (hother : event ≠ .disconnectSucceeded) :
      Enters s event epoch (.inactive none)
        { state := .inactive none, ending := .waits .dropConnection .disconnect }
  /-- To create a session begins with a connection. -/
  | creating {ws : List Ticket} {created : Option Session} :
      Enters s event epoch (.creating ws created)
        { state := .creating ws created, ending := .waits .connectToCreate .connect }
  /-- A session is activated if a token can be made for it, -/
  | activating {ws : List Ticket} {session : Session} {before : List Effect}
      {identity : UserToken} {tokenSignature signature : SignatureData}
      (hhidden : ∀ f ∈ before, f.isPrivate) :
      Enters s event epoch (.activating ws session)
        { state := .activating ws session, before := before,
          ending := .waits .activateSession
            (.send (s.activateRequest session identity tokenSignature signature)) }
  /-- and the attempt fails at once if none can. -/
  | refused {ws : List Ticket} {session : Session} {before : List Effect} {e : SessionError}
      (hhidden : ∀ f ∈ before, f.isPrivate) (hwhy : s.Refuses session e) :
      Enters s event epoch (.activating ws session)
        { state := .activating ws session, before := before,
          ending := .fails e .activateFailed }
  /-- The connection was lost before the session came into use. -/
  | lost {ws : List Ticket} {session : Session} (hdown : s.connected = false) :
      Enters s event epoch (.active ws session)
        { state := .active ws session, before := [.watched epoch],
          ending := .concludes (some .connectionLost) }
  /-- Nobody manages subscriptions, so there is nothing more to do. -/
  | unmanaged {ws : List Ticket} {session : Session} (hup : s.connected = true)
      (hnobody : s.subscriptionIds? = none) :
      Enters s event epoch (.active ws session)
        { state := .active ws session, before := [.watched epoch], ending := .concludes none }
  /-- A new session takes over the subscriptions that there are. -/
  | transfers {ws : List Ticket} {session : Session} {ids : List UInt32}
      (hup : s.connected = true) (hmanaged : s.subscriptionIds? = some ids)
      (hfresh : event = .activateSucceeded) (hany : ids ≠ []) :
      Enters s event epoch (.active ws session)
        { state := .active ws session, before := [.watched epoch],
          ending := .waits (.transfer ids) (.send (s.transferRequest session ids)) }
  /-- There is nothing to take over, and publishing starts. -/
  | publishes {ws : List Ticket} {session : Session} {ids : List UInt32}
      (hup : s.connected = true) (hmanaged : s.subscriptionIds? = some ids)
      (hnothing : event = .activateSucceeded → ids = []) :
      Enters s event epoch (.active ws session)
        { state := .active ws session,
          before := [.watched epoch, .startedPublishing (event = .activateSucceeded)],
          ending := .concludes none }
  /-- The session is closed before the connection is. -/
  | closing {session : Session} {completions : List Ticket} :
      Enters s event epoch (.closing session completions)
        { state := .closing session completions,
          ending := .waits .closeSession (.send (s.closeRequest session)) }
  /-- The timer of the wait is started. -/
  | delayed {previous : Session} {delay : Nat} {ws : List Ticket} :
      Enters s event epoch (.reactivateDelay previous delay ws)
        { state := .reactivateDelay previous delay ws,
          before := [.scheduled epoch (.ofSecs delay)], ending := .concludes none }
  /-- To reactivate a session begins with a connection too. -/
  | reactivating {previous : Session} {delay : Nat} {ws : List Ticket}
      {session : Option Session} :
      Enters s event epoch (.reactivateExecute previous delay ws session)
        { state := .reactivateExecute previous delay ws session,
          ending := .waits .connectToReactivate .connect }

namespace Machine

/-- **Every state is entered by one of the courses.**  Proofs about entering
look at the courses and no more at the code of the machine. -/
theorem enter_course (s : Surroundings) (event : Event) (owed : Owed) (m : Machine) :
    ∃ c, Enters s event m.epoch m.state c ∧ m.enter s event owed = c.run s owed m := by
  obtain ⟨st, epoch, queue, listeners, entry⟩ := m
  unfold enter
  cases st with
  | inactive abandoned =>
      by_cases hclosing : event = .disconnectSucceeded
      · exact ⟨_, .closed hclosing, by simp [hclosing, Course.run, Ending.run, Progress.andThen]⟩
      · cases abandoned with
        | none => exact ⟨_, .givenUp hclosing, by simp only [if_neg hclosing]; rfl⟩
        | some session => exact ⟨_, .abandoned hclosing, by simp only [if_neg hclosing]; rfl⟩
  | creating ws created => exact ⟨_, .creating, rfl⟩
  | activating ws session =>
      obtain ⟨before, hhidden, ⟨e, hwhy, h⟩ | ⟨_, _, _, h⟩⟩ :=
        activate_cases s _ owed .activateSession session (fail s owed · .activateFailed)
      · exact ⟨_, .refused hhidden hwhy, h⟩
      · exact ⟨_, .activating hhidden, h⟩
  | active ws session =>
      dsimp only
      cases hup : s.connected with
      | false => exact ⟨_, .lost hup, by simp [Course.run, Ending.run]⟩
      | true =>
          cases hmanaged : s.subscriptionIds? with
          | none => exact ⟨_, .unmanaged hup hmanaged, by simp [Course.run, Ending.run]⟩
          | some ids =>
              by_cases hfresh : event = .activateSucceeded ∧ ids ≠ []
              · exact ⟨_, .transfers hup hmanaged hfresh.1 hfresh.2,
                  by simp [hfresh.1, hfresh.2, Course.run, Ending.run]⟩
              · have hnothing : event = .activateSucceeded → ids = [] := fun hsucceeded =>
                  Decidable.of_not_not fun hany => hfresh ⟨hsucceeded, hany⟩
                have hstale : (decide (event = .activateSucceeded) && !ids.isEmpty) = false := by
                  simpa using hnothing
                exact ⟨_, .publishes hup hmanaged hnothing,
                  by simp [hstale, Course.run, Ending.run, Progress.andThen]⟩
  | closing session completions => exact ⟨_, .closing, rfl⟩
  | reactivateDelay previous delay ws => exact ⟨_, .delayed, rfl⟩
  | reactivateExecute previous delay ws session => exact ⟨_, .reactivating, rfl⟩

end Machine

/-! ## To go on after a call -/

/-- The event of an attempt that failed.  A session that the server does not
know any more is not reactivated again. -/
def Awaiting.failure (e : SessionError) : Awaiting → Event
  | .connectToReactivate | .reactivateSession =>
    if e.status.isSessionInvalid then .reactivateInvalid else .reactivateFailed
  | .activateSession => .activateFailed
  | _ => .createFailed

/-- Whether the call is part of an attempt to come by a session. -/
def Awaiting.attempts : Awaiting → Bool
  | .connectToCreate | .createSession | .activateSession | .connectToReactivate
  | .reactivateSession => true
  | _ => false

/-- Why an attempt to come by a session fails when the call that the machine
waits for has ended: the call itself failed, or there is no endpoint, or the
server answered something else, or no activation can be asked for. -/
inductive Surroundings.Fails (s : Surroundings) :
    Outcome → Awaiting → State → SessionError → Prop
  | call {a : Awaiting} {st : State} {e : SessionError} (hattempts : a.attempts) :
      Fails s (.failed e) a st e
  /-- There is a connection, but no endpoint to create a session at. -/
  | endpoint {o : Outcome} {st : State} (hmissing : s.endpoint? = none) :
      Fails s o .connectToCreate st .noEndpoint
  /-- The server did not create a session. -/
  | creation {r : Response} {st : State} {e : SessionError}
      (hother : createdSession s.settings.sessionName r = .error e) :
      Fails s (.response r) .createSession st e
  /-- The server did not activate the session. -/
  | activation {r : Response} {a : Awaiting} {st : State} {e : SessionError}
      (hactivating : a = .activateSession ∨ a = .reactivateSession)
      (hother : activationNonce r = .error e) : Fails s (.response r) a st e
  /-- There is a connection again, but no token can be made for the
  session. -/
  | refused {o : Outcome} {previous : Session} {delay : Nat} {ws : List Ticket}
      {session : Option Session} {e : SessionError} (hwhy : s.Refuses previous e) :
      Fails s o .connectToReactivate (.reactivateExecute previous delay ws session) e
  /-- No request ends like this, but if one did it would count as closed. -/
  | nothing {a : Awaiting} {st : State} (hattempts : a.attempts) : Fails s .done a st .closed

/-- An answer that does not serve fails, was another one, or is missing. -/
theorem error_of_outcomeResponse {α : Type} {o : Outcome} {f : Response → Except SessionError α}
    {e : SessionError} (h : (Machine.outcomeResponse o).bind f = .error e) :
    o = .failed e ∨ (∃ r, o = .response r ∧ f r = .error e) ∨ (o = .done ∧ e = .closed) := by
  cases o with
  | failed e' => cases h; exact .inl rfl
  | response r => exact .inr (.inl ⟨r, rfl, h⟩)
  | done => cases h; exact .inr (.inr ⟨rfl, rfl⟩)

/-- What is no creation of a session is a failure, be it in the call or in the
answer. -/
theorem Surroundings.Fails.of_creation {s : Surroundings} {o : Outcome} {st : State}
    {e : SessionError}
    (h : (Machine.outcomeResponse o).bind (createdSession s.settings.sessionName) = .error e) :
    s.Fails o .createSession st e := by
  rcases error_of_outcomeResponse h with rfl | ⟨r, rfl, hother⟩ | ⟨rfl, rfl⟩
  · exact .call rfl
  · exact .creation hother
  · exact .nothing rfl

/-- What is no activation of a session is a failure, be it in the call or in
the answer. -/
theorem Surroundings.Fails.of_activation {s : Surroundings} {o : Outcome} {a : Awaiting}
    {st : State} {e : SessionError} (hactivating : a = .activateSession ∨ a = .reactivateSession)
    (h : (Machine.outcomeResponse o).bind activationNonce = .error e) : s.Fails o a st e := by
  have hattempts : a.attempts := by rcases hactivating with rfl | rfl <;> rfl
  rcases error_of_outcomeResponse h with rfl | ⟨r, rfl, hother⟩ | ⟨rfl, rfl⟩
  · exact .call hattempts
  · exact .activation hactivating hother
  · exact .nothing hattempts

/-- The courses of going on after a call.  There is one constructor for each
call that the machine can wait for when it has ended well, and one for all
attempts that fail. -/
inductive Resumes (s : Surroundings) (o : Outcome) : Awaiting → State → Course → Prop
  /-- Whether the abandoned session could be closed or not, the connection is
  let go. -/
  | abandonedClosed {st : State} :
      Resumes s o .closeAbandoned st
        { state := st, ending := .waits .dropConnection .disconnect }
  /-- Whether the connection could be closed or not, it is gone. -/
  | dropped {st : State} :
      Resumes s o .dropConnection st { state := st, ending := .concludes none }
  /-- An attempt to come by a session has failed. -/
  | fails {a : Awaiting} {st : State} {before : List Effect} {e : SessionError}
      (hhidden : ∀ f ∈ before, f.isPrivate) (hwhy : s.Fails o a st e) :
      Resumes s o a st { state := st, before := before, ending := .fails e (a.failure e) }
  /-- Over the new connection a session is created. -/
  | connected {st : State} {endpoint : EndpointDescription} (hup : ∀ e, o ≠ .failed e)
      (hfound : s.endpoint? = some endpoint) :
      Resumes s o .connectToCreate st
        { state := st, ending := .waits .createSession (.send (s.createRequest endpoint)) }
  /-- The server has created a session, which the state holds now. -/
  | created {ws : List Ticket} {created : Option Session} {session : Session}
      (hanswered : (Machine.outcomeResponse o).bind (createdSession s.settings.sessionName) =
        .ok session) :
      Resumes s o .createSession (.creating ws created)
        { state := .creating ws (some session), ending := .concludes (some .createSucceeded) }
  /-- The server has activated the session and sent another nonce for it. -/
  | activated {ws : List Ticket} {session : Session} {nonce : ByteString}
      (hanswered : (Machine.outcomeResponse o).bind activationNonce = .ok nonce) :
      Resumes s o .activateSession (.activating ws session)
        { state := .activating ws (session.withNonce nonce),
          ending := .concludes (some .activateSucceeded) }
  /-- The subscriptions have been told what became of them, and publishing
  starts. -/
  | transferred {st : State} {ids : List UInt32} :
      Resumes s o (.transfer ids) st
        { state := st,
          before := [.transferred (transferResults ids (Machine.outcomeResponse o)),
            .startedPublishing true],
          ending := .concludes none }
  /-- Whether the session could be closed or not, the connection is closed
  next. -/
  | sessionClosed {st : State} :
      Resumes s o .closeSession st
        { state := st, ending := .waits .closeConnection .disconnect }
  /-- The disconnection is over, however it went. -/
  | connectionClosed {st : State} :
      Resumes s o .closeConnection st
        { state := st, ending := .concludes (some .disconnectSucceeded) }
  /-- Over the new connection the session is activated again. -/
  | reconnected {previous : Session} {delay : Nat} {ws : List Ticket} {session : Option Session}
      {before : List Effect} {identity : UserToken} {tokenSignature signature : SignatureData}
      (hhidden : ∀ f ∈ before, f.isPrivate) (hup : ∀ e, o ≠ .failed e) :
      Resumes s o .connectToReactivate (.reactivateExecute previous delay ws session)
        { state := .reactivateExecute previous delay ws session, before := before,
          ending := .waits .reactivateSession
            (.send (s.activateRequest previous identity tokenSignature signature)) }
  /-- The server has activated the session again and sent another nonce for
  it. -/
  | reactivated {previous : Session} {delay : Nat} {ws : List Ticket} {session : Option Session}
      {nonce : ByteString}
      (hanswered : (Machine.outcomeResponse o).bind activationNonce = .ok nonce) :
      Resumes s o .reactivateSession (.reactivateExecute previous delay ws session)
        { state := .reactivateExecute previous delay ws
            (some (previous.reactivated s.settings.sessionName nonce)),
          ending := .concludes (some .reactivateSucceeded) }

namespace Machine

/-- **After every call the machine goes on by one of the courses.**  It waits
only for calls that fit its state, so no other cases arise. -/
theorem resume_course (s : Surroundings) (o : Outcome) {m : Machine} {entry : Entry}
    (hwaiting : m.entry? = some entry) (hfits : entry.awaiting.Fits m.state) :
    ∃ c, Resumes s o entry.awaiting m.state c ∧ m.resume s o = c.run s entry.owed m := by
  obtain ⟨st, epoch, queue, listeners, waits⟩ := m
  obtain ⟨awaiting, owed⟩ := entry
  cases hwaiting
  unfold resume
  cases awaiting with
  | closeAbandoned => exact ⟨_, .abandonedClosed, rfl⟩
  | dropConnection => exact ⟨_, .dropped, rfl⟩
  | connectToCreate =>
      dsimp only
      split
      · rename_i e
        exact ⟨{ state := _, ending := _ }, .fails (by simp) (.call rfl), rfl⟩
      · rename_i hup
        split
        · rename_i hmissing
          exact ⟨{ state := _, ending := _ }, .fails (by simp) (.endpoint hmissing), rfl⟩
        · rename_i endpoint hfound
          exact ⟨_, .connected hup hfound, rfl⟩
  | createSession =>
      cases st <;> simp only [Awaiting.Fits] at hfits
      dsimp only
      split
      · rename_i e hfailed
        exact ⟨{ state := _, ending := _ }, .fails (by simp) (.of_creation hfailed), rfl⟩
      · rename_i session hanswered
        exact ⟨_, .created hanswered, rfl⟩
  | activateSession =>
      cases st <;> simp only [Awaiting.Fits] at hfits
      dsimp only
      split
      · rename_i e hfailed
        exact ⟨{ state := _, ending := _ }, .fails (by simp) (.of_activation (.inl rfl) hfailed),
          rfl⟩
      · rename_i nonce hanswered
        exact ⟨_, .activated hanswered, rfl⟩
  | transfer ids => exact ⟨_, .transferred, rfl⟩
  | closeSession => exact ⟨_, .sessionClosed, rfl⟩
  | closeConnection => exact ⟨_, .connectionClosed, rfl⟩
  | connectToReactivate =>
      cases st <;> simp only [Awaiting.Fits] at hfits
      rename_i previous delay ws session
      have hasking : ∀ m' : Machine,
          m' = ⟨.reactivateExecute previous delay ws session, epoch, queue, listeners,
            some ⟨.connectToReactivate, owed⟩⟩ → (∀ e, o ≠ .failed e) →
          ∃ c, Resumes s o .connectToReactivate (.reactivateExecute previous delay ws session) c ∧
            m'.activate s owed .reactivateSession previous (failReactivation s owed) =
              c.run s owed m' := by
        rintro m' rfl hup
        obtain ⟨before, hhidden, ⟨e, hwhy, h⟩ | ⟨_, _, _, h⟩⟩ :=
          activate_cases s _ owed .reactivateSession previous (failReactivation s owed)
        · exact ⟨_, .fails hhidden (.refused hwhy), h⟩
        · exact ⟨_, .reconnected hhidden hup, h⟩
      cases o with
      | failed e => exact ⟨{ state := _, ending := _ }, .fails (by simp) (.call rfl), rfl⟩
      | done => exact hasking _ rfl (by simp)
      | response r => exact hasking _ rfl (by simp)
  | reactivateSession =>
      cases st <;> simp only [Awaiting.Fits] at hfits
      dsimp only
      split
      · rename_i e hfailed
        exact ⟨{ state := _, ending := _ }, .fails (by simp) (.of_activation (.inr rfl) hfailed),
          rfl⟩
      · rename_i nonce hanswered
        exact ⟨_, .reactivated hanswered, rfl⟩

end Machine

/-! ## What a course comes to -/

/-- An effect that is neither a move nor a call nor an answer. -/
def Effect.isAside : Effect → Bool
  | .published _ | .call _ | .answered _ _ => false
  | _ => true

/-- What is private to a step does not concern the course of things either. -/
theorem aside_of_private {f : Effect} (h : f.isPrivate) : f.isAside := by
  cases f <;> first | rfl | cases h

/-- What is done on entering a state is beside the point to callers and to the
queue. -/
theorem Enters.aside {s : Surroundings} {event : Event} {epoch : Nat} {st : State} {c : Course}
    (h : Enters s event epoch st c) : ∀ f ∈ c.before, f.isAside := by
  cases h with
  | activating hhidden | refused hhidden => exact fun f hf => aside_of_private (hhidden f hf)
  | _ => simp [Effect.isAside]

/-- What is done after a call is beside the point to callers and to the
queue. -/
theorem Resumes.aside {s : Surroundings} {o : Outcome} {a : Awaiting} {st : State} {c : Course}
    (h : Resumes s o a st c) : ∀ f ∈ c.before, f.isAside := by
  cases h with
  | fails hhidden | reconnected hhidden => exact fun f hf => aside_of_private (hhidden f hf)
  | _ => simp [Effect.isAside]

/-- A state that is entered stays of its kind, whatever it comes by. -/
theorem Enters.kind {s : Surroundings} {event : Event} {epoch : Nat} {st : State} {c : Course}
    (h : Enters s event epoch st c) : c.state.kind = st.kind := by
  cases h <;> rfl

/-- A state stays of its kind when the machine goes on after a call. -/
theorem Resumes.kind {s : Surroundings} {o : Outcome} {a : Awaiting} {st : State} {c : Course}
    (h : Resumes s o a st c) : c.state.kind = st.kind := by
  cases h <;> rfl

/-- Whom the machine answers in the end: the one for whom a state was entered,
unless that one now waits for the session to be closed. -/
theorem Machine.mem_pay {owed : Owed} {m : Machine} {t : Ticket} {a : Answer}
    (h : .answered t a ∈ (m.pay owed).effects) :
    (owed = .state t ∧ a = .state m.state.kind) ∨
      (owed = .disconnect t ∧ a = .disconnected ∧ m.state.kind ≠ .closing) := by
  cases owed with
  | nobody => cases h
  | state t' =>
      cases List.mem_singleton.mp h
      exact .inl ⟨rfl, rfl⟩
  | disconnect t' =>
      simp only [pay] at h
      split at h
      · cases h
      · rename_i hother
        cases List.mem_singleton.mp h
        refine .inr ⟨rfl, rfl, ?_⟩
        intro hclosing
        cases hst : m.state <;> rw [hst] at hclosing <;> cases hclosing
        exact hother _ _ hst

/-- Whom the machine answers when it has entered a state: those who wait for a
session in use, and the one for whom the state was entered, unless that one
now waits for the session to be closed. -/
theorem Machine.mem_conclude {s : Surroundings} {owed : Owed} {followUp : Option Event}
    {m : Machine} {t : Ticket} {a : Answer}
    (h : .answered t a ∈ (m.conclude s owed followUp).effects) :
    (∃ ws session, m.state = .active ws session ∧ t ∈ ws ∧ a = .session (.ok session)) ∨
      (owed = .state t ∧ a = .state m.state.kind) ∨
      (owed = .disconnect t ∧ a = .disconnected ∧ m.state.kind ≠ .closing) := by
  unfold conclude at h
  simp only [Progress.andThen, List.append_nil, raise_queue, List.mem_append] at h
  have htold := (announce_concludes (m := { m with entry? := none }) s rfl
    (Listeners.raiseOnly_any _)).bare
  rcases h with h | h
  · left
    unfold announce at h
    split at h
    · rename_i ws session hst
      rcases List.mem_append.mp h with h | h
      · obtain ⟨l, -, heq⟩ := List.mem_map.mp h
        cases heq
      · obtain ⟨t', hwaits, heq⟩ := List.mem_map.mp h
        cases heq
        exact ⟨ws, session, hst, hwaits, rfl⟩
    · cases h
  · have hkind : (announce s { m with entry? := none }).machine.state.kind = m.state.kind :=
      State.kind_eq_of_bare htold
    have hpaid := mem_pay h
    rw [hkind] at hpaid
    exact .inr hpaid

/-- Of what a step does the call comes last, and before it there is no
other. -/
def CallsLast (c? : Option Call) (fs : List Effect) : Prop :=
  ∃ before, fs = before ++ (c?.map .call).toList ∧ ∀ f ∈ before, ∀ c, f ≠ .call c

theorem callsLast_of_silent {fs : List Effect} (hsilent : ∀ f ∈ fs, ∀ c, f ≠ .call c) :
    CallsLast none fs := ⟨fs, (List.append_nil fs).symm, hsilent⟩

theorem CallsLast.after {c? : Option Call} {fs gs : List Effect}
    (hsilent : ∀ f ∈ fs, ∀ c, f ≠ .call c) (h : CallsLast c? gs) : CallsLast c? (fs ++ gs) := by
  obtain ⟨before, rfl, hbefore⟩ := h
  refine ⟨fs ++ before, (List.append_assoc ..).symm, ?_⟩
  intro f hf
  rcases List.mem_append.mp hf with hf | hf
  · exact hsilent f hf
  · exact hbefore f hf

/-- A call that is made comes last. -/
theorem CallsLast.call_of_mem {c? : Option Call} {fs : List Effect} {c : Call}
    (h : CallsLast c? fs) (hmade : .call c ∈ fs) : c? = some c := by
  obtain ⟨before, rfl, hsilent⟩ := h
  rcases List.mem_append.mp hmade with hmade | hmade
  · exact absurd rfl (hsilent _ hmade c)
  · obtain ⟨_, hlast, hsame⟩ := Option.map_eq_some_iff.mp (Option.mem_toList.mp hmade)
    cases hsame
    exact hlast

/-- Before anything that is done no call is made. -/
theorem CallsLast.silent_before {c? : Option Call} {fs gs : List Effect} {f : Effect}
    (h : CallsLast c? (fs ++ f :: gs)) : ∀ f' ∈ fs, ∀ c, f' ≠ .call c := by
  obtain ⟨before, hsplit, hsilent⟩ := h
  rcases List.append_eq_append_iff.mp hsplit with ⟨more, rfl, -⟩ | ⟨more, rfl, hlast⟩
  · exact fun f' hf' => hsilent f' (List.mem_append_left _ hf')
  · cases more with
    | nil => rwa [List.append_nil]
    | cons f' more => cases c? <;> simp at hlast

namespace Course

variable {s : Surroundings} {owed : Owed} {m : Machine} {c : Course}

theorem entry_run : (c.run s owed m).machine.entry? = c.ending.entry? owed := by
  rcases c.ending.waits_or_rests with ⟨awaiting, call, hwaits⟩ | hrests
  · rw [run, hwaits]
    rfl
  · rw [Ending.entry?_eq_none.mpr hrests]
    exact (Ending.concludes_of_rests hrests s owed (Listeners.raiseOnly_any _)).entry

theorem bare_run : (c.run s owed m).machine.state.bare = c.state.bare := by
  rcases c.ending.waits_or_rests with ⟨awaiting, call, hwaits⟩ | hrests
  · rw [run, hwaits]
    rfl
  · exact (Ending.concludes_of_rests hrests s owed (Listeners.raiseOnly_any _)).bare

theorem kind_run : (c.run s owed m).machine.state.kind = c.state.kind :=
  State.kind_eq_of_bare bare_run

theorem epoch_run : (c.run s owed m).machine.epoch = m.epoch := by
  rcases c.ending.waits_or_rests with ⟨awaiting, call, hwaits⟩ | hrests
  · rw [run, hwaits]
    rfl
  · exact (Ending.concludes_of_rests hrests s owed (Listeners.raiseOnly_any _)).epoch

/-- What a step raises comes last into the queue, after what listeners
raise. -/
theorem queue_run {Q : Event → Prop} (c : Course) (s : Surroundings) (owed : Owed)
    (h : m.listeners.RaiseOnly Q) :
    ∃ raised : List Event, (∀ e ∈ raised, Q e) ∧
      (c.run s owed m).machine.queue =
        m.queue ++ raised.map (.event · none) ++ m.outcome s c.ending.followUp? := by
  rcases c.ending.waits_or_rests with ⟨awaiting, call, hwaits⟩ | hrests
  · refine ⟨[], by simp, ?_⟩
    simp [run, hwaits, Ending.run, Progress.andThen, Machine.waitFor, Ending.followUp?,
      Machine.outcome]
  · exact (Ending.concludes_of_rests (m := { m with state := c.state }) hrests s owed h).queue

/-- All that a course adds to the queue is what listeners raise, and the event
that it raises itself. -/
theorem mem_queue_run {Q : Event → Prop} (h : m.listeners.RaiseOnly Q) {c' : Command}
    (hc : c' ∈ (c.run s owed m).machine.queue) :
    c' ∈ m.queue ∨ (∃ e, c' = .event e none ∧ Q e) ∨
      ∃ e ∈ c.ending.followUp?, c' = .stamped e m.epoch := by
  obtain ⟨raised, hallowed, hqueue⟩ := queue_run c s owed h
  rw [hqueue, List.mem_append, List.mem_append] at hc
  rcases hc with (hc | hc) | hc
  · exact .inl hc
  · obtain ⟨e, he, rfl⟩ := List.mem_map.mp hc
    exact .inr (.inl ⟨e, rfl, hallowed e he⟩)
  · unfold Machine.outcome at hc
    split at hc
    · obtain ⟨e, he, rfl⟩ := Option.map_eq_some_iff.mp (Option.mem_toList.mp hc)
      exact .inr (.inr ⟨e, he, rfl⟩)
    · cases hc

/-- All that a course stamps is the event that it raises. -/
theorem stamped_run {e : Event} {k : Nat} (h : .stamped e k ∈ (c.run s owed m).machine.queue) :
    .stamped e k ∈ m.queue ∨ e ∈ c.ending.followUp? ∧ k = m.epoch := by
  rcases mem_queue_run (Listeners.raiseOnly_any _) h with
    hold | ⟨_, hother, -⟩ | ⟨_, hraised, hsame⟩
  · exact .inl hold
  · cases hother
  · cases hsame
    exact .inr ⟨hraised, rfl⟩

theorem queued_run {e : Event} (h : (c.run s owed m).machine.Queued e) :
    m.Queued e ∨ e ∈ c.ending.followUp? := by
  rw [Machine.Queued, epoch_run] at h
  exact (stamped_run h).imp_right And.left

theorem callsLast (s : Surroundings) (owed : Owed) (m : Machine)
    (haside : ∀ f ∈ c.before, f.isAside) : CallsLast c.ending.call? (c.run s owed m).effects := by
  have hsilent : ∀ f ∈ c.before, ∀ call, f ≠ .call call := by
    rintro f hf call rfl
    cases haside _ hf
  rcases c.ending.waits_or_rests with ⟨awaiting, call, hwaits⟩ | hrests
  · exact ⟨c.before, by rw [run, hwaits]; rfl, hsilent⟩
  · rw [hrests]
    refine callsLast_of_silent fun f hf => ?_
    rcases List.mem_append.mp hf with hf | hf
    · exact hsilent f hf
    · exact ne_call_of_quiet
        ((Ending.concludes_of_rests hrests s owed (Listeners.raiseOnly_any _)).quiet f hf)

/-- Nobody is answered on the way. -/
theorem mem_run {t : Ticket} {a : Answer} (haside : ∀ f ∈ c.before, f.isAside)
    (h : .answered t a ∈ (c.run s owed m).effects) :
    .answered t a ∈ (c.ending.run s owed { m with state := c.state }).effects := by
  rcases List.mem_append.mp h with h | h
  · cases haside _ h
  · exact h

/-- A course is no move. -/
theorem still_run {t : Transition} (haside : ∀ f ∈ c.before, f.isAside) :
    .published t ∉ (c.run s owed m).effects := by
  intro h
  rcases List.mem_append.mp h with h | h
  · cases haside _ h
  · rcases c.ending.waits_or_rests with ⟨awaiting, call, hwaits⟩ | hrests
    · rw [hwaits] at h
      cases List.mem_singleton.mp h
    · cases (Ending.concludes_of_rests hrests s owed (Listeners.raiseOnly_any _)).quiet _ h

/-- **Whoever is refused a session by a course is refused it because it
fails**, and had waited for it. -/
theorem refuses {t : Ticket} {e : SessionError} (haside : ∀ f ∈ c.before, f.isAside)
    (h : .answered t (.session (.error e)) ∈ (c.run s owed m).effects) :
    ∃ followUp, c.ending = .fails e followUp ∧ t ∈ c.state.waiters := by
  have h := mem_run haside h
  obtain ⟨st, before, ending⟩ := c
  cases ending with
  | waits awaiting call => simp [Ending.run, Machine.waitFor] at h
  | concludes followUp =>
      rcases Machine.mem_conclude h with ⟨_, _, _, _, heq⟩ | ⟨_, heq⟩ | ⟨_, heq, _⟩ <;> cases heq
  | fails e' followUp =>
      rcases List.mem_append.mp h with h | h
      · obtain ⟨t', hwaits, heq⟩ := List.mem_map.mp h
        cases heq
        exact ⟨followUp, rfl, hwaits⟩
      · rcases Machine.mem_conclude h with ⟨_, _, _, _, heq⟩ | ⟨_, heq⟩ | ⟨_, heq, _⟩ <;> cases heq

/-- **Whoever is told by a course that it is disconnected is the one for whom
the machine enters the state**, which it has then done, and no session is
being closed. -/
theorem disconnects {t : Ticket} (haside : ∀ f ∈ c.before, f.isAside)
    (h : .answered t .disconnected ∈ (c.run s owed m).effects) :
    owed = .disconnect t ∧ c.ending.call? = none ∧ c.state.kind ≠ .closing := by
  have h := mem_run haside h
  obtain ⟨st, before, ending⟩ := c
  cases ending with
  | waits awaiting call => simp [Ending.run, Machine.waitFor] at h
  | concludes followUp =>
      rcases Machine.mem_conclude h with ⟨_, _, _, _, heq⟩ | ⟨_, heq⟩ | ⟨hmine, _, hother⟩
      · cases heq
      · cases heq
      · exact ⟨hmine, rfl, hother⟩
  | fails e' followUp =>
      rcases List.mem_append.mp h with h | h
      · obtain ⟨_, _, heq⟩ := List.mem_map.mp h
        cases heq
      · rcases Machine.mem_conclude h with ⟨_, _, _, _, heq⟩ | ⟨_, heq⟩ | ⟨hmine, _, hother⟩
        · cases heq
        · cases heq
        · refine ⟨hmine, rfl, ?_⟩
          rwa [← State.kind_bare, State.bare_withWaiters, State.kind_bare] at hother

end Course

/-! ## To take a command -/

/-- The caller who wants a session. -/
def Command.waiter? : Command → Option Ticket
  | .getSession t => some t
  | _ => none

/-- The caller who is answered when the machine has entered a state: the one
who raised an event or asked for disconnection. -/
def Command.owed : Command → Owed
  | .event _ (some t) => .state t
  | .disconnect t => .disconnect t
  | _ => .nobody

namespace Machine

/-- To join those who wait for a session, on behalf of a caller or of
nobody. -/
def join (waiter : Option Ticket) (m : Machine) : Progress :=
  waiter.elim { machine := m } m.attach

/-- The machine has moved, and the caller has joined it where it is now. -/
def depart (s : Surroundings) (m : Machine) (event : Event) (move : State.Move)
    (waiter : Option Ticket) : Progress :=
  (m.move s event move).andThen (join waiter)

/-- What may come of a command that is taken: it is stale; the session in use
is given; its event is ignored; or it moves the machine, which then takes one
of the courses into the state that it has come to. -/
inductive Obeys (s : Surroundings) (m : Machine) (c : Command) : Progress → Prop
  /-- Its event belongs to a state that has been left. -/
  | stale (hnothing : c.event? m = none) : Obeys s m c { machine := m }
  /-- Whoever asks for the session in use gets it at once. -/
  | given {t : Ticket} {session : Session} (hwants : c = .getSession t)
      (hactive : m.state.activeSession? = some session) :
      Obeys s m c { machine := m, effects := [.answered t (.session (.ok session))] }
  /-- The table knows no move for it here. -/
  | ignored {e : Event} (hevent : c.event? m = some e) (hstill : m.state.transition? e = none) :
      Obeys s m c ((m.join c.waiter?).andThen (pay · c.owed))
  /-- The machine leaves its state and enters the next by a course. -/
  | moves {e : Event} {move : State.Move} {course : Course} (hevent : c.event? m = some e)
      (hmoves : m.state.transition? e = some move)
      (henters : Enters s e (m.epoch + 1) (m.depart s e move c.waiter?).machine.state course) :
      Obeys s m c ((m.depart s e move c.waiter?).andThen (course.run s c.owed))

/-- Whom a move answers: those who waited for the session to be closed, and
those whom it leaves behind. -/
theorem mem_move {s : Surroundings} {m : Machine} {event : Event} {move : State.Move}
    {t : Ticket} {a : Answer} (h : .answered t a ∈ (m.move s event move).effects) :
    (∃ session cs, m.state = .closing session cs ∧ t ∈ cs ∧ a = .disconnected) ∨
      (t ∈ move.left ∧ a = .session (.error .closed)) := by
  have hgiven : .answered t a ∈
      .published ⟨m.state.kind, event, move.next.kind⟩ :: leave m.state m.epoch
        ++ answers move.left (.session (.error .closed)) →
      (∃ session cs, m.state = .closing session cs ∧ t ∈ cs ∧ a = .disconnected) ∨
        (t ∈ move.left ∧ a = .session (.error .closed)) := by
    intro h
    rcases List.mem_append.mp h with h | h
    · rcases List.mem_cons.mp h with h | h
      · cases h
      · cases hst : m.state with
        | closing session cs =>
            rw [hst] at h
            obtain ⟨t', hwaits, heq⟩ := List.mem_map.mp h
            cases heq
            exact .inl ⟨session, cs, rfl, hwaits, rfl⟩
        | _ => simp [hst, leave] at h
    · obtain ⟨t', hleft, heq⟩ := List.mem_map.mp h
      cases heq
      exact .inr ⟨hleft, rfl⟩
  unfold Machine.move at h
  split at h
  · rcases List.mem_append.mp h with h | h
    · exact hgiven h
    · obtain ⟨l, -, heq⟩ := List.mem_map.mp h
      cases heq
  · exact hgiven h

/-- To leave a state for another is a move, also if a caller joins on the
way. -/
theorem depart_moves {Q : Event → Prop} {m : Machine} (s : Surroundings) (event : Event)
    (move : State.Move) (waiter : Option Ticket) (h : m.listeners.RaiseOnly Q) :
    Moves Q m event move (m.depart s event move waiter) :=
  (move_moves s event move h).join (join_serves _ waiter)

theorem departs (m : Machine) (s : Surroundings) (event : Event) (move : State.Move)
    (waiter : Option Ticket) : Moves (fun _ => True) m event move (m.depart s event move waiter) :=
  depart_moves s event move waiter (Listeners.raiseOnly_any _)

/-- Whoever is answered by a move is answered by it whoever joins then. -/
theorem mem_depart {s : Surroundings} {m : Machine} {event : Event} {move : State.Move}
    {waiter : Option Ticket} {f : Effect}
    (h : f ∈ leave m.state m.epoch ++ answers move.left (.session (.error .closed))) :
    f ∈ (m.depart s event move waiter).effects := by
  refine List.mem_append_left _ ?_
  unfold Machine.move
  split
  · exact List.mem_append_left _ (List.mem_cons_of_mem _ h)
  · exact List.mem_cons_of_mem _ h

/-- An event that a command stands for is handled, by a move of the table or
by none. -/
theorem handle_obeys {s : Surroundings} {m : Machine} {c : Command} {e : Event}
    (hevent : c.event? m = some e) : Obeys s m c (m.handle s e c.waiter? c.owed) := by
  cases hmove : m.state.transition? e with
  | none =>
      have hignored : m.handle s e c.waiter? c.owed =
          (m.join c.waiter?).andThen (pay · c.owed) := by
        unfold handle
        simp only [hmove]
        rfl
      rw [hignored]
      exact .ignored hevent hmove
  | some move =>
      have hmoved : m.handle s e c.waiter? c.owed =
          (m.depart s e move c.waiter?).andThen (enter s e c.owed) := by
        unfold handle
        simp only [hmove]
        rfl
      obtain ⟨course, henters, hrun⟩ :=
        enter_course s e c.owed (m.depart s e move c.waiter?).machine
      rw [(m.departs s e move c.waiter?).epoch] at henters
      have hwhole : m.handle s e c.waiter? c.owed =
          (m.depart s e move c.waiter?).andThen (course.run s c.owed) := by
        rw [hmoved, Progress.andThen, hrun]
        rfl
      rw [hwhole]
      exact .moves hevent hmove henters

/-- **Whatever command is taken, one of the four comes of it.**  Which one is
told by the event of the command and by the table of moves. -/
theorem obey_obeys (s : Surroundings) (m : Machine) (c : Command) : Obeys s m c (m.obey s c) := by
  cases c with
  | stamped e k =>
      by_cases hcurrent : k = m.epoch
      · rw [obey_current s m e hcurrent]
        exact handle_obeys (c := .stamped e k) (by simp [Command.event?, hcurrent])
      · rw [obey_stale s m e hcurrent]
        exact .stale (by simp [Command.event?, hcurrent])
  | event e ticket => cases ticket <;> exact handle_obeys (c := .event e _) rfl
  | getSession t =>
      unfold obey
      dsimp only
      split
      · rename_i session hactive
        exact .given rfl hactive
      · rename_i hinactive
        exact handle_obeys (c := .getSession t) (by simp [Command.event?, hinactive])
  | disconnect t => exact handle_obeys (c := .disconnect t) rfl

/-- What leaves the machine where it is serves callers: the one who asked
joins those who wait, or is told the state. -/
theorem ignored_serves (m : Machine) (waiter : Option Ticket) (owed : Owed) :
    Serves m ((m.join waiter).andThen (pay · owed)) :=
  (join_serves m waiter).andThen (pay_serves _ owed)

/-- A command that is taken leaves the machine where it is, if its event moves
nothing, or moves it. -/
theorem Obeys.serves_or_moves {s : Surroundings} {m : Machine} {c : Command} {p : Progress}
    (h : Obeys s m c p) :
    (Serves m p ∧ ∀ e, c.event? m = some e → m.state.transition? e = none) ∨
      ∃ e move course, c.event? m = some e ∧ m.state.transition? e = some move ∧
        Enters s e (m.epoch + 1) (m.depart s e move c.waiter?).machine.state course ∧
        p = (m.depart s e move c.waiter?).andThen (course.run s c.owed) := by
  cases h with
  | stale hnothing =>
      refine .inl ⟨.refl m, fun e hevent => ?_⟩
      cases hnothing.symm.trans hevent
  | given hwants hactive =>
      refine .inl ⟨⟨rfl, rfl, rfl, rfl, rfl, by simp [Effect.isQuiet]⟩, fun e hevent => ?_⟩
      simp [hwants, Command.event?, hactive] at hevent
  | ignored hevent hstill =>
      refine .inl ⟨ignored_serves m _ _, fun e hevent' => ?_⟩
      cases hevent.symm.trans hevent'
      exact hstill
  | moves hevent hmoves henters => exact .inr ⟨_, _, _, hevent, hmoves, henters, rfl⟩

end Machine

/-- Nothing is stamped with the epoch that a move begins, since all stamps
were given out in epochs before it. -/
theorem Moves.unraised {Q : Event → Prop} {m : Machine} {event : Event} {move : State.Move}
    {p : Progress} (h : Moves Q m event move p)
    (hstamps : ∀ e k, .stamped e k ∈ m.queue → k ≤ m.epoch) (e : Event) : ¬ p.machine.Queued e := by
  intro hqueued
  obtain ⟨raised, -, hqueue⟩ := h.queue
  rw [Machine.Queued, h.epoch, hqueue, List.mem_append] at hqueued
  rcases hqueued with hqueued | hqueued
  · have hold := hstamps e _ hqueued
    omega
  · simp at hqueued

/-! ## What happens -/

/-- The command that was taken, if the entry of a history is one. -/
def Happening.command? : Happening → Option Command
  | taken c => some c
  | _ => none

/-- The events that the watcher and the timer raise, beside those that end the
entry of a state. -/
def Event.isNotice : Event → Bool
  | connectionLost | sessionInvalid | reactivateRequested => true
  | _ => false

namespace Run

/-- What may become of a run when something happens: the machine takes a
command, or goes on after a call, or stays where it is while at most something
comes into its queue. -/
inductive Becomes (r : Run) (o : Occurrence) : Run → Prop
  /-- The idle machine takes the first command of its queue and obeys it. -/
  | takes {s : Surroundings} {c : Command} {rest : List Command} {p : Progress}
      (htaking : o = .taking s) (hidle : r.machine.entry? = none)
      (hqueue : r.machine.queue = c :: rest)
      (hstep : p = (r.dequeue c rest).machine.obey s c)
      (hobeys : (r.dequeue c rest).machine.Obeys s c p) :
      Becomes r o ((r.dequeue c rest).proceed p)
  /-- The call that the machine waited for has ended, and it goes on by a
  course. -/
  | resumes {s : Surroundings} {outcome : Outcome} {entry : Entry} {course : Course}
      (hended : o = .ended s outcome) (hwaiting : r.machine.entry? = some entry)
      (hstep : course.run s entry.owed r.machine = r.machine.resume s outcome)
      (hresumes : Resumes s outcome entry.awaiting r.machine.state course) :
      Becomes r o ((r.record (.returned outcome)).proceed (course.run s entry.owed r.machine))
  /-- The machine does nothing; somebody asks it for something, or the watcher
  or the timer raises an event, or neither. -/
  | stays {r' : Run} (hhistory : r'.history = r.history)
      (hstate : r'.machine.state = r.machine.state)
      (hepoch : r'.machine.epoch = r.machine.epoch)
      (hentry : r'.machine.entry? = r.machine.entry?)
      (hqueue : ∃ news, r'.machine.queue = r.machine.queue ++ news ∧ ∀ c ∈ news,
        (o = .asked c ∧ ¬ c.isStamped) ∨ ∃ e k, c = .stamped e k ∧ e.isNotice) :
      Becomes r o r'

variable {A : Prop} {r : Run}

/-- What leaves the machine alone leaves the run where it is. -/
theorem becomes_of_machine {r' : Run} {o : Occurrence} (hhistory : r'.history = r.history)
    (hmachine : r'.machine = r.machine) : r.Becomes o r' :=
  .stays hhistory (congrArg _ hmachine) (congrArg _ hmachine) (congrArg _ hmachine)
    ⟨[], by simp [hmachine], by simp⟩

/-- What comes into the queue leaves the run where it is otherwise. -/
theorem becomes_of_push {r' : Run} {o : Occurrence} {c : Command}
    (hhistory : r'.history = r.history) (hmachine : r'.machine = r.machine.push c)
    (hcame : (o = .asked c ∧ ¬ c.isStamped) ∨ ∃ e k, c = .stamped e k ∧ e.isNotice) :
    r.Becomes o r' :=
  .stays hhistory (by rw [hmachine]; rfl) (by rw [hmachine]; rfl) (by rw [hmachine]; rfl)
    ⟨[c], by rw [hmachine]; rfl, by simpa using hcame⟩

/-- **Whatever happens, one of the three becomes of a run.**  Proofs by cases
on what happens go through these three instead of the many occurrences. -/
theorem Sound.becomes (h : r.Sound A) (o : Occurrence) : r.Becomes o (r.happen o) := by
  cases o with
  | asked c =>
      refine r.asked_cases (motive := r.Becomes _) (becomes_of_machine rfl rfl) fun hunstamped => ?_
      exact becomes_of_push rfl rfl (.inl ⟨rfl, hunstamped⟩)
  | taking s =>
      refine r.taking_cases (motive := r.Becomes _) (becomes_of_machine rfl rfl) ?_
      intro c rest hidle hqueue
      exact .takes rfl hidle hqueue rfl (Machine.obey_obeys s _ c)
  | ended s o =>
      refine r.ended_cases (motive := r.Becomes _) (becomes_of_machine rfl rfl) ?_
      intro entry hwaiting
      obtain ⟨course, hresumes, hrun⟩ :=
        Machine.resume_course s o hwaiting (h.fits entry hwaiting)
      rw [hrun]
      exact .resumes rfl hwaiting hrun.symm hresumes
  | watching attended =>
      rcases r.machine_watching attended with hsame | ⟨e, k, hseen, hraised⟩
      · exact becomes_of_machine rfl hsame
      · refine becomes_of_push rfl hraised (.inr ⟨e, k, rfl, ?_⟩)
        rcases hseen with rfl | rfl <;> rfl
  | fired attended id =>
      rcases r.machine_fired attended id with hsame | ⟨k, hraised⟩
      · exact becomes_of_machine (r.history_fired attended id) hsame
      · exact becomes_of_push (r.history_fired attended id) hraised (.inr ⟨_, k, rfl, rfl⟩)
  | listening ls =>
      exact .stays rfl rfl rfl rfl ⟨[], (List.append_nil _).symm, by simp⟩
  | noticed capacity n => exact becomes_of_machine rfl rfl
  | elapsed d => exact becomes_of_machine rfl rfl

/-! ## Commands and moves -/

/-- The commands that the machine has taken, in the order in which it took
them. -/
def commands (r : Run) : List Command := r.history.filterMap Happening.command?

theorem commands_of_history {r' : Run} (hhistory : r'.history = r.history) :
    r'.commands = r.commands := by
  rw [commands, hhistory, ← commands]

@[simp] theorem commands_proceed (r : Run) (p : Progress) :
    (r.proceed p).commands = r.commands := by
  have hsilent : (p.effects.map Happening.did).filterMap Happening.command? = [] := by
    simp [List.filterMap_map, Function.comp_def, Happening.command?]
  rw [commands, history_proceed, List.filterMap_append, hsilent, List.append_nil, ← commands]

@[simp] theorem commands_returned (r : Run) (o : Outcome) :
    (r.record (.returned o)).commands = r.commands := by
  simp [commands, Happening.command?]

@[simp] theorem commands_dequeue (r : Run) (c : Command) (rest : List Command) :
    (r.dequeue c rest).commands = r.commands ++ [c] := by
  simp [commands, Happening.command?]

/-- What may become of the queue and of the moves when something happens: the
machine takes a command, and makes the move to which its event leads, if any;
or it does not move. -/
inductive Turns (r r' : Run) : Prop
  /-- It takes the first of the queue, and moves if the table says so. -/
  | takes {c : Command} {rest : List Command} (hhead : r.machine.queue = c :: rest)
      (hcommands : r'.commands = r.commands ++ [c])
      (htransitions : r'.transitions =
        r.transitions ++ ((c.event? r.machine).map r.machine.state.published).getD [])
      (hqueue : ∃ news, r'.machine.queue = rest ++ news)
  /-- It does not move, and the queue may have grown. -/
  | rests (hcommands : r'.commands = r.commands) (htransitions : r'.transitions = r.transitions)
      (hqueue : ∃ news, r'.machine.queue = r.machine.queue ++ news)

/-- **Commands are taken in turn**, and the machine only moves when it takes
one. -/
theorem Sound.turns (h : r.Sound A) (o : Occurrence) : r.Turns (r.happen o) := by
  have hbecomes := h.becomes o
  generalize r.happen o = r' at hbecomes
  cases hbecomes with
  | stays hhistory _ _ _ hqueue =>
      obtain ⟨news, hqueue, -⟩ := hqueue
      exact .rests (commands_of_history hhistory) (transitions_of_history hhistory) ⟨news, hqueue⟩
  | resumes _ hwaiting hstep _ =>
      refine .rests (by simp) ?_ ?_
      · rw [transitions_proceed, transitions_returned, hstep,
          Machine.resume_published _ _ _ hwaiting, List.append_nil]
      · obtain ⟨news, hqueue, -⟩ :=
          (r.machine.resume_adds _ (Listeners.raiseOnly_any _) _).queue
        exact ⟨news, by rw [machine_proceed, hstep, hqueue]⟩
  | @takes s c rest p _ _ hqueue hstep _ =>
      have halike : c.event? (r.dequeue c rest).machine = c.event? r.machine := by
        cases c <;> rfl
      refine .takes hqueue (by simp) ?_ ?_
      · rw [transitions_proceed, transitions_dequeue, hstep, Machine.obey_published, halike,
          machine_dequeue]
      · obtain ⟨news, hqueue', -⟩ :=
          ((r.dequeue c rest).machine.obey_leaves s (Listeners.raiseOnly_any _) c).queue
        exact ⟨news, by rw [machine_proceed, hstep, hqueue', machine_dequeue]⟩

/-- The machine makes one move at most, to which the event of a command leads
that was the next one. -/
theorem Turns.transitions_cases {r r' : Run} (h : r.Turns r') :
    r'.transitions = r.transitions ∨
      ∃ c rest e move, r.machine.queue = c :: rest ∧ c.event? r.machine = some e ∧
        r.machine.state.transition? e = some move ∧
        r'.transitions = r.transitions ++ [⟨r.machine.state.kind, e, move.next.kind⟩] := by
  cases h with
  | rests _ htransitions => exact .inl htransitions
  | @takes c rest hhead _ htransitions _ =>
      cases hevent : c.event? r.machine with
      | none => exact .inl (by simpa [hevent] using htransitions)
      | some e =>
          cases hmoves : r.machine.state.transition? e with
          | none => exact .inl (by simpa [hevent, State.published, hmoves] using htransitions)
          | some move =>
              exact .inr ⟨c, rest, e, move, hhead, hevent, hmoves, by
                simpa [hevent, State.published, hmoves] using htransitions⟩

/-! ## What an occurrence adds to the history -/

/-- What an occurrence adds to the history, which is never changed
otherwise. -/
def news (r : Run) (o : Occurrence) : List Happening :=
  (r.happen o).history.drop r.history.length

variable {o : Occurrence}

theorem news_of_history {xs : List Happening} (hhistory : (r.happen o).history = r.history ++ xs) :
    r.news o = xs := by
  rw [news, hhistory, List.drop_left]

/-- When a command is taken the news are the command and what is done for
it. -/
theorem news_takes {c : Command} {rest : List Command} {p : Progress}
    (hnext : r.happen o = (r.dequeue c rest).proceed p) :
    r.news o = .taken c :: p.effects.map .did :=
  news_of_history (by rw [hnext, history_proceed, history_dequeue, List.append_assoc]; rfl)

/-- When a call has ended the news are its outcome and what is done then. -/
theorem news_resumes {outcome : Outcome} {p : Progress}
    (hnext : r.happen o = (r.record (.returned outcome)).proceed p) :
    r.news o = .returned outcome :: p.effects.map .did :=
  news_of_history (by rw [hnext, history_proceed, history_record, List.append_assoc]; rfl)

/-- An effect among the news is one of the step. -/
theorem mem_news {x : Happening} {fs : List Effect} {f : Effect} (hhead : ∀ f, x ≠ .did f)
    (h : .did f ∈ x :: fs.map Happening.did) : f ∈ fs := by
  rcases List.mem_cons.mp h with h | h
  · exact absurd h.symm (hhead f)
  · obtain ⟨f', hf', heq⟩ := List.mem_map.mp h
    cases heq
    exact hf'

theorem news_of_mem {x : Happening} {fs : List Effect} {f : Effect} (h : f ∈ fs) :
    .did f ∈ x :: fs.map Happening.did :=
  List.mem_cons_of_mem _ (List.mem_map.mpr ⟨f, h, rfl⟩)

/-- A history only grows: what has happened stays as it was. -/
theorem history_happen (r : Run) (o : Occurrence) :
    (r.happen o).history = r.history ++ r.news o := by
  have hgrows : ∃ xs, (r.happen o).history = r.history ++ xs := by
    have hsame : ∃ xs, r.history = r.history ++ xs := ⟨[], by simp⟩
    cases o with
    | asked c =>
        exact r.asked_cases (motive := fun r' => ∃ xs, r'.history = r.history ++ xs) hsame
          fun _ => hsame
    | taking s =>
        refine r.taking_cases (motive := fun r' => ∃ xs, r'.history = r.history ++ xs) hsame ?_
        intro c rest _ _
        exact ⟨_, by rw [history_proceed, history_dequeue, List.append_assoc]⟩
    | ended s o =>
        refine r.ended_cases (motive := fun r' => ∃ xs, r'.history = r.history ++ xs) hsame ?_
        intro entry _
        exact ⟨_, by rw [history_proceed, history_record, List.append_assoc]⟩
    | fired attended id => exact ⟨[], by rw [r.history_fired, List.append_nil]⟩
    | _ => exact hsame
  obtain ⟨xs, hhistory⟩ := hgrows
  rw [news_of_history hhistory, hhistory]

/-- What a later point of a run remembers begins with what an earlier one
does. -/
theorem history_reaches {P : Occurrence → Prop} {r' : Run} (h : Reaches P r r') :
    ∃ xs, r'.history = r.history ++ xs :=
  Reaches.invariant (I := fun r' => ∃ xs, r'.history = r.history ++ xs) ⟨[], by simp⟩
    (fun r' o _ ⟨xs, hhistory⟩ => ⟨xs ++ r'.news o, by
      rw [history_happen, hhistory, List.append_assoc]⟩) h

end Run

end OpcSession.Session
