import OpcSession.Proofs.Session.Answering
import OpcSession.Proofs.Session.Exchanges
import OpcSession.Proofs.Session.Stranding

/-!
# Where the session in use comes from

A session is handed from state to state, given a new nonce by two different
paths, and put aside while its connection is down.  Through all of this it
stays the session that the server created last, and by the time it is in use
the server has answered the latest request to activate it.

The machine does not say so by itself: a caller who raises events out of
place could make it take a session for activated.  So the law is about runs in
which callers ask for sessions and for disconnection only
(`Occurrence.Ordinary`).

* `State.stems_of_transition?` — every move hands the session on;
* `Run.Genuine` — the invariant;
* `Run.active_session_genuine` — the law.
-/

namespace OpcSession.Session

/-- The events that stand for what a caller may ask for.  All others claim
that something came out, which is for the machine to say. -/
def Event.Ordinary (e : Event) : Prop := e = .sessionRequested ∨ e = .disconnectRequested

/-- What happens is in order: callers and listeners raise ordinary events
only, and the session has one name throughout. -/
def Occurrence.Ordinary (name : String) : Occurrence → Prop
  | asked (.event e _) => e.Ordinary
  | taking s | ended s _ => s.settings.sessionName = name
  | listening ls => ls.RaiseOnly Event.Ordinary
  | _ => True

/-! ## Sessions and exchanges -/

/-- The session is the one that the server created last, but for its nonce. -/
def Identified (name : String) (xs : List Exchange) (session : Session) : Prop :=
  ∃ created, xs.findSome? Exchange.created? = some created ∧
    session = (Session.created name created).withNonce session.serverNonce

/-- A new nonce is all that an activation gives a session, so it stays
identified. -/
theorem Identified.withNonce {name : String} {xs : List Exchange} {session : Session}
    (h : session.Identified name xs) (nonce : ByteString) :
    (session.withNonce nonce).Identified name xs := by
  obtain ⟨created, hlast, hsame⟩ := h
  refine ⟨created, hlast, ?_⟩
  rw [hsame]
  rfl

/-- A reactivation does not rename the session either, nor does it give it
another token. -/
theorem Identified.reactivated {name : String} {xs : List Exchange} {session : Session}
    (h : session.Identified name xs) (nonce : ByteString) :
    (session.reactivated name nonce).Identified name xs := by
  obtain ⟨created, hlast, hsame⟩ := h
  refine ⟨created, hlast, ?_⟩
  rw [hsame]
  rfl

/-- The latest activation was asked for under the token of the session, and
the server answered it with the nonce that the session holds. -/
def Activated (xs : List Exchange) (session : Session) : Prop :=
  ∃ outcome, xs.findSome? Exchange.activation? = some (session.token, some outcome) ∧
    outcome.nonce? = some session.serverNonce

/-- What is true of the sessions that a state holds: each is the one created
last, and those that were in use have been activated. -/
def State.Stems (name : String) (xs : List Exchange) : State → Prop
  | creating _ created => ∀ session ∈ created, session.Identified name xs
  | activating _ session | reactivateDelay session _ _ => session.Identified name xs
  | active _ session => session.Identified name xs ∧ session.Activated xs
  | reactivateExecute previous _ _ reactivated => previous.Identified name xs ∧
    ∀ session ∈ reactivated, session.Identified name xs ∧ session.Activated xs
  | inactive _ | closing _ _ => True

/-- The session that an activation is asked for, in the two states that ask
for one. -/
def State.presented? : State → Option Session
  | activating _ session | reactivateExecute session _ _ none => some session
  | _ => none

/-- What a call that the machine waits for was about: a creation, or the
activation of the session that the state presents. -/
def Awaiting.Asks (a : Awaiting) (st : State) (c : Call) : Prop :=
  match a with
  | .createSession => c.creates
  | .activateSession | .reactivateSession =>
    ∃ session, st.presented? = some session ∧ c.activates? = some session.token
  | _ => c.isPlain

namespace State

variable {name : String} {xs xs' : List Exchange} {st st' : State}

theorem stems_bare (st : State) : st.bare.Stems name xs ↔ st.Stems name xs := by
  cases st <;> rfl

theorem stems_of_bare (h : st.bare = st'.bare) :
    st.Stems name xs ↔ st'.Stems name xs := by
  rw [← stems_bare st, h, stems_bare]

theorem presented?_of_bare (h : st.bare = st'.bare) : st.presented? = st'.presented? := by
  have hbare : ∀ st : State, st.bare.presented? = st.presented? := by
    intro st
    cases st with
    | reactivateExecute previous delay ws session => cases session <;> rfl
    | _ => rfl
  rw [← hbare st, h, hbare]

/-- Exchanges about other things do not matter: what a state holds stems from
the last creation and the last activation. -/
theorem Stems.congr (hcreated : xs'.findSome? Exchange.created? = xs.findSome? Exchange.created?)
    (hactivation :
      xs'.findSome? Exchange.activation? = xs.findSome? Exchange.activation?)
    (h : st.Stems name xs) : st.Stems name xs' := by
  unfold Stems Identified Activated at *
  rw [hcreated, hactivation]
  exact h

/-- While an activation is being asked for, the state does not count on
one. -/
theorem Stems.presented {session : Session} (hpresented : st.presented? = some session)
    (hcreated : xs'.findSome? Exchange.created? = xs.findSome? Exchange.created?)
    (h : st.Stems name xs) : st.Stems name xs' := by
  have hidentified : ∀ {s : Session}, s.Identified name xs → s.Identified name xs' := by
    intro s hs
    unfold Identified at *
    rw [hcreated]
    exact hs
  cases st with
  | activating ws session' => exact hidentified h
  | reactivateExecute previous delay ws session' =>
      cases session' with
      | none => exact ⟨hidentified h.1, by simp⟩
      | some _ => cases hpresented
  | _ => cases hpresented

/-- **Every move hands the session on**, where an event that claims an
activation is only believed of a state that has seen one. -/
theorem stems_of_transition? {e : Event} {move : Move} (h : st.Stems name xs)
    (hmoves : st.transition? e = some move)
    (hactivated : e = .activateSucceeded → ∀ ws session, st = activating ws session →
      session.Activated xs)
    (hreactivated : e = .reactivateSucceeded → ∀ previous delay ws,
      st ≠ reactivateExecute previous delay ws none) : move.next.Stems name xs := by
  unfold transition? at hmoves
  split at hmoves <;> cases hmoves
  case h_15 previous delay ws session =>
    -- The one move whose session depends on how the entry went.
    cases session with
    | none => exact absurd rfl (hreactivated rfl previous delay ws)
    | some session => exact h.2 session rfl
  all_goals first
    | trivial
    | exact h
    | exact h.1
    | exact h _ rfl
    | exact ⟨h, hactivated rfl _ _ rfl⟩
    | exact ⟨h, by simp⟩
    | simp [Stems]

end State

/-! ## The invariant -/

namespace Run

/-- What is true of sessions and events at every point of a run. -/
structure Ordered (name : String) (r : Run) : Prop where
  /-- The sessions in the state come from the server. -/
  stems : r.machine.state.Stems name r.exchanges
  /-- Callers have asked for nothing out of the ordinary, -/
  events : ∀ e ticket, .event e ticket ∈ r.machine.queue → e.Ordinary
  /-- and listeners raise nothing out of the ordinary. -/
  listeners : r.machine.listeners.RaiseOnly Event.Ordinary

/-- **The invariant of the sessions.**  Where the queue says that a session
was activated it was, and the call that the machine waits for is the
latest. -/
structure Genuine (name : String) (r : Run) : Prop extends r.Ordered name where
  /-- A success that is in the queue is that of the session in the state. -/
  activated : r.machine.Queued .activateSucceeded → ∀ ws session,
    r.machine.state = .activating ws session → session.Activated r.exchanges
  /-- The last call is the one that is waited for, and is about what it should
  be. -/
  pending : ∀ entry, r.machine.entry? = some entry → ∃ c rest,
    r.exchanges = { call := c } :: rest ∧ entry.awaiting.Asks r.machine.state c

/-- The invariant in the middle of a step: the state has raised nothing yet,
save what its watcher has seen. -/
structure Opening (name : String) (r : Run) : Prop extends r.Ordered name where
  /-- Nothing has been raised in this state yet. -/
  unraised : ∀ e, r.machine.Queued e → r.machine.state.kind = .active

variable {name : String} {r r' : Run}

theorem genuine_start (name : String) : Genuine name {} where
  stems := trivial
  events := by simp
  listeners := by simp [Listeners.RaiseOnly, Listeners.snapshot]
  activated := by simp [Machine.Queued]
  pending := by simp

theorem Ordered.congr (h : r.Ordered name)
    (hbare : r'.machine.state.bare = r.machine.state.bare)
    (hqueue : r'.machine.queue = r.machine.queue)
    (hlisteners : r'.machine.listeners = r.machine.listeners)
    (hexchanges : r'.exchanges = r.exchanges) : r'.Ordered name where
  stems := by
    rw [hexchanges, State.stems_of_bare hbare]
    exact h.stems
  events := by
    rw [hqueue]
    exact h.events
  listeners := by
    rw [hlisteners]
    exact h.listeners

/-- A step that serves callers says nothing new of sessions, since it makes no
call and keeps the state as it is. -/
theorem Ordered.serves {p : Progress} (h : r.Ordered name) (hp : Serves r.machine p) :
    (r.proceed p).Ordered name :=
  h.congr (by simpa using hp.bare) (by simpa using hp.queue) (by simpa using hp.listeners)
    (exchanges_proceed_quiet hp.quiet)

theorem Opening.serves {p : Progress} (h : r.Opening name) (hp : Serves r.machine p) :
    (r.proceed p).Opening name where
  toOrdered := h.toOrdered.serves hp
  unraised := by
    intro e he
    rw [machine_proceed, Machine.Queued, hp.epoch, hp.queue] at he
    rw [machine_proceed, hp.kind]
    exact h.unraised e he

theorem activating_of_bare {st st' : State} {ws : List Ticket} {session : Session}
    (h : st.bare = st'.bare) (hst : st = .activating ws session) :
    ∃ ws', st' = .activating ws' session := by
  subst hst
  cases st' <;> cases h
  exact ⟨_, rfl⟩

theorem asks_of_bare {a : Awaiting} {st st' : State} {c : Call} (h : st.bare = st'.bare) :
    a.Asks st c ↔ a.Asks st' c := by
  unfold Awaiting.Asks
  rw [State.presented?_of_bare h]

theorem Genuine.serves {p : Progress} (h : r.Genuine name) (hp : Serves r.machine p) :
    (r.proceed p).Genuine name where
  toOrdered := h.toOrdered.serves hp
  activated := by
    intro hqueued ws session hst
    rw [machine_proceed, Machine.Queued, hp.epoch, hp.queue] at hqueued
    rw [machine_proceed] at hst
    rw [exchanges_proceed_quiet hp.quiet]
    obtain ⟨ws', hst'⟩ := activating_of_bare hp.bare hst
    exact h.activated hqueued ws' session hst'
  pending := by
    intro entry hentry
    rw [machine_proceed, hp.entry] at hentry
    rw [machine_proceed, exchanges_proceed_quiet hp.quiet]
    obtain ⟨c, rest, hexchanges, hasks⟩ := h.pending entry hentry
    exact ⟨c, rest, hexchanges, (asks_of_bare hp.bare).mpr hasks⟩

/-! ## The ends of an entry -/

/-- An activation is asked for in a state that presents a session, under the
token of this session. -/
theorem presented_of_asks {a : Awaiting} {st : State} {c : Call} {token : NodeId}
    (hasks : a.Asks st c) (hactivates : c.activates? = some token) :
    ∃ session, st.presented? = some session := by
  cases a with
  | activateSession | reactivateSession =>
      obtain ⟨session, hpresented, -⟩ := hasks
      exact ⟨session, hpresented⟩
  | createSession =>
      rw [Call.creates.activates? hasks] at hactivates
      cases hactivates
  | _ =>
      rw [Call.isPlain.activates? hasks] at hactivates
      cases hactivates

/-- Only while a session is created does the machine ask for one, so its
answer is about no other state. -/
theorem createSession_of_asks {a : Awaiting} {st : State} {c : Call} (hasks : a.Asks st c)
    (hcreates : c.creates) : a = .createSession := by
  cases a with
  | createSession => rfl
  | activateSession | reactivateSession =>
      obtain ⟨session, -, hactivates⟩ := hasks
      rw [Call.creates.activates? hcreates] at hactivates
      cases hactivates
  | _ =>
      rw [Call.isPlain.creates hasks] at hcreates
      cases hcreates

/-- To wait for a call ends a step in order, if the call is the one that the
machine waits for. -/
theorem Opening.waits (h : r.Opening name) (owed : Owed) {a : Awaiting} {c : Call}
    (hasks : a.Asks r.machine.state c) : (r.proceed (r.machine.waitFor owed a c)).Genuine name where
  stems := by
    rw [exchanges_waitFor]
    have hcreated := lastCreated_unanswered c r.exchanges
    cases hc : c.activates? with
    | none =>
        exact h.stems.congr hcreated (lastActivation_other hc)
    | some token =>
        obtain ⟨session, hpresented⟩ := presented_of_asks hasks hc
        exact h.stems.presented hpresented hcreated
  events := by simpa [Machine.waitFor] using h.events
  listeners := by simpa [Machine.waitFor] using h.listeners
  activated := by
    intro hqueued ws session hst
    have hactive := h.unraised _ (by simpa [Machine.waitFor, Machine.Queued] using hqueued)
    have hst' : r.machine.state = .activating ws session := by
      simpa [Machine.waitFor] using hst
    rw [hst'] at hactive
    cases hactive
  pending := by
    intro entry hentry
    simp only [machine_proceed, Machine.waitFor, Option.some.injEq] at hentry
    subst hentry
    exact ⟨c, r.exchanges, exchanges_waitFor owed a c, by simpa [Machine.waitFor] using hasks⟩

/-- To conclude an entry ends a step in order, where no activation is claimed
that has not been seen. -/
theorem Opening.concludes {s : Surroundings} {followUp : Option Event} {p : Progress}
    (h : r.Opening name) (hp : Concludes Event.Ordinary s followUp r.machine p)
    (hactivated : .activateSucceeded ∈ followUp → ∀ ws session,
      r.machine.state = .activating ws session → session.Activated r.exchanges) :
    (r.proceed p).Genuine name := by
  obtain ⟨raised, hordinary, hqueue⟩ := hp.queue
  have hexchanges := exchanges_proceed_quiet (r := r) hp.quiet
  exact {
    stems := by
      rw [hexchanges, machine_proceed, State.stems_of_bare hp.bare]
      exact h.stems
    events := by
      intro e ticket he
      rw [machine_proceed, hqueue] at he
      rcases List.mem_append.mp he with he | he
      · rcases List.mem_append.mp he with he | he
        · exact h.events e ticket he
        · obtain ⟨e', he', heq⟩ := List.mem_map.mp he
          cases heq
          exact hordinary e he'
      · unfold Machine.outcome at he
        split at he <;> simp at he
    listeners := by
      rw [machine_proceed]
      exact hp.listeners
    activated := by
      intro hqueued ws session hst
      rw [machine_proceed, Machine.Queued, hp.epoch, hqueue] at hqueued
      rw [machine_proceed] at hst
      rw [hexchanges]
      obtain ⟨ws', hst'⟩ := activating_of_bare hp.bare hst
      rcases List.mem_append.mp hqueued with hqueued | hqueued
      · rcases List.mem_append.mp hqueued with hqueued | hqueued
        · have hactive := h.unraised _ hqueued
          rw [hst'] at hactive
          cases hactive
        · simp at hqueued
      · exact hactivated (Machine.mem_outcome hqueued).1 ws' session hst'
    pending := by
      intro entry hentry
      rw [machine_proceed, hp.entry] at hentry
      cases hentry }

theorem Opening.conclude (h : r.Opening name) (s : Surroundings) (owed : Owed)
    {followUp : Option Event}
    (hactivated : .activateSucceeded ∈ followUp → ∀ ws session,
      r.machine.state = .activating ws session → session.Activated r.exchanges) :
    (r.proceed (r.machine.conclude s owed followUp)).Genuine name :=
  h.concludes (Machine.conclude_concludes s owed followUp h.listeners) hactivated

theorem Opening.fail (h : r.Opening name) (s : Surroundings) (owed : Owed)
    (error : SessionError) {followUp : Event} (hfailure : followUp ≠ .activateSucceeded) :
    (r.proceed (r.machine.fail s owed error followUp)).Genuine name :=
  h.concludes (Machine.fail_concludes s owed error followUp h.listeners)
    fun hclaimed => absurd (Option.some.inj hclaimed) hfailure

theorem Opening.failReactivation (h : r.Opening name) (s : Surroundings) (owed : Owed)
    (error : SessionError) :
    (r.proceed (r.machine.failReactivation s owed error)).Genuine name :=
  h.fail s owed error (by split <;> simp)

/-- What a step does besides calls, before it goes on, says nothing new. -/
theorem Opening.does (h : r.Opening name) (fs : List Effect)
    (hsilent : ∀ f ∈ fs, ∀ c, f ≠ .call c) :
    (r.proceed { machine := r.machine, effects := fs }).Opening name where
  toOrdered := h.toOrdered.congr (by simp) (by simp) (by simp) (exchanges_proceed_silent hsilent)
  unraised := by simpa [Machine.Queued] using h.unraised

/-- The state may come by its session, if that stems from the exchanges. -/
theorem Opening.withState (h : r.Opening name) (st : State)
    (hkind : st.kind = r.machine.state.kind) (hstems : st.Stems name r.exchanges) :
    (r.withMachine { r.machine with state := st }).Opening name where
  stems := hstems
  events := h.events
  listeners := h.listeners
  unraised := by
    intro e he
    exact hkind.trans (h.unraised e he)

/-- To ask for the activation of the session that the state presents is in
order, whether the token can be made or not. -/
theorem Opening.activate (h : r.Opening name) (s : Surroundings) (owed : Owed)
    {awaiting : Awaiting} (hasking : awaiting = .activateSession ∨ awaiting = .reactivateSession)
    {session : Session} (hpresented : r.machine.state.presented? = some session)
    {failed : SessionError → Machine → Progress}
    (hfails : ∀ (r' : Run) (e : SessionError), r'.Opening name →
      (r'.proceed (failed e r'.machine)).Genuine name) :
    (r.proceed (r.machine.activate s owed awaiting session failed)).Genuine name := by
  obtain ⟨before, hhidden, ⟨e, -, h'⟩ | ⟨_, _, _, h'⟩⟩ :=
    Machine.activate_cases s r.machine owed awaiting session failed
  · have hasked := h.does before fun f hf => ne_call_of_quiet (quiet_of_private (hhidden f hf))
    rw [h', proceed_andThen]
    exact hfails _ e hasked
  · have hasked := h.does before fun f hf => ne_call_of_quiet (quiet_of_private (hhidden f hf))
    rw [h', proceed_andThen]
    refine hasked.waits owed ?_
    rcases hasking with rfl | rfl <;> exact ⟨session, by simpa using hpresented, rfl⟩

/-! ## To enter a state and to go on after a call -/

/-- **States are entered in order.**  Each course ends in a call about what
the state is for, or raises no success. -/
theorem Opening.enter (h : r.Opening name) (s : Surroundings) (event : Event) (owed : Owed) :
    (r.proceed (r.machine.enter s event owed)).Genuine name := by
  unfold Machine.enter
  split
  · rename_i abandoned hst
    split
    · exact h.conclude s owed (by simp)
    · have hemptied := h.withState (.inactive none) (by simp [hst, State.kind]) trivial
      dsimp only
      split
      · rw [← withMachine_proceed]
        exact hemptied.waits owed rfl
      · rw [← withMachine_proceed]
        exact hemptied.waits owed rfl
  · exact h.waits owed rfl
  · rename_i ws session hst
    refine h.activate s owed (.inl rfl) (by rw [hst]; rfl) ?_
    exact fun r' e hopening => hopening.fail s owed e (by simp)
  · have hwatched := h.does [.watched r.machine.epoch] (by simp)
    dsimp only
    split
    · rw [proceed_andThen]
      exact hwatched.conclude s owed (by simp)
    · split
      · rw [proceed_andThen]
        exact hwatched.conclude s owed (by simp)
      · split
        · rw [proceed_andThen]
          exact hwatched.waits owed rfl
        · rw [proceed_andThen, proceed_andThen]
          have hpublished :=
            hwatched.does [.startedPublishing (event = .activateSucceeded)] (by simp)
          exact hpublished.conclude s owed (by simp)
  · exact h.waits owed rfl
  · rename_i previous delay ws hst
    have hscheduled := h.does [.scheduled r.machine.epoch (.ofSecs delay)] (by simp)
    rw [proceed_andThen]
    exact hscheduled.conclude s owed (by simp)
  · exact h.waits owed rfl

/-- When a call has ended the entry goes on from there: its answer is the last
thing that was said. -/
theorem Genuine.returned {A : Prop} (h : r.Genuine name) (hsound : r.Sound A) {entry : Entry}
    (hwaiting : r.machine.entry? = some entry) (o : Outcome) : ∃ c rest,
      (r.record (.returned o)).exchanges = { call := c, outcome? := some o } :: rest ∧
        entry.awaiting.Asks r.machine.state c ∧ (r.record (.returned o)).Opening name := by
  obtain ⟨c, rest, hexchanges, hasks⟩ := h.pending entry hwaiting
  have hreturned := exchanges_returned hexchanges o
  have hstems : r.machine.state.Stems name ({ call := c, outcome? := some o } :: rest) := by
    have hbefore := h.stems
    rw [hexchanges] at hbefore
    cases hc : c.activates? with
    | some token =>
        obtain ⟨session, hpresented⟩ := presented_of_asks hasks hc
        have huncreating := Call.not_creates_of_activates hc
        refine hbefore.presented hpresented ?_
        rw [lastCreated_other huncreating, lastCreated_other huncreating]
    | none =>
        cases hcreates : c.creates with
        | false =>
            refine hbefore.congr ?_ ?_
            · rw [lastCreated_other hcreates, lastCreated_other hcreates]
            · rw [lastActivation_other hc, lastActivation_other hc]
        | true =>
            -- No session is there before the server has created it.
            have hfits := hsound.fits entry hwaiting
            rw [createSession_of_asks hasks hcreates] at hfits
            cases hst : r.machine.state <;> simp only [hst, Awaiting.Fits] at hfits
            subst hfits
            simp [State.Stems]
  refine ⟨c, rest, hreturned, hasks, ?_⟩
  exact {
    stems := by
      rw [hreturned]
      exact hstems
    events := h.events
    listeners := h.listeners
    unraised := by
      intro e he
      rcases hsound.stamps e _ he with hlt | ⟨-, -, hidle | hactive⟩
      · exact absurd hlt (Nat.lt_irrefl _)
      · cases hwaiting.symm.trans hidle
      · exact hactive }

/-- The answer that a session came from is one that creates it, under the name
that the client asked for. -/
theorem created?_of_createdSession {o : Outcome} {session : Session}
    (h : (Machine.outcomeResponse o).bind (createdSession name) = .ok session) :
    ∃ created, o.created? = some created ∧ session = .created name created := by
  cases o with
  | response answer =>
      obtain ⟨header, body⟩ := answer
      cases body <;> cases h
      exact ⟨_, rfl, rfl⟩
  | done => cases h
  | failed e => cases h

theorem nonce?_of_activationNonce {o : Outcome} {nonce : ByteString}
    (h : (Machine.outcomeResponse o).bind activationNonce = .ok nonce) :
    o.nonce? = some nonce := by
  cases o with
  | response answer =>
      obtain ⟨header, body⟩ := answer
      cases body <;> cases h
      rfl
  | done => cases h
  | failed e => cases h

/-- A state that has come by what its entry is for says so. -/
theorem Opening.comesBy {s : Surroundings} {event : Event} {st : State} (h : r.Opening name)
    (owed : Owed) (hkind : st.kind = r.machine.state.kind) (hstems : st.Stems name r.exchanges)
    (hactivated : event = .activateSucceeded → ∀ ws session,
      st = .activating ws session → session.Activated r.exchanges) :
    (r.proceed (({ r.machine with state := st } : Machine).conclude s owed
      (some event))).Genuine name := by
  have hknown := h.withState st hkind hstems
  rw [← withMachine_proceed]
  refine hknown.conclude s owed ?_
  rintro ⟨⟩
  exact hactivated rfl

section Answered

variable {s : Surroundings} {c : Call} {rest : List Exchange} {o : Outcome} {nonce : ByteString}

/-- The session that the server has created is the one in the state. -/
theorem Opening.created {ws : List Ticket} {session : Session} (h : r.Opening name)
    (owed : Owed) (hcreating : r.machine.state = .creating ws none) (hasks : c.creates)
    (hanswered : r.exchanges = { call := c, outcome? := some o } :: rest)
    (hgiven : (Machine.outcomeResponse o).bind (createdSession name) = .ok session) :
    (r.proceed (r.machine.created s owed session)).Genuine name := by
  obtain ⟨created, hanswer, rfl⟩ := created?_of_createdSession hgiven
  have hstems : (State.creating ws (some (.created name created))).Stems name r.exchanges := by
    rintro session ⟨⟩
    refine ⟨created, ?_, rfl⟩
    rw [hanswered]
    exact lastCreated_answered hasks hanswer
  simp only [Machine.created, hcreating]
  exact h.comesBy owed (by simp [hcreating, State.kind]) hstems (by simp)

/-- A nonce that answers the latest request to activate a session under its
token makes an activated session of it. -/
theorem activated_of_answer {token : NodeId} {session : Session}
    (hasks : c.activates? = some token)
    (hanswered : r.exchanges = { call := c, outcome? := some o } :: rest)
    (hgiven : (Machine.outcomeResponse o).bind activationNonce = .ok nonce)
    (hsame : session.token = token) (hholds : session.serverNonce = nonce) :
    session.Activated r.exchanges := by
  subst hsame hholds
  refine ⟨o, ?_, nonce?_of_activationNonce hgiven⟩
  rw [hanswered]
  exact lastActivation_asked hasks

theorem Opening.activated {ws : List Ticket} {session : Session} (h : r.Opening name)
    (owed : Owed) (hactivating : r.machine.state = .activating ws session)
    (hasks : c.activates? = some session.token)
    (hanswered : r.exchanges = { call := c, outcome? := some o } :: rest)
    (hgiven : (Machine.outcomeResponse o).bind activationNonce = .ok nonce) :
    (r.proceed (r.machine.activated s owed nonce)).Genuine name := by
  have hidentified : session.Identified name r.exchanges := by
    simpa [hactivating, State.Stems] using h.stems
  have hactivated : (session.withNonce nonce).Activated r.exchanges :=
    activated_of_answer hasks hanswered hgiven rfl rfl
  simp only [Machine.activated, hactivating]
  refine h.comesBy owed (by simp [hactivating, State.kind]) (hidentified.withNonce nonce) ?_
  rintro - ws' session' ⟨⟩
  exact hactivated

theorem Opening.reactivated {ws : List Ticket} {previous : Session} {delay : Nat}
    (h : r.Opening name) (hnamed : s.settings.sessionName = name) (owed : Owed)
    (hexecuting : r.machine.state = .reactivateExecute previous delay ws none)
    (hasks : c.activates? = some previous.token)
    (hanswered : r.exchanges = { call := c, outcome? := some o } :: rest)
    (hgiven : (Machine.outcomeResponse o).bind activationNonce = .ok nonce) :
    (r.proceed (r.machine.reactivated s owed nonce)).Genuine name := by
  have hidentified : previous.Identified name r.exchanges := by
    have hstems := h.stems
    rw [hexecuting] at hstems
    exact hstems.1
  have hactivated : (previous.reactivated name nonce).Activated r.exchanges :=
    activated_of_answer hasks hanswered hgiven rfl rfl
  have hstems : (State.reactivateExecute previous delay ws
      (some (previous.reactivated name nonce))).Stems name r.exchanges := by
    refine ⟨hidentified, ?_⟩
    rintro session ⟨⟩
    exact ⟨hidentified.reactivated nonce, hactivated⟩
  simp only [Machine.reactivated, hexecuting, hnamed]
  exact h.comesBy owed (by simp [hexecuting, State.kind]) hstems (by simp)

end Answered

/-- **Every call that ends lets the entry of a state go on in order.** -/
theorem Opening.resume {s : Surroundings} {entry : Entry} {c : Call} {rest : List Exchange}
    (h : r.Opening name) (hnamed : s.settings.sessionName = name) (o : Outcome)
    (hwaiting : r.machine.entry? = some entry) (hfits : entry.awaiting.Fits r.machine.state)
    (hasks : entry.awaiting.Asks r.machine.state c)
    (hanswered : r.exchanges = { call := c, outcome? := some o } :: rest) :
    (r.proceed (r.machine.resume s o)).Genuine name := by
  obtain ⟨awaiting, owed⟩ := entry
  unfold Machine.resume
  simp only [hwaiting]
  cases awaiting with
  | closeAbandoned => exact h.waits owed rfl
  | dropConnection => exact h.conclude s owed (by simp)
  | connectToCreate =>
      dsimp only
      split
      · exact h.fail s owed _ (by simp)
      · split
        · exact h.fail s owed _ (by simp)
        · exact h.waits owed rfl
  | createSession =>
      cases hst : r.machine.state <;> simp only [hst, Awaiting.Fits] at hfits
      rename_i ws _
      dsimp only
      split
      · exact h.fail s owed _ (by simp)
      · rename_i session hgiven
        subst hfits
        rw [hnamed] at hgiven
        exact h.created owed hst hasks hanswered hgiven
  | activateSession =>
      cases hst : r.machine.state <;> simp only [hst, Awaiting.Fits] at hfits
      rename_i ws session
      dsimp only
      split
      · exact h.fail s owed _ (by simp)
      · rename_i nonce hgiven
        obtain ⟨presented, hpresented, hactivates⟩ := hasks
        rw [hst] at hpresented
        cases hpresented
        exact h.activated owed hst hactivates hanswered hgiven
  | transfer ids =>
      have htransferred := h.does [.transferred (transferResults ids (Machine.outcomeResponse o)),
        .startedPublishing true] (by simp)
      rw [proceed_andThen]
      exact htransferred.conclude s owed (by simp)
  | closeSession => exact h.waits owed rfl
  | closeConnection => exact h.conclude s owed (by simp)
  | connectToReactivate =>
      cases hst : r.machine.state <;> simp only [hst, Awaiting.Fits] at hfits
      subst hfits
      rename_i previous delay ws
      have hrefused : ∀ (r' : Run) (e : SessionError), r'.Opening name →
          (r'.proceed (r'.machine.failReactivation s owed e)).Genuine name :=
        fun r' e hopening => hopening.failReactivation s owed e
      have hpresented : r.machine.state.presented? = some previous := by
        rw [hst]
        rfl
      cases o with
      | failed e => exact hrefused r e h
      | done => exact h.activate s owed (.inr rfl) hpresented hrefused
      | response answer => exact h.activate s owed (.inr rfl) hpresented hrefused
  | reactivateSession =>
      cases hst : r.machine.state <;> simp only [hst, Awaiting.Fits] at hfits
      subst hfits
      rename_i previous delay ws
      dsimp only
      split
      · exact h.failReactivation s owed _
      · rename_i nonce hgiven
        obtain ⟨presented, hpresented, hactivates⟩ := hasks
        rw [hst] at hpresented
        cases hpresented
        exact h.reactivated hnamed owed hst hactivates hanswered hgiven

/-! ## To move and to take commands -/

/-- A move that hands the session on opens a state in order, since the next
state holds what the one before it held. -/
theorem Ordered.moved {event : Event} {move : State.Move} {p : Progress} (h : r.Ordered name)
    (hstamps : ∀ e k, .stamped e k ∈ r.machine.queue → k ≤ r.machine.epoch)
    (hp : Moves Event.Ordinary r.machine event move p)
    (hstems : move.next.Stems name r.exchanges) : (r.proceed p).Opening name := by
  obtain ⟨raised, hordinary, hqueue⟩ := hp.queue
  exact {
    stems := by
      rw [hp.exchanges, machine_proceed, State.stems_of_bare hp.bare]
      exact hstems
    events := by
      intro e ticket he
      rw [machine_proceed, hqueue, List.mem_append] at he
      rcases he with he | he
      · exact h.events e ticket he
      · obtain ⟨e', he', heq⟩ := List.mem_map.mp he
        cases heq
        exact hordinary e he'
    listeners := by
      rw [machine_proceed]
      exact hp.listeners
    unraised := by
      intro e he
      rw [machine_proceed, Machine.Queued, hp.epoch, hqueue, List.mem_append] at he
      rcases he with he | he
      · have hold := hstamps e _ he
        omega
      · simp at he }

/-- An event is handled in order, where one that claims an activation is only
believed of a state that has seen one. -/
theorem Genuine.handle {s : Surroundings} {event : Event} (h : r.Genuine name)
    (hstamps : ∀ e k, .stamped e k ∈ r.machine.queue → k ≤ r.machine.epoch)
    (hactivated : event = .activateSucceeded → ∀ ws session,
      r.machine.state = .activating ws session → session.Activated r.exchanges)
    (hreactivated : event = .reactivateSucceeded → ∀ previous delay ws,
      r.machine.state ≠ .reactivateExecute previous delay ws none)
    (waiter : Option Ticket) (owed : Owed) :
    (r.proceed (r.machine.handle s event waiter owed)).Genuine name := by
  unfold Machine.handle
  cases hmove : r.machine.state.transition? event with
  | none =>
      have hserves := (Machine.join_serves r.machine waiter).andThen
        (f := fun m => m.pay owed) (Machine.pay_serves _ owed)
      exact h.serves hserves
  | some move =>
      have hstems := State.stems_of_transition? h.stems hmove hactivated hreactivated
      have hmoved := Machine.move_moves s event move h.listeners
      have hjoined := hmoved.join (f := fun m => waiter.elim { machine := m } m.attach)
        (Machine.join_serves _ waiter)
      have hopening := h.toOrdered.moved hstamps hjoined hstems
      simp only
      rw [proceed_andThen]
      exact hopening.enter s event owed

/-- Ordinary events claim nothing, so the machine may handle them wherever it
is. -/
theorem Genuine.handle_ordinary {s : Surroundings} {event : Event} (h : r.Genuine name)
    (hstamps : ∀ e k, .stamped e k ∈ r.machine.queue → k ≤ r.machine.epoch)
    (hordinary : event.Ordinary) (waiter : Option Ticket) (owed : Owed) :
    (r.proceed (r.machine.handle s event waiter owed)).Genuine name := by
  refine h.handle hstamps ?_ ?_ waiter owed
  · rintro rfl
    rcases hordinary with hordinary | hordinary <;> cases hordinary
  · rintro rfl
    rcases hordinary with hordinary | hordinary <;> cases hordinary

theorem Genuine.dequeue (h : r.Genuine name) {c : Command} {rest : List Command}
    (hqueue : r.machine.queue = c :: rest) : (r.dequeue c rest).Genuine name := by
  have hkept : ∀ c', c' ∈ rest → c' ∈ r.machine.queue := by
    intro c' hc'
    rw [hqueue]
    exact List.mem_cons_of_mem _ hc'
  exact {
    stems := by
      rw [exchanges_dequeue]
      exact h.stems
    events := fun e ticket he => h.events e ticket (hkept _ he)
    listeners := h.listeners
    activated := by
      rw [exchanges_dequeue]
      exact fun hqueued => h.activated (hkept _ hqueued)
    pending := by
      rw [exchanges_dequeue]
      exact h.pending }

/-- **Every command is carried out in order.**  A success that is taken is of
the current epoch, and so about the session in the state. -/
theorem Genuine.take {A : Prop} {s : Surroundings} (h : r.Genuine name) (hsound : r.Sound A)
    {c : Command} {rest : List Command} (hqueue : r.machine.queue = c :: rest) :
    ((r.dequeue c rest).proceed ((r.dequeue c rest).machine.obey s c)).Genuine name := by
  have htaken := h.dequeue hqueue
  have hstamps := (hsound.dequeue_movable hqueue).stamps
  cases c with
  | stamped e k =>
      by_cases hcurrent : k = r.machine.epoch
      · rw [Machine.obey_current s (r.dequeue (.stamped e k) rest).machine e hcurrent]
        have hqueued : r.machine.Queued e := by
          rw [Machine.Queued, hqueue, ← hcurrent]
          exact List.mem_cons_self
        have hraises := hsound.raises hqueued
        refine htaken.handle hstamps ?_ ?_ none .nobody
        · rintro rfl
          rw [exchanges_dequeue]
          exact h.activated hqueued
        · rintro rfl previous delay ws hst
          rw [machine_dequeue] at hst
          rw [hst] at hraises
          rcases hraises with hraises | hraises <;> cases hraises
      · rw [Machine.obey_stale s (r.dequeue (.stamped e k) rest).machine e hcurrent,
          proceed_silent]
        exact htaken
  | event e ticket =>
      have hordinary : e.Ordinary := h.events e ticket (by rw [hqueue]; exact List.mem_cons_self)
      cases ticket with
      | none => exact htaken.handle_ordinary hstamps hordinary none .nobody
      | some t => exact htaken.handle_ordinary hstamps hordinary none (.state t)
  | getSession t =>
      unfold Machine.obey
      dsimp only
      split
      · exact htaken.serves ⟨rfl, rfl, rfl, rfl, rfl, by simp [Effect.isQuiet]⟩
      · exact htaken.handle_ordinary hstamps (.inl rfl) (some t) .nobody
  | disconnect t => exact htaken.handle_ordinary hstamps (.inr rfl) none (.disconnect t)

/-! ## What happens around the machine -/

/-- A command that claims nothing may come into the queue at any time. -/
theorem Genuine.push (h : r.Genuine name) {c : Command}
    (hordinary : ∀ e ticket, c = .event e ticket → e.Ordinary)
    (hclaims : ∀ k, c ≠ .stamped .activateSucceeded k) :
    (r.withMachine (r.machine.push c)).Genuine name where
  stems := h.stems
  events := by
    intro e ticket he
    rcases List.mem_append.mp he with he | he
    · exact h.events e ticket he
    · exact hordinary e ticket (List.mem_singleton.mp he).symm
  listeners := h.listeners
  activated := by
    intro hqueued
    rcases List.mem_append.mp hqueued with hqueued | hqueued
    · exact h.activated hqueued
    · exact absurd (List.mem_singleton.mp hqueued).symm (hclaims _)
  pending := h.pending

/-- The watcher and the timer play no part in it, nor does the passing of
time. -/
theorem Genuine.around (h : r.Genuine name) (hmachine : r'.machine = r.machine)
    (hhistory : r'.history = r.history) : r'.Genuine name := by
  have hexchanges : r'.exchanges = r.exchanges := by rw [Run.exchanges, hhistory, ← Run.exchanges]
  obtain ⟨⟨hstems, hevents, hlisteners⟩, hactivated, hpending⟩ := h
  rw [← hmachine, ← hexchanges] at hstems hactivated hpending
  rw [← hmachine] at hevents hlisteners
  exact ⟨⟨hstems, hevents, hlisteners⟩, hactivated, hpending⟩

/-- **Everything that happens in order keeps the invariant.**  Calls that end
are judged by what they were about, commands by their events. -/
theorem Genuine.happen {A : Prop} (h : r.Genuine name) (hsound : r.Sound A) {o : Occurrence}
    (hordinary : o.Ordinary name) : (r.happen o).Genuine name := by
  cases o with
  | asked c =>
      refine r.asked_cases (motive := (·.Genuine name)) h fun hunstamped => ?_
      refine h.push ?_ ?_
      · rintro e ticket rfl
        exact hordinary
      · rintro k rfl
        exact hunstamped rfl
  | taking s =>
      refine r.taking_cases (motive := (·.Genuine name)) h fun c rest hidle hqueue => ?_
      exact h.take hsound hqueue
  | ended s o =>
      refine r.ended_cases (motive := (·.Genuine name)) h fun entry hwaiting => ?_
      obtain ⟨c, rest, hanswered, hasks, hopening⟩ := h.returned hsound hwaiting o
      exact hopening.resume hordinary o hwaiting (hsound.fits entry hwaiting) hasks hanswered
  | noticed capacity n => exact h.around rfl rfl
  | watching attended =>
      rcases r.machine_watching attended with hsame | ⟨e, k, hseen, hraised⟩
      · exact h.around hsame rfl
      · have hpushed := h.push (c := .stamped e k) (by simp) (by
          rintro k ⟨⟩
          rcases hseen with hseen | hseen <;> cases hseen)
        exact hpushed.around hraised rfl
  | fired attended id =>
      rcases r.machine_fired attended id with hsame | ⟨k, hraised⟩
      · exact h.around hsame (r.history_fired attended id)
      · have hpushed := h.push (c := .stamped .reactivateRequested k) (by simp) (by simp)
        exact hpushed.around hraised (r.history_fired attended id)
  | elapsed d => exact h.around rfl rfl
  | listening ls =>
      exact {
        stems := h.stems
        events := h.events
        listeners := hordinary
        activated := h.activated
        pending := h.pending }

/-! ## The law -/

/-- All sessions that are given between two points of a run are the one in use
at the second, which the machine has not moved from since. -/
def GrantsActive (r r' : Run) : Prop :=
  ∃ before after, r'.history = r.history ++ before ++ after ∧
    (∀ t session, .did (.answered t (.session (.ok session))) ∉ before) ∧
    (∀ x ∈ after, ¬ x.isMove) ∧
    ∀ t session, .did (.answered t (.session (.ok session))) ∈ after →
      r'.machine.state.activeSession? = some session

/-- Nothing is given where nothing is done, whatever happens around the
machine. -/
theorem grantsActive_of_history (hhistory : r'.history = r.history) : r.GrantsActive r' :=
  ⟨[], [], by simp [hhistory], by simp, by simp, by simp⟩

/-- A step that begins with one more entry in the history gives what its
effects give. -/
theorem grantsActive_proceed {r₀ : Run} {x : Happening} {p : Progress}
    (hhistory : r₀.history = r.history ++ [x])
    (hother : ∀ f, x ≠ .did f)
    (hgranting : ∃ before after, p.effects = before ++ after ∧
      (∀ f ∈ before, f.grants? = none) ∧ (∀ t, .published t ∉ after) ∧
      ∀ f ∈ after, ∀ session, f.grants? = some session →
        p.machine.state.activeSession? = some session) : r.GrantsActive (r₀.proceed p) := by
  obtain ⟨before, after, heffects, hrefusing, hstill, hactive⟩ := hgranting
  refine ⟨x :: before.map .did, after.map .did, by simp [heffects, hhistory], ?_, ?_, ?_⟩
  · intro t session hgiven
    rcases List.mem_cons.mp hgiven with hgiven | hgiven
    · exact hother _ hgiven.symm
    · obtain ⟨f, hf, heq⟩ := List.mem_map.mp hgiven
      cases heq
      cases hrefusing _ hf
  · intro y hy
    obtain ⟨f, hf, rfl⟩ := List.mem_map.mp hy
    cases f with
    | published t => exact absurd hf (hstill t)
    | _ => simp [Happening.isMove]
  · intro t session hgiven
    obtain ⟨f, hf, heq⟩ := List.mem_map.mp hgiven
    cases heq
    rw [machine_proceed]
    exact hactive _ hf session rfl

/-- **Whoever is given a session is given the one in use.**  This needs no
invariant: it is how the machine answers. -/
theorem grantsActive_happen (r : Run) (o : Occurrence) : r.GrantsActive (r.happen o) := by
  cases o with
  | asked c =>
      refine r.asked_cases (motive := r.GrantsActive)
        (grantsActive_of_history rfl) fun _ => ?_
      exact grantsActive_of_history rfl
  | taking s =>
      refine r.taking_cases (motive := r.GrantsActive)
        (grantsActive_of_history rfl) fun c rest hidle _ => ?_
      have hpays := (r.dequeue c rest).machine.obey_pays s c hidle
      exact grantsActive_proceed (history_dequeue r c rest) (by simp) hpays.granting
  | ended s o =>
      refine r.ended_cases (motive := r.GrantsActive)
        (grantsActive_of_history rfl) fun entry hwaiting => ?_
      have hanswers := r.machine.resume_answers s o hwaiting
      exact grantsActive_proceed (history_record r (.returned o)) (by simp)
        ⟨[], _, rfl, by simp, hanswers.still, hanswers.granting⟩
  | fired attended id => exact grantsActive_of_history (r.history_fired attended id)
  | _ => exact grantsActive_of_history rfl

/-- **The session in use is genuine.**  Whenever the machine is in the state
in which a session is in use, it is the session that the server created last,
under the configured name, and the server answered the latest request to
activate a session, which was made under its token, with the nonce that it
holds.  Whatever happens next, whoever is given a session is given exactly the
one in use.  So a session outlives any number of lost connections, and only
the creation of another takes its place. -/
theorem active_session_genuine (h : Reachable (Occurrence.Ordinary name) r) :
    (∀ session, r.machine.state.activeSession? = some session →
      (∃ created, r.lastCreated? = some created ∧
        session = (Session.created name created).withNonce session.serverNonce) ∧
      ∃ outcome, r.lastActivation? = some (session.token, some outcome) ∧
        outcome.nonce? = some session.serverNonce) ∧
      ∀ o : Occurrence, r.GrantsActive (r.happen o) := by
  have hboth : r.Sound False ∧ r.Genuine name :=
    Reaches.invariant (I := fun r => r.Sound False ∧ r.Genuine name)
      ⟨sound_start False, genuine_start name⟩
      (fun r o hordinary h => ⟨h.1.happen False.elim, h.2.happen h.1 hordinary⟩) h
  refine ⟨?_, r.grantsActive_happen⟩
  intro session hactive
  have hstems := hboth.2.stems
  cases hst : r.machine.state with
  | active ws session' =>
      rw [hst] at hactive hstems
      cases hactive
      exact hstems
  | _ =>
      rw [hst] at hactive
      cases hactive

/-- A session that was reactivated is still the one that was created: its id
and its token stay, and its nonce is new. -/
theorem active_session_genuine_reactivated :
    let r : Run := (opening 7 ⟨1, .numeric 9⟩ .null ++ reopening (.of [5])).foldl Run.happen {}
    ∃ session, r.machine.state.activeSession? = some session ∧
      session.token = ⟨1, .numeric 9⟩ ∧ session.serverNonce = .of [5] ∧
      (∃ created, r.lastCreated? = some created ∧
        session = (Session.created "plant" created).withNonce session.serverNonce) ∧
      ∃ outcome, r.lastActivation? = some (session.token, some outcome) ∧
        outcome.nonce? = some session.serverNonce := by
  have hordinary : ∀ o ∈ opening 7 ⟨1, .numeric 9⟩ .null ++ reopening (.of [5]),
      o.Ordinary "plant" := by
    simp [opening, reopening, Occurrence.Ordinary, Surroundings.placid]
  have hlaw := active_session_genuine (Reaches.ofList _ hordinary)
  exact ⟨_, rfl, rfl, rfl, hlaw.1 _ rfl⟩

end Run

end OpcSession.Session
