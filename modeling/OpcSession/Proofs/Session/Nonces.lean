import OpcSession.Proofs.Session.Custody
import OpcSession.Proofs.Session.Signing

/-!
# The token and the nonce that go with a session

Every request of the machine is made for one session, under the token of that session,
or for none.  To activate a session the machine asks its credentials for an identity
against a nonce of the server, and signs the certificate of the server followed by that
nonce.  The nonce is the one that the server gave last: when it created the session, or
in its last answer to a request to activate it.  An attempt that fails leaves it as it
was, however many there are.

* `Session.Latest` — the session is the one created last, with the nonce given last;
* `Effect.discloses`, `Surroundings.Concerns` — what goes out, and of which session;
* `Resumes.latest`, `Run.Current` — the session of the state is the latest, all along;
* `Run.requests_of_latest` — the law.
-/

namespace OpcSession.Session

/-! ## The nonce that the server gave last -/

/-- The nonce that an exchange brought for the session with a token: the
server created the session, or answered a request to activate it. -/
def Exchange.nonce? (token : NodeId) (x : Exchange) : Option ByteString :=
  match x.created? with
  | some created => if created.token = token then some created.serverNonce else none
  | none => if x.call.activates? = some token then x.outcome?.bind Outcome.nonce? else none

/-- The session is the one that the server created last, and it holds the
nonce that the server gave last for its token. -/
def Latest (name : String) (xs : List Exchange) (session : Session) : Prop :=
  session.Identified name xs ∧
    xs.findSome? (Exchange.nonce? session.token) = some session.serverNonce

section Latest

variable {name : String} {c : Call} {o : Outcome} {xs : List Exchange} {session : Session}
  {created : SessionCreated}

/-- A call brings nothing before it has ended, so the latest nonce stays the
one that there was. -/
theorem lastNonce_unanswered (c : Call) (token : NodeId) (xs : List Exchange) :
    ({ call := c } :: xs).findSome? (Exchange.nonce? token) =
      xs.findSome? (Exchange.nonce? token) := by
  rw [List.findSome?_cons]
  by_cases hcreates : c.creates <;> simp [Exchange.nonce?, Exchange.created?, hcreates]

/-- A call that creates no session brings a nonce only if it activates one. -/
theorem lastNonce_silent (hother : c.creates = false)
    (hsilent : c.activates? = none ∨ o.nonce? = none) (token : NodeId) :
    ({ call := c, outcome? := some o } :: xs).findSome? (Exchange.nonce? token) =
      xs.findSome? (Exchange.nonce? token) := by
  rw [List.findSome?_cons]
  rcases hsilent with hsilent | hsilent <;>
    simp [Exchange.nonce?, Exchange.created?, hother, hsilent]

theorem lastNonce_created (hcreates : c.creates) (hanswer : o.created? = some created) :
    ({ call := c, outcome? := some o } :: xs).findSome? (Exchange.nonce? created.token) =
      some created.serverNonce := by
  rw [List.findSome?_cons]
  simp [Exchange.nonce?, Exchange.created?, hcreates, hanswer]

theorem lastNonce_activated {token : NodeId} {nonce : ByteString}
    (hactivates : c.activates? = some token) (hanswer : o.nonce? = some nonce) :
    ({ call := c, outcome? := some o } :: xs).findSome? (Exchange.nonce? token) =
      some nonce := by
  have hother := Call.not_creates_of_activates hactivates
  rw [List.findSome?_cons]
  simp [Exchange.nonce?, Exchange.created?, hother, hactivates, hanswer]

/-- To make a call leaves a session the latest, since only answers bring
anything new. -/
theorem latest_unanswered : session.Latest name ({ call := c } :: xs) ↔ session.Latest name xs := by
  unfold Latest Identified
  rw [lastCreated_unanswered, lastNonce_unanswered]

/-- An answer that neither creates nor activates a session leaves a session
the latest. -/
theorem Latest.silent (h : session.Latest name xs) (hother : c.creates = false)
    (hsilent : c.activates? = none ∨ o.nonce? = none) :
    session.Latest name ({ call := c, outcome? := some o } :: xs) := by
  unfold Latest Identified
  rw [lastCreated_other hother, lastNonce_silent hother hsilent]
  exact h

/-- A session that was created just now is the latest: its token, its
certificate and its nonce are those of the answer. -/
theorem latest_created (hcreates : c.creates) (hanswer : o.created? = some created) :
    (Session.created name created).Latest name ({ call := c, outcome? := some o } :: xs) :=
  ⟨⟨created, lastCreated_answered hcreates hanswer, rfl⟩, lastNonce_created hcreates hanswer⟩

/-- The latest session that was activated just now is the latest with its new
nonce. -/
theorem Latest.activated {session' : Session} {nonce : ByteString}
    (h : session'.Identified name xs) (hactivates : c.activates? = some session'.token)
    (hholds : session'.serverNonce = nonce) (hanswer : o.nonce? = some nonce) :
    session'.Latest name ({ call := c, outcome? := some o } :: xs) := by
  refine ⟨?_, ?_⟩
  · unfold Identified
    rw [lastCreated_other (Call.not_creates_of_activates hactivates)]
    exact h
  · rw [lastNonce_activated hactivates hanswer, hholds]

end Latest

/-! ## The session that a state is about -/

/-- The session that a state is about: the one that it holds, or has just
abandoned. -/
def State.about? : State → Option Session
  | inactive abandoned => abandoned
  | st => st.held?

namespace State

variable {st st' : State} {e : Event} {move : Move}

theorem about?_bare (st : State) : st.bare.about? = st.about? := by
  cases st <;> rfl

theorem about?_of_bare (h : st.bare = st'.bare) : st.about? = st'.about? := by
  rw [← about?_bare st, h, about?_bare]

theorem about?_of_held {session : Session} (h : st.held? = some session) :
    st.about? = some session := by
  cases st with
  | inactive abandoned => cases h
  | _ => exact h

/-- **No move confuses sessions**: the next state is about the same one, or
about none. -/
theorem about?_of_transition? (hallowed : e.Ordinary ∨ st.Raises e)
    (h : st.transition? e = some move) :
    move.next.about? = none ∨ move.next.about? = st.about? := by
  unfold transition? at h
  split at h <;> cases h
  case h_16 previous delay ws reactivated =>
    -- That a reactivation failed is believed only where none has succeeded.
    cases reactivated with
    | none => exact .inr rfl
    | some _ => rcases hallowed with (hclaimed | hclaimed) | hclaimed <;> cases hclaimed
  all_goals first
    | exact .inl rfl
    | exact .inr rfl

end State

section Courses

variable {s : Surroundings} {event : Event} {epoch : Nat} {o : Outcome} {a : Awaiting}
  {st : State} {c : Course} {session : Session} {name : String} {call : Call}
  {xs : List Exchange}

/-- A session that was abandoned is forgotten as the state is entered, and any
other stays the one that the state is about. -/
theorem Enters.about? (h : Enters s event epoch st c) :
    c.state.about? = none ∨ c.state.about? = st.about? := by
  cases h with
  | abandoned => exact .inl rfl
  | _ => exact .inr rfl

/-- An attempt that fails brings no nonce: either nothing was asked, or the
answer was no activation. -/
theorem Surroundings.Fails.silent {e : SessionError} (h : s.Fails o a st e)
    (hasks : a.Asks st call) : call.activates? = none ∨ o.nonce? = none := by
  cases h with
  | call | nothing => exact .inr rfl
  | endpoint | refused => exact .inl (Call.isPlain.activates? hasks)
  | creation => exact .inl (Call.creates.activates? hasks)
  | activation hactivating hother =>
      rename_i r
      obtain ⟨header, body⟩ := r
      cases body <;> first | exact .inr rfl | cases hother

/-- Nothing but the creation of a session asks for one, and before it there is
none. -/
theorem about?_of_creates (hasks : a.Asks st call) (hfits : a.Fits st) (hcreates : call.creates) :
    st.about? = none := by
  have hsame := Run.createSession_of_asks hasks hcreates
  subst hsame
  cases st <;> first | exact hfits.elim | exact hfits

/-- **Whatever comes of a call, the session of the state is the latest after
it.** -/
theorem Resumes.latest (h : Resumes s o a st c) (hnamed : s.settings.sessionName = name)
    (hfits : a.Fits st) (hasks : a.Asks st call)
    (hbefore : ∀ session, st.about? = some session → session.Latest name xs) :
    ∀ session, c.state.about? = some session →
      session.Latest name ({ call := call, outcome? := some o } :: xs) := by
  have hkept : c.state.about? = st.about? → (call.activates? = none ∨ o.nonce? = none) →
      ∀ session, c.state.about? = some session →
        session.Latest name ({ call := call, outcome? := some o } :: xs) := by
    intro hsame hsilent session habout
    rw [hsame] at habout
    by_cases hcreates : call.creates
    · rw [about?_of_creates hasks hfits hcreates] at habout
      cases habout
    · exact (hbefore session habout).silent (by simpa using hcreates) hsilent
  cases h with
  | fails hhidden hwhy => exact hkept rfl (hwhy.silent hasks)
  | created hanswered =>
      intro session habout
      cases habout
      obtain ⟨created, hanswer, hsame⟩ := Run.created?_of_createdSession hanswered
      rw [hsame, hnamed]
      exact latest_created hasks hanswer
  | @activated ws held nonce hanswered =>
      intro session habout
      cases habout
      obtain ⟨presented, hsame, hactivates⟩ := hasks
      cases hsame
      have hidentified := (hbefore held rfl).1.withNonce nonce
      exact .activated hidentified hactivates rfl (Run.nonce?_of_activationNonce hanswered)
  | @reactivated previous delay ws before? nonce hanswered =>
      intro session habout
      cases habout
      cases hfits
      obtain ⟨presented, hsame, hactivates⟩ := hasks
      cases hsame
      have hidentified := (hbefore previous rfl).1.reactivated nonce
      rw [hnamed]
      exact .activated hidentified hactivates rfl (Run.nonce?_of_activationNonce hanswered)
  | _ => exact hkept rfl (.inl (Call.isPlain.activates? hasks))

end Courses

namespace Run

variable {A : Prop} {name : String} {r r' : Run} {o : Occurrence}

/-- The session that the state is about is the latest: its token is that of
the last creation, its nonce that of the last exchange which brought one. -/
def Current (name : String) (r : Run) : Prop :=
  ∀ session, r.machine.state.about? = some session → session.Latest name r.exchanges

theorem current_start (name : String) : Current name {} := nofun

/-- To go on to a state that is about no other session, by way of a call or
without one, keeps the session the latest. -/
theorem current_of_latest {st : State} {xs : List Exchange} {e : Ending}
    (hlatest : ∀ session, st.about? = some session → session.Latest name xs)
    (habout : r.machine.state.about? = none ∨ r.machine.state.about? = st.about?)
    (hexchanges : r.exchanges = e.exchanges ++ xs) : r.Current name := by
  intro session hheld
  rcases habout with hnothing | hsame
  · rw [hnothing] at hheld
    cases hheld
  · rw [hsame] at hheld
    rw [hexchanges, Ending.exchanges]
    cases e.call? with
    | none => exact hlatest session hheld
    | some call => exact latest_unanswered.mpr (hlatest session hheld)

/-- **Whatever happens, the session that the state is about is the latest.**
The answers that bring something new are those that the machine puts into its
state. -/
theorem Current.happen (h : r.Current name) (hgenuine : r.Genuine name) (hsound : r.Sound A)
    (hordinary : o.Ordinary name) : (r.happen o).Current name := by
  have hbecomes := hsound.becomes o
  generalize r.happen o = r' at hbecomes
  cases hbecomes with
  | stays hhistory hstate =>
      intro session habout
      rw [Run.exchanges, hhistory]
      rw [hstate] at habout
      exact h session habout
  | @takes s c rest p htaking hidle hqueue hstep hobeys =>
      have htaken : (r.dequeue c rest).Current name := by
        intro session habout
        rw [exchanges_dequeue]
        exact h session habout
      rcases hobeys.serves_or_moves with
        ⟨hserves, -⟩ | ⟨e, move, course, hevent, hmoves, henters, rfl⟩
      · refine current_of_latest (e := .concludes none) htaken (.inr ?_) ?_
        · rw [machine_proceed]
          exact State.about?_of_bare hserves.bare
        · exact exchanges_proceed_quiet hserves.quiet
      · have hdeparts := (r.dequeue c rest).machine.departs s e move c.waiter?
        have hmoved := State.about?_of_bare hdeparts.bare
        have hnext : ((r.dequeue c rest).proceed ((r.dequeue c rest).machine.depart s e move
            c.waiter?)).Current name := by
          refine current_of_latest (e := .concludes none) htaken ?_ hdeparts.exchanges
          rw [machine_proceed, hmoved]
          exact State.about?_of_transition? (hgenuine.allowed hsound hqueue hevent) hmoves
        rw [proceed_andThen]
        refine current_of_latest hnext ?_ (exchanges_course s c.owed henters.aside)
        rw [machine_proceed, machine_proceed, State.about?_of_bare Course.bare_run]
        exact henters.about?
  | @resumes s outcome entry course hended hwaiting hstep hresumes =>
      subst hended
      obtain ⟨call, rest, hpending, hasks⟩ := hgenuine.pending entry hwaiting
      have hbefore : ∀ session, r.machine.state.about? = some session →
          session.Latest name rest := by
        intro session habout
        rw [← latest_unanswered, ← hpending]
        exact h session habout
      have hafter := hresumes.latest hordinary (hsound.fits entry hwaiting) hasks hbefore
      refine current_of_latest (e := course.ending) hafter (.inr ?_) ?_
      · rw [machine_proceed, State.about?_of_bare Course.bare_run]
      · rw [← exchanges_returned hpending outcome]
        exact exchanges_course s entry.owed hresumes.aside

end Run

/-! ## What goes out -/

/-- An effect in which something of a session goes out: to the credentials, to
the key of the client, or to the server. -/
def Effect.discloses : Effect → Bool
  | .identified _ | .signed _ | .call (.send _) => true
  | _ => false

/-- What a machine does to activate a session: it asks for an identity against
the nonce, has the certificate and the nonce signed, and sends both under the
token. -/
inductive Surroundings.Presents (s : Surroundings) (session : Session) : Effect → Prop
  /-- The identity provider is asked, with the nonce. -/
  | identifies : Presents s session (.identified session.serverNonce)
  /-- The certificate of the server and the nonce are signed. -/
  | signs : Presents s session (.signed (signedData session))
  /-- The activation is asked for under the token of the session. -/
  | asks {endpoint : EndpointDescription} {identity : UserToken}
      {tokenSignature signature : SignatureData} (hfound : s.endpoint? = some endpoint)
      (hidentified : s.identify endpoint session.serverNonce = .ok (identity, tokenSignature))
      (hsigned : s.Signs session signature) :
      Presents s session
        (.call (.send (s.activateRequest session identity tokenSignature signature)))

/-- What goes out on behalf of a session: what presents it, and the two other
requests that carry its token. -/
inductive Surroundings.Concerns (s : Surroundings) (session : Session) : Effect → Prop
  /-- It serves to present the session. -/
  | presents {f : Effect} (hpresents : s.Presents session f) : Concerns s session f
  /-- It asks for the session to be closed. -/
  | closes : Concerns s session (.call (.send (s.closeRequest session)))
  /-- It asks for subscriptions to be moved to the session. -/
  | transfers (ids : List UInt32) :
      Concerns s session (.call (.send (s.transferRequest session ids)))

/-- What is signed is the certificate of the server followed by its nonce. -/
theorem Surroundings.signedData_of_mem {s : Surroundings} {session : Session}
    {data : List UInt8} (h : data ∈ (s.clientSignature session).1) :
    data = signedData session := by
  unfold clientSignature at h
  split at h
  · cases h
  · exact (Option.some.inj h).symm

/-- A part of a step in which nothing goes out that would show a token or a
nonce. -/
def Progress.Discreet (p : Progress) : Prop := ∀ f ∈ p.effects, ¬ f.discloses

theorem Progress.Discreet.andThen {p : Progress} {g : Machine → Progress} (hp : p.Discreet)
    (hg : (g p.machine).Discreet) : (p.andThen g).Discreet := by
  intro f hf
  rcases List.mem_append.mp hf with hf | hf
  · exact hp f hf
  · exact hg f hf

namespace Machine

variable {s : Surroundings} {m : Machine} {session : Session} {owed : Owed} {f : Effect}

theorem answers_discreet (tickets : List Ticket) (a : Answer) :
    ∀ f ∈ answers tickets a, ¬ f.discloses := by
  intro f hf
  obtain ⟨t, -, rfl⟩ := List.mem_map.mp hf
  simp [Effect.discloses]

theorem attach_discreet (m : Machine) (t : Ticket) : (m.attach t).Discreet := by
  unfold attach Progress.Discreet
  split <;> simp [Effect.discloses]

theorem join_discreet (m : Machine) (waiter : Option Ticket) : (m.join waiter).Discreet := by
  cases waiter with
  | none => simp [join, Progress.Discreet]
  | some t => exact attach_discreet m t

theorem pay_discreet (m : Machine) (owed : Owed) : (m.pay owed).Discreet := by
  unfold pay Progress.Discreet
  split
  · simp
  · simp [Effect.discloses]
  · split <;> simp [Effect.discloses]

theorem tell_discreet (s : Surroundings) (m : Machine) (active : Bool) (session : Session) :
    (m.tell s active session).Discreet := by
  intro f hf
  obtain ⟨l, -, rfl⟩ := List.mem_map.mp hf
  simp [Effect.discloses]

theorem announce_discreet (s : Surroundings) (m : Machine) : (m.announce s).Discreet := by
  unfold announce
  split
  · exact (tell_discreet s m true _).andThen (answers_discreet _ _)
  · simp [Progress.Discreet]

theorem conclude_discreet (s : Surroundings) (owed : Owed) (followUp : Option Event)
    (m : Machine) : (m.conclude s owed followUp).Discreet := by
  have hannounced := announce_discreet s { m with entry? := none }
  exact (hannounced.andThen (by simp [Progress.Discreet])).andThen (pay_discreet _ owed)

theorem fail_discreet (s : Surroundings) (owed : Owed) (e : SessionError) (followUp : Event)
    (m : Machine) : (m.fail s owed e followUp).Discreet := by
  have hrefused : Progress.Discreet {
      machine := { m with state := m.state.withWaiters [] }
      effects := answers m.state.waiters (.session (.error e)) } := answers_discreet _ _
  exact hrefused.andThen (conclude_discreet s owed _ _)

theorem move_discreet (s : Surroundings) (m : Machine) (event : Event) (move : State.Move) :
    (m.move s event move).Discreet := by
  have hgiven : ∀ f ∈ .published ⟨m.state.kind, event, move.next.kind⟩ ::
      leave m.state m.epoch ++ answers move.left (.session (.error .closed)),
      ¬ f.discloses := by
    intro f hf
    rcases List.mem_append.mp hf with hf | hf
    · rcases List.mem_cons.mp hf with rfl | hf
      · simp [Effect.discloses]
      · cases hst : m.state with
        | closing session cs =>
            rw [hst] at hf
            exact answers_discreet cs .disconnected f hf
        | active | reactivateDelay =>
            rw [hst] at hf
            cases List.mem_singleton.mp hf
            simp [Effect.discloses]
        | _ => simp [hst, leave] at hf
    · exact answers_discreet _ _ f hf
  unfold Machine.move
  split
  · exact Progress.Discreet.andThen hgiven (tell_discreet s _ false _)
  · exact hgiven

theorem depart_discreet (s : Surroundings) (m : Machine) (event : Event) (move : State.Move)
    (waiter : Option Ticket) : (m.depart s event move waiter).Discreet :=
  (move_discreet s m event move).andThen (join_discreet _ waiter)

/-- **All that goes out of an attempt to activate a session presents that
session.** -/
theorem activate_presenting (awaiting : Awaiting)
    {failed : SessionError → Machine → Progress}
    (hdiscreet : ∀ e m, (failed e m).Discreet)
    (hdone : f ∈ (m.activate s owed awaiting session failed).effects)
    (hdiscloses : f.discloses) : s.Presents session f := by
  have hrefused : ∀ e m, f ∉ (failed e m).effects := fun e m hf => hdiscreet e m f hf hdiscloses
  unfold activate at hdone
  cases hfound : s.endpoint? with
  | none =>
      rw [hfound] at hdone
      exact absurd hdone (hrefused _ _)
  | some endpoint =>
      simp only [hfound] at hdone
      cases hidentified : s.identify endpoint session.serverNonce with
      | error e =>
          simp only [hidentified, Progress.andThen, List.mem_append, hrefused, or_false,
            List.mem_singleton] at hdone
          rw [hdone]
          exact .identifies
      | ok token =>
          obtain ⟨identity, tokenSignature⟩ := token
          simp only [hidentified, Progress.andThen] at hdone
          have hbefore : f ∈ [.identified session.serverNonce] ++
              (s.clientSignature session).1.toList.map .signed → s.Presents session f := by
            intro hf
            rcases List.mem_append.mp hf with hf | hf
            · rw [List.mem_singleton.mp hf]
              exact .identifies
            · obtain ⟨data, hsigned, rfl⟩ := List.mem_map.mp hf
              rw [Surroundings.signedData_of_mem (Option.mem_toList.mp hsigned)]
              exact .signs
          cases hsigned : (s.clientSignature session).2 with
          | error e =>
              simp only [hsigned] at hdone
              exact hbefore ((List.mem_append.mp hdone).resolve_right (hrefused _ _))
          | ok signature =>
              simp only [hsigned] at hdone
              rcases List.mem_append.mp hdone with hdone | hdone
              · exact hbefore hdone
              · rw [List.mem_singleton.mp hdone]
                exact .asks hfound hidentified (Surroundings.signs_of_clientSignature hsigned)

/-- What goes out of a course goes out on the way, or is the call that it ends
with. -/
theorem course_disclosing {c : Course} (hdone : f ∈ (c.run s owed m).effects)
    (hdiscloses : f.discloses) :
    f ∈ c.before ∨ ∃ call, c.ending.call? = some call ∧ f = .call call := by
  rcases List.mem_append.mp hdone with hdone | hdone
  · exact .inl hdone
  · obtain ⟨st, before, ending⟩ := c
    cases ending with
    | waits awaiting call => exact .inr ⟨call, rfl, List.mem_singleton.mp hdone⟩
    | concludes followUp => exact absurd hdiscloses (conclude_discreet s owed followUp _ f hdone)
    | fails e followUp => exact absurd hdiscloses (fail_discreet s owed e followUp _ f hdone)

/-- **All that goes out as a state is entered concerns the session that it is
about.** -/
theorem enter_concerning {event : Event} (hdone : f ∈ (m.enter s event owed).effects)
    (hdiscloses : f.discloses) :
    ∃ session, m.state.about? = some session ∧ s.Concerns session f := by
  obtain ⟨c, henters, hrun⟩ := enter_course s event owed m
  cases hst : m.state with
  | activating ws session =>
      simp only [enter, hst] at hdone
      refine ⟨session, rfl, .presents ?_⟩
      exact activate_presenting _ (fun e m => fail_discreet s owed e _ m) hdone hdiscloses
  | _ =>
      rw [hrun] at hdone
      have hout := course_disclosing hdone hdiscloses
      rw [hst] at henters
      rcases hout with hearly | ⟨call, hmade, rfl⟩
      · -- On the way nothing is done but to watch, to publish and to set the timer.
        cases henters <;> simp at hearly
        all_goals
          first
          | subst hearly
          | rcases hearly with rfl | rfl
          all_goals cases hdiscloses
      · cases henters <;> cases hmade
        all_goals first
          | exact ⟨_, rfl, .closes⟩
          | exact ⟨_, rfl, .transfers _⟩
          | cases hdiscloses

/-- When a session was created, activated or reactivated nothing goes out; the
state comes by it, and its event is raised. -/
theorem created_discreet (s : Surroundings) (owed : Owed) (session : Session) (m : Machine) :
    (m.created s owed session).Discreet := by
  unfold created
  split <;> exact conclude_discreet s owed _ _

theorem activated_discreet (s : Surroundings) (owed : Owed) (nonce : ByteString)
    (m : Machine) : (m.activated s owed nonce).Discreet := by
  unfold activated
  split <;> exact conclude_discreet s owed _ _

theorem reactivated_discreet (s : Surroundings) (owed : Owed) (nonce : ByteString)
    (m : Machine) : (m.reactivated s owed nonce).Discreet := by
  unfold reactivated
  split <;> exact conclude_discreet s owed _ _

/-- **All that goes out after a call presents the session to be reactivated**,
unless it is the request to create a session. -/
theorem resume_concerning {o : Outcome} {entry : Entry} (hwaiting : m.entry? = some entry)
    (hfits : entry.awaiting.Fits m.state) (hdone : f ∈ (m.resume s o).effects)
    (hdiscloses : f.discloses) :
    (∃ endpoint, f = .call (.send (s.createRequest endpoint))) ∨
      entry.awaiting = .connectToReactivate ∧
        ∃ session, m.state.about? = some session ∧ s.Presents session f := by
  obtain ⟨awaiting, owed⟩ := entry
  have hrefused : ∀ e followUp m, f ∉ (fail s owed e followUp m).effects :=
    fun e followUp m hf => fail_discreet s owed e followUp m f hf hdiscloses
  have hconcluded : ∀ followUp m, f ∉ (conclude s owed followUp m).effects :=
    fun followUp m hf => conclude_discreet s owed followUp m f hf hdiscloses
  unfold resume at hdone
  simp only [hwaiting] at hdone
  cases awaiting with
  | closeAbandoned | closeSession =>
      rw [List.mem_singleton.mp hdone] at hdiscloses
      cases hdiscloses
  | dropConnection | closeConnection => exact absurd hdone (hconcluded _ _)
  | connectToCreate =>
      dsimp only at hdone
      split at hdone
      · exact absurd hdone (hrefused _ _ _)
      · split at hdone
        · exact absurd hdone (hrefused _ _ _)
        · exact .inl ⟨_, List.mem_singleton.mp hdone⟩
  | createSession =>
      dsimp only at hdone
      split at hdone
      · exact absurd hdone (hrefused _ _ _)
      · exact absurd hdiscloses (created_discreet s owed _ m f hdone)
  | activateSession =>
      dsimp only at hdone
      split at hdone
      · exact absurd hdone (hrefused _ _ _)
      · exact absurd hdiscloses (activated_discreet s owed _ m f hdone)
  | transfer ids =>
      rcases List.mem_append.mp hdone with hearly | hdone
      · simp only [List.mem_cons, List.not_mem_nil, or_false] at hearly
        rcases hearly with rfl | rfl <;> cases hdiscloses
      · exact absurd hdone (hconcluded _ _)
  | connectToReactivate =>
      refine .inr ⟨rfl, ?_⟩
      cases hst : m.state with
      | reactivateExecute previous delay ws session =>
          rw [hst] at hfits
          cases hfits
          refine ⟨previous, rfl, ?_⟩
          cases o with
          | failed e => exact absurd hdone (hrefused _ _ _)
          | _ =>
              simp only [hst] at hdone
              exact activate_presenting _ (fun e m => fail_discreet s owed e _ m) hdone hdiscloses
      | _ =>
          rw [hst] at hfits
          exact hfits.elim
  | reactivateSession =>
      dsimp only at hdone
      split at hdone
      · exact absurd hdone (hrefused _ _ _)
      · exact absurd hdiscloses (reactivated_discreet s owed _ m f hdone)

/-- **All that goes out as a command is carried out concerns the session of
the state that it moves the machine to.** -/
theorem obey_concerning {c : Command} (hdone : f ∈ (m.obey s c).effects)
    (hdiscloses : f.discloses) :
    ∃ e move session, c.event? m = some e ∧ m.state.transition? e = some move ∧
      move.next.about? = some session ∧ s.Concerns session f := by
  have hobeys := m.obey_obeys s c
  generalize hp : m.obey s c = p at hobeys hdone
  cases hobeys with
  | stale => cases hdone
  | given =>
      rw [List.mem_singleton.mp hdone] at hdiscloses
      cases hdiscloses
  | ignored =>
      have hdiscreet := (join_discreet m c.waiter?).andThen (g := fun m => m.pay c.owed)
        (pay_discreet _ c.owed)
      exact absurd hdiscloses (hdiscreet f hdone)
  | @moves e move course hevent hmoves henters =>
      rw [← hp, obey_of_event hevent, handle_of_moves hmoves] at hdone
      rcases List.mem_append.mp hdone with hdone | hdone
      · exact absurd hdiscloses (depart_discreet s m e move c.waiter? f hdone)
      · obtain ⟨session, habout, hconcerns⟩ := enter_concerning hdone hdiscloses
        rw [State.about?_of_bare (m.departs s e move c.waiter?).bare] at habout
        exact ⟨e, move, session, hevent, hmoves, habout, hconcerns⟩

end Machine

/-! ## The law -/

/-- Something that goes out is in line with what the server has said: it is
about the session created last, under its token and with the nonce given for
it last, or it asks for a session to be created and bears no token. -/
def Effect.InLine (name : String) (s : Surroundings) (xs : List Exchange) : Effect → Prop
  | .identified nonce => ∃ session : Session, session.Latest name xs ∧ nonce = session.serverNonce
  | .signed data => ∃ session : Session, session.Latest name xs ∧
      data = session.serverCertificate.bytes ++ session.serverNonce.bytes
  | .call (.send q) => match q.body with
    | .createSession _ => q.header.token = .null
    | .activateSession a => ∃ (session : Session) (endpoint : EndpointDescription),
        session.Latest name xs ∧ q.header.token = session.token ∧
        s.endpoint? = some endpoint ∧
        s.identify endpoint session.serverNonce = .ok (a.identity, a.tokenSignature) ∧
        s.Signs session a.clientSignature
    | .closeSession _ | .transferSubscriptions _ _ => ∃ session : Session,
        session.Latest name xs ∧ q.header.token = session.token
    | .read _ _ | .write _ => False
  | _ => True

/-- What goes out on behalf of the latest session is in line with the
exchanges before it. -/
theorem Surroundings.Concerns.inLine {name : String} {s : Surroundings} {xs : List Exchange}
    {session : Session} {f : Effect} (h : s.Concerns session f)
    (hlatest : session.Latest name xs) : f.InLine name s xs := by
  cases h with
  | presents h =>
      cases h with
      | identifies | signs => exact ⟨session, hlatest, rfl⟩
      | asks hfound hidentified hsigned =>
          exact ⟨session, _, hlatest, rfl, hfound, hidentified, hsigned⟩
  | closes | transfers => exact ⟨session, hlatest, rfl⟩

namespace Run

variable {A : Prop} {name : String} {r : Run} {o : Occurrence} {f : Effect}

/-- Whatever goes out when something happens is a request to create a session,
or concerns one. -/
theorem Sound.concerning (h : r.Sound A) (hdone : .did f ∈ r.news o) (hdiscloses : f.discloses) :
    ∃ s ∈ o.surroundings?, (∃ endpoint, f = .call (.send (s.createRequest endpoint))) ∨
      ∃ session, s.Concerns session f := by
  have hbecomes := h.becomes o
  generalize hnext : r.happen o = r' at hbecomes
  cases hbecomes with
  | stays hhistory =>
      rw [Run.news, hnext, hhistory, List.drop_length] at hdone
      cases hdone
  | @takes s c rest p htaking hidle hqueue hstep hobeys =>
      rw [news_takes hnext, hstep] at hdone
      obtain ⟨-, -, session, -, -, -, hconcerns⟩ :=
        Machine.obey_concerning (mem_news (by simp) hdone) hdiscloses
      exact ⟨s, by rw [htaking]; rfl, .inr ⟨session, hconcerns⟩⟩
  | @resumes s outcome entry course hended hwaiting hstep hresumes =>
      rw [news_resumes hnext, hstep] at hdone
      refine ⟨s, by rw [hended]; rfl, ?_⟩
      obtain hcreated | ⟨-, session, -, hpresents⟩ := Machine.resume_concerning hwaiting
        (h.fits entry hwaiting) (mem_news (by simp) hdone) hdiscloses
      · exact .inl hcreated
      · exact .inr ⟨session, .presents hpresents⟩

/-- What goes out when something happens is in line with what was said until
then. -/
theorem Current.inLine (h : r.Current name) (hgenuine : r.Genuine name) (hsound : r.Sound A)
    (hdone : .did f ∈ r.news o) (hdiscloses : f.discloses) :
    ∃ s ∈ o.surroundings?, f.InLine name s (r.settled o) := by
  have hbecomes := hsound.becomes o
  generalize hnext : r.happen o = r' at hbecomes
  cases hbecomes with
  | stays hhistory =>
      rw [news, hnext, hhistory, List.drop_length] at hdone
      cases hdone
  | @takes s c rest p htaking hidle hqueue hstep hobeys =>
      subst htaking
      rw [news_takes hnext] at hdone
      have hdone := mem_news (by simp) hdone
      rw [hstep] at hdone
      obtain ⟨e, move, session, hevent, hmoves, habout, hconcerns⟩ :=
        Machine.obey_concerning hdone hdiscloses
      refine ⟨s, rfl, hconcerns.inLine (h session ?_)⟩
      rcases State.about?_of_transition? (hgenuine.allowed hsound hqueue hevent) hmoves with
        hnothing | hsame
      · cases habout.symm.trans hnothing
      · exact hsame.symm.trans habout
  | @resumes s outcome entry course hended hwaiting hstep hresumes =>
      subst hended
      rw [news_resumes hnext] at hdone
      have hdone := mem_news (by simp) hdone
      rw [hstep] at hdone
      refine ⟨s, rfl, ?_⟩
      rcases Machine.resume_concerning hwaiting (hsound.fits entry hwaiting) hdone hdiscloses with
        ⟨endpoint, rfl⟩ | ⟨hagain, session, habout, hpresents⟩
      · exact rfl
      · obtain ⟨call, rest, hpending, hasks⟩ := hgenuine.pending entry hwaiting
        rw [hagain] at hasks
        have hlatest := h session habout
        rw [hpending, latest_unanswered] at hlatest
        have hstill : session.Latest name ({ call := call, outcome? := some outcome } :: rest) :=
          hlatest.silent (Call.isPlain.creates hasks) (.inl (Call.isPlain.activates? hasks))
        rw [settled, exchanges_returned hpending]
        exact (Surroundings.Concerns.presents hpresents).inLine hstill

/-- **Every request goes out under the token of the session that the server
created last, with the nonce that the server gave for it last.**  At every
point of a run the session that the machine holds is the one created last, and
its nonce the one that came with the creation or with the last answer to a
request to activate it.  And whatever goes out next is in line with all that
was said before it: requests to activate a session, to transfer subscriptions
to it and to close it bear its token, those to create one bear none, and to
activate a session the machine asks for an identity against that nonce, has
the certificate of the server and that nonce signed, and sends what it got for
them. -/
theorem requests_of_latest (h : Reachable (Occurrence.Ordinary name) r) :
    (∀ session, r.machine.state.held? = some session → session.Latest name r.exchanges) ∧
      ∀ o f pre post, r.news o = pre ++ .did f :: post → f.discloses →
        ∃ s ∈ o.surroundings?, f.InLine name s (dealings (r.history ++ pre)) := by
  have hall : (r.Sound False ∧ r.Genuine name) ∧ r.Current name :=
    Reaches.invariant (I := fun r => (r.Sound False ∧ r.Genuine name) ∧ r.Current name)
      ⟨⟨sound_start False, genuine_start name⟩, current_start name⟩
      (fun r o hordinary ⟨⟨hsound, hgenuine⟩, hcurrent⟩ =>
        ⟨⟨hsound.happen False.elim, hgenuine.happen hsound hordinary⟩,
          hcurrent.happen hgenuine hsound hordinary⟩) h
  obtain ⟨⟨hsound, hgenuine⟩, hcurrent⟩ := hall
  refine ⟨fun session hheld => hcurrent session (State.about?_of_held hheld), ?_⟩
  intro o f pre post hnews hdiscloses
  rw [hsound.dealings_at hnews]
  refine hcurrent.inLine hgenuine hsound ?_ hdiscloses
  rw [hnews]
  exact List.mem_append_right _ List.mem_cons_self

end Run

/-! ## A session that is reactivated at the third attempt -/

/-- The request that an entry of a history sends, if it is the making of such
a call. -/
def Happening.request? : Happening → Option Request
  | did (.call (.send q)) => some q
  | _ => none

theorem did_of_request {xs : List Happening} {q : Request}
    (h : q ∈ xs.filterMap Happening.request?) : .did (.call (.send q)) ∈ xs := by
  obtain ⟨x, hx, hsent⟩ := List.mem_filterMap.mp h
  unfold Happening.request? at hsent
  split at hsent
  · cases hsent
    exact hx
  · cases hsent

/-- What a server says that creates a session with a certificate, so that
there is something to be signed besides the nonce. -/
def certified : SessionCreated :=
  { (default : SessionCreated) with
    token := ⟨1, .numeric 9⟩
    serverCertificate := .of [1, 2]
    serverNonce := .of [3] }

/-- A session is created and activated, its connection is lost, and two
attempts to reactivate it fail, one for want of a connection; then a third
begins. -/
def retrying (s : Surroundings) : List Occurrence :=
  [.asked (.getSession 7), .taking s, .ended s .done,
    .ended s (.response { header := .good 1, body := .createSession certified }), .taking s,
    .ended s (activation (.of [4])), .taking s,
    .noticed 8 .inactive, .watching true, .taking s,
    .fired true 0, .taking s, .ended s (.failed .timeout), .taking s,
    .fired true 1, .taking s, .ended s .done, .ended s (.failed .timeout), .taking s,
    .fired true 2, .taking s]

/-- Surroundings in which an identity shows the nonce that it is for, and a
signature the data that is signed. -/
def Surroundings.showing : Surroundings :=
  { Surroundings.placid with
    policy := .basic256
    identify := fun _ nonce => .ok (.userName "plant" "operator" nonce none, {})
    sign := fun data => .ok (.of data) }

namespace Run

/-- After two attempts that failed a session is reactivated with the nonce
that came when it was activated first. -/
theorem requests_of_latest_retried :
    let s : Surroundings := .showing
    let r : Run := (retrying s).foldl Run.happen {}
    let session := (Session.created "plant" certified).withNonce (.of [4])
    let q := s.activateRequest session (.userName "plant" "operator" (.of [4]) none) {}
      { algorithm := SecurityPolicy.basic256.signatureUri, signature := .of [1, 2, 4] }
    Reachable (Occurrence.Ordinary "plant") r ∧ ∃ pre post,
      r.news (.ended s .done) = pre ++ .did (.call (.send q)) :: post ∧
        (Effect.call (.send q)).InLine "plant" s (dealings (r.history ++ pre)) := by
  intro s r session q
  have hordinary : ∀ o ∈ retrying s, o.Ordinary "plant" := by
    simp [retrying, Occurrence.Ordinary, s, Surroundings.showing, Surroundings.placid]
  have hreachable : Reachable (Occurrence.Ordinary "plant") r := Reaches.ofList _ hordinary
  have hsent : (r.news (.ended s .done)).filterMap Happening.request? = [q] := by decide +kernel
  obtain ⟨pre, post, hnews⟩ :=
    List.append_of_mem (did_of_request (hsent ▸ List.mem_singleton_self q))
  obtain ⟨_, hfound, hline⟩ :=
    (requests_of_latest hreachable).2 (.ended s .done) _ pre post hnews rfl
  cases hfound
  exact ⟨hreachable, pre, post, hnews, hline⟩

end Run

end OpcSession.Session
