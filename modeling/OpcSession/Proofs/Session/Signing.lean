import OpcSession.Proofs.Session.Credentials
import OpcSession.Proofs.Session.Refusals
import OpcSession.Simulation.ClientRun

/-!
# Activations and their signatures

To activate a session the client signs the certificate of the server and its latest
nonce, if the security policy asks for signatures.  A channel has no key to sign
with, and takes its policy from the URI of its endpoint.  So over a channel an
activation is never signed: it is asked for where the URI asks for no signature, and
where it asks for one the attempt fails and nothing is sent.

A URI that nobody knows asks for no signature.  That is how an activation can go out
unsigned to an endpoint which never said that it has no security.

* `Surroundings.Signs`, `Run.activation_signs` — what an activation is signed with,
  wherever the machine runs;
* `Channel.policy_eq_none_iff` — where a channel asks for no signatures;
* `Run.Presents`, `Run.Desists` — an attempt to activate a session, and one that is
  given up before anything is sent;
* `Run.activations_over_channel` — the law;
* `Run.unsigned_under_unknown_policy` — an activation that should have been signed.
-/

namespace OpcSession

/-- The URI of the endpoint is that of no security, or of no known policy at
all. -/
def EndpointDescription.AsksNoSignature (e : EndpointDescription) : Prop :=
  e.securityPolicyUri = SecurityPolicy.none.uri ∨
    ∀ p : SecurityPolicy, e.securityPolicyUri ≠ p.uri

/-- **The policy of a channel is none** for the URI of that policy, and for
every URI that is not known. -/
theorem Client.Channel.policy_eq_none_iff {c : Client.Channel} :
    c.policy = .none ↔ c.endpoint.AsksNoSignature := by
  unfold Client.Channel.policy EndpointDescription.AsksNoSignature
  rw [← SecurityPolicy.ofUri?_eq_some_iff, ← SecurityPolicy.ofUri?_eq_none_iff,
    EndpointDescription.securityPolicy?]
  cases SecurityPolicy.ofUri? c.endpoint.securityPolicyUri <;> simp

namespace Session

open Client

/-! ## What an activation is signed with -/

/-- What goes as the signature of the client with a session: an empty one
where the policy asks for none, and else one over the certificate of the
server followed by its nonce. -/
inductive Surroundings.Signs (s : Surroundings) (session : Session) : SignatureData → Prop
  /-- Under the policy that is none the signature is empty. -/
  | unsigned (hpolicy : s.policy = .none) : Signs s session {}
  /-- Under any other it is made over the certificate and the nonce. -/
  | signed {algorithm : String} {signature : ByteString}
      (hasks : s.policy.signatureUri = some algorithm)
      (hmade : s.sign (session.serverCertificate.bytes ++ session.serverNonce.bytes) =
        .ok signature) :
      Signs s session { algorithm := some algorithm, signature := signature }

theorem Surroundings.signs_of_clientSignature {s : Surroundings} {session : Session}
    {signature : SignatureData} (h : (s.clientSignature session).2 = .ok signature) :
    s.Signs session signature := by
  unfold clientSignature at h
  cases hpolicy : s.policy.signatureUri with
  | none =>
      simp only [hpolicy] at h
      cases h
      exact .unsigned (SecurityPolicy.signatureUri_eq_none_iff.mp hpolicy)
  | some algorithm =>
      simp only [hpolicy] at h
      cases hmade : s.sign (signedData session) with
      | error e =>
          rw [hmade] at h
          cases h
      | ok bytes =>
          rw [hmade] at h
          cases h
          exact .signed hpolicy hmade

/-- The request is one to activate a session, with a signature of the client
that the surroundings make for it. -/
def Surroundings.Asks (s : Surroundings) (session : Session) (q : Request) : Prop :=
  ∃ identity tokenSignature signature, s.Signs session signature ∧
    q = s.activateRequest session identity tokenSignature signature

namespace Machine

variable {s : Surroundings} {m : Machine} {session : Session} {owed : Owed}

/-- **What is sent to activate a session is signed**, or it is not sent. -/
theorem activate_signs (m : Machine) (owed : Owed) (awaiting : Awaiting)
    (failed : SessionError → Machine → Progress) {q : Request}
    (hsilent : ∀ e m, .call (.send q) ∉ (failed e m).effects)
    (hsent : .call (.send q) ∈ (m.activate s owed awaiting session failed).effects) :
    s.Asks session q := by
  unfold activate at hsent
  cases hfound : s.endpoint? with
  | none =>
      rw [hfound] at hsent
      exact absurd hsent (hsilent _ _)
  | some endpoint =>
      simp only [hfound] at hsent
      cases hidentified : s.identify endpoint session.serverNonce with
      | error e =>
          simp [hidentified, Progress.andThen, hsilent] at hsent
      | ok token =>
          cases hsigned : (s.clientSignature session).2 with
          | error e => simp [hidentified, hsigned, Progress.andThen, hsilent] at hsent
          | ok signature =>
              have hsame : q = s.activateRequest session token.1 token.2 signature := by
                simpa [hidentified, hsigned, Progress.andThen, waitFor] using hsent
              exact ⟨_, _, signature, Surroundings.signs_of_clientSignature hsigned, hsame⟩

/-- Nothing is sent by an attempt that fails: callers are told, and an event
is raised. -/
theorem fail_unsent (owed : Owed) (e : SessionError) (followUp : Event) (m : Machine) {c : Call} :
    .call c ∉ (m.fail s owed e followUp).effects := by
  intro hsent
  have hquiet := (fail_concludes s owed e followUp (Listeners.raiseOnly_any m.listeners)).quiet
  exact ne_call_of_quiet (hquiet _ hsent) c rfl

/-- Where a state is entered an activation is asked for only of a session that
was created. -/
theorem enter_asks {event : Event} {q : Request} {a : ActivateSession}
    (hsent : .call (.send q) ∈ (m.enter s event owed).effects)
    (hactivates : q.body = .activateSession a) : ∃ session, s.Asks session q := by
  obtain ⟨c, henters, hrun⟩ := enter_course s event owed m
  cases hst : m.state with
  | activating ws session =>
      refine ⟨session, activate_signs m owed .activateSession
        (fail s owed · .activateFailed) (fun e m => fail_unsent _ e _ m) ?_⟩
      simpa only [enter, hst] using hsent
  | _ =>
      rw [hrun] at hsent
      have hcall := (c.callsLast s owed m henters.aside).call_of_mem hsent
      rw [hst] at henters
      cases henters <;> cases hcall <;> cases hactivates

/-- Where the machine goes on after a call an activation is asked for only of
the session to be reactivated. -/
theorem resume_asks {o : Outcome} {entry : Entry} {q : Request} {a : ActivateSession}
    (hwaiting : m.entry? = some entry) (hfits : entry.awaiting.Fits m.state)
    (hsent : .call (.send q) ∈ (m.resume s o).effects) (hactivates : q.body = .activateSession a) :
    ∃ session, s.Asks session q := by
  obtain ⟨c, hresumes, hrun⟩ := resume_course s o hwaiting hfits
  obtain ⟨awaiting, owed⟩ := entry
  by_cases hagain : awaiting = .connectToReactivate
  · subst hagain
    cases hst : m.state with
    | reactivateExecute previous delay ws session =>
        refine ⟨previous, activate_signs m owed .reactivateSession
          (failReactivation s owed) (fun e m => fail_unsent _ e _ m) ?_⟩
        cases o with
        | failed e =>
            simp only [resume, hwaiting, failReactivation] at hsent
            exact absurd hsent (fail_unsent _ _ _ m)
        | _ => simpa only [resume, hwaiting, hst] using hsent
    | _ =>
        rw [hst] at hfits
        exact hfits.elim
  · rw [hrun] at hsent
    have hcall := (c.callsLast s owed m hresumes.aside).call_of_mem hsent
    generalize m.state = st at hresumes
    cases hresumes <;> cases hcall <;> first | exact absurd rfl hagain | cases hactivates

/-- A command is handled by the event that it comes to, with its caller as the
one who waits or is owed. -/
theorem obey_of_event {c : Command} {e : Event} (hevent : c.event? m = some e) :
    m.obey s c = m.handle s e c.waiter? c.owed := by
  cases c with
  | stamped e' k =>
      simp only [Command.event?] at hevent
      split at hevent <;> cases hevent
      rename_i hcurrent
      exact obey_current s m e hcurrent
  | event e' ticket =>
      cases hevent
      cases ticket <;> rfl
  | getSession t =>
      simp only [Command.event?] at hevent
      split at hevent <;> cases hevent
      rename_i hinactive
      have hnone : m.state.activeSession? = none := by simpa using hinactive
      simp only [obey, hnone]
      rfl
  | disconnect t =>
      cases hevent
      rfl

/-- To move to a state is to depart for it and to enter it. -/
theorem handle_of_moves {e : Event} {move : State.Move} {waiter : Option Ticket}
    (hmoves : m.state.transition? e = some move) :
    m.handle s e waiter owed = (m.depart s e move waiter).andThen (enter s e owed) := by
  unfold handle
  simp only [hmoves]
  rfl

/-- Where a command is taken an activation is asked for only by entering a
state. -/
theorem obey_asks {c : Command} {q : Request} {a : ActivateSession}
    (hsent : .call (.send q) ∈ (m.obey s c).effects) (hactivates : q.body = .activateSession a) :
    ∃ session, s.Asks session q := by
  rcases (m.obey_obeys s c).serves_or_moves with ⟨hserves, -⟩ | ⟨e, move, _, hevent, hmoves, -⟩
  · exact absurd rfl (ne_call_of_quiet (hserves.quiet _ hsent) _)
  · rw [obey_of_event hevent, handle_of_moves hmoves] at hsent
    rcases List.mem_append.mp hsent with hsent | hsent
    · exact absurd rfl ((m.departs s e move _).silent _ hsent _)
    · exact enter_asks hsent hactivates

end Machine

/-- What the machine finds in its surroundings, where it finds anything: it
looks at them when it gets a turn. -/
def Occurrence.surroundings? : Occurrence → Option Surroundings
  | taking s | ended s _ => some s
  | _ => none

namespace Run

variable {r r' : Run} {o : Occurrence}

/-- **Every activation that is asked for is signed** as the surroundings ask
for. -/
theorem Sound.asks {A : Prop} (h : r.Sound A) {q : Request} {a : ActivateSession}
    (hsent : .did (.call (.send q)) ∈ r.news o) (hactivates : q.body = .activateSession a) :
    ∃ s ∈ o.surroundings?, ∃ session, s.Asks session q := by
  have hbecomes := h.becomes o
  generalize hnext : r.happen o = r' at hbecomes
  cases hbecomes with
  | stays hhistory =>
      rw [Run.news, hnext, hhistory, List.drop_length] at hsent
      cases hsent
  | @takes s c rest p htaking hidle hqueue hstep hobeys =>
      rw [news_takes hnext] at hsent
      have hsent := mem_news (by simp) hsent
      rw [hstep] at hsent
      exact ⟨s, by rw [htaking]; rfl, Machine.obey_asks hsent hactivates⟩
  | @resumes s outcome entry course hended hwaiting hstep hresumes =>
      rw [news_resumes hnext] at hsent
      have hsent := mem_news (by simp) hsent
      rw [hstep] at hsent
      exact ⟨s, by rw [hended]; rfl,
        Machine.resume_asks hwaiting (h.fits entry hwaiting) hsent hactivates⟩

/-! ## Attempts to activate a session -/

/-- The machine comes to ask for the activation of a session: it takes note
that the session was created, or the connection is there over which the
session is to be reactivated. -/
inductive Presents (r : Run) (s : Surroundings) (session : Session) : Occurrence → Prop
  /-- The session has been created, and is to be activated. -/
  | created {c : Command} {rest : List Command} {ws : List Ticket}
      (hidle : r.machine.entry? = none) (hqueue : r.machine.queue = c :: rest)
      (hevent : c.event? r.machine = some .createSucceeded)
      (hcreated : r.machine.state = .creating ws (some session)) : Presents r s session (.taking s)
  /-- The session is to be activated again over a new connection. -/
  | reconnected {owed : Owed} {delay : Nat} {ws : List Ticket} {news : Option Session}
      {outcome : Outcome}
      (hwaiting : r.machine.entry? = some { awaiting := .connectToReactivate, owed := owed })
      (hlost : r.machine.state = .reactivateExecute session delay ws news)
      (hup : ∀ e, outcome ≠ .failed e) : Presents r s session (.ended s outcome)

/-- An attempt fails before anything is sent: whoever waits for a session is
told why, and the failure is raised. -/
structure Desists (r : Run) (s : Surroundings) (o : Occurrence) (e : SessionError) : Prop where
  /-- No call is made, -/
  unsent : ∀ c, .did (.call c) ∉ r.news o
  /-- all who wait are told the error, -/
  told : ∀ t ∈ r.machine.state.waiters, .did (.answered t (.session (.error e))) ∈ r.news o
  /-- and the failure is raised if anybody is left to hear of it. -/
  raised : s.attended → (r.happen o).machine.Failed

end Run

/-- The course asks for an activation, or fails for want of what it takes. -/
structure Course.Presents (s : Surroundings) (session : Session) (c : Course) : Prop where
  /-- What is done on the way concerns no caller. -/
  aside : ∀ f ∈ c.before, f.isAside
  /-- The activation is asked for, or the attempt fails for a reason. -/
  ending : (∃ awaiting q, c.ending = .waits awaiting (.send q) ∧ s.Asks session q) ∨
    ∃ e followUp, c.ending = .fails e followUp ∧ followUp.isFailure ∧ s.Refuses session e

/-- A course that fails tells whoever waits, and raises the failure as its
last act. -/
theorem Course.fails_run (s : Surroundings) (owed : Owed) (m : Machine) {c : Course}
    {e : SessionError} {followUp : Event} (hfails : c.ending = .fails e followUp)
    (hfailure : followUp.isFailure) :
    (∀ t ∈ c.state.waiters, .answered t (.session (.error e)) ∈ (c.run s owed m).effects) ∧
      (s.attended → (c.run s owed m).machine.Failed) := by
  constructor
  · intro t hwaits
    refine List.mem_append_right _ ?_
    rw [hfails]
    exact List.mem_append_left _ (List.mem_map.mpr ⟨t, hwaits, rfl⟩)
  · intro hattended
    obtain ⟨raised, -, hqueue⟩ := c.queue_run s owed (Listeners.raiseOnly_any m.listeners)
    refine ⟨followUp, hfailure, ?_⟩
    rw [Machine.Queued, c.epoch_run, hqueue, hfails]
    refine List.mem_append_right _ ?_
    simp [Ending.followUp?, Machine.outcome, hattended]

/-- To ask for an activation is one of these courses, whichever of the two
states asks. -/
theorem Machine.activate_presents (s : Surroundings) (m : Machine) (session : Session)
    (owed : Owed) (awaiting : Awaiting) (failed : SessionError → Machine → Progress)
    (hfails : ∀ e, ∃ followUp : Event, followUp.isFailure ∧
      failed e = fun m => m.fail s owed e followUp) :
    ∃ c : Course, c.state = m.state ∧ c.Presents s session ∧
      m.activate s owed awaiting session failed = c.run s owed m := by
  have hsilent : ∀ {q} e m, .call (.send q) ∉ (failed e m).effects := by
    intro q e m
    obtain ⟨followUp, -, hsame⟩ := hfails e
    rw [hsame]
    exact fail_unsent owed e followUp m
  obtain ⟨before, hhidden, ⟨e, hwhy, h⟩ | ⟨identity, tokenSignature, signature, h⟩⟩ :=
    activate_cases s m owed awaiting session failed
  · obtain ⟨followUp, hfailure, hsame⟩ := hfails e
    rw [hsame] at h
    exact ⟨{ state := m.state, before := before, ending := .fails e followUp }, rfl,
      ⟨fun f hf => aside_of_private (hhidden f hf), .inr ⟨e, followUp, rfl, hfailure, hwhy⟩⟩, h⟩
  · have hsent : .call (.send (s.activateRequest session identity tokenSignature signature)) ∈
        (m.activate s owed awaiting session failed).effects := by
      rw [h]
      exact List.mem_append_right _ List.mem_cons_self
    exact ⟨{ state := m.state, before := before, ending := .waits awaiting (.send _) }, rfl,
      ⟨fun f hf => aside_of_private (hhidden f hf),
        .inl ⟨awaiting, _, rfl, activate_signs _ _ _ _ hsilent hsent⟩⟩, h⟩

namespace Run

variable {r : Run} {o : Occurrence} {s : Surroundings} {session : Session}

/-- What comes of an attempt is what comes of its course, as far as the
history tells. -/
theorem presents_of_course {x : Happening} (fs : List Effect) {c : Course} {owed : Owed}
    {m : Machine} (hcourse : c.Presents s session) (hother : ∀ f, x ≠ .did f)
    (hsilent : ∀ f ∈ fs, ∀ call, f ≠ .call call)
    (hnews : r.news o = x :: (fs ++ (c.run s owed m).effects).map .did)
    (hafter : (r.happen o).machine = (c.run s owed m).machine)
    (hwaits : ∀ t ∈ r.machine.state.waiters, t ∈ c.state.waiters) :
    (∃ q, .did (.call (.send q)) ∈ r.news o ∧ s.Asks session q) ∨
      ∃ e, s.Refuses session e ∧ r.Desists s o e := by
  rw [hnews]
  rcases hcourse.ending with ⟨awaiting, q, hending, hasks⟩ | ⟨e, followUp, hending, hfailure, hwhy⟩
  · refine .inl ⟨q, news_of_mem (List.mem_append_right _ (List.mem_append_right _ ?_)), hasks⟩
    rw [hending]
    exact List.mem_cons_self
  · obtain ⟨htold, hraised⟩ := Course.fails_run s owed m hending hfailure
    refine .inr ⟨e, hwhy, ?_, ?_, ?_⟩
    · intro call hsent
      rw [hnews] at hsent
      rcases List.mem_append.mp (mem_news hother hsent) with hsent | hsent
      · exact hsilent _ hsent call rfl
      · have hmade := (c.callsLast s owed m hcourse.aside).call_of_mem hsent
        rw [hending] at hmade
        cases hmade
    · intro t hwaiting
      rw [hnews]
      exact news_of_mem (List.mem_append_right _ (htold t (hwaits t hwaiting)))
    · rw [hafter]
      exact hraised

/-- **Where the machine comes to ask for an activation it asks for it, or the
attempt fails before anything is sent.** -/
theorem asks_or_desists (hpresents : r.Presents s session o) :
    (∃ q, .did (.call (.send q)) ∈ r.news o ∧ s.Asks session q) ∨
      ∃ e, s.Refuses session e ∧ r.Desists s o e := by
  cases hpresents with
  | @created c rest ws hidle hqueue hevent hcreated =>
      have hnext := r.happen_taking s hidle hqueue
      have hwaiter : c.waiter? = none := by
        cases hc : c.waiter? with
        | none => rfl
        | some t => cases Machine.sessionRequested_of_waiter hevent (by rw [hc]; rfl)
      have hevent : c.event? (r.dequeue c rest).machine = some .createSucceeded := hevent
      have hmoves : (r.dequeue c rest).machine.state.transition? .createSucceeded =
          some { next := .activating ws session } := by
        show r.machine.state.transition? .createSucceeded = _
        rw [hcreated]
        rfl
      rw [Machine.obey_of_event hevent, Machine.handle_of_moves hmoves, hwaiter] at hnext
      generalize hm : (r.dequeue c rest).machine.depart s .createSucceeded
        { next := .activating ws session } none = p at hnext
      have hstate : p.machine.state = .activating ws session := by
        rw [← hm]
        simp [Machine.depart, Machine.join, Progress.andThen, Machine.move, hcreated,
          State.activeSession?]
      obtain ⟨course, hsame, hpresents, hrun⟩ := Machine.activate_presents s p.machine
        session c.owed .activateSession (Machine.fail s c.owed · .activateFailed)
        fun e => ⟨.activateFailed, rfl, rfl⟩
      have hentered :
          p.machine.enter s .createSucceeded c.owed = course.run s c.owed p.machine := by
        rw [← hrun]
        simp only [Machine.enter, hstate]
      rw [Progress.andThen, hentered] at hnext
      refine presents_of_course _ hpresents (by simp) ?_ (news_takes hnext) ?_ ?_
      · rw [← hm]
        exact (Machine.departs _ s _ _ none).silent
      · rw [hnext, machine_proceed]
      · rw [hcreated, hsame, hstate]
        exact fun t hwaits => hwaits
  | @reconnected owed delay ws news outcome hwaiting hlost hup =>
      obtain ⟨course, hsame, hpresents, hrun⟩ := Machine.activate_presents s r.machine
        session owed .reactivateSession (Machine.failReactivation s owed)
        fun e => ⟨_, by split <;> rfl, rfl⟩
      have hresumed : r.machine.resume s outcome = course.run s owed r.machine := by
        rw [← hrun]
        cases outcome with
        | failed e => exact absurd rfl (hup e)
        | _ => simp only [Machine.resume, hwaiting, hlost]
      have hnext : r.happen (.ended s outcome) =
          (r.record (.returned outcome)).proceed (course.run s owed r.machine) := by
        simp only [happen, hwaiting, hresumed]
      refine presents_of_course [] hpresents (by simp) (by simp) (news_resumes hnext) ?_ ?_
      · rw [hnext, machine_proceed]
      · rw [hsame]
        exact fun t hwaits => hwaits

end Run

/-! ## Over a channel -/

/-- What the machine finds over a channel: its endpoint, its policy, and its
key. -/
structure Surroundings.Over (c : Channel) (s : Surroundings) : Prop where
  /-- The endpoint is that of the channel, -/
  endpoint : s.endpoint? = some c.endpoint
  /-- as is its policy, -/
  policy : s.policy = c.policy
  /-- and so is the way in which it signs. -/
  sign : s.sign = Channel.sign

/-- The machine runs over a channel, whatever else it finds: endpoint, policy
and signatures are those of the channel. -/
def Occurrence.Over (c : Channel) (o : Occurrence) : Prop := ∀ s ∈ o.surroundings?, s.Over c

/-- The machine of a client runs over the channel of the client, at every
point. -/
theorem surroundings_over (r : Simulation.ClientRun) : r.surroundings.Over r.channel :=
  ⟨rfl, rfl, rfl⟩

/-- Why a channel does not sign: it is given no private key, whatever the
policy. -/
def unsignable : SessionError := .signature "no client private key configured"

section Channels

variable {c : Channel} {s : Surroundings} {session : Session}

/-- Over a channel only empty signatures come about, since it makes no
others. -/
theorem Surroundings.Over.signs (h : s.Over c) {signature : SignatureData}
    (hsigns : s.Signs session signature) : signature = {} ∧ c.endpoint.AsksNoSignature := by
  cases hsigns with
  | unsigned hpolicy => exact ⟨rfl, Channel.policy_eq_none_iff.mp (h.policy ▸ hpolicy)⟩
  | signed hasks hmade =>
      rw [h.sign] at hmade
      cases hmade

/-- Over a channel an attempt fails only for want of an identity, or of the
key to sign with where the URI of the endpoint asks for a signature. -/
theorem Surroundings.Over.refuses (h : s.Over c) {e : SessionError} (hwhy : s.Refuses session e) :
    s.identify c.endpoint session.serverNonce = .error e ∨
      (e = unsignable ∧ ¬ c.endpoint.AsksNoSignature) := by
  cases hwhy with
  | endpoint hmissing =>
      rw [h.endpoint] at hmissing
      cases hmissing
  | identity hfound hrefused =>
      rw [h.endpoint] at hfound
      cases hfound
      exact .inl hrefused
  | signature hsigns hrefused =>
      refine .inr ⟨?_, fun hnone => ?_⟩
      · rw [h.sign] at hrefused
        cases hrefused
        rfl
      · rw [h.policy, Channel.policy_eq_none_iff.mpr hnone] at hsigns
        cases hsigns

namespace Run

variable {r : Run}

/-- **Activations over a channel.**  Whatever happens to a session machine
over a channel, all activations that it asks for bear an empty signature, and
it asks for none unless the URI of the endpoint is that of no security or of
no known policy.  Where it comes to ask for one it does so, if the URI is
such; or the attempt fails at once and without a request, because there is no
identity, or because the URI is that of a policy that asks for signatures. -/
theorem activations_over_channel (h : Reachable (Occurrence.Over c) r) :
    (∀ q a, .did (.call (.send q)) ∈ r.history → q.body = .activateSession a →
      a.clientSignature = {} ∧ c.endpoint.AsksNoSignature) ∧
    ∀ s session o, s.Over c → r.Presents s session o →
      (c.endpoint.AsksNoSignature ∧ ∃ q a, .did (.call (.send q)) ∈ r.news o ∧
        q.body = .activateSession a ∧ q.header.token = session.token) ∨
      ∃ e, r.Desists s o e ∧ (s.identify c.endpoint session.serverNonce = .error e ∨
        (e = unsignable ∧ ¬ c.endpoint.AsksNoSignature)) := by
  constructor
  · have hall : r.Sound False ∧ ∀ q a, .did (.call (.send q)) ∈ r.history →
        q.body = .activateSession a → a.clientSignature = {} ∧ c.endpoint.AsksNoSignature := by
      refine Reaches.invariant (I := fun r => r.Sound False ∧
        ∀ q a, .did (.call (.send q)) ∈ r.history → q.body = .activateSession a →
          a.clientSignature = {} ∧ c.endpoint.AsksNoSignature)
        ⟨sound_start False, by simp⟩ ?_ h
      rintro r o hsuits ⟨hsound, hbefore⟩
      refine ⟨hsound.happen False.elim, ?_⟩
      intro q a hsent hactivates
      rw [history_happen] at hsent
      rcases List.mem_append.mp hsent with hold | hnew
      · exact hbefore q a hold hactivates
      · obtain ⟨s, hfound, session, identity, tokenSignature, signature, hsigns, rfl⟩ :=
          hsound.asks hnew hactivates
        cases hactivates
        exact (hsuits s hfound).signs hsigns
    exact hall.2
  · intro s session o hsuits hpresents
    rcases asks_or_desists hpresents with ⟨q, hsent, _, _, _, hsigns, rfl⟩ | ⟨e, hwhy, hdesists⟩
    · exact .inl ⟨(hsuits.signs hsigns).2, _, _, hsent, rfl, rfl⟩
    · exact .inr ⟨e, hdesists, hsuits.refuses hwhy⟩

end Run

end Channels

/-! ## An endpoint with a policy that nobody knows -/

/-- A client that was made for an endpoint with a URI as its security
policy. -/
def clientUnder (uri : String) : Simulation.ClientRun :=
  .start "ws://plant:4840" { session := { sessionName := "plant" } }
    { EndpointDescription.unsecured "opc.tcp://plant:4840" with securityPolicyUri := uri }
    .anonymous

/-- Somebody asks for a session, and one is created at this endpoint, so that
it is to be activated next. -/
def founding (uri : String) : List Occurrence :=
  let s := (clientUnder uri).surroundings
  [.asked (.getSession 0), .taking s, .ended s .done, .ended s (creation ⟨1, .numeric 7⟩)]

/-- The session that is created then, with nothing to it but its token. -/
def founded : Session :=
  .created "plant" { (default : SessionCreated) with token := ⟨1, .numeric 7⟩ }

theorem over_founding (uri : String) : ∀ o ∈ founding uri, o.Over (clientUnder uri).channel := by
  have hsuits := surroundings_over (clientUnder uri)
  simp [founding, Occurrence.Over, Occurrence.surroundings?, hsuits]

namespace Run

/-- The session that was created is to be activated, whatever the policy of
the endpoint. -/
theorem presents_founded (uri : String) :
    ((founding uri).foldl happen {}).Presents (clientUnder uri).surroundings founded
      (.taking (clientUnder uri).surroundings) :=
  have hcreated : ((founding uri).foldl happen {}).machine.state =
      .creating [0] (some founded) := rfl
  have hqueue : ((founding uri).foldl happen {}).machine.queue =
      [.stamped .createSucceeded 1] := rfl
  .created rfl hqueue rfl hcreated

/-- Where a signature is asked for the caller who waits for the session that
was created is told that it cannot be signed for. -/
theorem activations_over_channel_secured :
    let s := (clientUnder SecurityPolicy.basic256.uri).surroundings
    let r : Run := (founding SecurityPolicy.basic256.uri).foldl happen {}
    let c := (clientUnder SecurityPolicy.basic256.uri).channel
    Reachable (Occurrence.Over c) r ∧ s.Over c ∧ r.Presents s founded (.taking s) ∧
      r.machine.state.waiters = [0] ∧ r.Desists s (.taking s) unsignable := by
  intro s r c
  have hreachable : Reachable (Occurrence.Over c) r := Reaches.ofList _ (over_founding _)
  have hsuits : s.Over c := surroundings_over _
  have hpresents : r.Presents s founded (.taking s) := presents_founded _
  have hasks : ¬ c.endpoint.AsksNoSignature := by
    rintro (hnone | hunknown)
    · exact absurd (SecurityPolicy.uri_injective hnone) (by decide)
    · exact hunknown .basic256 rfl
  have hlaw := (activations_over_channel hreachable).2 s founded _ hsuits hpresents
  refine ⟨hreachable, hsuits, hpresents, rfl, ?_⟩
  rcases hlaw with ⟨hnone, -⟩ | ⟨e, hdesists, hidentity | ⟨rfl, -⟩⟩
  · exact absurd hnone hasks
  · cases hidentity
  · exact hdesists

/-- **An activation may be unsigned although the URI of the endpoint is not
that of no security**: no more is needed than a URI that is not known. -/
theorem unsigned_under_unknown_policy :
    ¬ ∀ (c : Channel) (r : Run), Reachable (Occurrence.Over c) r → ∀ q a,
      .did (.call (.send q)) ∈ r.history → q.body = .activateSession a →
      a.clientSignature.isEmpty → c.endpoint.securityPolicyUri = SecurityPolicy.none.uri := by
  intro hclaim
  let uri := "http://opcfoundation.org/UA/SecurityPolicy#Aes128_Sha256_RsaOaep"
  have hsuits : (clientUnder uri).surroundings.Over (clientUnder uri).channel := surroundings_over _
  have hunknown : (clientUnder uri).channel.endpoint.AsksNoSignature :=
    .inr fun p => by cases p <;> decide
  have hreachable : Reachable (Occurrence.Over (clientUnder uri).channel)
      (((founding uri).foldl happen {}).happen (.taking (clientUnder uri).surroundings)) :=
    .step _ (Reaches.ofList _ (over_founding uri)) fun s hfound => by
      cases hfound
      exact hsuits
  rcases asks_or_desists (presents_founded uri) with ⟨q, hsent, _, _, _, hsigns, rfl⟩ | ⟨e, hwhy, -⟩
  · obtain ⟨rfl, -⟩ := hsuits.signs hsigns
    have hsent := List.mem_append_right ((founding uri).foldl happen {}).history hsent
    rw [← history_happen] at hsent
    exact absurd (hclaim _ _ hreachable _ _ hsent rfl rfl) (by decide)
  · rcases hsuits.refuses hwhy with hidentity | ⟨-, hasks⟩
    · cases hidentity
    · exact hasks hunknown

end Run

end Session
end OpcSession
