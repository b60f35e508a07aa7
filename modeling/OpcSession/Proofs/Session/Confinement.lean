import OpcSession.Proofs.Session.Nonces

/-!
# Where a password goes

Credentials with a user name hold a password.  Two machines whose credentials differ in the
password only, to which the same happens, do the same, give the same answers and errors, and
send the same requests, but for one field: the password in a token of identity.  And such
a token is sent only to an endpoint whose first policy for user names asks for no security,
by its own URI, or by that of the endpoint where it has none.

* `UserToken.redacted`, …, `Run.redacted` — what is left when passwords are blanked;
* `Surroundings.under`, `Occurrence.under` — the same, with other credentials;
* `Machine.activate_redacted`, `Run.happen_redacted` — two machines in lockstep;
* `EndpointDescription.TakesPlainPasswords` — where a password may be sent;
* `Run.password_confined` — the law.
-/

namespace OpcSession

/-! ## What is left without passwords -/

/-- The token with its password blanked.  Only a token of a user name holds
one; all the rest of it is kept. -/
def UserToken.redacted : UserToken → UserToken
  | .userName id name _ algorithm => .userName id name .null algorithm
  | token => token

/-- The request with the password of its token blanked, if it has one. -/
def Request.redacted (q : Request) : Request :=
  match q.body with
  | .activateSession a =>
    { q with body := .activateSession { a with identity := a.identity.redacted } }
  | _ => q

/-- The token tells a user name, and the password that goes with it. -/
def UserToken.isUserName : UserToken → Bool
  | .userName _ _ _ _ => true
  | _ => false

/-- The first policy of the endpoint for user names asks for no security, by
its own URI, or by that of the endpoint where it has none. -/
def EndpointDescription.TakesPlainPasswords (e : EndpointDescription) : Prop :=
  ∃ policy, e.userIdentityTokens.find? (·.tokenType = .userName) = some policy ∧
    (policy.securityPolicyUri = some SecurityPolicy.none.uri ∨
      (policy.securityPolicyUri = none ∨ policy.securityPolicyUri = some "") ∧
        e.securityPolicyUri = SecurityPolicy.none.uri)

namespace Session

/-- The effect with the password blanked, which only a request can carry. -/
def Effect.redacted : Effect → Effect
  | .call (.send q) => .call (.send q.redacted)
  | f => f

/-- The entry of a history with the password blanked in what was done. -/
def Happening.redacted : Happening → Happening
  | .did f => .did f.redacted
  | x => x

/-- The step with the password blanked in its effects; the machine itself
holds none. -/
def Progress.redacted (p : Progress) : Progress :=
  { p with effects := p.effects.map Effect.redacted }

/-- The run with the password blanked throughout its history, as an observer
sees it who may see all but the password. -/
def Run.redacted (r : Run) : Run := { r with history := r.history.map Happening.redacted }

/-- What happens is the same, but the machine finds other credentials when it
asks for a token to present. -/
def Surroundings.under (c : Credentials) (s : Surroundings) : Surroundings :=
  { s with identify := fun endpoint _ => c.token endpoint }

/-- The same occurrence with other credentials, which matters only where the
machine gets a turn. -/
def Occurrence.under (c : Credentials) : Occurrence → Occurrence
  | taking s => taking (s.under c)
  | ended s o => ended (s.under c) o
  | o => o

/-- The run of a machine with credentials, to which the occurrences of a list
happen. -/
def Run.withCredentials (c : Credentials) (os : List Occurrence) : Run :=
  (os.map (Occurrence.under c)).foldl Run.happen {}

/-- To blank the password in two parts of a step is to blank it in the
whole. -/
@[simp] theorem Progress.redacted_andThen (p : Progress) (f : Machine → Progress) :
    (p.andThen f).redacted = p.redacted.andThen fun m => (f m).redacted := by
  simp [redacted, andThen]

/-- Steps that go on alike after a step are alike, as far as can be seen
without the password. -/
theorem Progress.andThen_congr_redacted {p : Progress} {f g : Machine → Progress}
    (hsame : ∀ m, (f m).redacted = (g m).redacted) :
    (p.andThen f).redacted = (p.andThen g).redacted := by
  rw [redacted_andThen, redacted_andThen, funext hsame]

/-! ## Two machines in lockstep -/

/-- The token and its signature, with its password blanked; where no token
could be made the error is kept. -/
def blanked (x : Except SessionError (UserToken × SignatureData)) :
    Except SessionError (UserToken × SignatureData) :=
  x.map fun token => (token.1.redacted, token.2)

namespace Machine

/-- What the machine does with a token once it has asked for one. -/
def present (s : Surroundings) (owed : Owed) (awaiting : Awaiting) (session : Session)
    (failed : SessionError → Machine → Progress) (m : Machine) :
    Except SessionError (UserToken × SignatureData) → Progress
  | .error e => { machine := m, effects := [.identified session.serverNonce] : Progress }.andThen
      (failed e)
  | .ok (identity, tokenSignature) =>
    let (data, signature) := s.clientSignature session
    let signed : Progress := {
      machine := m
      effects := .identified session.serverNonce :: data.toList.map .signed }
    match signature with
    | .error e => signed.andThen (failed e)
    | .ok signature => signed.andThen fun m =>
        m.waitFor owed awaiting
          (.send (s.activateRequest session identity tokenSignature signature))

variable (s : Surroundings) (owed : Owed) (awaiting : Awaiting) (session : Session)
  (failed : SessionError → Machine → Progress) (m : Machine)

/-- An activation asks for the endpoint first and for a token then, and
presents what it was given. -/
theorem activate_present : m.activate s owed awaiting session failed =
    match s.endpoint? with
    | none => failed .noEndpoint m
    | some endpoint =>
      m.present s owed awaiting session failed (s.identify endpoint session.serverNonce) := by
  unfold activate
  cases s.endpoint? with
  | none => rfl
  | some endpoint =>
      dsimp only
      cases s.identify endpoint session.serverNonce <;> rfl

/-- What is done with a token is the same whatever its password, which goes
into the request. -/
theorem present_redacted {x y : Except SessionError (UserToken × SignatureData)}
    (hsame : blanked x = blanked y) :
    (m.present s owed awaiting session failed x).redacted =
      (m.present s owed awaiting session failed y).redacted := by
  have hthrough : ∀ x, (m.present s owed awaiting session failed x).redacted =
      (m.present s owed awaiting session failed (blanked x)).redacted := by
    intro x
    cases x with
    | error e => rfl
    | ok token =>
        obtain ⟨identity, tokenSignature⟩ := token
        simp only [blanked, Except.map, present]
        obtain ⟨data, signature⟩ := s.clientSignature session
        cases signature with
        | error e => rfl
        | ok signature =>
            simp only [Progress.redacted_andThen]
            cases identity <;> rfl
  rw [hthrough x, hsame, ← hthrough y]

/-- To present a token the machine does not ask its credentials again, so they
can be anything from there on. -/
theorem present_under (c : Credentials) : m.present (s.under c) owed awaiting session failed =
    m.present s owed awaiting session failed := by
  funext x
  cases x <;> rfl

end Machine

section Passwords

variable {name password password' : String}

/-- **Passwords decide nothing**: whether there is a token, why there is none,
and all of the token but for the password. -/
theorem token_blanked (endpoint : EndpointDescription) :
    blanked ((Credentials.userName name password).token endpoint) =
      blanked ((Credentials.userName name password').token endpoint) := by
  unfold Credentials.token
  cases endpoint.tokenPolicy? .userName with
  | none => rfl
  | some policy =>
      dsimp only
      cases SecurityPolicy.ofUri? (Credentials.protectionUri endpoint policy) with
      | none => rfl
      | some protection => cases protection <;> rfl

namespace Machine

variable (s : Surroundings) (m : Machine)

/-- Whatever the password, an activation comes to the same but for it: the
same request is made, or the same error is met. -/
theorem activate_redacted (owed : Owed) (awaiting : Awaiting) (session : Session)
    (failed : SessionError → Machine → Progress) :
    (m.activate (s.under (.userName name password)) owed awaiting session failed).redacted =
      (m.activate (s.under (.userName name password')) owed awaiting session failed).redacted := by
  have hendpoint : ∀ c, (s.under c).endpoint? = s.endpoint? := fun _ => rfl
  rw [activate_present, activate_present, hendpoint, hendpoint]
  cases s.endpoint? with
  | none => rfl
  | some endpoint =>
      simp only [present_under]
      exact present_redacted s owed awaiting session failed m (token_blanked endpoint)

/-- A state is entered in the same way whatever the password; only the one
that activates a session asks for it at all. -/
theorem enter_redacted (event : Event) (owed : Owed) :
    (m.enter (s.under (.userName name password)) event owed).redacted =
      (m.enter (s.under (.userName name password')) event owed).redacted := by
  unfold enter
  cases m.state with
  | activating ws session => exact activate_redacted s m owed _ session _
  | _ => rfl

/-- The machine goes on after a call in the same way whatever the password;
only a new connection makes it ask. -/
theorem resume_redacted (o : Outcome) :
    (m.resume (s.under (.userName name password)) o).redacted =
      (m.resume (s.under (.userName name password')) o).redacted := by
  unfold resume
  cases m.entry? with
  | none => rfl
  | some entry =>
      obtain ⟨awaiting, owed⟩ := entry
      cases awaiting with
      | connectToReactivate =>
          cases o with
          | failed e => rfl
          | _ =>
              cases m.state with
              | reactivateExecute previous => exact activate_redacted s m owed _ previous _
              | _ => rfl
      | _ => rfl

/-- An event is handled in the same way whatever the password. -/
theorem handle_redacted (event : Event) (waiter : Option Ticket) (owed : Owed) :
    (m.handle (s.under (.userName name password)) event waiter owed).redacted =
      (m.handle (s.under (.userName name password')) event waiter owed).redacted := by
  unfold handle
  cases m.state.transition? event with
  | none => rfl
  | some move =>
      exact Progress.andThen_congr_redacted fun m => enter_redacted s m event owed

/-- A command is obeyed in the same way whatever the password. -/
theorem obey_redacted (c : Command) :
    (m.obey (s.under (.userName name password)) c).redacted =
      (m.obey (s.under (.userName name password')) c).redacted := by
  cases c with
  | stamped e k =>
      by_cases hcurrent : k = m.epoch
      · rw [obey_current _ m e hcurrent, obey_current _ m e hcurrent]
        exact handle_redacted s m e none .nobody
      · rw [obey_stale _ m e hcurrent, obey_stale _ m e hcurrent]
  | event e ticket => cases ticket <;> exact handle_redacted s m e none _
  | getSession t =>
      unfold obey
      cases m.state.activeSession? with
      | some session => rfl
      | none => exact handle_redacted s m .sessionRequested (some t) .nobody
  | disconnect t => exact handle_redacted s m .disconnectRequested none (.disconnect t)

theorem take_redacted : (m.take (s.under (.userName name password))).redacted =
    (m.take (s.under (.userName name password'))).redacted := by
  unfold take
  split
  · exact obey_redacted s _ _
  · rfl

end Machine

namespace Run

@[simp] theorem engine_redacted (r : Run) : r.redacted.engine = r.engine := rfl

@[simp] theorem history_redacted (r : Run) :
    r.redacted.history = r.history.map Happening.redacted := rfl

/-- The engine does not notice what is sent: it looks at timers and the
watcher, and a request is neither. -/
theorem redacted_proceed (r : Run) (p : Progress) :
    (r.proceed p).redacted = r.redacted.proceed p.redacted := by
  have hwatcher : ∀ (fs : List Effect) w, (fs.map Effect.redacted).foldl Engine.watcherAfter w =
      fs.foldl Engine.watcherAfter w := by
    intro fs w
    rw [List.foldl_map]
    congr 1
    funext w f
    cases f with
    | call c => cases c <;> rfl
    | _ => rfl
  have htimers : ∀ (fs : List Effect) ts, (fs.map Effect.redacted).foldl Engine.timersAfter ts =
      fs.foldl Engine.timersAfter ts := by
    intro fs ts
    rw [List.foldl_map]
    congr 1
    funext ts f
    cases f with
    | call c => cases c <;> rfl
    | _ => rfl
  apply ext_engine
  · have hleft : (r.proceed p).redacted.machine = p.machine := r.machine_proceed p
    have hright : (r.redacted.proceed p.redacted).machine = p.machine :=
      r.redacted.machine_proceed p.redacted
    exact hleft.trans hright.symm
  · simp [Progress.redacted, hwatcher]
  · simp [Progress.redacted, htimers]
  · simp [Progress.redacted, Happening.redacted]

/-- **Two machines that differ in a password keep step**: whatever happens to
both. -/
theorem happen_redacted {r r' : Run} (hsame : r.redacted = r'.redacted) (o : Occurrence) :
    (r.happen (o.under (.userName name password))).redacted =
      (r'.happen (o.under (.userName name password'))).redacted := by
  have hengine : r.engine = r'.engine := by rw [← engine_redacted r, hsame, engine_redacted]
  have hrecorded : ∀ x, (r.record x).redacted = (r'.record x).redacted := by
    intro x
    have hhistory : r.history.map Happening.redacted = r'.history.map Happening.redacted := by
      rw [← history_redacted, hsame, history_redacted]
    simp [redacted, record, hengine, hhistory]
  have haround : ∀ o, (∀ r : Run, (r.happen o).redacted = r.redacted.happen o) →
      (r.happen o).redacted = (r'.happen o).redacted := by
    intro o hblind
    rw [hblind, hsame, ← hblind]
  cases o with
  | taking s =>
      simp only [Occurrence.under, happen, machine, hengine]
      split
      · rw [redacted_proceed, redacted_proceed, hrecorded, Machine.take_redacted]
      · exact hsame
  | ended s o =>
      simp only [Occurrence.under, happen, machine, hengine]
      split
      · rw [redacted_proceed, redacted_proceed, hrecorded, Machine.resume_redacted]
      · exact hsame
  | asked c =>
      refine haround (.asked c) fun r => ?_
      cases hstamped : c.isStamped <;> simp only [happen, hstamped] <;> rfl
  | fired attended id =>
      refine haround (.fired attended id) fun r => ?_
      simp only [happen, fire, engine_redacted]
      cases r.engine.timers.waiting.find? (·.id = id) <;> rfl
  | _ => exact haround _ fun r => rfl

/-- Two runs that differ in nothing but the password are alike to the end, but
for the password itself. -/
theorem withCredentials_redacted (os : List Occurrence) :
    (withCredentials (.userName name password) os).redacted =
      (withCredentials (.userName name password') os).redacted := by
  have hstep : ∀ (os : List Occurrence) (r r' : Run), r.redacted = r'.redacted →
      ((os.map (Occurrence.under (.userName name password))).foldl happen r).redacted =
        ((os.map (Occurrence.under (.userName name password'))).foldl happen r').redacted := by
    intro os
    induction os with
    | nil => exact fun r r' hsame => hsame
    | cons o os ih => exact fun r r' hsame => ih _ _ (happen_redacted hsame o)
  exact hstep os {} {} rfl

end Run

end Passwords

/-! ## Where a password may be sent -/

/-- **A user name is presented only where its password may be sent.**  A
policy that asks for encryption makes the token an error, and nothing is
sent. -/
theorem takesPlainPasswords_of_token {c : Credentials} {e : EndpointDescription}
    {identity : UserToken} {signature : SignatureData}
    (hgiven : c.token e = .ok (identity, signature)) (htells : identity.isUserName) :
    e.TakesPlainPasswords := by
  unfold Credentials.token at hgiven
  cases c with
  | anonymous =>
      cases hfound : e.tokenPolicy? .anonymous with
      | none => simp [hfound] at hgiven
      | some policy =>
          simp only [hfound] at hgiven
          cases hgiven
          cases htells
  | userName name password =>
      cases hfound : e.tokenPolicy? .userName with
      | none => simp [hfound] at hgiven
      | some policy =>
          refine ⟨policy, hfound, Credentials.protectionUri_eq_none_iff.mp ?_⟩
          simp only [hfound] at hgiven
          cases hknown : SecurityPolicy.ofUri? (Credentials.protectionUri e policy) with
          | none => simp [hknown] at hgiven
          | some protection =>
              cases protection with
              | none => exact SecurityPolicy.ofUri?_eq_some_iff.mp hknown
              | _ => simp [hknown] at hgiven

/-- The credentials of a run are asked whenever a token of identity is
sent. -/
theorem Run.Sound.identified {A : Prop} {r : Run} {o : Occurrence} (h : r.Sound A)
    {q : Request} {a : ActivateSession} (hsent : .did (.call (.send q)) ∈ r.news o)
    (hactivates : q.body = .activateSession a) : ∃ s ∈ o.surroundings?, ∃ endpoint nonce,
      s.endpoint? = some endpoint ∧
        s.identify endpoint nonce = .ok (a.identity, a.tokenSignature) := by
  obtain ⟨s, hfound, ⟨endpoint, hcreate⟩ | ⟨session, hconcerns⟩⟩ := h.concerning hsent rfl
  · cases hcreate
    cases hactivates
  · cases hconcerns with
    | presents hpresents =>
        cases hpresents with
        | asks hknown hidentified hsigned =>
            cases hactivates
            exact ⟨s, hfound, _, _, hknown, hidentified⟩
    | closes | transfers => cases hactivates

namespace Run

variable {name : String}

/-- **A password goes nowhere but into the token that it is for.**  Whatever
happens to two machines with credentials that have the same user name,
whatever the two passwords, both end up in the same state, having moved,
answered their callers, told their listeners and sent requests alike, but for
the password in the tokens of identity.  And neither sends such a token but to
an endpoint whose first policy for user names asks for no security. -/
theorem password_confined (name : String) (os : List Occurrence) :
    (∀ password password',
      let r := withCredentials (.userName name password) os
      let r' := withCredentials (.userName name password') os
      r.engine = r'.engine ∧
        r.history.map Happening.redacted = r'.history.map Happening.redacted) ∧
    ∀ password before o after, os = before ++ o :: after → ∀ q a,
      .did (.call (.send q)) ∈ (withCredentials (.userName name password) before).news
        (o.under (.userName name password)) →
      q.body = .activateSession a → a.identity.isUserName →
      ∃ s ∈ o.surroundings?, ∃ endpoint, s.endpoint? = some endpoint ∧
        endpoint.TakesPlainPasswords := by
  constructor
  · intro password password' r r'
    have hsame : r.redacted = r'.redacted := withCredentials_redacted os
    refine ⟨?_, ?_⟩
    · rw [← engine_redacted r, hsame, engine_redacted]
    · rw [← history_redacted, hsame, history_redacted]
  · rintro password before o after rfl q a hsent hactivates htells
    have hsound : (withCredentials (.userName name password) before).Sound False := sound_foldl _
    obtain ⟨s, hfound, endpoint, nonce, hknown, hgiven⟩ := hsound.identified hsent hactivates
    cases o with
    | taking s' | ended s' _ =>
        cases hfound
        have hplain := takesPlainPasswords_of_token (c := .userName name password) hgiven htells
        exact ⟨s', rfl, endpoint, hknown, hplain⟩
    | _ => cases hfound

/-- Two machines send different passwords to the same endpoint, and do the
same otherwise. -/
theorem password_confined_sent :
    let s : Surroundings := .placid
    let before := [.asked (.getSession 7), .taking s, .ended s .done,
      .ended s (creation ⟨1, .numeric 9⟩)]
    let os : List Occurrence := before ++ [.taking s, .ended s (activation .null), .taking s]
    let r := withCredentials (.userName "operator" "sesame") os
    let r' := withCredentials (.userName "operator" "mellon") os
    r.history.filterMap Happening.request? ≠ r'.history.filterMap Happening.request? ∧
      r.engine = r'.engine ∧
      r.history.map Happening.redacted = r'.history.map Happening.redacted ∧
      (EndpointDescription.unsecured "opc.tcp://plant:4840").TakesPlainPasswords := by
  intro s before os r r'
  have hlaw := password_confined "operator" os
  have halike := hlaw.1 "sesame" "mellon"
  let session :=
    Session.created "plant" { (default : SessionCreated) with token := ⟨1, .numeric 9⟩ }
  let identity : UserToken := .userName "username" "operator" (.of "sesame".toUTF8.toList) none
  let q := s.activateRequest session identity {} {}
  have hsent : ((withCredentials (.userName "operator" "sesame") before).news
      (.taking (s.under (.userName "operator" "sesame")))).filterMap Happening.request? = [q] := by
    decide +kernel
  obtain ⟨_, hfound, _, hknown, hplain⟩ := hlaw.2 "sesame" before (.taking s) _ rfl q _
    (did_of_request (hsent ▸ List.mem_singleton_self q)) rfl rfl
  cases hfound
  cases hknown
  exact ⟨by decide +kernel, halike.1, halike.2, hplain⟩

end Run

end Session
end OpcSession
