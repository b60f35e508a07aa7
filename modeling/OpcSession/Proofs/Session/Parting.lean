import OpcSession.Proofs.Session.Callers
import OpcSession.Proofs.Session.Course
import OpcSession.Proofs.Session.Stranding

/-!
# To part from the server

A machine that rests without a session has let go of the channel: there was
never a connection, or the channel has been disconnected since.  Three ways lead
there.  A session in use is closed, and then the channel is disconnected; so is
one that was created and then abandoned; and where there is no session the
channel is disconnected alone.  Whoever asked to be disconnected is answered
only when that is done, wherever the answer comes from, and if there was a
session then, the server has been asked to close it before.

* `Parting`, `Run.Parts` — how far a machine on its way has come, by what it
  waits for;
* `Run.Attends` — where a caller who asked to be disconnected waits;
* `Run.hungUp_when_told` — the channel has been let go of before anybody is told
  that it is disconnected;
* `Run.severed_when_told` — and the session that there was has been closed.
-/

namespace OpcSession.Session

/-! ## What was said -/

/-- Whether a call connects or disconnects; requests leave the channel as it
is. -/
def Call.switches : Call → Bool
  | connect | disconnect => true
  | send _ => false

/-- A call that asks the server to close the session with a token. -/
def Call.Closes (token : NodeId) (c : Call) : Prop :=
  ∃ request, c = send request ∧ request.header.token = token ∧ request.body = .closeSession true

theorem Call.closes_closeRequest (s : Surroundings) (session : Session) :
    Closes session.token (.send (s.closeRequest session)) := ⟨_, rfl, rfl, rfl⟩

/-- The calls in a stretch of a history, the latest first, with how each of
them ended. -/
def dealings (xs : List Happening) : List Exchange := xs.foldl Happening.note []

/-- The channel was never connected, or it has been disconnected since: the
last call that switched it was to disconnect, and has ended. -/
def HungUp (xs : List Exchange) : Prop :=
  ∀ x, xs.find? (·.call.switches) = some x → x.call = .disconnect ∧ x.outcome?.isSome

/-- The channel has just been disconnected, and right before that the server
has been asked to close the session with a token, whatever came of either. -/
def Severed (token : NodeId) (xs : List Exchange) : Prop :=
  ∃ c o o' older, Call.Closes token c ∧
    xs = { call := .disconnect, outcome? := some o } :: { call := c, outcome? := some o' } :: older

theorem hungUp_disconnected (o : Outcome) (older : List Exchange) :
    HungUp ({ call := .disconnect, outcome? := some o } :: older) := by
  intro x hfound
  cases hfound
  exact ⟨rfl, rfl⟩

theorem Severed.hungUp {token : NodeId} {xs : List Exchange} (h : Severed token xs) :
    HungUp xs := by
  obtain ⟨_, o, _, _, -, rfl⟩ := h
  exact hungUp_disconnected o _

/-- The session that a state holds: one that was created or activated, that is
in use or being closed, or that is to be reactivated. -/
def State.held? : State → Option Session
  | inactive _ => none
  | creating _ created => created
  | activating _ session | active _ session | closing session _ => some session
  | reactivateDelay previous _ _ => some previous
  | reactivateExecute previous _ _ session => some (session.getD previous)

theorem State.closing_of_bare {st : State} {session : Session}
    (h : st.bare = (closing session []).bare) : ∃ cs, st = closing session cs := by
  cases st <;> cases h
  exact ⟨_, rfl⟩

theorem State.bare_of_closing {st : State} (h : st.kind = .closing) :
    ∃ session, st.bare = closing session [] := by
  cases st <;> cases h
  exact ⟨_, rfl⟩

/-! ## The calls of a step -/

theorem Machine.Obeys.callsLast {s : Surroundings} {m : Machine} {c : Command} {p : Progress}
    (h : Obeys s m c p) : ∃ c?, CallsLast c? p.effects := by
  rcases h.serves_or_moves with ⟨hserves, -⟩ | ⟨e, move, course, -, -, henters, rfl⟩
  · exact ⟨none, callsLast_of_silent fun f hf => ne_call_of_quiet (hserves.quiet f hf)⟩
  · exact ⟨_, (Course.callsLast _ _ _ henters.aside).after (m.departs s e move c.waiter?).silent⟩

namespace Run

variable {A : Prop} {r r' : Run} {o : Occurrence} {t : Ticket} {token : NodeId}

/-- What was said when an occurrence comes to what the machine does: the end
of a call is noted before the machine goes on. -/
def settled (r : Run) : Occurrence → List Exchange
  | .ended _ outcome => (r.record (.returned outcome)).exchanges
  | _ => r.exchanges

/-- **Whatever the machine does it does before it makes another call.**  A
call is the last effect of a step, so what came before an effect is what was
settled. -/
theorem Sound.dealings_at (h : r.Sound A) {pre post : List Happening} {f : Effect}
    (hnews : r.news o = pre ++ .did f :: post) :
    dealings (r.history ++ pre) = r.settled o := by
  have hcalm : ∀ (x : Happening) (fs : List Effect) (c? : Option Call), CallsLast c? fs →
      (∀ f, x ≠ .did f) → x :: fs.map Happening.did = pre ++ .did f :: post →
      dealings (r.history ++ pre) = Happening.note r.exchanges x := by
    intro x fs c? hlast hhead hsplit
    cases pre with
    | nil =>
        cases hsplit
        exact absurd rfl (hhead _)
    | cons y ys =>
        obtain ⟨rfl, hdone⟩ := List.cons.inj hsplit
        obtain ⟨before, rest, rfl, rfl, hrest'⟩ := List.map_eq_append_iff.mp hdone
        obtain ⟨f', after, rfl, hdone, -⟩ := List.map_eq_cons_iff.mp hrest'
        cases hdone
        rw [dealings, List.foldl_append, List.foldl_cons]
        exact note_quiet hlast.silent_before
  have hbecomes := h.becomes o
  generalize hnext : r.happen o = r' at hbecomes
  cases hbecomes with
  | stays hhistory =>
      rw [Run.news, hnext, hhistory, List.drop_length] at hnews
      simp at hnews
  | takes htaking hidle hqueue hstep hobeys =>
      rw [news_takes hnext] at hnews
      subst htaking
      obtain ⟨c?, hlast⟩ := hobeys.callsLast
      exact hcalm _ _ c? hlast (by simp) hnews
  | resumes hended hwaiting hstep hresumes =>
      rw [news_resumes hnext] at hnews
      subst hended
      rw [hcalm _ _ _ (Course.callsLast _ _ _ hresumes.aside) (by simp) hnews]
      show _ = dealings (r.history ++ [_])
      rw [dealings, List.foldl_append]
      rfl

end Run

/-! ## On the way -/

/-- **How far a machine has come that parts from the server**, by what it
waits for, the state without its callers, and what was said. -/
structure Parting (waits? : Option Entry) (st : State) (xs : List Exchange) : Prop where
  /-- At rest without a session the channel is hung up. -/
  rests : waits? = none → st.kind = .inactive → HungUp xs
  /-- At rest after closing, the session was closed and then the channel. -/
  closed : waits? = none → ∀ session, st = .closing session [] → Severed session.token xs
  /-- While the connection is dropped that is the last call. -/
  dropping : ∀ owed, waits? = some ⟨.dropConnection, owed⟩ →
    ∃ older, xs = { call := .disconnect } :: older
  /-- While a session is closed that is the last call. -/
  closing : ∀ owed session, waits? = some ⟨.closeSession, owed⟩ → st = .closing session [] →
    ∃ c older, Call.Closes session.token c ∧ xs = { call := c } :: older
  /-- While the connection is closed the session was closed just before. -/
  leaving : ∀ owed session, waits? = some ⟨.closeConnection, owed⟩ → st = .closing session [] →
    ∃ c o older, Call.Closes session.token c ∧
      xs = { call := .disconnect } :: { call := c, outcome? := some o } :: older
  /-- A disconnection is owed only in the two states that disconnect. -/
  owes : ∀ a t, waits? = some ⟨a, .disconnect t⟩ → st.kind = .inactive ∨ st.kind = .closing

section Parting

variable {waits? : Option Entry} {st : State} {xs : List Exchange}

/-- A state that has a session, or is on its way to one, does not part from
the server. -/
theorem parting_elsewhere (hinactive : st.kind ≠ .inactive) (hclosing : st.kind ≠ .closing)
    (hdropping : ∀ owed, waits? ≠ some ⟨.dropConnection, owed⟩)
    (howes : ∀ a t, waits? = some ⟨a, .disconnect t⟩ → st.kind = .inactive ∨ st.kind = .closing) :
    Parting waits? st xs where
  rests _ hrests := absurd hrests hinactive
  closed _ _ hst := absurd (by rw [hst]; rfl) hclosing
  dropping _ h := absurd h (hdropping _)
  closing _ _ _ hst := absurd (by rw [hst]; rfl) hclosing
  leaving _ _ _ hst := absurd (by rw [hst]; rfl) hclosing
  owes := howes

/-- A machine that rests without a session is on its way if the channel is
hung up. -/
theorem parting_rests {abandoned : Option Session} (h : HungUp xs) :
    Parting none (.inactive abandoned) xs where
  rests _ _ := h
  closed _ _ hst := nomatch hst
  dropping _ h := nomatch h
  closing _ _ h := nomatch h
  leaving _ _ h := nomatch h
  owes _ _ h := nomatch h

/-- The connection is dropped where there is no session, so only the call to
do so has to be told. -/
theorem parting_dropping {abandoned : Option Session} {owed : Owed} :
    Parting (some ⟨.dropConnection, owed⟩) (.inactive abandoned)
      ({ call := .disconnect } :: xs) where
  rests h := nomatch h
  closed h := nomatch h
  dropping _ _ := ⟨xs, rfl⟩
  closing _ _ _ hst := nomatch hst
  leaving _ _ _ hst := nomatch hst
  owes _ _ _ := .inl rfl

/-- A session that was given up before it came into use is closed. -/
theorem parting_abandoning {abandoned : Option Session} {owed : Owed} :
    Parting (some ⟨.closeAbandoned, owed⟩) (.inactive abandoned) xs where
  rests h := nomatch h
  closed h := nomatch h
  dropping _ h := nomatch h
  closing _ _ h := nomatch h
  leaving _ _ h := nomatch h
  owes _ _ _ := .inl rfl

/-- A session is closed by a request under its own token. -/
theorem parting_closing {session : Session} {owed : Owed} {c : Call}
    (hcloses : c.Closes session.token) :
    Parting (some ⟨.closeSession, owed⟩) (.closing session []) ({ call := c } :: xs) where
  rests h := nomatch h
  closed h := nomatch h
  dropping _ h := nomatch h
  closing := by
    rintro _ session' - hst
    cases hst
    exact ⟨c, xs, hcloses, rfl⟩
  leaving _ _ h := nomatch h
  owes _ _ _ := .inr rfl

/-- The connection is closed after the session, whatever the server has
answered. -/
theorem parting_leaving {session : Session} {owed : Owed} {c : Call} {o : Outcome}
    (hcloses : c.Closes session.token) :
    Parting (some ⟨.closeConnection, owed⟩) (.closing session [])
      ({ call := .disconnect } :: { call := c, outcome? := some o } :: xs) where
  rests h := nomatch h
  closed h := nomatch h
  dropping _ h := nomatch h
  closing _ _ h := nomatch h
  leaving := by
    rintro _ session' - hst
    cases hst
    exact ⟨c, o, xs, hcloses, rfl⟩
  owes _ _ _ := .inr rfl

/-- A machine rests where it has closed a session, until its own event moves
it on. -/
theorem parting_closed {session : Session} (h : Severed session.token xs) :
    Parting none (.closing session []) xs where
  rests _ hst := nomatch hst
  closed := by
    rintro - session' hst
    cases hst
    exact h
  dropping _ h := nomatch h
  closing _ _ h := nomatch h
  leaving _ _ h := nomatch h
  owes _ _ h := nomatch h

/-- The calls that a course makes, which is one at most, and has not ended
yet. -/
def Ending.exchanges (e : Ending) : List Exchange :=
  (e.call?.map fun call => { call := call }).toList

/-- What fails is an attempt to come by a session; to take leave of one goes
on whatever comes of its calls. -/
theorem Surroundings.Fails.attempts {s : Surroundings} {o : Outcome} {a : Awaiting}
    {e : SessionError} (h : s.Fails o a st e) : a.attempts := by
  cases h with
  | activation hactivating => rcases hactivating with rfl | rfl <;> rfl
  | call hattempts | nothing hattempts => exact hattempts
  | _ => rfl

theorem Awaiting.elsewhere_of_attempts {a : Awaiting} (h : a.attempts) (hfits : a.Fits st) :
    st.kind ≠ .inactive ∧ st.kind ≠ .closing := by
  cases a <;> cases h <;> cases st <;> first | exact hfits.elim | exact ⟨nofun, nofun⟩

theorem Ending.owed_of_entry? {e : Ending} {owed : Owed} {entry : Entry}
    (h : e.entry? owed = some entry) : entry.owed = owed := by
  cases e <;> cases h
  rfl

/-- **Every course of entering a state goes on to part from the server**, or
does not part from it. -/
theorem Enters.parting {s : Surroundings} {event : Event} {epoch : Nat} {c : Course} {owed : Owed}
    (h : Enters s event epoch st c)
    (hclosed : event = .disconnectSucceeded → HungUp xs)
    (howes : ∀ t, owed = .disconnect t → st.kind = .inactive ∨ st.kind = .closing) :
    Parting (c.ending.entry? owed) c.state.bare (c.ending.exchanges ++ xs) := by
  have howed : ∀ a t, c.ending.entry? owed = some ⟨a, .disconnect t⟩ →
      c.state.bare.kind = .inactive ∨ c.state.bare.kind = .closing := by
    intro a t hentry
    rw [State.kind_bare, h.kind]
    exact howes t (Ending.owed_of_entry? hentry).symm
  cases h with
  | closed hclosing => exact parting_rests (hclosed hclosing)
  | abandoned hother => exact parting_abandoning
  | givenUp hother => exact parting_dropping
  | @closing session completions => exact parting_closing (Call.closes_closeRequest s session)
  | _ => exact parting_elsewhere nofun nofun nofun howed

/-- **Every course of going on after a call goes on to part from the
server.** -/
theorem Resumes.parting {s : Surroundings} {o : Outcome} {entry : Entry} {c : Course}
    (h : Resumes s o entry.awaiting st c) (hfits : entry.awaiting.Fits st)
    (hbefore : Parting (some entry) st.bare xs) :
    Parting (c.ending.entry? entry.owed) c.state.bare
      (c.ending.exchanges ++ Happening.note xs (.returned o)) := by
  have howes : ∀ a t, c.ending.entry? entry.owed = some ⟨a, .disconnect t⟩ →
      c.state.bare.kind = .inactive ∨ c.state.bare.kind = .closing := by
    intro a t hentry
    rw [State.kind_bare, h.kind, ← State.kind_bare]
    refine hbefore.owes entry.awaiting t ?_
    rw [show Owed.disconnect t = entry.owed from Ending.owed_of_entry? hentry]
  obtain ⟨awaiting, owed⟩ := entry
  dsimp only at h hfits howes ⊢
  cases h with
  | @abandonedClosed =>
      cases st <;> simp only [Awaiting.Fits] at hfits
      exact parting_dropping
  | @dropped =>
      cases st <;> simp only [Awaiting.Fits] at hfits
      obtain ⟨older, hsaid⟩ := hbefore.dropping owed rfl
      rw [hsaid]
      exact parting_rests (hungUp_disconnected o older)
  | fails hhidden hwhy =>
      have hkinds := Awaiting.elsewhere_of_attempts hwhy.attempts hfits
      rw [← State.kind_bare] at hkinds
      exact parting_elsewhere hkinds.1 hkinds.2 (by rintro _ ⟨⟩) howes
  | @sessionClosed =>
      cases st <;> simp only [Awaiting.Fits] at hfits
      rename_i session cs
      obtain ⟨c, older, hcloses, hsaid⟩ := hbefore.closing owed session rfl rfl
      rw [hsaid]
      exact parting_leaving hcloses
  | @connectionClosed =>
      cases st <;> simp only [Awaiting.Fits] at hfits
      rename_i session cs
      obtain ⟨c, o', older, hcloses, hsaid⟩ := hbefore.leaving owed session rfl rfl
      rw [hsaid]
      exact parting_closed ⟨c, o, o', older, hcloses, rfl⟩
  | connected hup hfound | transferred =>
      cases st <;> simp only [Awaiting.Fits] at hfits
      exact parting_elsewhere (by rintro ⟨⟩) (by rintro ⟨⟩) (by rintro _ ⟨⟩) howes
  | _ => exact parting_elsewhere (by rintro ⟨⟩) (by rintro ⟨⟩) (by rintro _ ⟨⟩) howes

end Parting

/-- To enter a state in which it parts from the server a machine makes no call
only when a session has just been closed. -/
theorem Enters.closed_of_rests {s : Surroundings} {event : Event} {epoch : Nat} {st : State}
    {c : Course} (h : Enters s event epoch st c) (hcalls : c.ending.call? = none)
    (hparts : c.state.kind = .inactive ∨ c.state.kind = .closing) :
    event = .disconnectSucceeded := by
  cases h with
  | closed hclosing => exact hclosing
  | refused | lost | unmanaged | publishes | delayed =>
      rcases hparts with hparts | hparts <;> cases hparts
  | _ => cases hcalls

/-- … and after a call it makes no other there only when it has
disconnected. -/
theorem Resumes.disconnected_of_rests {s : Surroundings} {o : Outcome} {a : Awaiting} {st : State}
    {c : Course} (h : Resumes s o a st c) (hfits : a.Fits st) (hcalls : c.ending.call? = none)
    (hparts : st.kind = .inactive ∨ st.kind = .closing) :
    a = .dropConnection ∨ a = .closeConnection := by
  cases h with
  | dropped => exact .inl rfl
  | connectionClosed => exact .inr rfl
  | fails hhidden hwhy =>
      have helsewhere := Awaiting.elsewhere_of_attempts hwhy.attempts hfits
      exact absurd hparts (not_or.mpr helsewhere)
  | transferred =>
      cases st <;> rcases hparts with hparts | hparts <;> cases hparts <;> exact hfits.elim
  | created | activated | reactivated => rcases hparts with hparts | hparts <;> cases hparts
  | _ => cases hcalls

theorem disconnected_of_paid {fs : List Effect} {t : Ticket} (h : .disconnection t ∈ paid fs) :
    .answered t .disconnected ∈ fs := by
  obtain ⟨f, hf, hdue⟩ := List.mem_filterMap.mp h
  cases f with
  | answered t' a =>
      cases a <;> cases hdue
      exact hf
  | _ => cases hdue

/-- While a session is being closed it goes on being closed, with the
connection after the session. -/
theorem Resumes.closing {s : Surroundings} {o : Outcome} {a : Awaiting} {st : State} {c : Course}
    {session : Session} (h : Resumes s o a st c) (hclosing : st.bare = .closing session []) :
    c.state.bare = .closing session [] := by
  cases h <;> first | exact hclosing | cases hclosing

namespace Machine

variable {s : Surroundings} {m : Machine} {c : Command} {t : Ticket}

/-- A machine that rests without a session owes nothing: who asked for
disconnection has been told. -/
theorem dues_of_rests (hidle : m.entry? = none) (hinactive : m.state.kind = .inactive) :
    m.dues = [] := by
  rw [Run.dues_of_idle hidle]
  cases hst : m.state <;> rw [hst] at hinactive <;> cases hinactive
  rfl

/-- To join those who wait for a session disconnects nobody and tells nobody
that it did. -/
theorem join_disconnects {waiter : Option Ticket} :
    .answered t .disconnected ∉ (m.join waiter).effects := by
  intro htold
  cases waiter with
  | none => cases htold
  | some t' =>
      simp only [join, Option.elim, attach] at htold
      split at htold <;> simp at htold

/-- Whoever is told that it is disconnected by a command that is ignored asked
for it. -/
theorem ignored_disconnects
    (htold : .answered t .disconnected ∈ ((m.join c.waiter?).andThen (pay · c.owed)).effects) :
    c.owed = .disconnect t ∧ m.state.kind ≠ .closing := by
  rcases List.mem_append.mp htold with htold | htold
  · exact absurd htold join_disconnects
  · rcases mem_pay htold with ⟨-, hother⟩ | ⟨howed, -, hclosing⟩
    · cases hother
    · have hkind : (m.join c.waiter?).machine.state.kind = m.state.kind := (join_serves m _).kind
      rw [hkind] at hclosing
      exact ⟨howed, hclosing⟩

/-- Whoever is told by a move that it is disconnected waited for the session
to be closed. -/
theorem depart_disconnects {ev : Event} {move : State.Move} {waiter : Option Ticket}
    (htold : .answered t .disconnected ∈ (m.depart s ev move waiter).effects) :
    ∃ session cs, m.state = .closing session cs ∧ t ∈ cs := by
  rcases List.mem_append.mp htold with htold | htold
  · rcases mem_move htold with ⟨session, cs, hclosing, hwaits, -⟩ | ⟨-, hother⟩
    · exact ⟨session, cs, hclosing, hwaits⟩
    · cases hother
  · exact absurd htold join_disconnects

end Machine

theorem Command.disconnect_of_owed {c : Command} {t : Ticket} (h : c.owed = .disconnect t) :
    c = .disconnect t := by
  cases c with
  | event e ticket => cases ticket <;> cases h
  | disconnect t' => cases h; rfl
  | _ => cases h

namespace State

variable {st : State} {e : Event} {move : Move}

/-- Whoever asks to be disconnected moves the machine to where it parts from
the server. -/
theorem parts_of_disconnectRequested (h : st.transition? e = some move)
    (hrequested : e = .disconnectRequested) :
    move.next.kind = .inactive ∨ move.next.kind = .closing := by
  unfold transition? at h
  split at h <;> cases h <;> first | exact .inl rfl | exact .inr rfl | cases hrequested

/-- Whoever asks to be disconnected moves the machine unless it parts from the
server already. -/
theorem inactive_of_ignored (h : st.transition? .disconnectRequested = none)
    (hclosing : st.kind ≠ .closing) : st.kind = .inactive := by
  cases st with
  | inactive abandoned => rfl
  | closing session cs => exact absurd rfl hclosing
  | creating ws created => cases created <;> cases h
  | _ => cases h

/-- … and where there is a session the session is closed, or abandoned. -/
theorem next_of_held {session : Session} (hheld : st.held? = some session)
    (h : st.transition? .disconnectRequested = some move) :
    move.next = closing session [] ∨ move.next = inactive (some session) := by
  cases st with
  | inactive abandoned => cases hheld
  | creating ws created =>
      cases created <;> cases hheld
      cases h
      exact .inr rfl
  | closing session' cs => cases h
  | _ =>
      cases hheld
      cases h
      exact .inl rfl

/-- A machine that holds a session stays where it is only while it is closing
the session. -/
theorem closing_of_held {session : Session} (hheld : st.held? = some session)
    (h : st.transition? .disconnectRequested = none) : st.bare = closing session [] := by
  cases st with
  | inactive abandoned => cases hheld
  | closing session' cs => cases hheld; rfl
  | creating ws created => cases created <;> cases h
  | _ => cases h

/-- Only while a session is being closed can it be that it has been. -/
theorem closing_of_disconnectSucceeded (h : st.transition? .disconnectSucceeded = some move) :
    ∃ session cs, st = closing session cs := by
  cases st with
  | closing session cs => exact ⟨session, cs, rfl⟩
  | creating ws created => cases created <;> cases h
  | _ => cases h

end State

/-- **Whoever is told by a command that it is disconnected** is told so where
there is no session, or when a session that was being closed is closed. -/
theorem Machine.Obeys.disconnects {s : Surroundings} {m : Machine} {c : Command} {p : Progress}
    {t : Ticket} (h : Obeys s m c p) (htold : .answered t .disconnected ∈ p.effects) :
    m.state.kind = .inactive ∨
      m.state.kind = .closing ∧ ∃ e, c.event? m = some e ∧ (m.state.transition? e).isSome := by
  cases h with
  | stale hnothing => cases htold
  | given hwants hactive => cases List.mem_singleton.mp htold
  | ignored hevent hstill =>
      obtain ⟨hwants, hother⟩ := ignored_disconnects htold
      obtain rfl := Command.disconnect_of_owed hwants
      cases hevent
      exact .inl (State.inactive_of_ignored hstill hother)
  | @moves e move course hevent hmoves henters =>
      rcases List.mem_append.mp htold with htold | htold
      · obtain ⟨session, cs, hclosing, -⟩ := depart_disconnects htold
        exact .inr ⟨by rw [hclosing]; rfl, e, hevent, by rw [hmoves]; rfl⟩
      · -- Whoever is answered when a state has been entered asked for it, and
        -- the states that are entered for it begin with a call.
        obtain ⟨howed, hcalls, hother⟩ := Course.disconnects henters.aside htold
        obtain rfl := Command.disconnect_of_owed howed
        cases hevent
        have hdeparts := m.departs s .disconnectRequested move (Command.waiter? (.disconnect t))
        have hkind := henters.kind.trans (State.kind_eq_of_bare hdeparts.bare)
        rcases State.parts_of_disconnectRequested hmoves rfl with hinactive | hclosing
        · cases henters.closed_of_rests hcalls (.inl (hkind.trans hinactive))
        · exact absurd (hkind.trans hclosing) hother

/-- **Whoever is told that it is disconnected after a call** is told so when
the connection has been dropped. -/
theorem Resumes.disconnects {s : Surroundings} {o : Outcome} {a : Awaiting} {m : Machine}
    {c : Course} {owed : Owed} {t : Ticket} (h : Resumes s o a m.state c)
    (hfits : a.Fits m.state)
    (howes : owed = .disconnect t → m.state.kind = .inactive ∨ m.state.kind = .closing)
    (htold : .answered t .disconnected ∈ (c.run s owed m).effects) : a = .dropConnection := by
  obtain ⟨hwants, hcalls, hother⟩ := Course.disconnects h.aside htold
  rw [h.kind] at hother
  rcases h.disconnected_of_rests hfits hcalls (howes hwants) with hdropped | hclosed
  · exact hdropped
  · rw [hclosed] at hfits
    cases hst : m.state <;> rw [hst] at hfits hother <;>
      first | exact hfits.elim | exact absurd rfl hother

namespace Run

variable {A : Prop} {r r' : Run} {o : Occurrence} {t : Ticket} {token : NodeId}

/-- The point of a run is on its way to part with the server, or on none: what
was called so far fits the state and the call that is waited for. -/
def Parts (r : Run) : Prop := Parting r.machine.entry? r.machine.state.bare r.exchanges

theorem parts_start : Parts {} := parting_rests fun _ hfound => nomatch hfound

theorem Parts.congr (h : r.Parts) (hentry : r'.machine.entry? = r.machine.entry?)
    (hbare : r'.machine.state.bare = r.machine.state.bare)
    (hexchanges : r'.exchanges = r.exchanges) : r'.Parts := by
  rw [Parts, hentry, hbare, hexchanges]
  exact h

/-- Whoever asked to be disconnected waits where the machine parts from the
server. -/
theorem Parts.owed (h : r.Parts) {entry : Entry} (hwaiting : r.machine.entry? = some entry)
    (hwants : entry.owed = .disconnect t) :
    r.machine.state.kind = .inactive ∨ r.machine.state.kind = .closing := by
  have howes := h.owes entry.awaiting t (by rw [hwaiting, ← hwants])
  rwa [State.kind_bare] at howes

theorem Parts.serves (h : r.Parts) {p : Progress} (hp : Serves r.machine p) :
    (r.proceed p).Parts :=
  h.congr (by simpa using hp.entry) (by simpa using hp.bare) (exchanges_proceed_quiet hp.quiet)

theorem exchanges_course (s : Surroundings) (owed : Owed) {c : Course}
    (haside : ∀ f ∈ c.before, f.isAside) :
    (r.proceed (c.run s owed r.machine)).exchanges = c.ending.exchanges ++ r.exchanges := by
  obtain ⟨before, heffects, hsilent⟩ := Course.callsLast s owed r.machine haside
  rw [exchanges_proceed, heffects, List.map_append, List.foldl_append, note_quiet hsilent,
    Ending.exchanges]
  cases c.ending.call? <;> rfl

/-- A machine that has taken a course is where the course leads: its last call
is the one at the end of the course. -/
theorem parts_course {s : Surroundings} {owed : Owed} {c : Course}
    (haside : ∀ f ∈ c.before, f.isAside)
    (h : Parting (c.ending.entry? owed) c.state.bare (c.ending.exchanges ++ r.exchanges)) :
    (r.proceed (c.run s owed r.machine)).Parts := by
  rw [Parts, machine_proceed, Course.entry_run, Course.bare_run, exchanges_course s owed haside]
  exact h

/-- **Whatever happens, the machine stays on its way.**  Each course is looked
at with the call that it ends in; callers who join change nothing. -/
theorem Parts.happen (h : r.Parts) (hsound : r.Sound A) (o : Occurrence) : (r.happen o).Parts := by
  have hbecomes := hsound.becomes o
  generalize r.happen o = r' at hbecomes
  cases hbecomes with
  | stays hhistory hstate hepoch hentry hqueue =>
      exact h.congr hentry (congrArg _ hstate) (congrArg dealings hhistory)
  | @takes s c rest p htaking hidle hqueue hstep hobeys =>
      have htaken : (r.dequeue c rest).Parts := h.congr rfl rfl (exchanges_dequeue c rest)
      rcases hobeys.serves_or_moves with
        ⟨hserves, -⟩ | ⟨e, move, course, hevent, hmoves, henters, rfl⟩
      · exact htaken.serves hserves
      · have hdeparts := (r.dequeue c rest).machine.departs s e move c.waiter?
        rw [proceed_andThen]
        refine parts_course (r := (r.dequeue c rest).proceed _) henters.aside
          (henters.parting ?_ ?_)
        · rintro rfl
          obtain ⟨session, cs, hclosing⟩ := State.closing_of_disconnectSucceeded hmoves
          rw [hdeparts.exchanges]
          exact (htaken.closed hidle session (by rw [hclosing]; rfl)).hungUp
        · intro t hwants
          obtain rfl := Command.disconnect_of_owed hwants
          rw [State.kind_eq_of_bare hdeparts.bare]
          exact State.parts_of_disconnectRequested hmoves (Option.some.inj hevent).symm
  | @resumes s outcome entry course hended hwaiting hstep hresumes =>
      have hrecorded : (r.record (.returned outcome)).exchanges =
          Happening.note r.exchanges (.returned outcome) := List.foldl_append
      refine parts_course (r := r.record (.returned outcome)) hresumes.aside ?_
      rw [hrecorded]
      refine hresumes.parting (hsound.fits entry hwaiting) ?_
      rw [← hwaiting]
      exact h

/-- **Whoever is told that it is disconnected is told so by a machine that has
let go of the channel.** -/
theorem Parts.told (h : r.Parts) (hsound : r.Sound A)
    (htold : .did (.answered t .disconnected) ∈ r.news o) : HungUp (r.settled o) := by
  have hbecomes := hsound.becomes o
  generalize hnext : r.happen o = r' at hbecomes
  cases hbecomes with
  | stays hhistory =>
      rw [news, hnext, hhistory, List.drop_length] at htold
      cases htold
  | @takes s c rest p htaking hidle hqueue hstep hobeys =>
      rw [news_takes hnext] at htold
      subst htaking
      rcases hobeys.disconnects (mem_news (by simp) htold) with hinactive | ⟨hclosing, -⟩
      · exact h.rests hidle (by rw [State.kind_bare]; exact hinactive)
      · obtain ⟨session, hbare⟩ := State.bare_of_closing hclosing
        exact (h.closed hidle session hbare).hungUp
  | @resumes s outcome entry course hended hwaiting hstep hresumes =>
      rw [news_resumes hnext] at htold
      subst hended
      have hdropping := hresumes.disconnects (hsound.fits entry hwaiting) (h.owed hwaiting)
        (mem_news (by simp) htold)
      obtain ⟨older, hsaid⟩ := h.dropping entry.owed (by rw [hwaiting, ← hdropping])
      rw [settled, exchanges_returned hsaid]
      exact hungUp_disconnected outcome older

/-! ## Whoever asked to be disconnected -/

/-- **Where a caller waits who asked to be disconnected** while there was a
session: for the session to be closed, for one that was abandoned to be
closed, or for the connection to be dropped after that. -/
inductive Attends (token : NodeId) (t : Ticket) (r : Run) : Prop
  /-- The session is being closed, and the caller is among those who wait for
  it. -/
  | closing {session : Session} (hclosing : r.machine.state.bare = .closing session [])
      (hsame : session.token = token) (hwaits : .disconnection t ∈ r.machine.dues)
  /-- The session that was given up is being closed on the way to rest. -/
  | abandoning {c : Call} {older : List Exchange} (hinactive : r.machine.state.kind = .inactive)
      (hentry : r.machine.entry? = some ⟨.closeAbandoned, .disconnect t⟩)
      (hcloses : c.Closes token) (hsaid : r.exchanges = { call := c } :: older)
  /-- It has been closed, and the connection is being dropped. -/
  | dropping {c : Call} {o : Outcome} {older : List Exchange}
      (hinactive : r.machine.state.kind = .inactive)
      (hentry : r.machine.entry? = some ⟨.dropConnection, .disconnect t⟩)
      (hcloses : c.Closes token)
      (hsaid : r.exchanges =
        { call := .disconnect } :: { call := c, outcome? := some o } :: older)

theorem Attends.congr (h : r.Attends token t) (hstate : r'.machine.state = r.machine.state)
    (hentry : r'.machine.entry? = r.machine.entry?) (hexchanges : r'.exchanges = r.exchanges) :
    r'.Attends token t := by
  cases h with
  | closing hclosing hsame hwaits =>
      exact .closing (by rwa [hstate]) hsame (by rwa [Machine.dues, hstate, hentry])
  | abandoning hinactive hwaits hcloses hsaid =>
      exact .abandoning (by rwa [hstate]) (hentry.trans hwaits) hcloses (hexchanges.trans hsaid)
  | dropping hinactive hwaits hcloses hsaid =>
      exact .dropping (by rwa [hstate]) (hentry.trans hwaits) hcloses (hexchanges.trans hsaid)

/-- A session is closed, or one that was abandoned is, for a caller who asked
to be disconnected. -/
theorem attends_of_enters {s : Surroundings} {epoch : Nat} {session : Session} {course : Course}
    {move : State.Move}
    (hnext : move.next = .closing session [] ∨ move.next = .inactive (some session))
    (hbare : r.machine.state.bare = move.next.bare)
    (henters : Enters s .disconnectRequested epoch r.machine.state course) :
    (r.proceed (course.run s (.disconnect t) r.machine)).Attends session.token t := by
  have hexchanges := exchanges_course (r := r) s (.disconnect t) henters.aside
  rcases hnext with hnext | hnext
  · rw [hnext] at hbare
    obtain ⟨cs, hst⟩ := State.closing_of_bare hbare
    rw [hst] at henters
    cases henters
    refine .closing ?_ rfl ?_
    · rw [machine_proceed, Course.bare_run]
      rfl
    · rw [machine_proceed, Machine.dues, Course.entry_run]
      exact List.mem_append_right _ (List.mem_singleton.mpr rfl)
  · rw [hnext] at hbare
    have hst : r.machine.state = .inactive (some session) := by
      cases hst : r.machine.state <;> rw [hst] at hbare <;> cases hbare
      rfl
    rw [hst] at henters
    cases henters with
    | closed hclosing => cases hclosing
    | abandoned hother =>
        refine .abandoning ?_ ?_ (Call.closes_closeRequest s session) hexchanges
        · rw [machine_proceed, Course.kind_run]
          rfl
        · rw [machine_proceed, Course.entry_run]
          rfl

/-- Whoever asks to be disconnected while there is a session waits then, until
the session and the channel are closed. -/
theorem attends_of_asked {s : Surroundings} {rest : List Command} {session : Session}
    (hidle : r.machine.entry? = none) (hqueue : r.machine.queue = .disconnect t :: rest)
    (hheld : r.machine.state.held? = some session) :
    (r.happen (.taking s)).Attends session.token t := by
  have hpays := (r.dequeue (.disconnect t) rest).machine.obey_pays s (.disconnect t) hidle
  have hobeys := (r.dequeue (.disconnect t) rest).machine.obey_obeys s (.disconnect t)
  have hdue := hpays.balance.mem_iff.mpr (List.mem_append_right _ (List.mem_singleton.mpr rfl))
  rw [r.happen_taking s hidle hqueue]
  generalize (r.dequeue (.disconnect t) rest).machine.obey s (.disconnect t) = p at hdue hobeys
  cases hobeys with
  | stale hnothing => cases hnothing
  | given hwants => cases hwants
  | ignored hevent hstill =>
      cases hevent
      have hclosing := State.closing_of_held hheld hstill
      have hserves := Machine.ignored_serves (r.dequeue (.disconnect t) rest).machine
        (Command.waiter? (.disconnect t)) (Command.owed (.disconnect t))
      refine .closing (by rw [machine_proceed]; exact hserves.bare.trans hclosing) rfl ?_
      rw [machine_proceed]
      refine (List.mem_append.mp hdue).resolve_left fun hpaid => ?_
      refine (Machine.ignored_disconnects (disconnected_of_paid hpaid)).2 ?_
      rw [← State.kind_bare, machine_dequeue, hclosing]
      rfl
  | @moves e move course hevent hmoves henters =>
      cases hevent
      have hdeparts := (r.dequeue (.disconnect t) rest).machine.departs s .disconnectRequested move
        (Command.waiter? (.disconnect t))
      have hbare := hdeparts.bare
      rw [← machine_proceed (r.dequeue (.disconnect t) rest)] at hbare henters
      rw [proceed_andThen]
      exact attends_of_enters (State.next_of_held hheld hmoves) hbare henters

/-- Whoever waits while a session is being closed is told when the machine
moves on. -/
theorem Attends.takes {s : Surroundings} {c : Command} {rest : List Command} {p : Progress}
    (h : r.Attends token t) (hidle : r.machine.entry? = none)
    (hstep : p = (r.dequeue c rest).machine.obey s c)
    (hobeys : (r.dequeue c rest).machine.Obeys s c p) :
    .answered t .disconnected ∈ p.effects ∨ ((r.dequeue c rest).proceed p).Attends token t := by
  cases h with
  | abandoning _ hwaiting | dropping _ hwaiting =>
      rw [hidle] at hwaiting
      cases hwaiting
  | @closing session hclosing hsame hwaits =>
      have hpays := (r.dequeue c rest).machine.obey_pays s c hidle
      rw [← hstep] at hpays
      rw [dues_of_idle hidle] at hwaits
      have hdue := hpays.balance.mem_iff.mpr (List.mem_append_left _ hwaits)
      rcases hobeys.serves_or_moves with ⟨hserves, -⟩ | ⟨e, move, course, -, -, -, rfl⟩
      · refine (List.mem_append.mp hdue).imp disconnected_of_paid fun hdue => ?_
        refine .closing (by rw [machine_proceed]; exact hserves.bare.trans hclosing) hsame ?_
        rwa [machine_proceed]
      · refine .inl (List.mem_append_left _ (Machine.mem_depart (List.mem_append_left _ ?_)))
        obtain ⟨cs, hst⟩ := State.closing_of_bare hclosing
        rw [machine_dequeue, hst]
        rw [hst] at hwaits
        exact disconnected_of_paid (by rw [Machine.leave_balanced]; exact hwaits)

/-- Whoever waits is told when the connection has been dropped after the
session was abandoned, or waits on. -/
theorem Attends.resumes {s : Surroundings} {outcome : Outcome} {entry : Entry} {course : Course}
    (h : r.Attends token t) (hwaiting : r.machine.entry? = some entry)
    (hstep : course.run s entry.owed r.machine = r.machine.resume s outcome)
    (hresumes : Resumes s outcome entry.awaiting r.machine.state course) :
    .answered t .disconnected ∈ (course.run s entry.owed r.machine).effects ∨
      ((r.record (.returned outcome)).proceed
        (course.run s entry.owed r.machine)).Attends token t := by
  have hanswers := r.machine.resume_answers s outcome hwaiting
  rw [← hstep] at hanswers
  have hexchanges :=
    exchanges_course (r := r.record (.returned outcome)) s entry.owed hresumes.aside
  have howing : .disconnection t ∈ r.machine.state.dues ++ entry.owed.due?.toList →
      .answered t .disconnected ∈ (course.run s entry.owed r.machine).effects ∨
        .disconnection t ∈ (course.run s entry.owed r.machine).machine.dues :=
    fun hwaits => (List.mem_append.mp (hanswers.balance.mem_iff.mpr hwaits)).imp_left
      disconnected_of_paid
  cases h with
  | @closing session hclosing hsame hwaits =>
      rw [Machine.dues, hwaiting] at hwaits
      refine (howing hwaits).imp_right fun hdue => ?_
      refine .closing ?_ hsame (by rwa [machine_proceed])
      rw [machine_proceed, Course.bare_run]
      exact hresumes.closing hclosing
  | @abandoning c older hinactive hwaits hcloses hsaid =>
      cases hwaiting.symm.trans hwaits
      cases hresumes with
      | fails hhidden hwhy => cases hwhy.attempts
      | abandonedClosed =>
          rw [exchanges_returned hsaid] at hexchanges
          refine .inr (.dropping ?_ ?_ hcloses hexchanges)
          · rw [machine_proceed, Course.kind_run]
            exact hinactive
          · rw [machine_proceed, Course.entry_run]
            rfl
  | dropping hinactive hwaits hcloses hsaid =>
      cases hwaiting.symm.trans hwaits
      cases hresumes with
      | fails hhidden hwhy => cases hwhy.attempts
      | dropped =>
          refine (howing (List.mem_append_right _ (List.mem_singleton.mpr rfl))).imp_right
            fun hdue => ?_
          rw [Machine.dues_of_rests Course.entry_run (Course.kind_run.trans hinactive)] at hdue
          cases hdue

/-- **Whoever waits to be disconnected is told that it is, or waits on.** -/
theorem Attends.happen (h : r.Attends token t) (hsound : r.Sound A) :
    .did (.answered t .disconnected) ∈ r.news o ∨ (r.happen o).Attends token t := by
  have hbecomes := hsound.becomes o
  generalize hnext : r.happen o = r' at hbecomes
  cases hbecomes with
  | stays hhistory hstate hepoch hentry hqueue =>
      exact .inr (h.congr hstate hentry (congrArg dealings hhistory))
  | takes htaking hidle hqueue hstep hobeys =>
      rw [news_takes hnext]
      exact (h.takes hidle hstep hobeys).imp_left news_of_mem
  | resumes hended hwaiting hstep hresumes =>
      rw [news_resumes hnext]
      exact (h.resumes hwaiting hstep hresumes).imp_left news_of_mem

/-- **Whoever waited is told when its session and the channel are closed.**
The answer is given in the same step that ends the last of the calls. -/
theorem Attends.told (h : r.Attends token t) (hsound : r.Sound A) (hparts : r.Parts)
    (htold : .did (.answered t .disconnected) ∈ r.news o) : Severed token (r.settled o) := by
  have hbecomes := hsound.becomes o
  generalize hnext : r.happen o = r' at hbecomes
  cases hbecomes with
  | stays hhistory =>
      rw [news, hnext, hhistory, List.drop_length] at htold
      cases htold
  | @takes s c rest p htaking hidle hqueue hstep hobeys =>
      subst htaking
      cases h with
      | closing hclosing hsame hwaits =>
          rw [← hsame]
          exact hparts.closed hidle _ hclosing
      | abandoning _ hwaiting | dropping _ hwaiting =>
          rw [hidle] at hwaiting
          cases hwaiting
  | @resumes s outcome entry course hended hwaiting hstep hresumes =>
      rw [news_resumes hnext] at htold
      subst hended
      have hfits := hsound.fits entry hwaiting
      have hawaiting := hresumes.disconnects hfits (hparts.owed hwaiting) (mem_news (by simp) htold)
      cases h with
      | closing hclosing hsame hwaits =>
          obtain ⟨cs, hst⟩ := State.closing_of_bare hclosing
          rw [hawaiting, hst] at hfits
          exact hfits.elim
      | abandoning hinactive hwaits hcloses hsaid =>
          rw [hwaits] at hwaiting
          cases hwaiting
          cases hawaiting
      | @dropping c o' older hinactive hwaits hcloses hsaid =>
          rw [settled, exchanges_returned hsaid]
          exact ⟨c, outcome, o', older, hcloses, rfl⟩

/-- Whoever asks to be disconnected while there is a session is not told at
once that it is. -/
theorem not_told_of_asked {s : Surroundings} {rest : List Command} {session : Session}
    (hidle : r.machine.entry? = none) (hqueue : r.machine.queue = .disconnect t :: rest)
    (hheld : r.machine.state.held? = some session) :
    .did (.answered t .disconnected) ∉ r.news (.taking s) := by
  intro htold
  rw [news_takes (r.happen_taking s hidle hqueue)] at htold
  have hobeys := (r.dequeue (.disconnect t) rest).machine.obey_obeys s (.disconnect t)
  rcases hobeys.disconnects (mem_news (by simp) htold) with
    hinactive | ⟨hclosing, e, hevent, hmoves⟩
  · have hinactive : r.machine.state.kind = .inactive := hinactive
    cases hst : r.machine.state <;> rw [hst] at hinactive hheld <;> cases hinactive
    cases hheld
  · have hclosing : r.machine.state.kind = .closing := hclosing
    cases hevent
    rw [machine_dequeue] at hmoves
    cases hst : r.machine.state <;> rw [hst] at hclosing hmoves <;> cases hclosing
    cases hmoves

/-! ## All along a run -/

/-- An entry of a history that is no news was there before, with the same
entries in front of it. -/
theorem history_split {before after : List Happening} {x : Happening}
    (hsplit : (r.happen o).history = before ++ x :: after) :
    (∃ after', r.history = before ++ x :: after') ∨
      ∃ pre, before = r.history ++ pre ∧ r.news o = pre ++ x :: after := by
  rw [history_happen] at hsplit
  rcases List.append_eq_append_iff.mp hsplit with ⟨pre, rfl, hnews⟩ | ⟨more, hhistory, hnews⟩
  · exact .inr ⟨pre, rfl, hnews⟩
  · cases more with
    | nil => exact .inr ⟨[], by rw [hhistory, List.append_nil, List.append_nil], hnews.symm⟩
    | cons y more =>
        cases hnews
        exact .inl ⟨more, hhistory⟩

theorem parts_of_reachable {P : Occurrence → Prop} (h : Reachable P r) :
    r.Sound False ∧ r.Parts :=
  Reaches.invariant (I := fun r => r.Sound False ∧ r.Parts) ⟨sound_start False, parts_start⟩
    (fun _ o _ h => ⟨h.1.happen False.elim, h.2.happen h.1 o⟩) h

/-- **Whenever a caller is told that it is disconnected the machine has let go
of the channel.** -/
theorem hungUp_when_told {P : Occurrence → Prop} (h : Reachable P r)
    {before after : List Happening}
    (hsplit : r.history = before ++ .did (.answered t .disconnected) :: after) :
    HungUp (dealings before) := by
  have halong : (r.Sound False ∧ r.Parts) ∧ ∀ before after,
      r.history = before ++ .did (.answered t .disconnected) :: after →
      HungUp (dealings before) := by
    refine Reaches.invariant (I := fun r => (r.Sound False ∧ r.Parts) ∧ ∀ before after,
      r.history = before ++ .did (.answered t .disconnected) :: after →
      HungUp (dealings before)) ⟨⟨sound_start False, parts_start⟩, by simp⟩ ?_ h
    rintro r o - ⟨⟨hsound, hparts⟩, hpast⟩
    refine ⟨⟨hsound.happen False.elim, hparts.happen hsound o⟩, ?_⟩
    intro before after hsplit
    rcases history_split hsplit with ⟨after', hhistory⟩ | ⟨pre, rfl, hnews⟩
    · exact hpast before after' hhistory
    · rw [hsound.dealings_at hnews]
      exact hparts.told hsound (hnews ▸ List.mem_append_right _ List.mem_cons_self)
  exact halong.2 before after hsplit

/-- **The first time that a caller is told so who asked for it while there was
a session, that session has been closed before.** -/
theorem severed_when_told {P : Occurrence → Prop} {r₀ : Run} {s₀ : Surroundings}
    {rest : List Command} {session : Session} (h : Reachable P r₀)
    (hidle : r₀.machine.entry? = none) (hqueue : r₀.machine.queue = .disconnect t :: rest)
    (hheld : r₀.machine.state.held? = some session)
    (hlater : Reaches P (r₀.happen (.taking s₀)) r) {pre post : List Happening}
    (hsplit : r.history = (r₀.history ++ pre) ++ .did (.answered t .disconnected) :: post)
    (hfirst : .did (.answered t .disconnected) ∉ pre) :
    Severed session.token (dealings (r₀.history ++ pre)) := by
  have hstart := parts_of_reachable h
  have halong : (r.Sound False ∧ r.Parts) ∧
      (∃ xs, r.history = r₀.history ++ xs ∧
        (.did (.answered t .disconnected) ∉ xs → r.Attends session.token t)) ∧
      ∀ pre post, r.history = (r₀.history ++ pre) ++ .did (.answered t .disconnected) :: post →
        .did (.answered t .disconnected) ∉ pre →
        Severed session.token (dealings (r₀.history ++ pre)) := by
    refine Reaches.invariant (I := fun r => (r.Sound False ∧ r.Parts) ∧
      (∃ xs, r.history = r₀.history ++ xs ∧
        (.did (.answered t .disconnected) ∉ xs → r.Attends session.token t)) ∧
      ∀ pre post, r.history = (r₀.history ++ pre) ++ .did (.answered t .disconnected) :: post →
        .did (.answered t .disconnected) ∉ pre →
        Severed session.token (dealings (r₀.history ++ pre))) ⟨?_, ?_, ?_⟩ ?_ hlater
    · exact ⟨hstart.1.happen False.elim, hstart.2.happen hstart.1 _⟩
    · exact ⟨_, r₀.history_happen _, fun _ => attends_of_asked hidle hqueue hheld⟩
    · intro pre post hsplit _
      rw [history_happen, List.append_assoc, List.append_cancel_left_eq] at hsplit
      refine absurd ?_ (not_told_of_asked hidle hqueue hheld (s := s₀) (t := t))
      rw [hsplit]
      exact List.mem_append_right _ List.mem_cons_self
    · rintro r o - ⟨⟨hsound, hparts⟩, ⟨xs, hhistory, hattends⟩, hpast⟩
      refine ⟨⟨hsound.happen False.elim, hparts.happen hsound o⟩, ?_, ?_⟩
      · refine ⟨xs ++ r.news o, by rw [history_happen, hhistory, List.append_assoc], ?_⟩
        intro huntold
        rw [List.mem_append, not_or] at huntold
        exact ((hattends huntold.1).happen hsound).resolve_left huntold.2
      · intro pre post hsplit hfirst
        rcases history_split hsplit with ⟨post', hhistory'⟩ | ⟨pre', hwhole, hnews⟩
        · exact hpast pre post' hhistory' hfirst
        · rw [hhistory, List.append_assoc, List.append_cancel_left_eq] at hwhole
          rw [hwhole, List.mem_append, not_or] at hfirst
          rw [hwhole, ← List.append_assoc, ← hhistory, hsound.dealings_at hnews]
          exact (hattends hfirst.1).told hsound hparts
            (hnews ▸ List.mem_append_right _ List.mem_cons_self)
  exact halong.2.2 pre post hsplit hfirst

end Run

end OpcSession.Session
