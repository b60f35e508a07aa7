import OpcSession.Proofs.Session.Parting
import OpcSession.Proofs.Session.Provenance

/-!
# What becomes of every session that was created

A server keeps a session for a client until the client closes it or the server
gives it up by itself, so a client that forgets a session leaves it behind.
The machine hands a session from state to state, where it goes under different
names, and a caller who asks for disconnection may overtake any outcome.  Still
every session that a server said it created is accounted for: the machine holds
it, or has asked the server to close it, or learnt that it cannot be used.  And
what the machine has asked the server to close does not come into use again.

A session is known here by the answer in which it was created, since nothing
keeps a server from giving two of them one token.

* `Creation` — an answer in a history in which a session was created;
* `Run.InHand` — the session of a creation is the one that the machine holds;
* `GivenUp`, `Ended` — how the machine parts with it;
* `Run.Onward` — what a step does with the session that is held;
* `Run.created_sessions_accounted` — the law.
-/

namespace OpcSession.Session

/-! ## The sessions that were created -/

/-- The session that a server created, after any number of activations: each
replaces the nonce, and nothing else of the session changes. -/
def Continues (name : String) (created : SessionCreated) (session : Session) : Prop :=
  session = (Session.created name created).withNonce session.serverNonce

/-- The token is that of the creation, by which the server knows the
session. -/
theorem Continues.token {name : String} {created : SessionCreated} {session : Session}
    (h : session.Continues name created) : session.token = created.token := by
  rw [h]
  rfl

theorem continues_created (name : String) (created : SessionCreated) :
    (Session.created name created).Continues name created := rfl

theorem Continues.withNonce {name : String} {created : SessionCreated} {session : Session}
    (h : session.Continues name created) (nonce : ByteString) :
    (session.withNonce nonce).Continues name created := by
  rw [Continues, h]
  rfl

theorem Continues.reactivated {name : String} {created : SessionCreated} {session : Session}
    (h : session.Continues name created) (nonce : ByteString) :
    (session.reactivated name nonce).Continues name created := by
  rw [Continues, h]
  rfl

/-- An answer in a history: what came before it and after it, and the session
that it tells of. -/
structure Creation where
  /-- What had happened before the answer. -/
  before : List Happening
  answer : Outcome
  since : List Happening
  /-- The session that the server says it created. -/
  created : SessionCreated

/-- The answer ends a request to create a session, and the server says that it
did. -/
structure Creation.In (x : Creation) (xs : List Happening) : Prop where
  /-- The history is what was before the answer, the answer and what came
  since. -/
  split : xs = x.before ++ .returned x.answer :: x.since
  /-- The call that it answers asked for a session. -/
  asked : ∃ c older, dealings x.before = { call := c } :: older ∧ c.creates
  /-- The answer says which session was created. -/
  created : x.answer.created? = some x.created

/-- The creation as it is seen later: more has happened since, and the rest is
past. -/
def Creation.later (x : Creation) (news : List Happening) : Creation :=
  { x with since := x.since ++ news }

namespace Creation

variable {x y : Creation} {xs news : List Happening}

theorem In.later (h : x.In xs) (news : List Happening) : (x.later news).In (xs ++ news) where
  split := by
    rw [h.split, List.append_assoc]
    rfl
  asked := h.asked
  created := h.created

/-- An answer creates one session, so two creations at the same place are the
same. -/
theorem In.eq_of_before (hx : x.In xs) (hy : y.In xs) (hsame : x.before.length = y.before.length) :
    x = y := by
  obtain ⟨before, answer, since, created⟩ := x
  obtain ⟨before', answer', since', created'⟩ := y
  have hsplit := hx.split.symm.trans hy.split
  obtain ⟨rfl, hrest⟩ := List.append_inj hsplit hsame
  cases hrest
  cases hx.created.symm.trans hy.created
  rfl

theorem In.before_lt (h : x.In xs) : x.before.length < xs.length := by
  rw [h.split, List.length_append, List.length_cons]
  omega

end Creation

/-! ## How the machine parts with a session -/

/-- The kinds of states that keep a session for use; to close a session is not
to keep it. -/
def Kind.keeps : Kind → Bool
  | activating | active | reactivateDelay | reactivateExecute => true
  | _ => false

/-- The events after which a session cannot be used any more: its first
activation failed, or the server does not know it. -/
def Event.ends : Event → Bool
  | activateFailed | sessionInvalid | reactivateInvalid => true
  | _ => false

/-- All moves in a stretch of a history lead to where the session is kept. -/
def Kept (xs : List Happening) : Prop :=
  ∀ t ∈ xs.filterMap Happening.transition?, t.target.keeps

/-- In a stretch of a history the server is not asked to close any session. -/
def Unclosed (xs : List Happening) : Prop :=
  ∀ c, .did (.call c) ∈ xs → ∀ token, ¬ c.Closes token

/-- The session was kept until somebody asked for disconnection, and before
the machine moved again it asked the server to close the session. -/
def GivenUp (token : NodeId) (xs : List Happening) : Prop :=
  ∃ mid t more c rest, xs = mid ++ .did (.published t) :: (more ++ .did (.call c) :: rest) ∧
    Kept mid ∧ t.event = .disconnectRequested ∧ (∀ y ∈ more, ¬ y.isMove) ∧ c.Closes token

/-- The session was kept until it could not be used any more: its activation
failed, or the server did not know it. -/
def Ended (xs : List Happening) : Prop :=
  ∃ mid t rest, xs = mid ++ .did (.published t) :: rest ∧ Kept mid ∧ t.event.ends

section Stretches

variable {xs ys : List Happening} {token : NodeId}

theorem Kept.append (hx : Kept xs) (hy : Kept ys) : Kept (xs ++ ys) := by
  intro t ht
  rw [List.filterMap_append, List.mem_append] at ht
  exact ht.elim (hx t) (hy t)

theorem Unclosed.append (hx : Unclosed xs) (hy : Unclosed ys) : Unclosed (xs ++ ys) := by
  intro c hc
  exact (List.mem_append.mp hc).elim (hx c) (hy c)

theorem GivenUp.before (hx : Kept xs) (h : GivenUp token ys) : GivenUp token (xs ++ ys) := by
  obtain ⟨mid, t, more, c, rest, rfl, hkept, hleaves⟩ := h
  exact ⟨xs ++ mid, t, more, c, rest, (List.append_assoc ..).symm, hx.append hkept, hleaves⟩

theorem GivenUp.after (h : GivenUp token xs) (ys : List Happening) : GivenUp token (xs ++ ys) := by
  obtain ⟨mid, t, more, c, rest, rfl, hleaves⟩ := h
  exact ⟨mid, t, more, c, rest ++ ys, by simp, hleaves⟩

/-- Whoever gives a session up asks the server to close it, before the machine
does anything else. -/
theorem GivenUp.closes (h : GivenUp token xs) : ∃ c, .did (.call c) ∈ xs ∧ c.Closes token := by
  obtain ⟨mid, t, more, c, rest, rfl, -, -, -, hcloses⟩ := h
  exact ⟨c, by simp, hcloses⟩

theorem Ended.before (hx : Kept xs) (h : Ended ys) : Ended (xs ++ ys) := by
  obtain ⟨mid, t, rest, rfl, hkept, hends⟩ := h
  exact ⟨xs ++ mid, t, rest, (List.append_assoc ..).symm, hx.append hkept, hends⟩

theorem Ended.after (h : Ended xs) (ys : List Happening) : Ended (xs ++ ys) := by
  obtain ⟨mid, t, rest, rfl, hkept, hends⟩ := h
  exact ⟨mid, t, rest ++ ys, by simp, hkept, hends⟩

end Stretches

/-- A step that makes no call to close a session closes none. -/
theorem unclosed_step {x : Happening} {fs : List Effect} {c? : Option Call}
    (hother : ∀ f, x ≠ .did f) (hlast : CallsLast c? fs)
    (hunclosing : ∀ c ∈ c?, ∀ token, ¬ c.Closes token) : Unclosed (x :: fs.map Happening.did) := by
  intro c hc
  exact hunclosing c (hlast.call_of_mem (Run.mem_news hother hc))

/-! ## The session that is kept -/

namespace State

/-- The session that a state holds for use, which leaves out the one that is
being closed. -/
def kept? : State → Option Session
  | closing _ _ => none
  | st => st.held?

variable {st st' : State} {e : Event} {move : Move} {session : Session}

theorem kept?_bare (st : State) : st.bare.kept? = st.kept? := by
  cases st <;> rfl

theorem kept?_of_bare (h : st.bare = st'.bare) : st.kept? = st'.kept? := by
  rw [← kept?_bare st, h, kept?_bare]

theorem kept?_of_active (h : st.activeSession? = some session) : st.kept? = some session := by
  cases st <;> first | exact h | cases h

/-- Before the server has answered no session is kept, so an answer cannot
replace one. -/
theorem kept?_of_creating (hfits : Awaiting.createSession.Fits st) : st.kept? = none := by
  cases st <;> first | exact hfits.elim | exact hfits

/-- No move makes a session: where none is kept, none is kept after a move. -/
theorem kept?_none_of_transition? (hnothing : st.kept? = none) (h : st.transition? e = some move) :
    move.next.kept? = none := by
  unfold transition? at h
  split at h <;> cases h <;> first | rfl | cases hnothing

/-- **A move keeps the session**, or it is one for disconnection that gives
the session up, or one after which the session cannot be used. -/
theorem kept?_of_transition? {name : String} {created : SessionCreated}
    (hkept : st.kept? = some session) (hcontinues : session.Continues name created)
    (hallowed : e.Ordinary ∨ st.Raises e) (h : st.transition? e = some move) :
    (move.next.kind.keeps ∧
        ∃ session', move.next.kept? = some session' ∧ session'.Continues name created) ∨
      (e = .disconnectRequested ∧
        (move.next = closing session [] ∨ move.next = inactive (some session))) ∨
      (e.ends ∧ move.next.kept? = none) := by
  unfold transition? at h
  split at h <;> cases h <;> cases hkept
  case h_2 | h_5 | h_9 | h_14 | h_15 => exact .inl ⟨rfl, _, rfl, hcontinues⟩
  case h_3 => exact .inr (.inl ⟨rfl, .inr rfl⟩)
  case h_7 | h_8 | h_13 | h_18 => exact .inr (.inl ⟨rfl, .inl rfl⟩)
  case h_6 | h_10 | h_17 => exact .inr (.inr ⟨rfl, rfl⟩)
  case h_4 => rcases hallowed with (hclaimed | hclaimed) | hclaimed <;> cases hclaimed
  case h_16 previous delay ws reactivated =>
    cases reactivated with
    | none => exact .inl ⟨rfl, _, rfl, hcontinues⟩
    | some _ => rcases hallowed with (hclaimed | hclaimed) | hclaimed <;> cases hclaimed

end State

section Courses

variable {s : Surroundings} {event : Event} {epoch : Nat} {o : Outcome} {a : Awaiting} {st : State}
  {c : Course} {session : Session} {name : String} {created : SessionCreated}

/-- To enter a state changes nothing about the session that is kept; only
answers of the server do. -/
theorem Enters.kept? (h : Enters s event epoch st c) : c.state.kept? = st.kept? := by
  cases h <;> rfl

theorem Course.kept?_run {owed : Owed} {m : Machine} :
    (c.run s owed m).machine.state.kept? = c.state.kept? :=
  State.kept?_of_bare bare_run

/-- The session that is kept when the machine has moved and entered the
state. -/
theorem Enters.kept?_moved {m : Machine} {move : State.Move} {waiter : Option Ticket} (owed : Owed)
    (h : Enters s event epoch (m.depart s event move waiter).machine.state c) :
    ((m.depart s event move waiter).andThen (c.run s owed)).machine.state.kept? =
      move.next.kept? := by
  have hdeparts := m.departs s event move waiter
  exact Course.kept?_run.trans (h.kept?.trans (State.kept?_of_bare hdeparts.bare))

/-- To enter a state that keeps a session nothing is closed: an abandoned
session is closed where none is kept. -/
theorem Enters.unclosing (h : Enters s event epoch st c) (hkeeps : st.kind.keeps) :
    ∀ call ∈ c.ending.call?, ∀ token, ¬ call.Closes token := by
  rintro call hmade token hcloses
  obtain ⟨request, rfl, -, hbody⟩ := hcloses
  cases h with
  | activating | transfers => cases hmade; cases hbody
  | closed | abandoned | closing => cases hkeeps
  | _ => cases hmade

/-- To enter a state on behalf of one who asks for disconnection the session
that there was is closed. -/
theorem Enters.closes (h : Enters s .disconnectRequested epoch st c)
    (hparts : st.bare = .closing session [] ∨ st.bare = .inactive (some session)) :
    ∃ call, c.ending.call? = some call ∧ call.Closes session.token := by
  cases h with
  | closed hclosing => cases hclosing
  | abandoned | closing =>
      rcases hparts with hparts | hparts <;> cases hparts
      exact ⟨_, rfl, Call.closes_closeRequest s session⟩
  | _ => rcases hparts with hparts | hparts <;> cases hparts

/-- **After a call the session that is kept is kept on**, with another nonce
perhaps, and nothing is closed. -/
theorem Resumes.keeps (h : Resumes s o a st c) (hfits : a.Fits st)
    (hnamed : s.settings.sessionName = name) (hkept : st.kept? = some session)
    (hcontinues : session.Continues name created) :
    (∃ session', c.state.kept? = some session' ∧ session'.Continues name created) ∧
      ∀ call ∈ c.ending.call?, ∀ token, ¬ call.Closes token := by
  cases h with
  | abandonedClosed | dropped | sessionClosed | connectionClosed =>
      cases st <;> first | exact hfits.elim | cases hkept
  | connected =>
      cases st <;> simp only [Awaiting.Fits] at hfits
      cases hfits
      cases hkept
  | created => cases hfits; cases hkept
  | fails => exact ⟨⟨session, hkept, hcontinues⟩, by rintro call ⟨⟩⟩
  | transferred => exact ⟨⟨session, hkept, hcontinues⟩, by rintro call ⟨⟩⟩
  | @activated ws session nonce =>
      cases hkept
      exact ⟨⟨session.withNonce nonce, rfl, hcontinues.withNonce nonce⟩, by rintro call ⟨⟩⟩
  | reconnected =>
      refine ⟨⟨session, hkept, hcontinues⟩, ?_⟩
      rintro call hmade token ⟨request, rfl, -, hbody⟩
      cases hmade
      cases hbody
  | @reactivated previous delay ws session nonce =>
      cases hfits
      cases hkept
      rw [hnamed]
      exact ⟨⟨previous.reactivated name nonce, rfl,
        hcontinues.reactivated nonce⟩, by rintro call ⟨⟩⟩

/-- **A session comes only from the answer of a server that created it.** -/
theorem Resumes.created_of_kept (h : Resumes s o a st c) (hnothing : st.kept? = none)
    (hkept : c.state.kept? = some session) :
    a = .createSession ∧ ∃ created, o.created? = some created := by
  cases h with
  | created hanswered =>
      obtain ⟨created, hanswer, -⟩ := Run.created?_of_createdSession hanswered
      exact ⟨rfl, created, hanswer⟩
  | activated | reactivated => cases hnothing
  | _ => cases hnothing.symm.trans hkept

/-- **Every session that a server creates is kept.**  The state comes by it at
once, and no call is made on which it could be lost. -/
theorem Resumes.keeps_created (h : Resumes s o .createSession st c)
    (hnamed : s.settings.sessionName = name) (hanswer : o.created? = some created) :
    c.ending.call? = none ∧
      ∃ session, c.state.kept? = some session ∧ session.Continues name created := by
  cases h with
  | fails hhidden hwhy =>
      cases hwhy with
      | creation hother =>
          rename_i r
          obtain ⟨header, body⟩ := r
          cases body <;> cases hanswer
          cases hother
      | activation hactivating =>
          rcases hactivating with hactivating | hactivating <;> cases hactivating
      | _ => cases hanswer
  | created hanswered =>
      obtain ⟨created', hanswer', hsame⟩ := Run.created?_of_createdSession hanswered
      cases hanswer.symm.trans hanswer'
      rw [hnamed] at hsame
      exact ⟨rfl, _, rfl, hsame ▸ continues_created name created⟩

end Courses

/-! ## What a step does with the session -/

namespace Run

variable {A : Prop} {name : String} {created : SessionCreated} {session : Session} {r : Run}
  {o : Occurrence}

/-- **What a step does with the session that the machine keeps**: it keeps it
on, gives it up, or learns that it cannot be used. -/
inductive Onward (name : String) (created : SessionCreated) (st : State) (news : List Happening) :
    Prop
  /-- It keeps the session, perhaps with another nonce, and closes nothing. -/
  | keeps {session : Session} (hkept : st.kept? = some session)
      (hcontinues : session.Continues name created) (hstill : Kept news) (hunclosed : Unclosed news)
  /-- Somebody asked for disconnection, and the session is being closed. -/
  | givenUp (hgone : st.kept? = none) (hcloses : GivenUp created.token news)
  /-- The session cannot be used any more, and none is kept. -/
  | ended (hgone : st.kept? = none) (hends : Ended news)

/-- A command that is taken is ordinary, or an event that the state raised. -/
theorem Genuine.allowed (h : r.Genuine name) (hsound : r.Sound A) {c : Command}
    {rest : List Command} {e : Event} (hqueue : r.machine.queue = c :: rest)
    (hevent : c.event? r.machine = some e) : e.Ordinary ∨ r.machine.state.Raises e := by
  have hqueued : c ∈ r.machine.queue := hqueue ▸ List.mem_cons_self
  cases c with
  | stamped e' k =>
      obtain ⟨rfl, hsame⟩ := Option.ite_none_right_eq_some.mp hevent
      cases hsame
      exact .inr (hsound.raises hqueued)
  | event e' ticket =>
      cases hevent
      exact .inl (h.events e ticket hqueued)
  | getSession t =>
      cases (Option.ite_none_left_eq_some.mp hevent).2
      exact .inl (.inl rfl)
  | disconnect t =>
      cases hevent
      exact .inl (.inr rfl)

/-- A step that moves once has done something before the move and something
after it. -/
theorem published_once {fs : List Effect} {t : Transition}
    (hmoved : fs.filterMap Effect.published? = [t]) :
    ∃ fore more, fs = fore ++ .published t :: more ∧ (∀ t', .published t' ∉ fore) ∧
      ∀ t', .published t' ∉ more := by
  obtain ⟨fore, f, more, rfl, hstill, this, hafter⟩ := List.filterMap_eq_cons_iff.mp hmoved
  refine ⟨fore, more, ?_, fun t' ht' => ?_, fun t' ht' => ?_⟩
  · cases f <;> cases this
    rfl
  · cases hstill _ ht'
  · cases List.filterMap_eq_nil_iff.mp hafter _ ht'

theorem givenUp_step {x : Happening} {fs : List Effect} {t : Transition} {c : Call}
    {token : NodeId} (hother : ∀ f, x ≠ .did f) (hlast : CallsLast (some c) fs)
    (hmoved : fs.filterMap Effect.published? = [t]) (hrequested : t.event = .disconnectRequested)
    (hcloses : c.Closes token) : GivenUp token (x :: fs.map Happening.did) := by
  obtain ⟨before, rfl, -⟩ := hlast
  rw [List.filterMap_append] at hmoved
  have hnothing : ((some c).map Effect.call).toList.filterMap Effect.published? = [] := rfl
  rw [hnothing, List.append_nil] at hmoved
  obtain ⟨fore, more, rfl, hstill, hafter⟩ := published_once hmoved
  refine ⟨x :: fore.map .did, t, more.map .did, c, [], by simp, ?_, hrequested, ?_, hcloses⟩
  · intro t' ht'
    rw [transition?_step hother, published_eq_nil hstill] at ht'
    cases ht'
  · rintro y hy
    obtain ⟨f, hf, rfl⟩ := List.mem_map.mp hy
    cases f with
    | published t' => exact absurd hf (hafter t')
    | _ => simp [Happening.isMove]

/-- A step by an event that ends a session has ended it. -/
theorem ended_step {x : Happening} {fs : List Effect} {t : Transition} (hother : ∀ f, x ≠ .did f)
    (hmoved : fs.filterMap Effect.published? = [t]) (hends : t.event.ends) :
    Ended (x :: fs.map Happening.did) := by
  obtain ⟨fore, more, rfl, hstill, -⟩ := published_once hmoved
  refine ⟨x :: fore.map .did, t, more.map .did, by simp, ?_, hends⟩
  intro t' ht'
  rw [transition?_step hother, published_eq_nil hstill] at ht'
  cases ht'

/-- **Every command does one of the three.**  The table of moves says which,
by where it leads from a state that keeps a session. -/
theorem Genuine.onward_takes (h : r.Genuine name) (hsound : r.Sound A) {s : Surroundings}
    {c : Command} {rest : List Command} {p : Progress}
    (hkept : r.machine.state.kept? = some session) (hcontinues : session.Continues name created)
    (hqueue : r.machine.queue = c :: rest) (hstep : p = (r.dequeue c rest).machine.obey s c)
    (hobeys : (r.dequeue c rest).machine.Obeys s c p) :
    Onward name created p.machine.state (.taken c :: p.effects.map .did) := by
  have hother : ∀ f, Happening.taken c ≠ .did f := by simp
  have hpublished := (r.dequeue c rest).machine.obey_published s c
  rw [← hstep] at hpublished
  rcases hobeys.serves_or_moves with ⟨hserves, -⟩ | ⟨e, move, course, hevent, hmoves, henters, rfl⟩
  · refine .keeps (by rw [State.kept?_of_bare hserves.bare]; exact hkept) hcontinues ?_ ?_
    · intro t ht
      rw [transition?_step hother, published_quiet hserves.quiet] at ht
      cases ht
    · exact unclosed_step hother
        (callsLast_of_silent fun f hf => ne_call_of_quiet (hserves.quiet f hf))
        (by simp)
  · have hdeparts := (r.dequeue c rest).machine.departs s e move c.waiter?
    have hlast := (Course.callsLast s c.owed ((r.dequeue c rest).machine.depart s e move
      c.waiter?).machine henters.aside).after hdeparts.silent
    have honce : ((((r.dequeue c rest).machine.depart s e move c.waiter?).andThen
        (course.run s c.owed)).effects.filterMap Effect.published?) =
        [⟨r.machine.state.kind, e, move.next.kind⟩] := by
      rw [hpublished, hevent, Option.map_some, Option.getD_some, State.published, hmoves]
      rfl
    have hnext := henters.kept?_moved c.owed
    rcases State.kept?_of_transition? hkept hcontinues (h.allowed hsound hqueue hevent) hmoves with
      ⟨hkeeps, session', hkept', hcontinues'⟩ | ⟨rfl, hparts⟩ | ⟨hends, hgone⟩
    · refine .keeps (hnext.trans hkept') hcontinues' ?_ (unclosed_step hother hlast ?_)
      · intro t ht
        rw [transition?_step hother, honce] at ht
        cases List.mem_singleton.mp ht
        exact hkeeps
      · exact henters.unclosing (by rw [State.kind_eq_of_bare hdeparts.bare]; exact hkeeps)
    · have hgone : move.next.kept? = none := by
        rcases hparts with hparts | hparts <;> rw [hparts] <;> rfl
      have hbare : ((r.dequeue c rest).machine.depart s .disconnectRequested move
          c.waiter?).machine.state.bare = .closing session [] ∨
          ((r.dequeue c rest).machine.depart s .disconnectRequested move
            c.waiter?).machine.state.bare = .inactive (some session) := by
        rw [hdeparts.bare]
        exact hparts.imp (congrArg State.bare) (congrArg State.bare)
      obtain ⟨call, hmade, hcloses⟩ := henters.closes hbare
      rw [hmade] at hlast
      rw [hcontinues.token] at hcloses
      exact .givenUp (hnext.trans hgone) (givenUp_step hother hlast honce rfl hcloses)
    · exact .ended (hnext.trans hgone) (ended_step hother honce hends)

/-- **Whatever happens does one of the three.**  What is no command and no end
of a call changes nothing about the session. -/
theorem Genuine.onward (h : r.Genuine name) (hsound : r.Sound A) (hordinary : o.Ordinary name)
    (hkept : r.machine.state.kept? = some session) (hcontinues : session.Continues name created) :
    Onward name created (r.happen o).machine.state (r.news o) := by
  have hbecomes := hsound.becomes o
  generalize hnext : r.happen o = r' at hbecomes
  cases hbecomes with
  | stays hhistory hstate =>
      have hnothing : r.news o = [] := by rw [news, hnext, hhistory, List.drop_length]
      rw [hnothing, hstate]
      exact .keeps hkept hcontinues (fun t ht => by cases ht) (fun c hc => by cases hc)
  | takes htaking hidle hqueue hstep hobeys =>
      rw [news_takes hnext, machine_proceed]
      exact h.onward_takes hsound hkept hcontinues hqueue hstep hobeys
  | @resumes s outcome entry course hended hwaiting hstep hresumes =>
      subst hended
      rw [news_resumes hnext, machine_proceed]
      have hother : ∀ f, Happening.returned outcome ≠ .did f := by simp
      obtain ⟨⟨session', hkept', hcontinues'⟩, hunclosing⟩ :=
        hresumes.keeps (hsound.fits entry hwaiting) hordinary hkept hcontinues
      refine .keeps (Course.kept?_run.trans hkept') hcontinues' ?_
        (unclosed_step hother (Course.callsLast s entry.owed r.machine hresumes.aside) hunclosing)
      intro t ht
      rw [transition?_step hother, hstep,
        Machine.resume_published s r.machine outcome hwaiting] at ht
      cases ht

/-! ## Whose session the machine holds -/

/-- **The session of a creation is the one that the machine holds for use.**
It is the one created last, all moves since have kept it, and nothing has been
closed. -/
structure InHand (name : String) (r : Run) (x : Creation) : Prop where
  /-- The machine holds what has become of it, -/
  held : ∃ session, r.machine.state.kept? = some session ∧ session.Continues name x.created
  /-- no session has been created after it, -/
  latest : ∀ y : Creation, y.In r.history → y.before.length ≤ x.before.length
  /-- all moves since have kept it, -/
  kept : Kept x.since
  /-- and the server has been asked to close none. -/
  unclosed : Unclosed x.since

/-- What a call came to stands first in what the machine makes of it. -/
theorem returned_first {x : Happening} {fs : List Effect} {pre since : List Happening}
    {outcome : Outcome} (hnews : x :: fs.map Happening.did = pre ++ .returned outcome :: since) :
    pre = [] ∧ x = .returned outcome ∧ since = fs.map .did := by
  cases pre with
  | nil =>
      cases hnews
      exact ⟨rfl, rfl, rfl⟩
  | cons y pre =>
      have hdid : .returned outcome ∈ fs.map Happening.did := by
        rw [(List.cons.inj hnews).2]
        exact List.mem_append_right pre List.mem_cons_self
      obtain ⟨f, -, heq⟩ := List.mem_map.mp hdid
      cases heq

/-- The sessions that were created by the time that something has happened are
those that had been before, and perhaps one that the machine then holds. -/
theorem Genuine.creation_cases (h : r.Genuine name) (hsound : r.Sound A)
    (hordinary : o.Ordinary name) {y : Creation} (hy : y.In (r.happen o).history) :
    (∃ x : Creation, x.In r.history ∧ y = x.later (r.news o)) ∨
      (y.before = r.history ∧ r.machine.state.kept? = none ∧ Kept y.since ∧ Unclosed y.since ∧
        ∃ session, (r.happen o).machine.state.kept? = some session ∧
          session.Continues name y.created) := by
  obtain ⟨before, answer, since, created⟩ := y
  obtain ⟨hsplit, hasked, htells⟩ := hy
  dsimp only at hsplit hasked htells ⊢
  rcases history_split hsplit with ⟨after, hhistory⟩ | ⟨pre, rfl, hcame⟩
  · refine .inl ⟨⟨before, answer, after, created⟩, ⟨hhistory, hasked, htells⟩, ?_⟩
    rw [history_happen, hhistory, List.append_assoc, List.append_cancel_left_eq] at hsplit
    obtain rfl := (List.cons.inj hsplit).2
    rfl
  · right
    have hbecomes := hsound.becomes o
    generalize hnext : r.happen o = r' at hbecomes
    cases hbecomes with
    | stays hhistory =>
        rw [news, hnext, hhistory, List.drop_length] at hcame
        exact absurd hcame (by simp)
    | takes htaking hidle hqueue hstep hobeys =>
        rw [news_takes hnext] at hcame
        cases (returned_first hcame).2.1
    | @resumes s outcome entry course hended hwaiting hstep hresumes =>
        subst hended
        rw [news_resumes hnext] at hcame
        obtain ⟨rfl, hsame, rfl⟩ := returned_first hcame
        cases hsame
        rw [List.append_nil] at hasked ⊢
        obtain ⟨c, older, hasking, hcreates⟩ := hasked
        obtain ⟨c', older', hpending, hasks⟩ := h.pending entry hwaiting
        cases hasking.symm.trans hpending
        have hfits := hsound.fits entry hwaiting
        rw [createSession_of_asks hasks hcreates] at hresumes hfits
        obtain ⟨hrests, session, hkept, hcontinues⟩ := hresumes.keeps_created hordinary htells
        refine ⟨rfl, State.kept?_of_creating hfits, ?_, ?_, session, ?_, hcontinues⟩
        · intro t ht
          rw [transition?_did, hstep, Machine.resume_published s r.machine answer hwaiting] at ht
          cases ht
        · have hlast := Course.callsLast s entry.owed r.machine hresumes.aside
          rw [hrests] at hlast
          have hunclosed := unclosed_step (x := .returned answer) (by simp) hlast (by simp)
          exact fun c hc => hunclosed c (List.mem_cons_of_mem _ hc)
        · rw [machine_proceed, Course.kept?_run]
          exact hkept

/-- A session that the machine comes to keep was created just now: there is no
other way to come by one. -/
theorem Genuine.creation_of_kept (h : r.Genuine name) (hsound : r.Sound A)
    (hnothing : r.machine.state.kept? = none)
    (hkept : (r.happen o).machine.state.kept? = some session) :
    ∃ y : Creation, y.In (r.happen o).history ∧ y.before = r.history := by
  have hbecomes := hsound.becomes o
  generalize r.happen o = r' at hbecomes hkept
  cases hbecomes with
  | stays hhistory hstate =>
      rw [hstate, hnothing] at hkept
      cases hkept
  | @takes s c rest p htaking hidle hqueue hstep hobeys =>
      rw [machine_proceed] at hkept
      rcases hobeys.serves_or_moves with
        ⟨hserves, -⟩ | ⟨e, move, course, hevent, hmoves, henters, rfl⟩
      · cases hnothing.symm.trans ((State.kept?_of_bare hserves.bare).symm.trans hkept)
      · rw [henters.kept?_moved c.owed, State.kept?_none_of_transition? hnothing hmoves] at hkept
        cases hkept
  | @resumes s outcome entry course hended hwaiting hstep hresumes =>
      rw [machine_proceed, Course.kept?_run] at hkept
      obtain ⟨hcreating, created, hanswer⟩ := hresumes.created_of_kept hnothing hkept
      obtain ⟨c, older, hpending, hasks⟩ := h.pending entry hwaiting
      rw [hcreating] at hasks
      refine ⟨⟨r.history, outcome, (course.run s entry.owed r.machine).effects.map .did, created⟩,
        ⟨?_, ⟨c, older, hpending, hasks⟩, hanswer⟩, rfl⟩
      rw [history_proceed, history_record, List.append_assoc]
      rfl

/-! ## The invariant -/

/-- **The invariant of the sessions that were created.**  What became of each,
and where the one that is held comes from. -/
structure Custody (name : String) (r : Run) : Prop where
  /-- Each is held, or was given up and closed, or came to its end. -/
  fates : ∀ x : Creation, x.In r.history →
    r.InHand name x ∨ GivenUp x.created.token x.since ∨ Ended x.since
  /-- What is held was created by the server. -/
  origin : ∀ session, r.machine.state.kept? = some session →
    ∃ x : Creation, x.In r.history ∧ r.InHand name x

/-- When the machine starts no session has been created, and none is held. -/
theorem custody_start (name : String) : Custody name {} where
  fates x hx := absurd hx.split (by simp)
  origin _ hkept := nomatch hkept

/-- Nothing is created while a session is held, so the one that is held stays
the latest. -/
theorem Genuine.latest (h : r.Genuine name) (hsound : r.Sound A) (hordinary : o.Ordinary name)
    (hkept : r.machine.state.kept? = some session) {x : Creation}
    (hlatest : ∀ y : Creation, y.In r.history → y.before.length ≤ x.before.length) :
    ∀ y : Creation, y.In (r.happen o).history → y.before.length ≤ x.before.length := by
  intro y hy
  rcases h.creation_cases hsound hordinary hy with ⟨y', hy', rfl⟩ | ⟨-, hnothing, -⟩
  · exact hlatest y' hy'
  · cases hkept.symm.trans hnothing

/-- **A session that is held is held on, given up, or learnt to be of no
use.** -/
theorem InHand.happen {x : Creation} (hinHand : r.InHand name x) (h : r.Genuine name)
    (hsound : r.Sound A) (hordinary : o.Ordinary name) :
    (r.happen o).InHand name (x.later (r.news o)) ∨
      (r.happen o).machine.state.kept? = none ∧
        (GivenUp x.created.token (x.since ++ r.news o) ∨ Ended (x.since ++ r.news o)) := by
  obtain ⟨session, hkept, hcontinues⟩ := hinHand.held
  cases h.onward hsound hordinary hkept hcontinues with
  | keeps hkept' hcontinues' hstill hunclosed =>
      exact .inl {
        held := ⟨_, hkept', hcontinues'⟩
        latest := h.latest hsound hordinary hkept hinHand.latest
        kept := hinHand.kept.append hstill
        unclosed := hinHand.unclosed.append hunclosed }
  | givenUp hgone hcloses => exact .inr ⟨hgone, .inl (hcloses.before hinHand.kept)⟩
  | ended hgone hends => exact .inr ⟨hgone, .inr (hends.before hinHand.kept)⟩

/-- A session that has just been created is held, and is the latest. -/
theorem Genuine.inHand_of_new (h : r.Genuine name) (hsound : r.Sound A)
    (hordinary : o.Ordinary name)
    {y : Creation} (hy : y.In (r.happen o).history) (hnew : y.before = r.history) :
    (r.happen o).InHand name y := by
  rcases h.creation_cases hsound hordinary hy with
    ⟨x, hx, rfl⟩ | ⟨-, hnothing, hkept, hunclosed, hheld⟩
  · exact absurd (congrArg List.length hnew) (Nat.ne_of_lt hx.before_lt)
  · refine ⟨hheld, ?_, hkept, hunclosed⟩
    intro y' hy'
    rw [hnew]
    rcases h.creation_cases hsound hordinary hy' with ⟨x', hx', rfl⟩ | ⟨hsame, -⟩
    · exact Nat.le_of_lt hx'.before_lt
    · exact Nat.le_of_eq (congrArg List.length hsame)

/-- **Whatever happens, every session that was created stays accounted for.**
The one that is held meets one of the three ends of a step; the others have
met theirs. -/
theorem Custody.happen (hcustody : r.Custody name) (h : r.Genuine name) (hsound : r.Sound A)
    (hordinary : o.Ordinary name) : (r.happen o).Custody name where
  fates := by
    intro y hy
    rcases h.creation_cases hsound hordinary hy with ⟨x, hx, rfl⟩ | ⟨hnew, -⟩
    · rcases hcustody.fates x hx with hinHand | hcloses | hends
      · exact (hinHand.happen h hsound hordinary).imp id And.right
      · exact .inr (.inl (hcloses.after _))
      · exact .inr (.inr (hends.after _))
    · exact .inl (h.inHand_of_new hsound hordinary hy hnew)
  origin := by
    intro session' hkept'
    cases hkept : r.machine.state.kept? with
    | none =>
        obtain ⟨y, hy, hnew⟩ := h.creation_of_kept hsound hkept hkept'
        exact ⟨y, hy, h.inHand_of_new hsound hordinary hy hnew⟩
    | some session =>
        obtain ⟨x, hx, hinHand⟩ := hcustody.origin session hkept
        rcases hinHand.happen h hsound hordinary with hinHand' | ⟨hgone, -⟩
        · refine ⟨x.later (r.news o), ?_, hinHand'⟩
          rw [history_happen]
          exact hx.later _
        · cases hgone.symm.trans hkept'

/-! ## The law -/

/-- **No session that was created is forgotten, and none that was closed comes
back.**  Every session that the server created is the one that the machine
holds, or the server was asked to close it when somebody asked for
disconnection, or it came to be of no use: its first activation failed, or the
server did not know it any more.  A session in use is the one that was created
last, and since then the server has not been asked to close any.  So when a
session that the server was asked to close has been followed by one in use,
that one was created later. -/
theorem created_sessions_accounted (h : Reachable (Occurrence.Ordinary name) r) :
    (∀ x : Creation, x.In r.history →
      r.InHand name x ∨ GivenUp x.created.token x.since ∨ Ended x.since) ∧
    (∀ session, r.machine.state.activeSession? = some session →
      ∃ x : Creation, x.In r.history ∧ r.InHand name x ∧ session.Continues name x.created) ∧
    ∀ x : Creation, x.In r.history →
      ∀ c, .did (.call c) ∈ x.since → c.Closes x.created.token →
      ∀ session, r.machine.state.activeSession? = some session →
        ∃ y : Creation, y.In r.history ∧ r.InHand name y ∧ x.before.length < y.before.length := by
  have hall : r.Sound False ∧ r.Genuine name ∧ r.Custody name :=
    Reaches.invariant (I := fun r => r.Sound False ∧ r.Genuine name ∧ r.Custody name)
      ⟨sound_start False, genuine_start name, custody_start name⟩
      (fun r o hordinary h => ⟨h.1.happen False.elim, h.2.1.happen h.1 hordinary,
        h.2.2.happen h.2.1 h.1 hordinary⟩) h
  obtain ⟨-, -, hcustody⟩ := hall
  refine ⟨hcustody.fates, ?_, ?_⟩
  · intro session hactive
    have hkept := State.kept?_of_active hactive
    obtain ⟨x, hx, hinHand⟩ := hcustody.origin session hkept
    obtain ⟨session', hkept', hcontinues⟩ := hinHand.held
    cases hkept.symm.trans hkept'
    exact ⟨x, hx, hinHand, hcontinues⟩
  · intro x hx c hasked hcloses session hactive
    obtain ⟨y, hy, hinHand⟩ := hcustody.origin session (State.kept?_of_active hactive)
    refine ⟨y, hy, hinHand, Nat.lt_of_le_of_ne (hinHand.latest x hx) fun hsame => ?_⟩
    cases hx.eq_of_before hy hsame
    exact hinHand.unclosed c hasked _ hcloses

/-- Somebody asks for disconnection while a session is being created, and then
another session is opened, which the server gives the same token. -/
def overtaking (token : NodeId) : List Occurrence :=
  let s : Surroundings := .placid
  [.asked (.getSession 7), .taking s, .asked (.disconnect 8), .ended s .done,
    .ended s (creation token), .taking s, .ended s .done, .ended s .done, .taking s] ++
    opening 9 token .null

/-- The session that was overtaken has been closed, the other is in use,
though the server gave both the same token. -/
theorem created_sessions_accounted_overtaking :
    let r : Run := (overtaking ⟨1, .numeric 9⟩).foldl Run.happen {}
    ∃ x y : Creation, x.In r.history ∧ y.In r.history ∧ x.created.token = y.created.token ∧
      GivenUp x.created.token x.since ∧ r.InHand "plant" y ∧ r.machine.state.kind = .active ∧
      x.before.length < y.before.length := by
  intro r
  have hordinary : ∀ o ∈ overtaking ⟨1, .numeric 9⟩, o.Ordinary "plant" := by
    simp [overtaking, opening, Occurrence.Ordinary, Surroundings.placid]
  have hlaw := created_sessions_accounted (Reaches.ofList (r := {}) _ hordinary)
  let x : Creation := ⟨r.history.take 5, creation ⟨1, .numeric 9⟩, r.history.drop 6,
    { (default : SessionCreated) with token := ⟨1, .numeric 9⟩ }⟩
  have hx : x.In r.history := ⟨rfl, ⟨_, _, rfl, rfl⟩, rfl⟩
  have hmoves : x.since.filterMap Happening.transition? =
      [⟨.creating, .disconnectRequested, .inactive⟩, ⟨.inactive, .sessionRequested, .creating⟩,
        ⟨.creating, .createSucceeded, .activating⟩, ⟨.activating, .activateSucceeded, .active⟩] :=
    rfl
  have hgivenUp : GivenUp x.created.token x.since := by
    rcases hlaw.1 x hx with hinHand | hgivenUp | ⟨mid, t, rest, hsplit, -, hends⟩
    · have hkept := hinHand.kept
      rw [Kept, hmoves] at hkept
      cases hkept _ List.mem_cons_self
    · exact hgivenUp
    · have hmoved : t ∈ x.since.filterMap Happening.transition? := by
        rw [hsplit]
        simp [Happening.transition?, Effect.published?]
      simp only [hmoves, List.mem_cons, List.not_mem_nil, or_false] at hmoved
      rcases hmoved with rfl | rfl | rfl | rfl <;> cases hends
  obtain ⟨c, hasked, hcloses⟩ := hgivenUp.closes
  obtain ⟨y, hy, hinHand, hlater⟩ := hlaw.2.2 x hx c hasked hcloses _ rfl
  obtain ⟨session, hkept, hcontinues⟩ := hinHand.held
  have hsame : session.token = ⟨1, .numeric 9⟩ := by
    cases hkept
    rfl
  exact ⟨x, y, hx, hy, hsame.symm.trans hcontinues.token, hgivenUp, hinHand, rfl, hlater⟩

end Run

end OpcSession.Session
