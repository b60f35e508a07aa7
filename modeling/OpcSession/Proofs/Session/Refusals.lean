import OpcSession.Proofs.Session.Callers
import OpcSession.Proofs.Session.Course
import OpcSession.Proofs.Session.Stranding

/-!
# What callers are refused for

An attempt to come by a session may fail: the callers who wait are then told
why at once, and the failure is raised, which goes to the end of the queue.  A
caller whose turn comes before it joins an attempt that is over.  When the
machine takes note of the failure it leaves that caller behind, and all the
caller is told is that the session is closed.

The law is about runs in which callers ask for sessions only, nobody raises
events, and somebody is left to use the machine (`Occurrence.Asking`).

* `Run.Ends` — how an attempt comes to its end, with an error;
* `Run.Expects` — what is in store for a caller who waits;
* `Run.refused_for` — the law;
* `Run.latecomer_told_closed` — why it distinguishes two kinds of callers.
-/

namespace OpcSession.Session

/-- Callers ask for sessions, and for nothing else; listeners raise no events,
and there is always somebody left who could use the machine. -/
def Occurrence.Asking : Occurrence → Prop
  | asked c => ∃ t, c = .getSession t
  | listening ls => ls.RaiseOnly fun _ => False
  | taking s | ended s _ => s.attended
  | watching attended | fired attended _ => attended
  | _ => True

/-- Every call of the channel ends with an error of the transport, as when the
server cannot be reached. -/
def Occurrence.Offline : Occurrence → Prop
  | ended _ o => ∃ text, o = .failed (.transport text)
  | _ => True

/-! ## Failures -/

/-- The events of an attempt that failed, at whichever of its stages. -/
def Event.isFailure : Event → Bool
  | createFailed | activateFailed | reactivateFailed | reactivateInvalid => true
  | _ => false

theorem Event.not_notice_of_failure {e : Event} (h : e.isFailure) : ¬ e.isNotice := by
  cases e <;> first | exact Bool.false_ne_true | cases h

/-- The attempt has failed, and the machine is still to take note of it. -/
def Machine.Failed (m : Machine) : Prop := ∃ e, e.isFailure ∧ m.Queued e

/-- An attempt comes to its end with an error: the call that the machine waits
for has ended so, or a session was created that cannot even be presented to
the server. -/
inductive Run.Ends (r : Run) : Occurrence → SessionError → Prop
  /-- A call of the attempt has come to nothing. -/
  | call {s : Surroundings} {o : Outcome} {entry : Entry} {e : SessionError}
      (hwaiting : r.machine.entry? = some entry)
      (hwhy : s.Fails o entry.awaiting r.machine.state e) : Ends r (.ended s o) e
  /-- The session that was created cannot be presented. -/
  | presenting {s : Surroundings} {rest : List Command} {ws : List Ticket} {session : Session}
      {e : SessionError} (hidle : r.machine.entry? = none)
      (hqueue : r.machine.queue = .stamped .createSucceeded r.machine.epoch :: rest)
      (hcreated : r.machine.state = .creating ws (some session))
      (hwhy : s.Refuses session e) : Ends r (.taking s) e

/-! ## Who waits -/

theorem State.mem_dues_session {st : State} {t : Ticket} :
    .session t ∈ st.dues ↔ t ∈ st.waiters := by
  simp [State.dues]

theorem Machine.mem_dues_session {m : Machine} {t : Ticket} :
    .session t ∈ m.dues ↔ t ∈ m.state.waiters := by
  have hnobody : Due.session t ∉ (m.entry?.bind (·.owed.due?)).toList := by
    intro h
    obtain ⟨entry, -, howed⟩ := Option.bind_eq_some_iff.mp (Option.mem_toList.mp h)
    cases hentry : entry.owed <;> rw [hentry] at howed <;> cases howed
  simp [Machine.dues, State.mem_dues_session, hnobody]

theorem exists_answer_of_paid {fs : List Effect} {t : Ticket} (h : .session t ∈ paid fs) :
    ∃ x, .answered t (.session x) ∈ fs := by
  obtain ⟨f, hf, hdue⟩ := List.mem_filterMap.mp h
  cases f with
  | answered t' a =>
      cases a <;> cases hdue
      exact ⟨_, hf⟩
  | _ => cases hdue

namespace Machine

variable {m : Machine} {t : Ticket}

/-- Whoever waits when a command is taken is answered or waits afterwards, and
so is the one who asks for a session with it. -/
theorem obey_waits (s : Surroundings) {c : Command} (hidle : m.entry? = none)
    (hwaits : t ∈ m.state.waiters ∨ c = .getSession t) :
    (∃ x, .answered t (.session x) ∈ (m.obey s c).effects) ∨
      t ∈ (m.obey s c).machine.state.waiters := by
  have hdue : Due.session t ∈ m.state.dues ++ c.due?.toList := by
    rcases hwaits with hwaits | rfl
    · exact List.mem_append_left _ (State.mem_dues_session.mpr hwaits)
    · exact List.mem_append_right _ List.mem_cons_self
  rcases List.mem_append.mp ((m.obey_pays s c hidle).balance.mem_iff.mpr hdue) with hpaid | hdue
  · exact .inl (exists_answer_of_paid hpaid)
  · exact .inr (mem_dues_session.mp hdue)

/-- Whoever waits when a call ends is answered or waits afterwards; nobody is
dropped without an answer. -/
theorem resume_waits (s : Surroundings) (o : Outcome) {entry : Entry}
    (hwaiting : m.entry? = some entry) (hwaits : t ∈ m.state.waiters) :
    (∃ x, .answered t (.session x) ∈ (m.resume s o).effects) ∨
      t ∈ (m.resume s o).machine.state.waiters := by
  have hdue : Due.session t ∈ m.state.dues ++ entry.owed.due?.toList :=
    List.mem_append_left _ (State.mem_dues_session.mpr hwaits)
  rcases List.mem_append.mp ((m.resume_answers s o hwaiting).balance.mem_iff.mpr hdue) with
    hpaid | hdue
  · exact .inl (exists_answer_of_paid hpaid)
  · exact .inr (mem_dues_session.mp hdue)

/-- To conclude an entry lets nobody wait who did not wait before. -/
theorem waits_of_conclude {s : Surroundings} {owed : Owed} {followUp : Option Event}
    (hwaits : t ∈ (m.conclude s owed followUp).machine.state.waiters) : t ∈ m.state.waiters := by
  have hdue := (m.conclude_answers s owed followUp).balance.mem_iff.mp
    (List.mem_append_right _ (mem_dues_session.mpr hwaits))
  rcases List.mem_append.mp hdue with hdue | hdue
  · exact State.mem_dues_session.mp hdue
  · cases owed <;> simp [Owed.due?] at hdue

end Machine

theorem State.waiters_withWaiters_nil (st : State) : (st.withWaiters []).waiters = [] := by
  cases st <;> rfl

/-- **Nobody waits any longer once an attempt has failed.**  All who were
there are told the error that the attempt ended in. -/
theorem Course.not_waits_of_fails {s : Surroundings} {owed : Owed} {m : Machine} {c : Course}
    {e : SessionError} {followUp : Event} {t : Ticket} (hfails : c.ending = .fails e followUp) :
    t ∉ (c.run s owed m).machine.state.waiters := by
  obtain ⟨st, before, ending⟩ := c
  cases hfails
  intro hwaits
  have hbefore := Machine.waits_of_conclude hwaits
  rw [State.waiters_withWaiters_nil] at hbefore
  cases hbefore

/-! ## Failures and moves -/

namespace State

variable {st : State} {e : Event} {move : Move} {t : Ticket}

/-- No state asks to be disconnected; only callers do. -/
theorem Raises.ne_disconnectRequested (hraises : st.Raises e) : e ≠ .disconnectRequested := by
  rintro rfl
  cases st with
  | creating ws created => cases created <;> cases hraises
  | reactivateExecute previous delay ws session =>
      cases session with
      | none => rcases hraises with hraises | hraises <;> cases hraises
      | some session => cases hraises
  | activating ws session => rcases hraises with hraises | hraises <;> cases hraises
  | active ws session => rcases hraises with hraises | hraises <;> cases hraises
  | _ => cases hraises

theorem Raises.kind_of_activated (h : st.Raises .activateSucceeded) :
    st.kind = .activating := by
  cases st with
  | creating ws created => cases created <;> cases h
  | activating ws session => rfl
  | active ws session => rcases h with h | h <;> cases h
  | reactivateExecute previous delay ws session =>
      cases session with
      | none => rcases h with h | h <;> cases h
      | some session => cases h
  | _ => cases h

/-- Where a state that raises an event leaves callers behind an attempt has
failed, or a session is in use. -/
theorem Raises.failure_of_left (hraises : st.Raises e) (h : st.transition? e = some move)
    (hleft : t ∈ move.left) : e.isFailure ∨ st.kind = .active := by
  have hother := hraises.ne_disconnectRequested
  unfold transition? at h
  split at h <;> cases h <;> first
    | exact .inl rfl
    | exact .inr rfl
    | exact absurd rfl hother
    | cases hleft

/-- Where a failure can be raised nothing moves for whoever asks for a
session. -/
theorem Raises.ignores_of_failure (h : st.Raises e) (hfailure : e.isFailure) :
    st.transition? .sessionRequested = none := by
  cases st with
  | inactive abandoned => exact h.elim
  | creating ws created => cases created <;> rfl
  | closing session completions => cases h; cases hfailure
  | _ => rfl

/-- A failure leaves every caller behind: the next state begins without
any. -/
theorem left_of_failure (hfailure : e.isFailure) (h : st.transition? e = some move) :
    move.left = st.waiters ∧ move.next.waiters = [] := by
  unfold transition? at h
  split at h <;> cases h <;> first | exact ⟨rfl, rfl⟩ | cases hfailure

/-- To ask for a session moves the machine only where nobody waits for one. -/
theorem waiters_of_sessionRequested (h : st.transition? .sessionRequested = some move) :
    st.waiters = [] ∧ move.next = .creating [] none ∧ move.left = [] := by
  cases st with
  | creating ws created => cases created <;> cases h
  | inactive abandoned => cases h; exact ⟨rfl, rfl, rfl⟩
  | closing session completions => cases h; exact ⟨rfl, rfl, rfl⟩
  | _ => cases h

/-- What a state can raise besides a failure once it has raised one. -/
theorem Raises.failure_or_activated {f : Event} (h : st.Raises f) (hfailure : f.isFailure)
    (hraises : st.Raises e) : e.isFailure ∨ (e = .activateSucceeded ∧ f = .activateFailed) := by
  cases st with
  | creating ws created =>
      cases created <;> cases h <;> cases hraises <;> first | exact .inl rfl | cases hfailure
  | reactivateExecute previous delay ws session =>
      cases session with
      | none => rcases hraises with rfl | rfl <;> exact .inl rfl
      | some session => cases h; cases hfailure
  | activating ws session =>
      rcases h with rfl | rfl
      · cases hfailure
      · rcases hraises with rfl | rfl
        · exact .inr ⟨rfl, rfl⟩
        · exact .inl rfl
  | active ws session => rcases h with rfl | rfl <;> cases hfailure
  | inactive abandoned => exact h.elim
  | closing session completions => cases h; cases hfailure
  | reactivateDelay previous delay ws => cases h; cases hfailure

end State

/-- A state is entered with a failure only by failing, so the error is told
before the event is raised. -/
theorem Enters.fails_of_failure {s : Surroundings} {event : Event} {epoch : Nat} {st : State}
    {c : Course} {e : Event} (h : Enters s event epoch st c) (hraised : e ∈ c.ending.followUp?)
    (hfailure : e.isFailure) : ∃ error, c.ending = .fails error e := by
  cases h <;> cases hraised <;> first | exact ⟨_, rfl⟩ | cases hfailure

theorem Resumes.fails_of_failure {s : Surroundings} {o : Outcome} {a : Awaiting} {st : State}
    {c : Course} {e : Event} (h : Resumes s o a st c) (hraised : e ∈ c.ending.followUp?)
    (hfailure : e.isFailure) : ∃ error, c.ending = .fails error e := by
  cases h <;> cases hraised <;> first | exact ⟨_, rfl⟩ | cases hfailure

/-- A course of going on fails for the reason for which the attempt does. -/
theorem Resumes.why_of_fails {s : Surroundings} {o : Outcome} {a : Awaiting} {st : State}
    {c : Course} {error : SessionError} {followUp : Event} (h : Resumes s o a st c)
    (hfails : c.ending = .fails error followUp) : s.Fails o a st error := by
  cases h <;> cases hfails
  assumption

/-- Only a session that cannot be presented makes the entry of a state
fail. -/
theorem Enters.why_of_fails {s : Surroundings} {event : Event} {epoch : Nat} {st : State}
    {c : Course} {error : SessionError} {followUp : Event} (h : Enters s event epoch st c)
    (hfails : c.ending = .fails error followUp) :
    ∃ ws session, st = .activating ws session ∧ s.Refuses session error := by
  cases h <;> cases hfails
  exact ⟨_, _, rfl, ‹_›⟩

/-- A session is to be activated once it has been created, which is the one
event that leads there. -/
theorem State.created_of_activating {st : State} {e : Event} {move : State.Move}
    {ws : List Ticket} {session : Session} (h : st.transition? e = some move)
    (hbare : (State.activating ws session).bare = move.next.bare) :
    e = .createSucceeded ∧ ∃ ws', st = .creating ws' (some session) := by
  unfold transition? at h
  split at h <;> cases h <;> cases hbare
  exact ⟨rfl, _, rfl⟩

theorem Serves.failed {m : Machine} {p : Progress} (h : Serves m p) :
    p.machine.Failed ↔ m.Failed := by
  simp only [Machine.Failed, Machine.Queued, h.queue, h.epoch]

/-! ## Who is refused by what -/

namespace Machine

variable {s : Surroundings} {m : Machine} {c : Command} {t : Ticket} {e : SessionError}

/-- To join those who wait is refused only where no session will come. -/
theorem join_refuses {waiter : Option Ticket}
    (hrefused : .answered t (.session (.error e)) ∈ (m.join waiter).effects) :
    waiter.isSome ∧ (m.state.kind = .inactive ∨ m.state.kind = .closing) := by
  cases waiter with
  | none => cases hrefused
  | some t' =>
      refine ⟨rfl, ?_⟩
      simp only [join, Option.elim, attach] at hrefused
      split at hrefused
      · cases List.mem_singleton.mp hrefused
      · rename_i abandoned hst
        exact .inl (by rw [hst]; rfl)
      · rename_i session completions hst
        exact .inr (by rw [hst]; rfl)
      · cases hrefused

/-- Whoever asks for a session on the way is asking for one: no other command
lets its caller wait for a session. -/
theorem sessionRequested_of_waiter {ev : Event} (hevent : c.event? m = some ev)
    (hwaiter : c.waiter?.isSome) : ev = .sessionRequested := by
  cases c with
  | getSession t' =>
      simp only [Command.event?] at hevent
      split at hevent
      · cases hevent
      · exact (Option.some.inj hevent).symm
  | _ => cases hwaiter

/-- Nobody is refused by a command that is ignored: its caller waits or gets
the session in use. -/
theorem ignored_refuses {ev : Event} (hevent : c.event? m = some ev)
    (hstill : m.state.transition? ev = none) :
    .answered t (.session (.error e)) ∉ ((m.join c.waiter?).andThen (pay · c.owed)).effects := by
  intro hrefused
  rcases List.mem_append.mp hrefused with hrefused | hrefused
  · obtain ⟨hwaiter, hkind⟩ := join_refuses hrefused
    rw [sessionRequested_of_waiter hevent hwaiter] at hstill
    cases hst : m.state <;> rw [hst] at hkind hstill <;> simp [State.kind] at hkind <;> cases hstill
  · rcases mem_pay hrefused with ⟨-, hother⟩ | ⟨-, hother, -⟩ <;> cases hother

/-- Whoever is refused by a move is left behind by it, since those who go
along keep waiting. -/
theorem depart_refuses {ev : Event} {move : State.Move} (hevent : c.event? m = some ev)
    (hmoves : m.state.transition? ev = some move)
    (hrefused : .answered t (.session (.error e)) ∈ (m.depart s ev move c.waiter?).effects) :
    e = .closed ∧ t ∈ move.left := by
  rcases List.mem_append.mp hrefused with hrefused | hrefused
  · rcases mem_move hrefused with ⟨_, _, -, -, hother⟩ | ⟨hleft, heq⟩
    · cases hother
    · cases heq
      exact ⟨rfl, hleft⟩
  · obtain ⟨hwaiter, hkind⟩ := join_refuses hrefused
    rw [sessionRequested_of_waiter hevent hwaiter] at hmoves
    have hmoved := move_moves s ev move (Listeners.raiseOnly_any m.listeners)
    rw [State.kind_eq_of_bare hmoved.bare, (State.waiters_of_sessionRequested hmoves).2.1] at hkind
    rcases hkind with hkind | hkind <;> cases hkind

/-- Whoever is left behind by a move is told so, with the error that says the
session is closed. -/
theorem answers_left {ev : Event} {move : State.Move} {waiter : Option Ticket}
    (hleft : t ∈ move.left) :
    .answered t (.session (.error .closed)) ∈ (m.depart s ev move waiter).effects :=
  mem_depart (List.mem_append_right _ (List.mem_map.mpr ⟨t, hleft, rfl⟩))

end Machine

namespace Run

variable {r r' : Run} {o : Occurrence} {t : Ticket} {late : Prop}

/-! ## What is in the queue -/

/-- The queue holds callers who ask for sessions, and what is stamped; and no
activation is held to have succeeded and to have failed. -/
structure Patient (r : Run) : Prop where
  /-- The queue holds requests for sessions and what the machine raised
  itself. -/
  queue : ∀ c ∈ r.machine.queue, (∃ t, c = .getSession t) ∨ ∃ e k, c = .stamped e k
  listeners : r.machine.listeners.RaiseOnly fun _ => False
  /-- An activation does not both succeed and fail. -/
  single : r.machine.Queued .activateSucceeded → ¬ r.machine.Queued .activateFailed

theorem patient_start : Patient {} where
  queue := by simp
  listeners := by simp [Listeners.RaiseOnly, Listeners.snapshot]
  single := by simp [Machine.Queued]

theorem raisesOnly_of_asking (h : o.Asking) : o.RaisesOnly fun _ => False := by
  cases o with
  | asked c =>
      obtain ⟨t, rfl⟩ := h
      trivial
  | listening ls => exact h
  | _ => trivial

/-- While a call is waited for nothing but what a watcher has seen is
queued. -/
theorem Sound.unraised_of_waiting {A : Prop} (h : r.Sound A) {entry : Entry}
    (hwaiting : r.machine.entry? = some entry) (hactive : r.machine.state.kind ≠ .active)
    (e : Event) :
    ¬ r.machine.Queued e := by
  intro hqueued
  rcases h.stamps e _ hqueued with hlt | ⟨-, -, hidle | hinUse⟩
  · omega
  · rw [hwaiting] at hidle
    cases hidle
  · exact hactive hinUse

theorem attended_of_asking (h : o.Asking) : o.Attended := by
  cases o <;> first | exact h | trivial

theorem Patient.dequeue (h : r.Patient) {c : Command} {rest : List Command}
    (hqueue : r.machine.queue = c :: rest) : (r.dequeue c rest).Patient := by
  have hkept : ∀ c' ∈ rest, c' ∈ r.machine.queue := by
    rw [hqueue]
    exact fun c' hc' => List.mem_cons_of_mem _ hc'
  exact {
    queue := fun c' hc' => h.queue c' (hkept c' hc')
    listeners := h.listeners
    single := fun hsucceeded hfailed => h.single (hkept _ hsucceeded) (hkept _ hfailed) }

theorem Patient.serves (h : r.Patient) {p : Progress} (hp : Serves r.machine p) :
    (r.proceed p).Patient where
  queue := by
    rw [machine_proceed, hp.queue]
    exact h.queue
  listeners := by
    rw [machine_proceed, hp.listeners]
    exact h.listeners
  single := by
    simp only [machine_proceed, Machine.Queued, hp.queue, hp.epoch]
    exact h.single

/-- What is added to the queue by a course is stamped, and by a course that is
not taken while a session is in use there is one event at most. -/
theorem Patient.course {s : Surroundings} {owed : Owed} {c : Course} (h : r.Patient)
    (hunraised : c.state.kind ≠ .active → ∀ e, ¬ r.machine.Queued e)
    (hafter : (r.proceed (c.run s owed r.machine)).Sound True)
    (hlisteners : (r.proceed (c.run s owed r.machine)).machine.listeners.RaiseOnly fun _ => False) :
    (r.proceed (c.run s owed r.machine)).Patient := by
  refine ⟨?_, hlisteners, ?_⟩
  · intro c' hc'
    rw [machine_proceed] at hc'
    rcases Course.mem_queue_run h.listeners hc' with hold | ⟨_, _, hnone⟩ | ⟨e, _, rfl⟩
    · exact h.queue c' hold
    · exact hnone.elim
    · exact .inr ⟨e, _, rfl⟩
  · intro hsucceeded hfailed
    have hkind := (hafter.raises hsucceeded).kind_of_activated
    rw [machine_proceed] at hkind hsucceeded hfailed
    rw [Course.kind_run] at hkind
    have hnothing := hunraised (by rw [hkind]; simp)
    have hone := (Course.queued_run hsucceeded).resolve_left (hnothing _)
    have hother := (Course.queued_run hfailed).resolve_left (hnothing _)
    rw [Option.mem_def] at hone hother
    cases hone.symm.trans hother

theorem Patient.happen (h : r.Patient) (hsound : r.Sound True) (hasking : o.Asking) :
    (r.happen o).Patient := by
  have hbecomes := hsound.becomes o
  have hlisteners := raiseOnly_happen h.listeners (raisesOnly_of_asking hasking)
  have hafter := hsound.happen (o := o) fun _ => attended_of_asking hasking
  generalize r.happen o = r' at hbecomes hlisteners hafter
  cases hbecomes with
  | stays _ _ hepoch _ hqueue =>
      obtain ⟨news, hqueue, hnews⟩ := hqueue
      refine ⟨?_, hlisteners, ?_⟩
      · intro c hc
        rw [hqueue, List.mem_append] at hc
        rcases hc with hc | hc
        · exact h.queue c hc
        · rcases hnews c hc with ⟨rfl, -⟩ | ⟨e, k, rfl, -⟩
          · exact .inl hasking
          · exact .inr ⟨e, k, rfl⟩
      · have hold : ∀ e, ¬ e.isNotice → r'.machine.Queued e → r.machine.Queued e := by
          intro e hother hqueued
          rw [Machine.Queued, hqueue, hepoch, List.mem_append] at hqueued
          rcases hqueued with hqueued | hqueued
          · exact hqueued
          · rcases hnews _ hqueued with ⟨rfl, hunstamped⟩ | ⟨_, _, heq, hnotice⟩
            · exact absurd rfl hunstamped
            · cases heq
              exact absurd hnotice hother
        intro hsucceeded hfailed
        exact h.single (hold _ Bool.false_ne_true hsucceeded) (hold _ Bool.false_ne_true hfailed)
  | @takes s c rest p htaking hidle hqueue _ hobeys =>
      have htaken := h.dequeue hqueue
      rcases hobeys.serves_or_moves with ⟨hserves, -⟩ | ⟨e, move, course, -, -, henters, rfl⟩
      · exact htaken.serves hserves
      · have hdeparts := Machine.depart_moves s e move c.waiter? htaken.listeners
        have hunraised := hdeparts.unraised (hsound.dequeue_movable hqueue).stamps
        rw [proceed_andThen] at hafter hlisteners ⊢
        have hdeparted : ((r.dequeue c rest).proceed
            ((r.dequeue c rest).machine.depart s e move c.waiter?)).Patient := {
          queue := by
            obtain ⟨raised, hnone, hqueue'⟩ := hdeparts.queue
            rw [machine_proceed, hqueue']
            intro c' hc'
            rcases List.mem_append.mp hc' with hc' | hc'
            · exact htaken.queue c' hc'
            · obtain ⟨e', he', -⟩ := List.mem_map.mp hc'
              exact (hnone e' he').elim
          listeners := by
            rw [machine_proceed]
            exact hdeparts.listeners
          single := by
            rw [machine_proceed]
            exact fun hsucceeded => absurd hsucceeded (hunraised _) }
        exact hdeparted.course (by rw [machine_proceed]; exact fun _ => hunraised) hafter hlisteners
  | @resumes s outcome entry course hended hwaiting _ hresumes =>
      have hrecorded : (r.record (.returned outcome)).Patient := ⟨h.queue, h.listeners, h.single⟩
      refine hrecorded.course ?_ hafter hlisteners
      intro hactive
      rw [hresumes.kind] at hactive
      exact hsound.unraised_of_waiting hwaiting hactive

/-! ## What is in store for a caller -/

/-- A caller waits for a session.  Where its turn came late the attempt has
failed already and the machine is about to take note of it; and where it came
in time the attempt has not failed. -/
structure Expects (late : Prop) (t : Ticket) (r : Run) : Prop where
  /-- The caller waits in the state. -/
  waits : t ∈ r.machine.state.waiters
  /-- Whoever is late came when the attempt had failed already. -/
  missed : late → r.machine.entry? = none ∧ r.machine.Failed
  /-- Whoever is in time came before that. -/
  inTime : ¬ late → ¬ r.machine.Failed

/-- The machine takes note of the failure of an attempt: the event that says
so is the next that it takes. -/
def Concedes (r : Run) (o : Occurrence) : Prop :=
  ∃ s e rest, o = .taking s ∧ r.machine.queue = .stamped e r.machine.epoch :: rest ∧ e.isFailure

theorem failed_of_queue {m m' : Machine} (hepoch : m'.epoch = m.epoch)
    (hkept : ∀ e, e.isFailure → m.Queued e → .stamped e m.epoch ∈ m'.queue) (h : m.Failed) :
    m'.Failed := by
  obtain ⟨e, hfailure, hqueued⟩ := h
  exact ⟨e, hfailure, by rw [Machine.Queued, hepoch]; exact hkept e hfailure hqueued⟩

/-- A command that is not a failure of the current epoch leaves it queued. -/
theorem failed_dequeue {c : Command} {rest : List Command} (hqueue : r.machine.queue = c :: rest)
    (hother : ∀ e, e.isFailure → c ≠ .stamped e r.machine.epoch) :
    (r.dequeue c rest).machine.Failed ↔ r.machine.Failed := by
  constructor
  · rintro ⟨e, hfailure, hqueued⟩
    refine ⟨e, hfailure, ?_⟩
    rw [Machine.Queued, hqueue]
    exact List.mem_cons_of_mem _ hqueued
  · rintro ⟨e, hfailure, hqueued⟩
    rw [Machine.Queued, hqueue, List.mem_cons] at hqueued
    exact ⟨e, hfailure, hqueued.resolve_left fun heq => hother e hfailure heq.symm⟩

/-- What moves the machine from under those who wait is stamped, since
requests for sessions move it only where nobody waits. -/
theorem Patient.stamped_of_moves (h : r.Patient) {c : Command} {rest : List Command} {e : Event}
    {move : State.Move} (hqueue : r.machine.queue = c :: rest)
    (hevent : c.event? (r.dequeue c rest).machine = some e)
    (hmoves : r.machine.state.transition? e = some move) (hwaits : t ∈ r.machine.state.waiters) :
    c = .stamped e r.machine.epoch := by
  have hhead : c ∈ r.machine.queue := by
    rw [hqueue]
    exact List.mem_cons_self
  rcases h.queue c hhead with ⟨t', rfl⟩ | ⟨e', k, rfl⟩
  · rw [Machine.sessionRequested_of_waiter hevent rfl] at hmoves
    rw [(State.waiters_of_sessionRequested hmoves).1] at hwaits
    cases hwaits
  · simp only [Command.event?] at hevent
    split at hevent <;> cases hevent
    rename_i hcurrent
    rw [hcurrent]
    rfl

theorem queued_of_head {c : Command} {rest : List Command} {e : Event}
    (hqueue : r.machine.queue = c :: rest) (hstamped : c = .stamped e r.machine.epoch) :
    r.machine.Queued e := by
  rw [Machine.Queued, hqueue, hstamped]
  exact List.mem_cons_self

/-- **While a failure is queued nothing but it moves the machine** from under
those who wait. -/
theorem Patient.failure_of_moves (h : r.Patient) (hsound : r.Sound True) {c : Command}
    {rest : List Command} {e : Event} {move : State.Move} (hqueue : r.machine.queue = c :: rest)
    (hevent : c.event? (r.dequeue c rest).machine = some e)
    (hmoves : r.machine.state.transition? e = some move) (hwaits : t ∈ r.machine.state.waiters)
    (hfailed : r.machine.Failed) : e.isFailure := by
  have hqueued := queued_of_head hqueue (h.stamped_of_moves hqueue hevent hmoves hwaits)
  obtain ⟨f, hfailure, hqueuedFailure⟩ := hfailed
  rcases (hsound.raises hqueuedFailure).failure_or_activated hfailure (hsound.raises hqueued) with
    hfailure' | ⟨rfl, rfl⟩
  · exact hfailure'
  · exact absurd hqueuedFailure (h.single hqueued)

/-- Whoever waits is left behind only by the failure of the attempt, as nobody
asks for disconnection. -/
theorem Patient.failure_of_left (h : r.Patient) (hsound : r.Sound True) (haccounted : r.Accounted)
    {c : Command} {rest : List Command} {e : Event} {move : State.Move}
    (hidle : r.machine.entry? = none) (hqueue : r.machine.queue = c :: rest)
    (hevent : c.event? (r.dequeue c rest).machine = some e)
    (hmoves : r.machine.state.transition? e = some move) (hwaits : t ∈ r.machine.state.waiters)
    {t' : Ticket} (hleft : t' ∈ move.left) : e.isFailure := by
  have hqueued := queued_of_head hqueue (h.stamped_of_moves hqueue hevent hmoves hwaits)
  refine ((hsound.raises hqueued).failure_of_left hmoves hleft).resolve_right fun hactive => ?_
  rw [haccounted.served hidle hactive] at hwaits
  cases hwaits

/-- What is in store for those who wait is the same after a command that moves
nothing. -/
theorem Expects.serves (h : r.Expects late t) {c : Command} {rest : List Command} {p : Progress}
    (hqueue : r.machine.queue = c :: rest) (hserves : Serves (r.dequeue c rest).machine p)
    (hwaits : t ∈ p.machine.state.waiters)
    (hother : ∀ e, e.isFailure → c ≠ .stamped e r.machine.epoch) :
    ((r.dequeue c rest).proceed p).Expects late t where
  waits := by
    rw [machine_proceed]
    exact hwaits
  missed := by
    rw [machine_proceed, hserves.failed, hserves.entry, failed_dequeue hqueue hother]
    exact h.missed
  inTime := by
    rw [machine_proceed, hserves.failed, failed_dequeue hqueue hother]
    exact h.inTime

/-- No attempt has failed where somebody waits in a state just moved to. -/
theorem Patient.not_failed_of_moves (h : r.Patient) (hsound : r.Sound True) {c : Command}
    {rest : List Command} {s : Surroundings} {e : Event} {move : State.Move} {course : Course}
    (hqueue : r.machine.queue = c :: rest)
    (henters : Enters s e (r.machine.epoch + 1)
      ((r.dequeue c rest).machine.depart s e move c.waiter?).machine.state course)
    (hwaits : t ∈ (((r.dequeue c rest).machine.depart s e move c.waiter?).andThen
      (course.run s c.owed)).machine.state.waiters) :
    ¬ ((r.dequeue c rest).proceed (((r.dequeue c rest).machine.depart s e move c.waiter?).andThen
      (course.run s c.owed))).machine.Failed := by
  rintro ⟨f, hfailure, hqueued⟩
  rw [machine_proceed] at hqueued
  have hdeparts :=
    Machine.depart_moves (m := (r.dequeue c rest).machine) s e move c.waiter? h.listeners
  have hraised := (Course.queued_run hqueued).resolve_left
    (hdeparts.unraised (hsound.dequeue_movable hqueue).stamps f)
  obtain ⟨error, hfails⟩ := henters.fails_of_failure hraised hfailure
  exact Course.not_waits_of_fails hfails hwaits

/-- **Whoever waits is answered, or what is in store for it stays the
same.** -/
theorem Expects.happen (h : r.Expects late t) (hsound : r.Sound True) (hpatient : r.Patient)
    (hasking : o.Asking) :
    (∃ x, .did (.answered t (.session x)) ∈ r.news o) ∨ (r.happen o).Expects late t := by
  have hbecomes := hsound.becomes o
  generalize hnext : r.happen o = r' at hbecomes
  cases hbecomes with
  | stays hhistory hstate hepoch hentry hqueue =>
      obtain ⟨news, hqueue, hnews⟩ := hqueue
      right
      refine ⟨by rw [hstate]; exact h.waits, ?_, ?_⟩
      · intro hlate
        obtain ⟨hidle, hfailed⟩ := h.missed hlate
        refine ⟨hentry.trans hidle, failed_of_queue hepoch ?_ hfailed⟩
        rw [hqueue]
        exact fun e _ hqueued => List.mem_append_left _ hqueued
      · rintro hearly ⟨e, hfailure, hqueued⟩
        refine h.inTime hearly ⟨e, hfailure, ?_⟩
        rw [Machine.Queued, hqueue, hepoch, List.mem_append] at hqueued
        rcases hqueued with hqueued | hqueued
        · exact hqueued
        · rcases hnews _ hqueued with ⟨rfl, hunstamped⟩ | ⟨_, _, heq, hnotice⟩
          · exact absurd rfl hunstamped
          · cases heq
            exact absurd hnotice (Event.not_notice_of_failure hfailure)
  | @takes s c rest p htaking hidle hqueue hstep hobeys =>
      have hwaits := (r.dequeue c rest).machine.obey_waits s (c := c) (t := t) hidle (.inl h.waits)
      rw [← hstep] at hwaits
      rw [news_takes hnext]
      rcases hwaits with ⟨x, hanswered⟩ | hwaits
      · exact .inl ⟨x, news_of_mem hanswered⟩
      · rcases hobeys.serves_or_moves with
          ⟨hserves, hstill⟩ | ⟨e, move, course, hevent, hmoves, henters, rfl⟩
        · refine .inr (h.serves hqueue hserves hwaits ?_)
          rintro e - rfl
          obtain ⟨move, hmoves⟩ := hsound.moves_of_stamped hqueue
          cases hmoves.symm.trans (hstill e (by simp [Command.event?]))
        · by_cases hfailed : r.machine.Failed
          · left
            have hfailure := hpatient.failure_of_moves hsound hqueue hevent hmoves h.waits hfailed
            have hleft : t ∈ move.left := by
              rw [(State.left_of_failure hfailure hmoves).1]
              exact h.waits
            exact ⟨.error .closed, news_of_mem
              (List.mem_append_left _ (Machine.answers_left hleft))⟩
          · right
            refine ⟨by rw [machine_proceed]; exact hwaits,
              fun hlate => absurd (h.missed hlate).2 hfailed, ?_⟩
            exact fun _ => hpatient.not_failed_of_moves hsound hqueue henters hwaits
  | @resumes s outcome entry course hended hwaiting hstep hresumes =>
      have hearly : ¬ late := by
        intro hlate
        rw [(h.missed hlate).1] at hwaiting
        cases hwaiting
      have hwaits := r.machine.resume_waits s outcome hwaiting h.waits
      rw [← hstep] at hwaits
      rw [news_resumes hnext]
      rcases hwaits with ⟨x, hanswered⟩ | hwaits
      · exact .inl ⟨x, news_of_mem hanswered⟩
      · right
        refine ⟨by rw [machine_proceed]; exact hwaits, fun hlate => absurd hlate hearly, ?_⟩
        rintro - ⟨e, hfailure, hqueued⟩
        rw [machine_proceed] at hqueued
        rcases Course.queued_run hqueued with hqueued | hraised
        · exact h.inTime hearly ⟨e, hfailure, hqueued⟩
        · obtain ⟨error, hfails⟩ := hresumes.fails_of_failure hraised hfailure
          exact Course.not_waits_of_fails hfails hwaits

/-- **Whoever waits and is refused is refused what was in store for it.** -/
theorem Expects.refused (h : r.Expects late t) (hsound : r.Sound True) (hpatient : r.Patient)
    (haccounted : r.Accounted) {e : SessionError}
    (hrefused : .did (.answered t (.session (.error e))) ∈ r.news o) :
    (late → e = .closed ∧ r.Concedes o) ∧ (¬ late → r.Ends o e) := by
  have hbecomes := hsound.becomes o
  generalize hnext : r.happen o = r' at hbecomes
  cases hbecomes with
  | stays hhistory =>
      rw [news, hnext, hhistory, List.drop_length] at hrefused
      cases hrefused
  | @takes s c rest p htaking hidle hqueue hstep hobeys =>
      rw [news_takes hnext] at hrefused
      have hrefused := mem_news (by simp) hrefused
      cases hobeys with
      | stale hnothing => cases hrefused
      | given hwants hactive => cases List.mem_singleton.mp hrefused
      | ignored hevent hstill => exact absurd hrefused (Machine.ignored_refuses hevent hstill)
      | @moves ev move course hevent hmoves henters =>
          have hmoves : r.machine.state.transition? ev = some move := hmoves
          rcases List.mem_append.mp hrefused with hrefused | hrefused
          · obtain ⟨rfl, hleft⟩ := Machine.depart_refuses hevent hmoves hrefused
            have hstamped := hpatient.stamped_of_moves hqueue hevent hmoves h.waits
            have hfailure :=
              hpatient.failure_of_left hsound haccounted hidle hqueue hevent hmoves h.waits hleft
            rw [hstamped] at hqueue
            exact ⟨fun _ => ⟨rfl, s, ev, rest, htaking, hqueue, hfailure⟩,
              fun hearly => absurd ⟨ev, hfailure, queued_of_head hqueue rfl⟩ (h.inTime hearly)⟩
          · obtain ⟨followUp, hfails, -⟩ := Course.refuses henters.aside hrefused
            obtain ⟨ws, session, hactivating, hwhy⟩ := henters.why_of_fails hfails
            have hdeparts := Machine.depart_moves (m := (r.dequeue c rest).machine) s ev move
              c.waiter? hpatient.listeners
            have hbare := hdeparts.bare
            rw [hactivating] at hbare
            obtain ⟨rfl, ws', hcreated⟩ := State.created_of_activating hmoves hbare
            refine ⟨?_, ?_⟩
            · intro hlate
              cases hpatient.failure_of_moves hsound hqueue hevent hmoves h.waits (h.missed hlate).2
            · intro
              rw [hpatient.stamped_of_moves hqueue hevent hmoves h.waits] at hqueue
              subst htaking
              exact .presenting hidle hqueue hcreated hwhy
  | @resumes s outcome entry course hended hwaiting hstep hresumes =>
      rw [news_resumes hnext] at hrefused
      have hrefused := mem_news (by simp) hrefused
      obtain ⟨followUp, hfails, -⟩ := Course.refuses hresumes.aside hrefused
      refine ⟨?_, ?_⟩
      · intro hlate
        rw [(h.missed hlate).1] at hwaiting
        cases hwaiting
      · intro
        subst hended
        exact .call hwaiting (hresumes.why_of_fails hfails)

/-- Nobody is refused a session while another caller asks for one: that caller
joins the others or gets the session in use. -/
theorem Patient.admits (h : r.Patient) {s : Surroundings} {rest : List Command} {t' : Ticket}
    {e : SessionError} (hidle : r.machine.entry? = none)
    (hqueue : r.machine.queue = .getSession t :: rest) :
    .did (.answered t' (.session (.error e))) ∉ r.news (.taking s) := by
  intro hrefused
  rw [news_takes (r.happen_taking s hidle hqueue)] at hrefused
  have hrefused := mem_news (by simp) hrefused
  have hobeys := (r.dequeue (.getSession t) rest).machine.obey_obeys s (.getSession t)
  generalize (r.dequeue (.getSession t) rest).machine.obey s (.getSession t) = p at hrefused hobeys
  cases hobeys with
  | stale hnothing => cases hrefused
  | given hwants hactive => cases List.mem_singleton.mp hrefused
  | ignored hevent hstill => exact Machine.ignored_refuses hevent hstill hrefused
  | @moves ev move course hevent hmoves henters =>
      have hrequested := Machine.sessionRequested_of_waiter hevent rfl
      subst hrequested
      have hdeparts := Machine.depart_moves (m := (r.dequeue (.getSession t) rest).machine) s
        .sessionRequested move (Command.waiter? (.getSession t)) h.listeners
      rcases List.mem_append.mp hrefused with hrefused | hrefused
      · have hleft := (Machine.depart_refuses hevent hmoves hrefused).2
        rw [(State.waiters_of_sessionRequested hmoves).2.2] at hleft
        cases hleft
      · obtain ⟨followUp, hfails, -⟩ := Course.refuses henters.aside hrefused
        obtain ⟨ws, session, hactivating, -⟩ := henters.why_of_fails hfails
        have hbare := hdeparts.bare
        rw [hactivating] at hbare
        cases (State.created_of_activating hmoves hbare).1

/-- **Whoever asks for a session gets it at once or waits**: in vain where the
attempt has failed already, and else for what the attempt comes to. -/
theorem Sound.expects (hsound : r.Sound True) (hpatient : r.Patient) {s : Surroundings}
    {rest : List Command} (hidle : r.machine.entry? = none)
    (hqueue : r.machine.queue = .getSession t :: rest) :
    (∃ x, .did (.answered t (.session x)) ∈ r.news (.taking s)) ∨
      (r.happen (.taking s)).Expects r.machine.Failed t := by
  have hnext := r.happen_taking s hidle hqueue
  have hfailed := failed_dequeue (r := r) hqueue (by simp)
  have hwaits := (r.dequeue (.getSession t) rest).machine.obey_waits s (t := t) hidle (.inr rfl)
  have hobeys := (r.dequeue (.getSession t) rest).machine.obey_obeys s (.getSession t)
  rw [news_takes hnext, hnext]
  generalize (r.dequeue (.getSession t) rest).machine.obey s (.getSession t) = p at hwaits hobeys
  rcases hwaits with ⟨x, hanswered⟩ | hwaits
  · exact .inl ⟨x, news_of_mem hanswered⟩
  · have hserving (hserves : Serves (r.dequeue (.getSession t) rest).machine p) :
        ((r.dequeue (.getSession t) rest).proceed p).Expects r.machine.Failed t := {
      waits := by
        rw [machine_proceed]
        exact hwaits
      missed := by
        rw [machine_proceed, hserves.failed, hserves.entry, hfailed]
        exact fun hlate => ⟨hidle, hlate⟩
      inTime := by
        rw [machine_proceed, hserves.failed, hfailed]
        exact id }
    rcases hobeys.serves_or_moves with
      ⟨hserves, -⟩ | ⟨ev, move, course, hevent, hmoves, henters, rfl⟩
    · exact .inr (hserving hserves)
    · have hrequested := Machine.sessionRequested_of_waiter hevent rfl
      subst hrequested
      have hmoves : r.machine.state.transition? .sessionRequested = some move := hmoves
      refine .inr ⟨by rw [machine_proceed]; exact hwaits, ?_,
        fun _ => hpatient.not_failed_of_moves hsound hqueue henters hwaits⟩
      rintro ⟨f, hfailure, hqueued⟩
      rw [(hsound.raises hqueued).ignores_of_failure hfailure] at hmoves
      cases hmoves

/-! ## The law -/

/-- All that is known of a point of a run in which callers only ask for
sessions. -/
structure Orderly (r : Run) : Prop where
  /-- The watcher and the timer do their part. -/
  sound : r.Sound True
  /-- Callers ask for sessions and nothing else. -/
  patient : r.Patient
  /-- Everybody who asked is answered or waits. -/
  accounted : r.Accounted

theorem orderly_start : Orderly {} := ⟨sound_start True, patient_start, accounted_start⟩

theorem Orderly.happen (h : r.Orderly) (hasking : o.Asking) : (r.happen o).Orderly where
  sound := h.sound.happen fun _ => attended_of_asking hasking
  patient := h.patient.happen h.sound hasking
  accounted := h.accounted.happen o

/-- Whoever waits is answered some time, or what is in store for it stays the
same. -/
theorem Expects.reaches (h : r.Expects late t) (horderly : r.Orderly)
    (hlater : Reaches Occurrence.Asking r r') :
    r'.Orderly ∧ ∃ xs, r'.history = r.history ++ xs ∧
      ((∃ a, .did (.answered t a) ∈ xs) ∨ r'.Expects late t) := by
  refine Reaches.invariant (I := fun r' => r'.Orderly ∧ ∃ xs, r'.history = r.history ++ xs ∧
    ((∃ a, .did (.answered t a) ∈ xs) ∨ r'.Expects late t))
    ⟨horderly, [], by simp, .inr h⟩ ?_ hlater
  rintro r' o hasking ⟨horderly', xs, hhistory, hxs⟩
  refine ⟨horderly'.happen hasking, xs ++ r'.news o, by
    rw [history_happen, hhistory, List.append_assoc], ?_⟩
  rcases hxs with ⟨a, hanswered⟩ | hexpects
  · exact .inl ⟨a, List.mem_append_left _ hanswered⟩
  · rcases hexpects.happen horderly'.sound horderly'.patient hasking with ⟨x, hanswered⟩ | hexpects
    · exact .inl ⟨_, List.mem_append_right _ hanswered⟩
    · exact .inr hexpects

/-- **What a caller is refused for.**  A caller who asks for a session is not
refused at once.  If the first answer that it gets then is a refusal, it is
told why the attempt that it waited for came to its end at that very moment;
unless the attempt had failed already when the turn of the caller came: then
it is told, when the machine takes note of the failure, that the session is
closed. -/
theorem refused_for {r₁ : Run} {s₁ : Surroundings} {rest : List Command}
    (h : Reachable Occurrence.Asking r₁) (hidle : r₁.machine.entry? = none)
    (hqueue : r₁.machine.queue = .getSession t :: rest) (hattended : s₁.attended) :
    (∀ e, .did (.answered t (.session (.error e))) ∉ r₁.news (.taking s₁)) ∧
      ∀ r₂, Reaches Occurrence.Asking (r₁.happen (.taking s₁)) r₂ →
        (∀ a, .did (.answered t a) ∉ r₂.history.drop r₁.history.length) →
        ∀ o e, .did (.answered t (.session (.error e))) ∈ r₂.news o →
          t ∈ r₂.machine.state.waiters ∧
          (r₁.machine.Failed → e = .closed ∧ r₂.Concedes o) ∧
          (¬ r₁.machine.Failed → r₂.Ends o e) := by
  have horderly : r₁.Orderly :=
    Reaches.invariant orderly_start (fun _ _ hasking h => h.happen hasking) h
  refine ⟨fun e => horderly.patient.admits hidle hqueue, ?_⟩
  intro r₂ hlater hunanswered o e hrefused
  have htaking : (Occurrence.taking s₁).Asking := hattended
  obtain ⟨xs, hhistory⟩ := history_reaches hlater
  have hnews : r₂.history.drop r₁.history.length = r₁.news (.taking s₁) ++ xs := by
    rw [hhistory, history_happen, List.append_assoc, List.drop_left]
  rw [hnews] at hunanswered
  rcases horderly.sound.expects horderly.patient hidle hqueue (s := s₁) with
    ⟨x, hanswered⟩ | hexpects
  · exact absurd (List.mem_append_left _ hanswered) (hunanswered _)
  · obtain ⟨horderly₂, ys, hhistory', hanswered | hexpects⟩ :=
      hexpects.reaches (horderly.happen htaking) hlater
    · obtain ⟨a, hanswered⟩ := hanswered
      rw [hhistory, List.append_cancel_left_eq] at hhistory'
      exact absurd (List.mem_append_right _ (hhistory' ▸ hanswered)) (hunanswered a)
    · exact ⟨hexpects.waits,
        hexpects.refused horderly₂.sound horderly₂.patient horderly₂.accounted hrefused⟩

/-! ## A caller who comes too late -/

/-- Two callers ask for a session, the second while the machine is connecting
for the first, and no connection comes about. -/
def rebuff (text : String) : List Occurrence :=
  let s : Surroundings := .placid
  [.asked (.getSession 1), .taking s, .asked (.getSession 2),
    .ended s (.failed (.transport text))]

theorem asking_rebuff (text : String) : ∀ o ∈ rebuff text, o.Asking := by
  simp [rebuff, Occurrence.Asking, Surroundings.placid]

/-- The second caller is told that the session is closed, when the machine
takes note of the failure. -/
theorem refused_for_late :
    let s : Surroundings := .placid
    let r₁ : Run := (rebuff "connection refused").foldl Run.happen {}
    let r₂ : Run := r₁.happen (.taking s)
    r₁.machine.entry? = none ∧
      r₁.machine.queue = .getSession 2 :: [.stamped .createFailed 1] ∧ s.attended ∧
      r₁.machine.Failed ∧
      .did (.answered 2 (.session (.error .closed))) ∈ r₂.news (.taking s) ∧
      2 ∈ r₂.machine.state.waiters ∧ r₂.Concedes (.taking s) := by
  intro s r₁ r₂
  have hfailed : r₁.machine.Failed := ⟨.createFailed, rfl, .tail _ (.head _)⟩
  have hrefused : .did (.answered 2 (.session (.error .closed))) ∈ r₂.news (.taking s) :=
    .tail _ (.tail _ (.head _))
  have hjoined : r₂.history.drop r₁.history.length = [.taken (.getSession 2)] := rfl
  have hunanswered : ∀ a, .did (.answered 2 a) ∉ r₂.history.drop r₁.history.length := by
    rw [hjoined]
    simp
  have hlaw := (refused_for (Reaches.ofList _ (asking_rebuff "connection refused")) rfl rfl rfl).2
    r₂ .refl hunanswered (.taking s) .closed hrefused
  exact ⟨rfl, rfl, rfl, hfailed, hrefused, hlaw.1, (hlaw.2.1 hfailed).2⟩

/-- **A caller may be told something else than why the attempt failed.**  It
is not so that whoever asks for a session and is refused is told of an error
of the transport wherever every call that is made ends with one. -/
theorem latecomer_told_closed :
    ¬ ∀ r : Run, Reachable (fun o => o.Asking ∧ o.Offline) r → ∀ t e,
      .did (.answered t (.session (.error e))) ∈ r.history → ∃ text, e = .transport text := by
  intro hclaim
  have hreachable : Reachable (fun o => o.Asking ∧ o.Offline)
      ((rebuff "connection refused" ++ [Occurrence.taking .placid, .taking .placid]).foldl
        Run.happen {}) :=
    Reaches.ofList _ (by
      simp [rebuff, Occurrence.Asking, Occurrence.Offline, Surroundings.placid])
  have htold : Happening.did (.answered 2 (.session (.error .closed))) ∈
      ((rebuff "connection refused" ++ [Occurrence.taking .placid, .taking .placid]).foldl
        Run.happen {}).history :=
    List.mem_of_getElem? (i := 8) rfl
  obtain ⟨text, heq⟩ := hclaim _ hreachable 2 .closed htold
  cases heq

end Run

end OpcSession.Session
