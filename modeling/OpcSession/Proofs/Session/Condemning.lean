import Mathlib.Data.List.Induction
import OpcSession.Proofs.Session.Warning

/-!
# A session that is given up for another

A session that the server does not know any more cannot be reactivated, and is created
again.  The machine learns of it in two ways.  While the session is in use the channel gives
notice of a fault, and where the session is reactivated the attempt fails.  Any of the four
codes of `StatusCode.isSessionInvalid` makes an attempt give up the session.  The watcher
goes by one of them alone, that the id of the session is invalid, and passes over the others.

What was raised is taken in its turn: only what was in the queue before it can move the
machine first.

* `Run.Destined` — what becomes of an event that was raised at a point of a run;
* `Run.Destined.happen` — it keeps its turn, whatever happens;
* `Run.Sound.leads_watching`, `Run.Sound.leads_ended` — what gives up a session;
* `Run.traced_foldl` — nothing else does;
* `Run.session_condemned` — when a session is given up for another.
-/

namespace OpcSession.Session

/-! ## Events in their turn -/

/-- What a command comes to is up to the epoch and to the kind of the
state. -/
theorem Command.event?_of_kind {m m' : Machine} (hepoch : m'.epoch = m.epoch)
    (hkind : m'.state.kind = m.state.kind) (c : Command) : c.event? m' = c.event? m := by
  have hactive : m'.state.activeSession?.isSome = m.state.activeSession?.isSome := by
    cases hst : m.state <;> cases hst' : m'.state <;> rw [hst, hst'] at hkind <;>
      cases hkind <;> rfl
  cases c with
  | stamped e k => simp only [event?, hepoch]
  | getSession t => simp only [event?, hactive]
  | _ => rfl

/-- A session in use that is not to be used any more is followed by
another. -/
def Transition.condemned : Transition := ⟨.active, .sessionInvalid, .creating⟩

/-- The move that follows an attempt to reactivate a session that has failed:
another attempt after a delay, or where the server does not know the session
any more another session. -/
def Transition.afterFailure (e : SessionError) : Transition :=
  if e.status.isSessionInvalid then ⟨.reactivateExecute, .reactivateInvalid, .creating⟩
  else ⟨.reactivateExecute, .reactivateFailed, .reactivateDelay⟩

namespace State

/-- The event of a move leads to no other: wherever the table knows the event
at all, it is this move that it makes. -/
def MovesOnlyBy (t : Transition) : Prop :=
  ∀ (st : State) (move : Move), st.transition? t.event = some move →
    t = ⟨st.kind, t.event, move.next.kind⟩

/-- The three events by which a session is lost or put off lead to one move
each. -/
theorem movesOnlyBy_failures : MovesOnlyBy .condemned ∧
    MovesOnlyBy ⟨.reactivateExecute, .reactivateInvalid, .creating⟩ ∧
    MovesOnlyBy ⟨.reactivateExecute, .reactivateFailed, .reactivateDelay⟩ := by
  have hby_event : ∀ t : Transition, (∀ st e move, transition? st e = some move → t.event = e →
      t = ⟨st.kind, e, move.next.kind⟩) → MovesOnlyBy t := fun t halone st move hmoves =>
    halone st _ move hmoves rfl
  refine ⟨hby_event _ ?_, hby_event _ ?_, hby_event _ ?_⟩
  all_goals
    intro st e move hmoves hevent
    unfold transition? at hmoves
    split at hmoves <;> cases hmoves <;> cases hevent
    rfl

/-- The failure of an attempt raises one of two events, and each leads to one
move. -/
theorem movesOnlyBy_afterFailure (e : SessionError) : MovesOnlyBy (.afterFailure e) := by
  unfold Transition.afterFailure
  split
  · exact movesOnlyBy_failures.2.1
  · exact movesOnlyBy_failures.2.2

variable {st : State} {e : Event} {move : Move}

/-- A session in use is followed by another only as an invalid one. -/
theorem invalid_of_active (hactive : st.kind = .active) (hmoves : st.transition? e = some move)
    (hcreating : move.next.kind = .creating) : e = .sessionInvalid := by
  unfold transition? at hmoves
  split at hmoves <;> cases hmoves <;> cases hactive <;> cases hcreating
  rfl

/-- A session that is reactivated is followed by another only as an invalid
one. -/
theorem invalid_of_reactivating (hreactivating : st.kind = .reactivateExecute)
    (hmoves : st.transition? e = some move) (hcreating : move.next.kind = .creating) :
    e = .reactivateInvalid := by
  unfold transition? at hmoves
  split at hmoves <;> cases hmoves <;> cases hreactivating <;> cases hcreating
  rfl

end State

namespace Run

variable {A : Prop} {r r' : Run} {o : Occurrence} {t : Transition}

/-- The state stays of its kind unless the machine moves; what it holds may
change without a move. -/
theorem Sound.kind_happen (h : r.Sound A) (o : Occurrence)
    (hstill : (r.happen o).transitions = r.transitions) :
    (r.happen o).machine.state.kind = r.machine.state.kind := by
  have hbecomes := h.becomes o
  generalize r.happen o = r' at hbecomes hstill
  cases hbecomes with
  | stays _ hstate => rw [hstate]
  | resumes _ _ _ hresumes => rw [machine_proceed, Course.kind_run, hresumes.kind]
  | @takes s c rest p _ _ _ hstep hobeys =>
      rcases hobeys.serves_or_moves with ⟨hserves, -⟩ | ⟨e, move, course, hevent, hmoves, -, -⟩
      · rw [machine_proceed]
        exact State.kind_eq_of_bare hserves.bare
      · rw [transitions_proceed, transitions_dequeue, hstep, Machine.obey_published, hevent,
          List.append_right_eq_self] at hstill
        rw [machine_dequeue] at hmoves
        simp [State.published, hmoves] at hstill

/-- What becomes of an event that was raised at a point of a run to make a
move.  It waits in the queue behind all that was there; or the machine has
made the move, or else one to which a command led that was there before it. -/
inductive Destined (r : Run) (t : Transition) (r' : Run) : Prop
  /-- The event waits: the machine has taken only commands that were in front
  of it, and has not moved. -/
  | waits {taken ahead behind : List Command} (hsplit : r.machine.queue = taken ++ ahead)
      (hcommands : r'.commands = r.commands ++ taken)
      (hqueue : r'.machine.queue = ahead ++ .stamped t.event r.machine.epoch :: behind)
      (hkind : r'.machine.state.kind = r.machine.state.kind)
      (hstill : r'.transitions = r.transitions)
  /-- The machine has moved, by the event or by a command that was in front of
  it. -/
  | moved {t' : Transition} {more : List Transition}
      (htransitions : r'.transitions = r.transitions ++ t' :: more)
      (hcause : t' = t ∨ ∃ c ∈ r.machine.queue, c.event? r.machine = some t'.event)

/-- **Whatever happens, an event keeps its turn.**  The queue is only taken
from at its front and added to at its end. -/
theorem Destined.happen (h : r.Destined t r') (hstart : r.Sound A) (hsound : r'.Sound A)
    (honly : State.MovesOnlyBy t) (o : Occurrence) : r.Destined t (r'.happen o) := by
  cases h with
  | moved htransitions hcause =>
      rcases (hsound.turns o).transitions_cases with hsame | ⟨_, _, _, _, _, _, _, hmore⟩
      · exact .moved (hsame.trans htransitions) hcause
      · exact .moved (by rw [hmore, htransitions, List.append_assoc, List.cons_append]) hcause
  | @waits taken ahead behind hsplit hcommands hqueue hkind hstill =>
      have hepoch : r'.machine.epoch = r.machine.epoch := by
        rw [hsound.moves, hstart.moves, ← length_transitions, hstill, length_transitions]
      have hstays : (r'.happen o).transitions = r'.transitions →
          (r'.happen o).machine.state.kind = r.machine.state.kind := fun hsame =>
        (hsound.kind_happen o hsame).trans hkind
      cases hsound.turns o with
      | rests hcommands' htransitions' hqueue' =>
          obtain ⟨news, hqueue'⟩ := hqueue'
          exact .waits hsplit (hcommands'.trans hcommands)
            (by rw [hqueue', hqueue, List.append_assoc, List.cons_append])
            (hstays htransitions') (htransitions'.trans hstill)
      | @takes c rest hhead hcommands' htransitions' hqueue' =>
          obtain ⟨news, hqueue'⟩ := hqueue'
          rw [hqueue] at hhead
          cases ahead with
          | nil =>
              -- It is the turn of the event, which was raised by the state that is current.
              cases hhead
              obtain ⟨move, hmoves⟩ := hsound.moves_of_stamped (hepoch.symm ▸ hqueue)
              have htransitions : (r'.happen o).transitions = r.transitions ++ [t] := by
                rw [htransitions', hstill]
                simp [Command.event?, hepoch, State.published, hmoves, ← honly _ move hmoves]
              exact .moved htransitions (.inl rfl)
          | cons _ ahead =>
              cases hhead
              rcases (hsound.turns o).transitions_cases with
                hsame | ⟨c', _, e', move, hhead', hevent, _, hmore⟩
              · have hsplit' : r.machine.queue = (taken ++ [c]) ++ ahead := by
                  rw [hsplit, List.append_assoc, List.singleton_append]
                exact .waits hsplit' (by rw [hcommands', hcommands, List.append_assoc])
                  (hqueue'.trans (List.append_assoc ..)) (hstays hsame) (hsame.trans hstill)
              · rw [hqueue] at hhead'
                cases hhead'
                have hmine : c ∈ r.machine.queue := by
                  rw [hsplit]
                  exact List.mem_append_right _ List.mem_cons_self
                refine .moved (hmore.trans (by rw [hstill])) (.inr ⟨c, hmine, ?_⟩)
                rw [← hevent, Command.event?_of_kind hepoch hkind]

/-- What happens leads to a move: its event keeps its turn, and moves the
machine when its turn has come. -/
def Leads (r : Run) (o : Occurrence) (t : Transition) : Prop :=
  ∀ r', Reaches (fun _ => True) (r.happen o) r' → r.Destined t r'

/-- An event that is raised is taken in its turn, unless a command in front of
it moves the machine first and thereby makes it stale. -/
theorem Sound.leads (hsound : r.Sound False) (hcommands : (r.happen o).commands = r.commands)
    (hstill : (r.happen o).transitions = r.transitions)
    (hqueue : (r.happen o).machine.queue = r.machine.queue ++ [.stamped t.event r.machine.epoch])
    (honly : State.MovesOnlyBy t) : r.Leads o t := by
  have hraised : r.Destined t (r.happen o) :=
    .waits (List.nil_append _).symm (hcommands.trans (List.append_nil _).symm) hqueue
      (hsound.kind_happen o hstill) hstill
  intro r' hreaches
  have hboth : r'.Sound False ∧ r.Destined t r' :=
    Reaches.invariant (I := fun r' => r'.Sound False ∧ r.Destined t r')
      ⟨hsound.happen False.elim, hraised⟩
      (fun r' o _ ⟨hlater, hdestined⟩ =>
        ⟨hlater.happen False.elim, hdestined.happen hsound hlater honly o⟩) hreaches
  exact hboth.2

/-! ## To give up a session -/

/-- The watcher is to read of a fault of this status, and what it reads before
is nothing to it. -/
def ReadsFault (r : Run) (status : StatusCode) : Prop :=
  ∃ w earlier later, r.engine.watcher? = some w ∧
    w.unread = earlier ++ .serviceFault status :: later ∧
      ∀ n ∈ earlier, Notice.event? n = none

/-- **The watcher gives up the session** on a fault that says that its id is
invalid. -/
theorem Sound.leads_watching (hsound : r.Sound False)
    (hreads : r.ReadsFault .badSessionIdInvalid) :
    r.Leads (.watching true) .condemned := by
  obtain ⟨w, earlier, later, hwatcher, hunread, hquiet⟩ := hreads
  have hseen : w.unread.findSome? Notice.event? = some .sessionInvalid := by
    rw [hunread, List.findSome?_append, List.findSome?_eq_none_iff.mpr hquiet]
    rfl
  have hmachine : (r.happen (.watching true)).machine =
      r.machine.push (.stamped .sessionInvalid r.machine.epoch) := by
    rw [← (hsound.watcher w hwatcher).2]
    exact Engine.machine_watch hwatcher hseen
  exact hsound.leads (commands_of_history rfl) (transitions_of_history rfl)
    (congrArg Machine.queue hmachine) State.movesOnlyBy_failures.1

end Run

/-- The calls of an attempt to reactivate a session: to connect, and to
activate it over the new connection. -/
def Awaiting.reactivates : Awaiting → Bool
  | .connectToReactivate | .reactivateSession => true
  | _ => false

/-- The calls of an attempt to reactivate a session are among those of
attempts to come by one. -/
theorem Awaiting.attempts_of_reactivates {a : Awaiting} (h : a.reactivates) : a.attempts := by
  cases a <;> first | rfl | cases h

/-- An attempt that has failed raises the event of the move that follows
it. -/
theorem Transition.event_afterFailure (e : SessionError) : (Transition.afterFailure e).event =
    if e.status.isSessionInvalid then .reactivateInvalid else .reactivateFailed := by
  unfold afterFailure
  split <;> rfl

/-- Only that the server does not know the session any more is raised as
that. -/
theorem invalid_of_failure {e : SessionError}
    (h : (if e.status.isSessionInvalid then Event.reactivateInvalid else .reactivateFailed) =
      .reactivateInvalid) : e.status.isSessionInvalid := by
  split at h
  · assumption
  · cases h

namespace Machine

variable {s : Surroundings} {m : Machine} {owed : Owed}

/-- Where no session is in use listeners hear nothing, and so raise
nothing. -/
theorem queue_conclude (followUp : Option Event) (hinactive : m.state.activeSession? = none) :
    (m.conclude s owed followUp).machine.queue = m.queue ++ m.outcome s followUp := by
  have hsilent :
      announce s { m with entry? := none } = { machine := { m with entry? := none } } := by
    unfold announce
    split
    · rename_i ws session hst
      dsimp only at hst
      rw [hst] at hinactive
      cases hinactive
    · rfl
  unfold conclude
  rw [hsilent]
  simp only [Progress.andThen, raise_queue]
  rw [(pay_serves _ owed).queue]
  rfl

/-- What an attempt to reactivate a session is over with when it fails. -/
theorem queue_failReactivation (e : SessionError) (hinactive : m.state.activeSession? = none) :
    (m.failReactivation s owed e).machine.queue = m.queue ++ m.outcome s
      (some (Transition.afterFailure e).event) := by
  have hrefused : (m.state.withWaiters []).activeSession? = none := by
    cases hst : m.state <;> rw [hst] at hinactive <;> cases hinactive <;> rfl
  unfold failReactivation fail
  rw [Progress.andThen, queue_conclude _ hrefused, Transition.event_afterFailure]
  rfl

/-- An attempt to reactivate a session fails with the call that it waits
for. -/
theorem resume_failed {entry : Entry} (hwaiting : m.entry? = some entry)
    (hreactivates : entry.awaiting.reactivates) (e : SessionError) :
    m.resume s (.failed e) = m.failReactivation s entry.owed e := by
  obtain ⟨awaiting, owed⟩ := entry
  unfold resume
  rw [hwaiting]
  cases awaiting <;> cases hreactivates <;> rfl

end Machine

/-- That the server does not know the session any more is what an attempt to
reactivate it fails with. -/
theorem Resumes.rejects {s : Surroundings} {o : Outcome} {a : Awaiting} {st : State}
    {c : Course} (h : Resumes s o a st c) (hraises : .reactivateInvalid ∈ c.ending.followUp?) :
    a.reactivates ∧ ∃ e, s.Fails o a st e ∧ e.status.isSessionInvalid := by
  cases h with
  | @fails a _ _ e hhidden hwhy =>
      have hfailure : a.failure e = .reactivateInvalid := Option.some.inj hraises
      cases a with
      | connectToReactivate | reactivateSession =>
          exact ⟨rfl, e, hwhy, invalid_of_failure hfailure⟩
      | _ => cases hfailure
  | _ => cases hraises

theorem Occurrence.RaisesOnly.mono {Q Q' : Event → Prop} {o : Occurrence} (h : o.RaisesOnly Q)
    (hmore : ∀ e, Q e → Q' e) : o.RaisesOnly Q' := by
  cases o with
  | asked c =>
      cases c with
      | event e ticket => exact hmore e h
      | _ => trivial
  | listening ls => exact fun l hl active e hraises => hmore e (h l hl active e hraises)
  | _ => trivial

namespace Run

variable {A : Prop} {r : Run}

/-- The machine waits for a call of an attempt to reactivate a session. -/
def Reactivates (r : Run) : Prop :=
  ∃ entry, r.machine.entry? = some entry ∧ entry.awaiting.reactivates

/-- No session is in use while one is being reactivated. -/
theorem Sound.inactive_of_reactivates (hsound : r.Sound A) (hreactivates : r.Reactivates) :
    r.machine.state.activeSession? = none := by
  obtain ⟨entry, hwaiting, hreactivates⟩ := hreactivates
  have hfits := hsound.fits entry hwaiting
  cases hst : r.machine.state <;> rw [hst] at hfits <;> try rfl
  cases hawaiting : entry.awaiting <;> rw [hawaiting] at hfits hreactivates <;>
    first | exact hfits.elim | cases hreactivates

/-- With the call that it waits for the attempt is over, and nothing but its
failure comes into the queue. -/
theorem Sound.ended_reactivates (hsound : r.Sound A) (hreactivates : r.Reactivates)
    (s : Surroundings) (e : SessionError) :
    (r.happen (.ended s (.failed e))).commands = r.commands ∧
      (r.happen (.ended s (.failed e))).transitions = r.transitions ∧
      (r.happen (.ended s (.failed e))).machine.queue = r.machine.queue ++ r.machine.outcome s
        (some (Transition.afterFailure e).event) := by
  have hinactive := hsound.inactive_of_reactivates hreactivates
  obtain ⟨entry, hwaiting, hreactivates⟩ := hreactivates
  have hnext : r.happen (.ended s (.failed e)) = (r.record (.returned (.failed e))).proceed
      (r.machine.resume s (.failed e)) := by
    simp only [Run.happen, hwaiting]
  refine ⟨?_, ?_, ?_⟩
  · rw [hnext, commands_proceed, commands_returned]
  · rw [hnext, transitions_proceed, transitions_returned,
      Machine.resume_published _ _ _ hwaiting, List.append_nil]
  · rw [hnext, machine_proceed, Machine.resume_failed hwaiting hreactivates,
      Machine.queue_failReactivation e hinactive]

/-- **A reactivation that fails gives up the session**, where the server does
not know it any more, and else another attempt follows. -/
theorem Sound.leads_ended (hsound : r.Sound False) (hreactivates : r.Reactivates)
    {s : Surroundings} (hattended : s.attended) (e : SessionError) :
    r.Leads (.ended s (.failed e)) (.afterFailure e) := by
  obtain ⟨hcommands, hstill, hqueue⟩ := hsound.ended_reactivates hreactivates s e
  refine hsound.leads hcommands hstill ?_ (State.movesOnlyBy_afterFailure e)
  rw [hqueue]
  simp [Machine.outcome, hattended]

/-! ## Why a session is given up -/

/-- An attempt to reactivate a session fails with an error, which is the one
of the call if the call fails. -/
def Rejects (r : Run) (s : Surroundings) (o : Outcome) (e : SessionError) : Prop :=
  ∃ entry, r.machine.entry? = some entry ∧ entry.awaiting.reactivates ∧
    s.Fails o entry.awaiting r.machine.state e ∧ ∀ e', o = .failed e' → e' = e

/-- That the server does not know the session any more is raised when an
attempt to reactivate it fails for that reason. -/
theorem Sound.rejects (hsound : r.Sound A) {o : Occurrence} {k : Nat}
    (hqueued : .stamped .reactivateInvalid k ∈ (r.happen o).machine.queue) :
    .stamped .reactivateInvalid k ∈ r.machine.queue ∨
      ∃ s outcome e, o = .ended s outcome ∧ r.Rejects s outcome e ∧ e.status.isSessionInvalid ∧
        k = r.machine.epoch := by
  rcases hsound.emits hqueued with hold | hemits
  · exact .inl hold
  · cases hemits with
    | enters henters hraises => cases henters <;> cases hraises
    | watches _ _ hraises => cases Notice.isNotice_of_event? hraises
    | @resumes s outcome entry course _ hwaiting hresumes hraises =>
        obtain ⟨hreactivates, e, hfails, hinvalid⟩ := hresumes.rejects hraises
        cases outcome with
        | failed e' =>
            -- The error is the one of the call, and nothing else is raised.
            obtain ⟨-, -, hqueue⟩ := hsound.ended_reactivates ⟨entry, hwaiting, hreactivates⟩ s e'
            rw [hqueue, List.mem_append] at hqueued
            refine hqueued.imp_right fun hraised => ?_
            have hfailure := Option.some.inj (Machine.mem_outcome hraised).1
            rw [Transition.event_afterFailure] at hfailure
            exact ⟨s, _, e', rfl, ⟨entry, hwaiting, hreactivates,
              .call (Awaiting.attempts_of_reactivates hreactivates), by simp⟩,
              invalid_of_failure hfailure, rfl⟩
        | _ =>
            exact .inr ⟨s, _, e, rfl, ⟨entry, hwaiting, hreactivates, hfails, by simp⟩,
              hinvalid, rfl⟩

/-- Every move of a run is one of the table, with the kinds of the states from
which and to which it led. -/
def Tabled (r : Run) : Prop :=
  ∀ t ∈ r.transitions, ∃ (st : State) (move : State.Move),
    st.transition? t.event = some move ∧ t.source = st.kind ∧ t.target = move.next.kind

/-- Whatever happens, a move that is made is looked up in the table. -/
theorem Tabled.happen (h : r.Tabled) (hsound : r.Sound A) (o : Occurrence) :
    (r.happen o).Tabled := by
  intro t hmade
  rcases (hsound.turns o).transitions_cases with hsame | ⟨_, _, e, move, _, _, hmoves, hmore⟩
  · exact h t (hsame ▸ hmade)
  · rw [hmore, List.mem_append] at hmade
    refine hmade.elim (h t) fun hnew => ?_
    cases List.mem_singleton.mp hnew
    exact ⟨_, move, hmoves, rfl, rfl⟩

/-- When the machine had moved `k` times, the channel gave notice of a fault
that says that the id of the session is invalid. -/
def FaultedAt (os : List Occurrence) (k : Nat) : Prop :=
  ∃ earlier capacity later,
    os = earlier ++ .noticed capacity (.serviceFault .badSessionIdInvalid) :: later ∧
      (earlier.foldl Run.happen {}).moves = k

/-- When the machine had moved `k` times, an attempt to reactivate the session
failed because the server did not know it any more. -/
def RejectedAt (os : List Occurrence) (k : Nat) : Prop :=
  ∃ earlier s outcome later e, os = earlier ++ .ended s outcome :: later ∧
    (earlier.foldl Run.happen {}).moves = k ∧
      (earlier.foldl Run.happen {}).Rejects s outcome e ∧ e.status.isSessionInvalid

variable {os : List Occurrence}

/-- What a watcher was told at an occurrence it was told, however the run goes
on. -/
theorem FaultedAt.snoc {k : Nat} (h : FaultedAt os k) (o : Occurrence) :
    FaultedAt (os ++ [o]) k := by
  obtain ⟨earlier, capacity, later, rfl, hmoves⟩ := h
  exact ⟨earlier, capacity, later ++ [o], by simp, hmoves⟩

/-- What a server has rejected at an occurrence it has rejected, however the
run goes on. -/
theorem RejectedAt.snoc {k : Nat} (h : RejectedAt os k) (o : Occurrence) :
    RejectedAt (os ++ [o]) k := by
  obtain ⟨earlier, s, outcome, later, e, rfl, hmoves, hrejects⟩ := h
  exact ⟨earlier, s, outcome, later ++ [o], e, by simp, hmoves, hrejects⟩

/-- Whoever raises an event or listens does not claim that a session is
invalid. -/
abbrev Unclaiming (o : Occurrence) : Prop :=
  o.RaisesOnly fun e => e ≠ .sessionInvalid ∧ e ≠ .reactivateInvalid

/-- Along a run every claim that a session is invalid goes back to a fault or
to an attempt that failed. -/
theorem traced_foldl (hcareful : ∀ o ∈ os, Unclaiming o) :
    (os.foldl Run.happen {}).Tabled ∧ (os.foldl Run.happen {}).Heeds (FaultedAt os) ∧
      (os.foldl Run.happen {}).Traced .reactivateInvalid (RejectedAt os) := by
  induction os using List.reverseRecOn with
  | nil =>
      exact ⟨by simp [Tabled, transitions],
        heeds_start (by simp [Listeners.RaiseOnly, Listeners.snapshot]) rfl rfl rfl,
        traced_start (by simp [Listeners.RaiseOnly, Listeners.snapshot]) rfl rfl⟩
  | append_singleton os o ih =>
      obtain ⟨htabled, hheeds, htraced⟩ := ih fun o ho => hcareful o (List.mem_append_left _ ho)
      have hsound := sound_foldl os
      have hunclaiming := hcareful o (List.mem_append_right _ (List.mem_singleton_self o))
      rw [List.foldl_append, List.foldl_cons, List.foldl_nil]
      refine ⟨htabled.happen hsound o, ?_, ?_⟩
      · refine (hheeds.mono fun k h => h.snoc o).happen hsound
          (hunclaiming.mono fun e h => h.1) ?_
        rintro capacity n rfl hwarns
        exact ⟨os, capacity, [], by rw [Notice.eq_of_warns hwarns], hsound.moves.symm⟩
      · refine (htraced.mono fun k h => h.snoc o).happen hsound (by simp [Event.Ordinary])
          (hunclaiming.mono fun e h => h.2) fun k hqueued => ?_
        refine (hsound.rejects hqueued).imp_right ?_
        rintro ⟨s, outcome, e, rfl, hrejects, hinvalid, rfl⟩
        exact ⟨os, s, outcome, [], e, rfl, hsound.moves.symm, hrejects, hinvalid⟩

/-- **When a session is given up for another.**  Whenever the watcher is to
read of a fault that says that the id of the session is invalid, the session
in use is given up, as soon as what was queued before has been taken.
Whenever the call fails for which an attempt to reactivate a session waits,
the session is given up in the same way if its error counts as one of the
codes by which the server does not know a session any more, and else another
attempt follows.  And if nobody but the engine claims a session to be invalid,
a session in use is followed by another only after such a fault, and one that
is reactivated only after such a failure, since the machine came into the
state that it leaves. -/
theorem session_condemned (os : List Occurrence) :
    let r := os.foldl Run.happen {}
    (r.ReadsFault .badSessionIdInvalid → r.Leads (.watching true) .condemned) ∧
      (r.Reactivates → ∀ s : Surroundings, s.attended → ∀ e : SessionError,
        r.Leads (.ended s (.failed e)) (.afterFailure e)) ∧
      ((∀ o ∈ os, Unclaiming o) → ∀ before t after, r.transitions = before ++ t :: after →
        t.target = .creating →
          (t.source = .active → FaultedAt os before.length) ∧
            (t.source = .reactivateExecute → RejectedAt os before.length)) := by
  have hsound := sound_foldl os
  refine ⟨hsound.leads_watching, fun hreactivates s hattended e =>
    hsound.leads_ended hreactivates hattended e, fun hcareful before t after hsplit hcreating => ?_⟩
  obtain ⟨htabled, hheeds, htraced⟩ := traced_foldl hcareful
  have hmade : t ∈ (os.foldl Run.happen {}).transitions := by
    rw [hsplit]
    exact List.mem_append_right _ List.mem_cons_self
  obtain ⟨st, move, hmoves, hsource, htarget⟩ := htabled t hmade
  constructor
  · intro hactive
    exact hheeds.past before t after hsplit
      (State.invalid_of_active (hsource ▸ hactive) hmoves (htarget ▸ hcreating))
  · intro hreactivating
    exact htraced.past before t after hsplit
      (State.invalid_of_reactivating (hsource ▸ hreactivating) hmoves (htarget ▸ hcreating))

/-- The channel gives notice of a fault while a session is in use. -/
def faulted (status : StatusCode) : List Occurrence :=
  opening 7 ⟨1, .numeric 9⟩ .null ++ [.noticed 32 (.serviceFault status)]

/-- The watcher reads of the fault, and the machine takes what it raises. -/
def givenUp : List Occurrence :=
  faulted .badSessionIdInvalid ++ [.watching true, .taking .placid]

/-- The connection is lost, and the machine waits for another to reactivate
the session. -/
def reconnecting : List Occurrence :=
  opening 7 ⟨1, .numeric 9⟩ .null ++
    [.noticed 32 .inactive, .watching true, .taking .placid, .fired true 0, .taking .placid]

/-- The server tells of an id that it does not know, in use and when it is to
be reactivated. -/
theorem session_condemned_twice :
    (((faulted .badSessionIdInvalid).foldl Run.happen {}).ReadsFault .badSessionIdInvalid ∧
      ((faulted .badSessionIdInvalid).foldl Run.happen {}).Leads (.watching true) .condemned) ∧
    ((reconnecting.foldl Run.happen {}).Reactivates ∧ Surroundings.placid.attended ∧
      (reconnecting.foldl Run.happen {}).Leads
        (.ended .placid (.failed (.serviceFault .badSessionClosed)))
        ⟨.reactivateExecute, .reactivateInvalid, .creating⟩) ∧
    ∃ before after,
      (givenUp.foldl Run.happen {}).transitions = before ++ .condemned :: after ∧
        FaultedAt givenUp before.length := by
  have hreads : ((faulted .badSessionIdInvalid).foldl Run.happen {}).ReadsFault
      .badSessionIdInvalid := ⟨_, [], [], rfl, rfl, by simp⟩
  have hreactivates : (reconnecting.foldl Run.happen {}).Reactivates := ⟨_, rfl, rfl⟩
  have hcareful : ∀ o ∈ givenUp, Unclaiming o := by
    simp [givenUp, faulted, opening, Occurrence.RaisesOnly]
  have hsplit : (givenUp.foldl Run.happen {}).transitions =
        [⟨.inactive, .sessionRequested, .creating⟩, ⟨.creating, .createSucceeded, .activating⟩,
          ⟨.activating, .activateSucceeded, .active⟩] ++ .condemned :: [] := by decide +kernel
  exact ⟨⟨hreads, (session_condemned _).1 hreads⟩,
    ⟨hreactivates, rfl, (session_condemned _).2.1 hreactivates .placid rfl _⟩,
    _, _, hsplit, ((session_condemned _).2.2 hcareful _ _ _ hsplit rfl).1 rfl⟩

/-- **A session that is closed stays in use.**  The server does not know it
any more, and it is to be created again; but the watcher passes over the fault
that says so, and nothing is raised. -/
theorem in_use_though_closed :
    ¬ ∀ (os : List Occurrence) (status : StatusCode), status.isSessionInvalid →
      (os.foldl Run.happen {}).ReadsFault status →
        (os.foldl Run.happen {}).Leads (.watching true) .condemned := by
  intro hclaim
  have hreads : ((faulted .badSessionClosed).foldl Run.happen {}).ReadsFault .badSessionClosed :=
    ⟨_, [], [], rfl, rfl, by simp⟩
  have hqueue : (((faulted .badSessionClosed).foldl Run.happen {}).happen
      (.watching true)).machine.queue = [] := by decide +kernel
  have hstill : (((faulted .badSessionClosed).foldl Run.happen {}).happen
      (.watching true)).transitions =
        ((faulted .badSessionClosed).foldl Run.happen {}).transitions := by decide +kernel
  cases hclaim _ .badSessionClosed rfl hreads _ .refl with
  | waits _ _ hqueued =>
      rw [hqueue] at hqueued
      simp at hqueued
  | moved htransitions =>
      rw [hstill] at htransitions
      simp at htransitions

end Run

end OpcSession.Session
