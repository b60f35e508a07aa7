import Mathlib.Algebra.Group.Nat.Defs
import OpcSession.Proofs.Session.Condemning

/-!
# How long the machine waits before it reactivates a session

When the connection is lost the machine waits before it tries to reactivate the session, and
it waits again whenever an attempt has failed: at first not at all, then for one second, and
then for twice as long each time, up to `maxDelay` seconds.  A state knows its own delay and
not how often the machine has waited.  The moves of a run tell that, and the law ties the
delays to them.

A session that the server does not know any more is given up, however long the delay has
become.

* `backoff`, `waitCount`, `lawfulDelays` — the law;
* `Run.Paced`, `Run.Paced.happen` — what is scheduled along a run follows it;
* `Run.SetBack`, `Run.Sound.leads_setback` — what an attempt that fails leads to;
* `Run.GivesUp`, `Run.Sound.givesUp` — how a session is given up, turn by turn;
* `Run.reactivation_delays` — both for every run.
-/

namespace OpcSession.Session

/-! ## The law -/

/-- The delay with which the machine waits for the `k`-th time, in seconds. -/
def backoff : Nat → Nat
  | 0 | 1 => 0
  | k + 2 => min (2 ^ k) maxDelay

/-- How often the machine has waited to reactivate a session when it moves
once more, if it had waited `k` times since a session was last in use. -/
def waitsAfter (k : Nat) (t : Transition) : Nat :=
  (if t.source = .active then 0 else k) + (if t.target = .reactivateDelay then 1 else 0)

/-- How often the machine has waited to reactivate a session since one was
last in use. -/
def waitCount (ts : List Transition) : Nat := ts.foldl waitsAfter 0

/-- The delay of a move that is followed by a wait, the `k`-th one. -/
def Transition.delay? (k : Nat) (t : Transition) : Option Duration :=
  if t.target = .reactivateDelay then some (.ofSecs (backoff k)) else none

/-- The delays that the law gives to the waits among moves, before which there
were `k`. -/
def lawfulDelays (k : Nat) : List Transition → List Duration
  | [] => []
  | t :: ts => (t.delay? (waitsAfter k t)).toList ++ lawfulDelays (waitsAfter k t) ts

/-- The delay is handed on as the law says: from the delay of one wait the
machine computes that of the next, and nothing else is needed to know it. -/
theorem nextDelay_backoff {k : Nat} (hwaited : 1 ≤ k) :
    nextDelay (backoff k) = backoff (k + 1) := by
  match k, hwaited with
  | 1, _ => rfl
  | k + 2, _ =>
      have hpositive : 0 < 2 ^ k := Nat.two_pow_pos k
      have hsome_time : backoff (k + 2) ≠ 0 := by
        simp only [backoff, maxDelay]
        omega
      rw [nextDelay, if_neg hsome_time]
      simp only [backoff, maxDelay, pow_succ]
      omega

example : (List.range 7).map (fun k => backoff (k + 1)) = [0, 1, 2, 4, 8, 16, 16] := by decide

/-- The count goes on from where it was, one move at a time. -/
theorem waitCount_snoc (ts : List Transition) (t : Transition) :
    waitCount (ts ++ [t]) = waitsAfter (waitCount ts) t := by
  rw [waitCount, List.foldl_append, List.foldl_cons, List.foldl_nil, ← waitCount]

/-- The lawful delays go on likewise: a move adds at most one to them. -/
theorem lawfulDelays_snoc (k : Nat) (ts : List Transition) (t : Transition) :
    lawfulDelays k (ts ++ [t]) =
      lawfulDelays k ts ++ (t.delay? (waitsAfter (ts.foldl waitsAfter k) t)).toList := by
  induction ts generalizing k with
  | nil => simp [lawfulDelays]
  | cons t' ts ih =>
      simp only [List.cons_append, lawfulDelays, ih, List.foldl_cons, List.append_assoc]

namespace State

/-- The delay that a state keeps for the next attempt.  Both states of
reactivation keep one, since an attempt that fails has to know how long to
wait. -/
def delay? : State → Option Nat
  | reactivateDelay _ delay _ | reactivateExecute _ delay _ _ => some delay
  | _ => none

/-- The delay with which a state is entered: the timer is started on entry to
the one state that does nothing but wait. -/
def timer? : State → Option Duration
  | reactivateDelay _ delay _ => some (.ofSecs delay)
  | _ => none

@[simp] theorem delay?_bare (st : State) : st.bare.delay? = st.delay? := by
  cases st <;> rfl

@[simp] theorem timer?_bare (st : State) : st.bare.timer? = st.timer? := by
  cases st <;> rfl

/-- The delay that a state keeps is the one of the `k`-th wait. -/
def Paced (k : Nat) (st : State) : Prop :=
  ∀ delay, st.delay? = some delay → 1 ≤ k ∧ delay = backoff k

variable {st : State} {e : Event} {move : Move} {k : Nat}

/-- A state that keeps the law starts the timer that the law asks for, and no
other state starts one. -/
theorem Paced.timer (h : st.Paced k) :
    st.timer? = if st.kind = .reactivateDelay then some (.ofSecs (backoff k)) else none := by
  cases st with
  | reactivateDelay previous delay ws =>
      rw [← (h delay rfl).2]
      rfl
  | _ => rfl

/-- **Every move of the table keeps the law.**  A lost connection sets the
delay of the first wait, a failed attempt that of the next, and all other
moves drop it. -/
theorem Paced.step (h : st.Paced k) (hmoves : st.transition? e = some move) :
    move.next.Paced (waitsAfter k ⟨st.kind, e, move.next.kind⟩) := by
  intro delay hkeeps
  unfold transition? at hmoves
  split at hmoves <;> cases hmoves <;> cases hkeeps
  · exact ⟨Nat.le_refl 1, rfl⟩
  · exact h delay rfl
  · obtain ⟨hwaited, rfl⟩ := h _ rfl
    exact ⟨Nat.le_add_left 1 k, nextDelay_backoff hwaited⟩

/-- The machine comes to wait when the connection is lost, or when an attempt
has failed. -/
theorem waits_cases (hmoves : st.transition? e = some move)
    (hwaits : move.next.kind = .reactivateDelay) :
    (st.kind = .active ∧ e = .connectionLost) ∨
      (st.kind = .reactivateExecute ∧ e = .reactivateFailed) := by
  unfold transition? at hmoves
  split at hmoves <;> cases hmoves <;> cases hwaits
  · exact .inl ⟨rfl, rfl⟩
  · exact .inr ⟨rfl, rfl⟩

/-- An attempt to reactivate a session is given up, broken off, or has come
out well or not. -/
theorem reactivating_cases (hreactivating : st.kind = .reactivateExecute)
    (hmoves : st.transition? e = some move) :
    (e = .reactivateInvalid ∧ move.next.kind = .creating) ∨
      (e = .disconnectRequested ∧ move.next.kind = .closing) ∨
      (e = .reactivateSucceeded ∧ move.next.kind = .active) ∨
      (e = .reactivateFailed ∧ move.next.kind = .reactivateDelay) := by
  unfold transition? at hmoves
  split at hmoves <;> cases hmoves <;> cases hreactivating <;> simp [kind]

end State

/-! ## The timers that are started -/

/-- The delay of the timer that an effect starts, if it starts one. -/
def Effect.delay? : Effect → Option Duration
  | scheduled _ delay => some delay
  | _ => none

/-- The delay of the timer that an entry of a history starts, if it starts
one. -/
def Happening.delay? : Happening → Option Duration
  | did f => f.delay?
  | _ => none

/-- Quiet effects start no timer, so they can be left out of the account. -/
theorem delays_quiet {fs : List Effect} (hquiet : ∀ f ∈ fs, f.isQuiet) :
    fs.filterMap Effect.delay? = [] := by
  rw [List.filterMap_eq_nil_iff]
  intro f hf
  cases f with
  | scheduled epoch delay => cases hquiet _ hf
  | _ => rfl

/-- To move starts no timer: it is the state to which the machine has moved
that starts one when it is entered. -/
theorem Moves.delays {Q : Event → Prop} {m : Machine} {event : Event} {move : State.Move}
    {p : Progress} (h : Moves Q m event move p) : p.effects.filterMap Effect.delay? = [] := by
  have hleft : (Machine.leave m.state m.epoch).filterMap Effect.delay? = [] := by
    cases m.state with
    | closing session completions => exact delays_quiet (quiet_answers _ _)
    | _ => rfl
  obtain ⟨rest, hquiet, heffects⟩ := h.effects
  rw [heffects, List.cons_append, List.filterMap_cons_none rfl, List.filterMap_append, hleft,
    delays_quiet hquiet, List.append_nil]

/-- To enter a state starts a timer where the machine is to wait. -/
theorem Enters.delays {s : Surroundings} {event : Event} {epoch : Nat} {st : State} {c : Course}
    (h : Enters s event epoch st c) : c.before.filterMap Effect.delay? = st.timer?.toList := by
  cases h with
  | activating hhidden | refused hhidden =>
      exact delays_quiet fun f hf => quiet_of_private (hhidden f hf)
  | _ => rfl

/-- To go on after a call starts no timer, since no call is made on entry to
the state that waits. -/
theorem Resumes.delays {s : Surroundings} {o : Outcome} {a : Awaiting} {st : State} {c : Course}
    (h : Resumes s o a st c) : c.before.filterMap Effect.delay? = [] := by
  cases h with
  | fails hhidden | reconnected hhidden =>
      exact delays_quiet fun f hf => quiet_of_private (hhidden f hf)
  | _ => rfl

/-- To go on after a call leaves the delay alone; only moves change it. -/
theorem Resumes.delay? {s : Surroundings} {o : Outcome} {a : Awaiting} {st : State} {c : Course}
    (h : Resumes s o a st c) : c.state.delay? = st.delay? := by
  cases h <;> rfl

/-- A state is entered with the delay that it came with, whatever is done on
the way. -/
theorem Enters.delay? {s : Surroundings} {event : Event} {epoch : Nat} {st : State} {c : Course}
    (h : Enters s event epoch st c) : c.state.delay? = st.delay? := by
  cases h <;> rfl

/-- The end of a course starts no timer: it makes a call, answers callers or
raises an event. -/
theorem Course.delays_run (c : Course) (s : Surroundings) (owed : Owed) (m : Machine) :
    (c.run s owed m).effects.filterMap Effect.delay? = c.before.filterMap Effect.delay? := by
  rcases c.ending.waits_or_rests with ⟨awaiting, call, hwaits⟩ | hrests
  · rw [run, hwaits]
    exact List.filterMap_append.trans (List.append_nil _)
  · have hended := Ending.concludes_of_rests (m := { m with state := c.state }) hrests s owed
      (Listeners.raiseOnly_any _)
    exact List.filterMap_append.trans ((congrArg _ (delays_quiet hended.quiet)).trans
      (List.append_nil _))

/-- The scheduler notes the delays of the timers that it is given, in the
order in which they are started. -/
theorem Engine.requested_timersAfter (ts : Timers Nat) (fs : List Effect) :
    (fs.foldl timersAfter ts).requested = ts.requested ++ fs.filterMap Effect.delay? := by
  have hcancelled : ∀ (due : List (Timer Nat)) (ts : Timers Nat),
      (due.foldl (fun ts t => (ts.cancel t.id).2) ts).requested = ts.requested := by
    intro due
    induction due with
    | nil => exact fun _ => rfl
    | cons t due ih =>
        intro ts
        rw [List.foldl_cons, ih]
        unfold Timers.cancel
        split <;> rfl
  induction fs generalizing ts with
  | nil => exact (List.append_nil _).symm
  | cons f fs ih =>
      rw [List.foldl_cons, ih]
      cases f with
      | scheduled epoch delay => exact List.append_assoc ..
      | unscheduled epoch => exact congrArg (· ++ _) (hcancelled _ ts)
      | _ => rfl

namespace Run

variable {A : Prop} {r : Run}

/-- The delays of all timers that were started along a run, as its history
tells them. -/
def delays (r : Run) : List Duration := r.history.filterMap Happening.delay?

theorem delays_of_history {r' : Run} (hhistory : r'.history = r.history) :
    r'.delays = r.delays := by
  rw [delays, hhistory, ← delays]

@[simp] theorem delays_proceed (r : Run) (p : Progress) :
    (r.proceed p).delays = r.delays ++ p.effects.filterMap Effect.delay? := by
  rw [delays, history_proceed, List.filterMap_append, List.filterMap_map]
  rfl

@[simp] theorem delays_returned (r : Run) (o : Outcome) :
    (r.record (.returned o)).delays = r.delays := by
  simp [delays, Happening.delay?]

@[simp] theorem delays_dequeue (r : Run) (c : Command) (rest : List Command) :
    (r.dequeue c rest).delays = r.delays := by
  simp [delays, Happening.delay?]

/-- The scheduler has noted all timers of a run, and no others: nothing but
the effects of the machine starts one. -/
theorem requested_happen (h : r.engine.timers.requested = r.delays) (o : Occurrence) :
    (r.happen o).engine.timers.requested = (r.happen o).delays := by
  have hproceeds : ∀ (r' : Run) (p : Progress), r'.engine.timers.requested = r'.delays →
      (r'.proceed p).engine.timers.requested = (r'.proceed p).delays := by
    intro r' p h
    rw [timers_proceed, Engine.requested_timersAfter, h, delays_proceed]
  cases o with
  | asked c =>
      exact r.asked_cases (motive := fun r' => r'.engine.timers.requested = r'.delays) h
        fun _ => h
  | taking s =>
      refine r.taking_cases (motive := fun r' => r'.engine.timers.requested = r'.delays) h ?_
      intro c rest _ _
      exact hproceeds _ _ (h.trans (r.delays_dequeue c rest).symm)
  | ended s o =>
      refine r.ended_cases (motive := fun r' => r'.engine.timers.requested = r'.delays) h ?_
      intro entry _
      exact hproceeds _ _ (h.trans (r.delays_returned o).symm)
  | watching attended =>
      have htimers : (r.engine.watch attended).timers = r.engine.timers := by
        unfold Engine.watch
        split
        · rfl
        · split
          · rfl
          · cases attended <;> rfl
      exact (congrArg Timers.requested htimers).trans h
  | fired attended id =>
      rw [delays_of_history (r.history_fired attended id), ← h]
      simp only [Run.happen, fire]
      split
      · rfl
      · cases attended <;> rfl
  | noticed | elapsed | listening => exact h

/-- At a point of a run all waits had their delays, and the delay of the state
is the one of the last wait. -/
structure Paced (r : Run) : Prop where
  /-- The delays of all waits so far are the lawful ones. -/
  delays : r.delays = lawfulDelays 0 r.transitions
  /-- The delay that the state keeps is that of the last wait, which is what
  the next one is computed from. -/
  state : r.machine.state.Paced (waitCount r.transitions)

/-- There has been no wait when the machine starts, and its state keeps no
delay. -/
theorem paced_start : Paced {} := ⟨rfl, fun _ hkeeps => by cases hkeeps⟩

/-- What neither moves nor starts a timer keeps the law, if it leaves the
delay of the state as it is. -/
theorem Paced.still {r' : Run} (h : r.Paced) (hdelays : r'.delays = r.delays)
    (hstill : r'.transitions = r.transitions)
    (hstate : r'.machine.state.delay? = r.machine.state.delay?) : r'.Paced where
  delays := by rw [hdelays, hstill, h.delays]
  state := by
    intro delay hkeeps
    rw [hstill]
    exact h.state delay (hstate ▸ hkeeps)

/-- A step that serves callers keeps the law, since it does nothing but answer
or let somebody wait. -/
theorem Paced.serves (h : r.Paced) {p : Progress} (hserves : Serves r.machine p) :
    (r.proceed p).Paced := by
  refine h.still ?_ ?_ ?_
  · rw [delays_proceed, delays_quiet hserves.quiet, List.append_nil]
  · rw [transitions_proceed, published_quiet hserves.quiet, List.append_nil]
  · rw [machine_proceed, ← State.delay?_bare, hserves.bare, State.delay?_bare]

/-- A move keeps the law: it counts as a wait or not, and the state to which
it leads is entered with its own delay. -/
theorem Paced.moves (h : r.Paced) {s : Surroundings} {e : Event} {move : State.Move}
    {waiter : Option Ticket} {course : Course} {epoch : Nat}
    (hmoves : r.machine.state.transition? e = some move)
    (henters : Enters s e epoch (r.machine.depart s e move waiter).machine.state course)
    (owed : Owed) :
    (r.proceed ((r.machine.depart s e move waiter).andThen (course.run s owed))).Paced := by
  have hdeparts := r.machine.departs s e move waiter
  have hpaced := h.state.step hmoves
  have htransitions : (r.proceed ((r.machine.depart s e move waiter).andThen
      (course.run s owed))).transitions =
        r.transitions ++ [⟨r.machine.state.kind, e, move.next.kind⟩] := by
    rw [transitions_proceed, Progress.andThen, List.filterMap_append, hdeparts.published,
      published_eq_nil fun _ => Course.still_run henters.aside, List.append_nil]
  constructor
  · rw [htransitions, lawfulDelays_snoc, ← waitCount, ← h.delays, delays_proceed, Progress.andThen,
      List.filterMap_append, hdeparts.delays, List.nil_append, Course.delays_run, henters.delays,
      ← State.timer?_bare, hdeparts.bare, State.timer?_bare, hpaced.timer]
    rfl
  · intro delay hkeeps
    rw [machine_proceed, Progress.andThen, ← State.delay?_bare, Course.bare_run,
      State.delay?_bare, henters.delay?, ← State.delay?_bare, hdeparts.bare,
      State.delay?_bare] at hkeeps
    rw [htransitions, waitCount_snoc]
    exact hpaced delay hkeeps

/-- **Whatever happens keeps the law.**  Only the commands that move the
machine have anything to show. -/
theorem Paced.happen (h : r.Paced) (hsound : r.Sound A) (o : Occurrence) : (r.happen o).Paced := by
  have hbecomes := hsound.becomes o
  generalize r.happen o = r' at hbecomes
  cases hbecomes with
  | stays hhistory hstate =>
      exact h.still (delays_of_history hhistory) (transitions_of_history hhistory) (by rw [hstate])
  | resumes _ hwaiting hstep hresumes =>
      refine h.still ?_ ?_ ?_
      · rw [delays_proceed, delays_returned, Course.delays_run, hresumes.delays, List.append_nil]
      · rw [transitions_proceed, transitions_returned, hstep,
          Machine.resume_published _ _ _ hwaiting, List.append_nil]
      · rw [machine_proceed, ← State.delay?_bare, Course.bare_run, State.delay?_bare,
          hresumes.delay?]
  | @takes s c rest p _ _ _ _ hobeys =>
      have htaken : (r.dequeue c rest).Paced :=
        h.still (r.delays_dequeue c rest) (r.transitions_dequeue c rest) rfl
      rcases hobeys.serves_or_moves with ⟨hserves, -⟩ | ⟨e, move, course, -, hmoves, henters, rfl⟩
      · exact htaken.serves hserves
      · exact htaken.moves hmoves henters c.owed

/-- The law holds at the end of every run, and the scheduler has noted the
same delays. -/
theorem paced_foldl (os : List Occurrence) : (os.foldl Run.happen {}).Paced ∧
    (os.foldl Run.happen {}).engine.timers.requested = (os.foldl Run.happen {}).delays := by
  induction os using List.reverseRecOn with
  | nil => exact ⟨paced_start, rfl⟩
  | append_singleton os o ih =>
      rw [List.foldl_append, List.foldl_cons, List.foldl_nil]
      exact ⟨ih.1.happen (sound_foldl os) o, requested_happen ih.2 o⟩

/-- What a move means for the waits that it begins: the machine lost the
connection of a session in use, by an event that was not out of date, and
counts from one again; or an attempt has failed, and it goes on counting. -/
inductive Counts (r : Run) (t : Transition) : Prop
  /-- The connection of a session in use was lost, by an event that is taken
  in its own epoch. -/
  | restarts {c : Command} {rest : List Command} (hhead : r.machine.queue = c :: rest)
      (hfresh : c.event? r.machine = some .connectionLost)
      (hlost : t = ⟨.active, .connectionLost, .reactivateDelay⟩)
      (hfirst : waitCount (r.transitions ++ [t]) = 1)
  /-- An attempt has failed, and there has been a wait before it. -/
  | goesOn (hfailed : t = ⟨.reactivateExecute, .reactivateFailed, .reactivateDelay⟩)
      (hwaited : 1 ≤ waitCount r.transitions)
      (hnext : waitCount (r.transitions ++ [t]) = waitCount r.transitions + 1)

/-- **Only a connection that is lost restarts the count.**  The state that
waits is reached in these two ways and in no other. -/
theorem Paced.counts (h : r.Paced) (hsound : r.Sound A) {o : Occurrence} {t : Transition}
    (hmoved : (r.happen o).transitions = r.transitions ++ [t])
    (hdelayed : t.target = .reactivateDelay) : r.Counts t := by
  rcases (hsound.turns o).transitions_cases with
    hsame | ⟨c, rest, e, move, hhead, hevent, hmoves, hmore⟩
  · simp [hsame] at hmoved
  · cases List.append_cancel_left (hmore.symm.trans hmoved)
    have htarget : move.next.kind = .reactivateDelay := hdelayed
    rcases State.waits_cases hmoves htarget with ⟨hactive, rfl⟩ | ⟨hreactivating, rfl⟩
    · refine .restarts hhead hevent (by rw [hactive, htarget]) ?_
      rw [waitCount_snoc, waitsAfter, if_pos hactive, if_pos hdelayed]
    · obtain ⟨delay, hkeeps⟩ : ∃ delay, r.machine.state.delay? = some delay := by
        cases hst : r.machine.state <;> rw [hst] at hreactivating <;> cases hreactivating
        exact ⟨_, rfl⟩
      refine .goesOn (by rw [hreactivating, htarget]) (h.state delay hkeeps).1 ?_
      rw [waitCount_snoc, waitsAfter, if_neg (by simp [hreactivating]), if_pos hdelayed]

end Run

/-! ## Attempts that fail -/

/-- Why a session cannot even be presented to the server, if it cannot. -/
def Surroundings.refusal? (s : Surroundings) (session : Session) : Option SessionError :=
  match s.endpoint? with
  | none => some .noEndpoint
  | some endpoint =>
    match s.identify endpoint session.serverNonce with
    | .error e => some e
    | .ok _ =>
      match (s.clientSignature session).2 with
      | .error e => some e
      | .ok _ => none

/-- The error with which an attempt to reactivate a session is over when the
call has ended for which it waits, unless it goes on or succeeds. -/
def Surroundings.setback? (s : Surroundings) (previous : Session) (o : Outcome) :
    Awaiting → Option SessionError
  | .connectToReactivate =>
    match o with
    | .failed e => some e
    | _ => s.refusal? previous
  | .reactivateSession =>
    match (Machine.outcomeResponse o).bind activationNonce with
    | .error e => some e
    | .ok _ => none
  | _ => none

namespace Machine

variable {s : Surroundings} {m : Machine} {e : SessionError}

/-- A session that cannot be presented to the server is not: the attempt fails
before anything is sent. -/
theorem activate_refused {session : Session} (hwhy : s.refusal? session = some e) (owed : Owed)
    (awaiting : Awaiting) (failed : SessionError → Machine → Progress) :
    ∃ before : List Effect, m.activate s owed awaiting session failed =
      ({ machine := m, effects := before } : Progress).andThen (failed e) := by
  unfold Surroundings.refusal? at hwhy
  unfold activate
  cases hfound : s.endpoint? with
  | none =>
      rw [hfound] at hwhy
      cases hwhy
      exact ⟨[], by simp [Progress.andThen]⟩
  | some endpoint =>
      rw [hfound] at hwhy
      dsimp only at hwhy ⊢
      cases hidentified : s.identify endpoint session.serverNonce with
      | error e' =>
          rw [hidentified] at hwhy
          cases hwhy
          exact ⟨[.identified session.serverNonce], rfl⟩
      | ok token =>
          rw [hidentified] at hwhy
          dsimp only at hwhy ⊢
          generalize s.clientSignature session = signing at hwhy ⊢
          obtain ⟨data, signature⟩ := signing
          cases signature with
          | ok _ => cases hwhy
          | error e' =>
              cases hwhy
              exact ⟨.identified session.serverNonce :: data.toList.map .signed,
                by simp [Progress.andThen]⟩

/-- **How an attempt to reactivate a session fails.**  The machine does
nothing but raise the event of the failure, which says whether the session is
lost or may be tried again. -/
theorem resume_setback {previous : Session} {delay : Nat} {ws : List Ticket}
    {session : Option Session} {entry : Entry} {o : Outcome}
    (hreactivating : m.state = .reactivateExecute previous delay ws session)
    (hwaiting : m.entry? = some entry) (hfails : s.setback? previous o entry.awaiting = some e) :
    ∃ before : List Effect, m.resume s o =
      ({ machine := m, effects := before } : Progress).andThen
        (failReactivation s entry.owed e) := by
  have hat_once : ∃ before : List Effect, m.failReactivation s entry.owed e =
      ({ machine := m, effects := before } : Progress).andThen
        (failReactivation s entry.owed e) := ⟨[], by simp [Progress.andThen]⟩
  obtain ⟨awaiting, owed⟩ := entry
  unfold resume
  rw [hwaiting]
  cases awaiting with
  | connectToReactivate =>
      cases o with
      | failed e' =>
          cases hfails
          exact hat_once
      | done | response =>
          rw [hreactivating]
          exact activate_refused hfails owed _ _
  | reactivateSession =>
      simp only [Surroundings.setback?] at hfails
      dsimp only
      cases hanswered : (outcomeResponse o).bind activationNonce with
      | ok nonce =>
          rw [hanswered] at hfails
          cases hfails
      | error e' =>
          rw [hanswered] at hfails
          cases hfails
          exact hat_once
  | _ => cases hfails

end Machine

/-! ## To give up a session turn by turn -/

/-- Whether the machine has its turn: it takes a command, unless there is none
or it waits for a call. -/
def Occurrence.isTurn : Occurrence → Bool
  | taking _ => true
  | _ => false

namespace Run

variable {r r' : Run} {s : Surroundings} {o : Outcome} {e : SessionError} {t : Transition}

/-- An attempt to reactivate the session, whatever the delay was before it, is
over with an error when the call has ended for which it waits. -/
def SetBack (r : Run) (s : Surroundings) (o : Outcome) (e : SessionError) : Prop :=
  ∃ previous delay ws session entry,
    r.machine.state = .reactivateExecute previous delay ws session ∧
      r.machine.entry? = some entry ∧ s.setback? previous o entry.awaiting = some e

/-- The end of a call is told to the machine that waits for it, and to nobody
else. -/
theorem happen_ended {entry : Entry} (hwaiting : r.machine.entry? = some entry) (s : Surroundings)
    (o : Outcome) : r.happen (.ended s o) =
      (r.record (.returned o)).proceed (r.machine.resume s o) := by
  simp only [Run.happen, hwaiting]

/-- The machine does not move when a call has ended for which it waited. -/
theorem still_ended {entry : Entry} (hwaiting : r.machine.entry? = some entry) (s : Surroundings)
    (o : Outcome) : (r.happen (.ended s o)).transitions = r.transitions := by
  rw [happen_ended hwaiting, transitions_proceed, transitions_returned,
    Machine.resume_published _ _ _ hwaiting, List.append_nil]

theorem commands_ended {entry : Entry} (hwaiting : r.machine.entry? = some entry)
    (s : Surroundings) (o : Outcome) : (r.happen (.ended s o)).commands = r.commands := by
  rw [happen_ended hwaiting, commands_proceed, commands_returned]

/-- **An attempt that fails is followed by another, or the session is given
up.** -/
theorem Sound.leads_setback (hsound : r.Sound False) (hfails : r.SetBack s o e)
    (hattended : s.attended) : r.Leads (.ended s o) (.afterFailure e) := by
  obtain ⟨previous, delay, ws, session, entry, hreactivating, hwaiting, hfails⟩ := hfails
  have hinactive : r.machine.state.activeSession? = none := by rw [hreactivating]; rfl
  obtain ⟨before, hresume⟩ := Machine.resume_setback hreactivating hwaiting hfails
  refine hsound.leads (commands_ended hwaiting s o) (still_ended hwaiting s o) ?_
    (State.movesOnlyBy_afterFailure e)
  rw [happen_ended hwaiting, machine_proceed, hresume, Progress.andThen,
    Machine.queue_failReactivation e hinactive, Machine.outcome, if_pos hattended]
  rfl

/-- From a point of a run on the machine has stayed in a state of the same
kind, or has left it by a move of the table. -/
inductive Departed (r r' : Run) : Prop
  /-- It has made no move at all since. -/
  | still (htransitions : r'.transitions = r.transitions)
      (hkind : r'.machine.state.kind = r.machine.state.kind)
  /-- Its first move since was one of the table, from a state of this kind. -/
  | moved {st : State} {event : Event} {move : State.Move} {more : List Transition}
      (hkind : st.kind = r.machine.state.kind) (hmoves : st.transition? event = some move)
      (htransitions : r'.transitions =
        r.transitions ++ ⟨st.kind, event, move.next.kind⟩ :: more)

theorem Departed.happen (h : r.Departed r') (hsound : r'.Sound False) (o : Occurrence) :
    r.Departed (r'.happen o) := by
  rcases (hsound.turns o).transitions_cases with hsame | ⟨_, _, event, move, _, _, hmoves, hmore⟩
  · cases h with
    | still hstill hkind =>
        exact .still (hsame.trans hstill) ((hsound.kind_happen o hsame).trans hkind)
    | moved hkind hmoves hbefore => exact .moved hkind hmoves (hsame.trans hbefore)
  · cases h with
    | still hstill hkind => exact .moved hkind hmoves (by rw [hmore, hstill])
    | moved hkind hmoves' hbefore =>
        exact .moved hkind hmoves' (by rw [hmore, hbefore, List.append_assoc, List.cons_append])

/-- Either is so at every later point of a run, which is sound there. -/
theorem Sound.departed (hsound : r.Sound False) (hreaches : Reaches (fun _ => True) r r') :
    r'.Sound False ∧ r.Departed r' :=
  Reaches.invariant (I := fun r' => r'.Sound False ∧ r.Departed r') ⟨hsound, .still rfl rfl⟩
    (fun _ o _ ⟨hsound', hdeparted⟩ => ⟨hsound'.happen False.elim, hdeparted.happen hsound' o⟩)
      hreaches

/-- The commands that have been taken are never fewer later. -/
theorem Sound.commands_grow {A : Prop} (hsound : r.Sound A) (o : Occurrence) :
    r.commands.length ≤ (r.happen o).commands.length := by
  cases hsound.turns o with
  | takes _ hcommands => simp [hcommands]
  | rests hcommands => simp [hcommands]

/-- An idle machine that gets a turn takes the first command of its queue. -/
theorem commands_taking {c : Command} {rest : List Command} (hidle : r.machine.entry? = none)
    (hqueue : r.machine.queue = c :: rest) (s : Surroundings) :
    (r.happen (.taking s)).commands = r.commands ++ [c] := by
  rw [happen_taking r s hidle hqueue, commands_proceed, commands_dequeue]

/-- **As long as it does not move a machine takes a command with each of its
turns**, if it always has one to take. -/
theorem Sound.turns_le (hsound : r.Sound False)
    (hready : ∀ r', Reaches (fun _ => True) r r' → r'.transitions = r.transitions →
      r'.machine.entry? = none ∧ r'.machine.queue ≠ [])
    (os : List Occurrence) (hstill : (os.foldl Run.happen r).transitions = r.transitions) :
    r.commands.length + os.countP (·.isTurn) ≤ (os.foldl Run.happen r).commands.length := by
  induction os using List.reverseRecOn with
  | nil => exact Nat.le_refl _
  | append_singleton os o ih =>
      have hreaches : Reaches (fun _ => True) r (os.foldl Run.happen r) :=
        .ofList os fun _ _ => trivial
      rw [List.foldl_append, List.foldl_cons, List.foldl_nil] at hstill ⊢
      rw [List.countP_append, List.countP_singleton]
      generalize os.foldl Run.happen r = r' at hreaches hstill ih ⊢
      obtain ⟨hsound', hdeparted⟩ := hsound.departed hreaches
      have hbefore : r'.transitions = r.transitions := by
        rcases hdeparted with ⟨hsame, -⟩ | ⟨-, -, hmoved⟩
        · exact hsame
        · rcases (hsound'.turns o).transitions_cases with hsame | ⟨_, _, _, _, _, _, _, hmore⟩
          · exact hsame.symm.trans hstill
          · rw [hmore, hmoved] at hstill
            simp at hstill
      have htaken := ih hbefore
      obtain ⟨hidle, hsome⟩ := hready r' hreaches hbefore
      cases o with
      | taking s =>
          obtain ⟨c, rest, hqueue⟩ := List.exists_cons_of_ne_nil hsome
          rw [commands_taking hidle hqueue, List.length_append, List.length_singleton]
          exact Nat.succ_le_succ htaken
      | _ => exact Nat.le_trans htaken (hsound'.commands_grow _)

/-- What becomes of a session that the server does not know any more, once an
attempt to reactivate it has failed for that and the machine has had its turn
so often.  With each turn the machine takes one of the commands that were in
the queue before; then it goes on to create another session, unless one of
them has moved it elsewhere. -/
inductive GivesUp (r : Run) (turns : Nat) (r' : Run) : Prop
  /-- Its turn has not come: what is in front of the event was in the queue
  before, and is one command shorter with each turn. -/
  | waits {ahead behind : List Command} (hidle : r'.machine.entry? = none)
      (hqueue : r'.machine.queue =
        ahead ++ .stamped .reactivateInvalid r'.machine.epoch :: behind)
      (hleft : turns + ahead.length ≤ r.machine.queue.length)
      (hstill : r'.transitions = r.transitions)
  /-- The next move is to create another session. -/
  | creates {more : List Transition} (hnext : r'.transitions =
      r.transitions ++ ⟨.reactivateExecute, .reactivateInvalid, .creating⟩ :: more)
  /-- A command that was in the queue before has moved the machine first:
  somebody disconnects, or uses a handle to raise the success or the failure
  of the attempt. -/
  | preceded {c : Command} {t : Transition} {more : List Transition}
      (hqueued : c ∈ r.machine.queue) (houtside : ¬ c.isStamped)
      (hevent : c.event? r.machine = some t.event)
      (hother : t = ⟨.reactivateExecute, .disconnectRequested, .closing⟩ ∨
        t = ⟨.reactivateExecute, .reactivateSucceeded, .active⟩ ∨
        t = ⟨.reactivateExecute, .reactivateFailed, .reactivateDelay⟩)
      (hnext : r'.transitions = r.transitions ++ t :: more)

/-- Where no session is in use an event of the current epoch is raised at the
end of a step. -/
theorem Sound.idle_of_queued {A : Prop} {e : Event} (hsound : r.Sound A)
    (hinactive : r.machine.state.kind ≠ .active) (hqueued : r.machine.Queued e) :
    r.machine.entry? = none := by
  rcases hsound.stamps _ _ hqueued with hold | ⟨-, -, hidle | hactive⟩
  · exact absurd hold (Nat.lt_irrefl _)
  · exact hidle
  · exact absurd hactive hinactive

/-- So what can move a machine that waits for a call came from outside. -/
theorem Sound.outside {A : Prop} {entry : Entry} {c : Command} {e : Event} (hsound : r.Sound A)
    (hinactive : r.machine.state.kind ≠ .active) (hwaiting : r.machine.entry? = some entry)
    (hqueued : c ∈ r.machine.queue) (hevent : c.event? r.machine = some e) : ¬ c.isStamped := by
  intro hstamped
  cases c with
  | stamped e' k =>
      simp only [Command.event?, Option.ite_none_right_eq_some] at hevent
      have hidle := hsound.idle_of_queued hinactive (hevent.1 ▸ hqueued)
      cases hidle.symm.trans hwaiting
  | _ => cases hstamped

/-- An event of the current epoch that is raised where no session is in use is
there to be taken. -/
theorem Destined.ready (h : r.Destined t r') (hsound : r.Sound False) (hsound' : r'.Sound False)
    (hinactive : r.machine.state.kind ≠ .active) (hstill : r'.transitions = r.transitions) :
    r'.machine.entry? = none ∧ ∃ taken ahead behind, r.machine.queue = taken ++ ahead ∧
      r'.commands = r.commands ++ taken ∧
        r'.machine.queue = ahead ++ .stamped t.event r'.machine.epoch :: behind := by
  cases h with
  | moved htransitions => simp [htransitions] at hstill
  | @waits taken ahead behind hsplit hcommands hqueue hkind _ =>
      have hepoch : r'.machine.epoch = r.machine.epoch := by
        rw [hsound'.moves, hsound.moves, ← length_transitions, hstill, length_transitions]
      rw [← hepoch] at hqueue
      have hraised : r'.machine.Queued t.event := by
        rw [Machine.Queued, hqueue]
        exact List.mem_append_right _ List.mem_cons_self
      exact ⟨hsound'.idle_of_queued (hkind ▸ hinactive) hraised, _, _, _, hsplit, hcommands, hqueue⟩

/-- **A session that the server does not know any more is given up.** -/
theorem Sound.givesUp (hsound : r.Sound False) (hfails : r.SetBack s o e) (hattended : s.attended)
    (hinvalid : e.status.isSessionInvalid) (os : List Occurrence) :
    r.GivesUp (os.countP (·.isTurn)) (os.foldl Run.happen (r.happen (.ended s o))) := by
  have hleads := hsound.leads_setback hfails hattended
  rw [Transition.afterFailure, if_pos hinvalid] at hleads
  obtain ⟨previous, delay, ws, session, entry, hreactivating, hwaiting, -⟩ := hfails
  have hkind : r.machine.state.kind = .reactivateExecute := by rw [hreactivating]; rfl
  have hinactive : r.machine.state.kind ≠ .active := by simp [hkind]
  have hbegins : (r.happen (.ended s o)).Sound False := hsound.happen False.elim
  have hbefore := still_ended hwaiting s o
  have hcommands := commands_ended hwaiting s o
  have hturns := hbegins.turns_le (fun r' hreaches hstill => by
    obtain ⟨hidle, _, _, _, -, -, hqueue⟩ := (hleads r' hreaches).ready hsound
      (hbegins.departed hreaches).1 hinactive (hstill.trans hbefore)
    exact ⟨hidle, by simp [hqueue]⟩) os
  have hreaches : Reaches (fun _ => True) (r.happen (.ended s o))
      (os.foldl Run.happen (r.happen (.ended s o))) := .ofList os fun _ _ => trivial
  generalize os.foldl Run.happen (r.happen (.ended s o)) = r' at hreaches hturns ⊢
  obtain ⟨hsound', hdeparted⟩ := hbegins.departed hreaches
  have hdestined := hleads r' hreaches
  cases hdeparted with
  | still hstill =>
      have hsince := hstill.trans hbefore
      obtain ⟨hidle, taken, ahead, behind, hsplit, hcommands', hqueue⟩ :=
        hdestined.ready hsound hsound' hinactive hsince
      have hturned := hturns hstill
      rw [hcommands, hcommands', List.length_append] at hturned
      refine .waits hidle hqueue ?_ hsince
      rw [hsplit, List.length_append]
      omega
  | @moved st event move more hsource hmoves hnext =>
      rw [hbefore] at hnext
      rw [hsound.kind_happen _ hbefore, hkind] at hsource
      cases hdestined with
      | waits _ _ _ _ hstill => simp [hstill] at hnext
      | @moved t _ htransitions hcause =>
          cases List.append_cancel_left (htransitions.symm.trans hnext)
          rcases hcause with hsame | ⟨c, hqueued, hevent⟩
          · exact .creates (hsame ▸ htransitions)
          · have houtside := hsound.outside hinactive hwaiting hqueued hevent
            rcases State.reactivating_cases hsource hmoves with
              ⟨rfl, htarget⟩ | ⟨rfl, htarget⟩ | ⟨rfl, htarget⟩ | ⟨rfl, htarget⟩
            · exact .creates (by rw [htransitions, hsource, htarget])
            · exact .preceded hqueued houtside hevent (.inl (by rw [hsource, htarget])) htransitions
            · exact .preceded hqueued houtside hevent (.inr (.inl (by rw [hsource, htarget])))
                htransitions
            · exact .preceded hqueued houtside hevent (.inr (.inr (by rw [hsource, htarget])))
                htransitions

/-- **How long the machine waits before it reactivates a session.**  The
timers that were ever started are those of the waits, one for each, and the
delay of the `k`-th wait since a session was last in use is `backoff k`.  Only
a connection that is lost while a session is in use makes the count start
again.  When an attempt fails because the server does not know the session any
more, the machine goes on to create another, whatever the delay has become, as
soon as it has taken what was in the queue before; unless something of that
moves it first: that it is to disconnect, or the claim that the attempt has
succeeded, or that it has to be made again. -/
theorem reactivation_delays (os : List Occurrence) :
    let r := os.foldl Run.happen {}
    r.engine.timers.requested = lawfulDelays 0 r.transitions ∧
      (∀ o t, (r.happen o).transitions = r.transitions ++ [t] → t.target = .reactivateDelay →
        r.Counts t) ∧
      ∀ s o e, r.SetBack s o e → s.attended → e.status.isSessionInvalid →
        ∀ later : List Occurrence, r.GivesUp (later.countP (·.isTurn))
          (later.foldl Run.happen (r.happen (.ended s o))) := by
  obtain ⟨hpaced, hrequested⟩ := paced_foldl os
  have hsound := sound_foldl os
  exact ⟨hrequested.trans hpaced.delays, fun o t hmoved hdelayed =>
    hpaced.counts hsound hmoved hdelayed,
    fun s o e hfails hattended hinvalid later => hsound.givesUp hfails hattended hinvalid later⟩

/-- The first attempt to reactivate the session has failed: the connection was
refused, which says nothing against the session. -/
def setBackOnce : List Occurrence :=
  reconnecting ++ [.ended .placid (.failed (.transport "connection refused"))]

/-- The machine has waited for a second, and tries again: the second wait is
the first that takes any time. -/
def secondAttempt : List Occurrence :=
  setBackOnce ++ [.taking .placid, .fired true 1, .taking .placid]

/-- The second wait, and the session is given up when the second attempt
fails. -/
theorem reactivation_delays_retried :
    (setBackOnce.foldl Run.happen {}).Counts
        ⟨.reactivateExecute, .reactivateFailed, .reactivateDelay⟩ ∧
      (secondAttempt.foldl Run.happen {}).engine.timers.requested = [.ofSecs 0, .ofSecs 1] ∧
      (secondAttempt.foldl Run.happen {}).SetBack .placid
        (.failed (.serviceFault .badSessionIdInvalid)) (.serviceFault .badSessionIdInvalid) ∧
      (secondAttempt.foldl Run.happen {}).GivesUp 1 (((secondAttempt.foldl Run.happen {}).happen
        (.ended .placid (.failed (.serviceFault .badSessionIdInvalid)))).happen
          (.taking .placid)) := by
  have hagain : ((setBackOnce.foldl Run.happen {}).happen (.taking .placid)).transitions =
      (setBackOnce.foldl Run.happen {}).transitions ++
        [⟨.reactivateExecute, .reactivateFailed, .reactivateDelay⟩] := by decide +kernel
  have hdelays : lawfulDelays 0 (secondAttempt.foldl Run.happen {}).transitions =
      [.ofSecs 0, .ofSecs 1] := by decide +kernel
  have hfails : (secondAttempt.foldl Run.happen {}).SetBack .placid
      (.failed (.serviceFault .badSessionIdInvalid)) (.serviceFault .badSessionIdInvalid) :=
    ⟨_, _, _, _, _, rfl, rfl, rfl⟩
  exact ⟨(reactivation_delays setBackOnce).2.1 (.taking .placid) _ hagain rfl,
    (reactivation_delays secondAttempt).1.trans hdelays, hfails,
    (reactivation_delays secondAttempt).2.2 _ _ _ hfails rfl rfl [.taking .placid]⟩

/-- **A session may be waited for that the server does not know any more.**
Somebody claims through a handle that the attempt has failed, and then it
fails in fact, for the session is invalid.  The claim is taken first, and the
machine waits for another attempt; by then what the attempt itself has raised
is out of date. -/
theorem delayed_though_invalid :
    ¬ ∀ (os : List Occurrence) (s : Surroundings) (o : Outcome) (e : SessionError),
      (os.foldl Run.happen {}).SetBack s o e → s.attended → e.status.isSessionInvalid →
        ∀ r', Reaches (fun _ => True) ((os.foldl Run.happen {}).happen (.ended s o)) r' →
          ∀ t more, r'.transitions = (os.foldl Run.happen {}).transitions ++ t :: more →
            t.target = .creating ∨ t.event = .disconnectRequested := by
  intro hclaim
  let os : List Occurrence := reconnecting ++ [.asked (.event .reactivateFailed none)]
  let o : Outcome := .failed (.serviceFault .badSessionIdInvalid)
  have hfails : (os.foldl Run.happen {}).SetBack .placid o (.serviceFault .badSessionIdInvalid) :=
    ⟨_, _, _, _, _, rfl, rfl, rfl⟩
  have hwaits : (((os.foldl Run.happen {}).happen (.ended .placid o)).happen
      (.taking .placid)).transitions = (os.foldl Run.happen {}).transitions ++
        [⟨.reactivateExecute, .reactivateFailed, .reactivateDelay⟩] := by decide +kernel
  have hwrong := hclaim os .placid o _ hfails rfl rfl _ (.step (.taking .placid) .refl trivial)
    _ _ hwaits
  simp at hwrong

end Run

end OpcSession.Session
