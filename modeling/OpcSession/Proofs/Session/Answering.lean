import OpcSession.Proofs.Session.Steps

/-!
# What a step of the session machine answers

A caller who asks for a session, for the state that an event leads to, or for
disconnection is owed one answer.  Callers are moved from state to state, left
behind, refused and served on many paths; a step keeps the balance on each of
them: what it answers and what is still owed after it make up what was owed
before it and what its command asks for.

* `Machine.dues` — what the machine owes;
* `Answers` — the balance of a step that ends the entry of a state or goes on
  with it, and whom it gives a session;
* `Machine.enter_answers`, `Machine.resume_answers` — the balance of entering
  a state and of going on after a call;
* `Machine.obey_pays` — the balance of a whole command.
-/

namespace OpcSession.Session

/-- What a caller is owed until it is answered, by the kind of answer that was
asked for. -/
inductive Due
  /-- A session, or the error for which there is none. -/
  | session (ticket : Ticket)
  /-- The state after an event was handled. -/
  | state (ticket : Ticket)
  | disconnection (ticket : Ticket)
deriving DecidableEq

/-- What is owed to the one who asked for a command; events that the machine
raises itself are owed to nobody. -/
def Command.due? : Command → Option Due
  | event _ ticket => ticket.map .state
  | stamped _ _ => none
  | getSession ticket => some (.session ticket)
  | disconnect ticket => some (.disconnection ticket)

/-- What is owed to the one for whom the machine enters a state. -/
def Owed.due? : Owed → Option Due
  | nobody => none
  | state ticket => some (.state ticket)
  | disconnect ticket => some (.disconnection ticket)

/-- What an effect pays, if it is an answer: any answer of the right kind will
do. -/
def Effect.due? : Effect → Option Due
  | answered ticket (.session _) => some (.session ticket)
  | answered ticket (.state _) => some (.state ticket)
  | answered ticket .disconnected => some (.disconnection ticket)
  | _ => none

/-- The session that an effect gives to a caller, which is what it means that
a caller was successful. -/
def Effect.grants? : Effect → Option Session
  | answered _ (.session (.ok session)) => some session
  | _ => none

/-- What is owed to those who wait in a state, for a session or for the end of
a disconnection. -/
def State.dues (st : State) : List Due :=
  st.waiters.map .session ++ st.completions.map .disconnection

/-- What the machine owes, also to the one for whom it enters a state. -/
def Machine.dues (m : Machine) : List Due :=
  m.state.dues ++ (m.entry?.bind (·.owed.due?)).toList

/-- Nobody waits for a session while one is in use and no call is waited
for. -/
def Machine.Served (m : Machine) : Prop :=
  m.entry? = none → m.state.kind = .active → m.state.waiters = []

/-- What the effects of a step pay, in order. -/
def paid (fs : List Effect) : List Due := fs.filterMap Effect.due?

@[simp] theorem paid_nil : paid [] = [] := rfl

@[simp] theorem paid_append (fs gs : List Effect) : paid (fs ++ gs) = paid fs ++ paid gs :=
  List.filterMap_append

theorem paid_answers_session (tickets : List Ticket) (r : Except SessionError Session) :
    paid (Machine.answers tickets (.session r)) = tickets.map .session := by
  induction tickets with
  | nil => rfl
  | cons t ts ih => exact congrArg _ ih

theorem paid_answers_disconnected (tickets : List Ticket) :
    paid (Machine.answers tickets .disconnected) = tickets.map .disconnection := by
  induction tickets with
  | nil => rfl
  | cons t ts ih => exact congrArg _ ih

/-- Effects that answer nobody pay nothing, wherever they stand. -/
theorem paid_eq_nil {fs : List Effect} (h : ∀ f ∈ fs, f.due? = none) : paid fs = [] :=
  List.filterMap_eq_nil_iff.mpr h

theorem Effect.grants?_eq_none_of_due? {f : Effect} (h : f.due? = none) : f.grants? = none := by
  cases f with
  | answered ticket a => cases a <;> cases h
  | _ => rfl

/-! ## The balance of a part of a step -/

/-- What the part pays and what is still owed in the state make up what was
owed in the state before, and what the part takes on. -/
def Balanced (more : List Due) (m : Machine) (p : Progress) : Prop :=
  (paid p.effects ++ p.machine.state.dues).Perm (m.state.dues ++ more)

/-- Parts of a step that are balanced are balanced together, and take on what
each of them does. -/
theorem Balanced.andThen {more more' : List Due} {m : Machine} {p : Progress}
    {f : Machine → Progress} (h : Balanced more m p)
    (hf : Balanced more' p.machine (f p.machine)) :
    Balanced (more ++ more') m (p.andThen f) := by
  have hwhole : paid (p.andThen f).effects ++ (p.andThen f).machine.state.dues =
      paid p.effects ++ (paid (f p.machine).effects ++ (f p.machine).machine.state.dues) := by
    simp [Progress.andThen]
  have hfirst := List.Perm.append_right more' h
  have hsecond := List.Perm.append_left (paid p.effects) hf
  rw [Balanced, hwhole, ← List.append_assoc m.state.dues]
  rw [List.append_assoc] at hfirst
  exact hsecond.trans hfirst

/-- A part that gives a session gives the one that is in use after it. -/
def Granting (p : Progress) : Prop :=
  ∀ f ∈ p.effects, ∀ session, f.grants? = some session →
    p.machine.state.activeSession? = some session

/-- **The balance of the end of a step.**  Whom the machine is to answer is
answered or waits in the state or for its entry; it has not moved; and who
waits for a session when one is in use has got it. -/
structure Answers (owed : Owed) (m : Machine) (p : Progress) : Prop where
  /-- Whom the step is for is answered, or found among those who are owed. -/
  balance : (paid p.effects ++ p.machine.dues).Perm (m.state.dues ++ owed.due?.toList)
  /-- Whoever gets a session gets the one in use. -/
  granting : Granting p
  /-- No move is made. -/
  still : ∀ t, .published t ∉ p.effects
  /-- Nobody is left waiting where a session is in use. -/
  served : p.machine.Served

/-- What comes before the end of a step adds what it takes on to the
balance. -/
theorem Balanced.answers {owed : Owed} {more : List Due} {m : Machine} {p : Progress}
    {f : Machine → Progress} (hbalanced : Balanced more m p)
    (hf : Answers owed p.machine (f p.machine)) :
    (paid (p.andThen f).effects ++ (p.andThen f).machine.dues).Perm
      (m.state.dues ++ (more ++ owed.due?.toList)) := by
  have hwhole : paid (p.andThen f).effects ++ (p.andThen f).machine.dues =
      paid p.effects ++ (paid (f p.machine).effects ++ (f p.machine).machine.dues) := by
    simp [Progress.andThen]
  have hfirst := List.Perm.append_right owed.due?.toList hbalanced
  have hsecond := List.Perm.append_left (paid p.effects) hf.balance
  rw [List.append_assoc, List.append_assoc] at hfirst
  rw [hwhole]
  exact hsecond.trans hfirst

/-- A part that keeps the balance and gives no session may come before. -/
theorem Answers.after {owed : Owed} {m : Machine} {p : Progress} {f : Machine → Progress}
    (hbalanced : Balanced [] m p) (hrefusing : ∀ g ∈ p.effects, g.grants? = none)
    (hstill : ∀ t, .published t ∉ p.effects) (hf : Answers owed p.machine (f p.machine)) :
    Answers owed m (p.andThen f) where
  balance := hbalanced.answers hf
  granting := by
    intro g hg session hgrants
    rcases List.mem_append.mp hg with hg | hg
    · rw [hrefusing g hg] at hgrants
      cases hgrants
    · exact hf.granting g hg session hgrants
  still := by
    intro t ht
    rcases List.mem_append.mp ht with ht | ht
    · exact hstill t ht
    · exact hf.still t ht
  served := hf.served

/-- The state may come by its session on the way: that is nobody's answer yet,
so the balance is that of the state before. -/
theorem Answers.ofState {owed : Owed} {m : Machine} {st : State} {p : Progress}
    (hdues : st.dues = m.state.dues) (h : Answers owed { m with state := st } p) :
    Answers owed m p where
  balance := by
    rw [← hdues]
    exact h.balance
  granting := h.granting
  still := h.still
  served := h.served

/-- **The balance of a command**: who asked for it is answered or waits.  Who
gets a session gets the one in use after the last move. -/
structure Pays (more : List Due) (m : Machine) (p : Progress) : Prop where
  /-- Whoever asked is answered, or found among those who are owed. -/
  balance : (paid p.effects ++ p.machine.dues).Perm (m.state.dues ++ more)
  /-- Sessions are given after the last move, and are the one in use. -/
  granting : ∃ before after, p.effects = before ++ after ∧
    (∀ f ∈ before, f.grants? = none) ∧ (∀ t, .published t ∉ after) ∧
    ∀ f ∈ after, ∀ session, f.grants? = some session →
      p.machine.state.activeSession? = some session
  /-- Nobody waits afterwards where a session is in use, if nobody did
  before. -/
  served : m.Served → p.machine.Served

/-- A part that serves callers, where no state is being entered, is a whole
step with its own balance. -/
theorem Serves.pays {m : Machine} {p : Progress} {more : List Due} (h : Serves m p)
    (hidle : m.entry? = none)
    (hbalanced : Balanced more m p) (hgranting : Granting p)
    (hserved : m.state.kind = .active → p.machine.state.waiters = m.state.waiters) :
    Pays more m p where
  balance := by
    have hentry : p.machine.entry? = none := h.entry.trans hidle
    simpa [Balanced, Machine.dues, hentry] using hbalanced
  granting := by
    refine ⟨[], p.effects, rfl, by simp, ?_, hgranting⟩
    intro t ht
    cases h.quiet _ ht
  served := by
    intro hbefore _ hactive
    rw [h.kind] at hactive
    rw [hserved hactive]
    exact hbefore hidle hactive

namespace State

/-- Those who wait for a session are owed one, and the others what they were
owed before. -/
theorem dues_withWaiters (st : State) :
    st.dues = st.waiters.map .session ++ (st.withWaiters []).dues := by
  cases st <;> simp [dues, waiters, completions, withWaiters]

/-- The callers go along with a move, or are left behind to be told that it
came to nothing; none is dropped. -/
theorem waiters_of_transition? {st : State} {e : Event} {move : Move}
    (h : st.transition? e = some move) :
    st.waiters = move.next.waiters ++ move.left ∧ move.next.completions = [] := by
  unfold transition? at h
  split at h <;> cases h <;> simp [waiters, completions]

theorem activeSession?_of_bare {st st' : State} (h : st.bare = st'.bare) :
    st.activeSession? = st'.activeSession? := by
  rw [← activeSession?_bare st, h, activeSession?_bare]

end State

namespace Machine

variable {m : Machine}

/-- Listeners are told, which answers nobody and is no move. -/
theorem tell_silent (s : Surroundings) (active : Bool) (session : Session) :
    ∀ f ∈ (m.tell s active session).effects, f.due? = none ∧ ∀ t, f ≠ .published t := by
  intro f hf
  obtain ⟨l, -, rfl⟩ := List.mem_map.mp hf
  exact ⟨rfl, by simp⟩

theorem tell_state (s : Surroundings) (active : Bool) (session : Session) :
    (m.tell s active session).machine.state = m.state := by
  obtain ⟨ls, raised, htold, -, -⟩ := tell_hears (Q := fun _ => True) (m := m) s
    (fun _ _ _ _ _ => trivial) active session
  rw [htold]

/-- To announce a session answers the ones who wait for it. -/
theorem announce_balanced (s : Surroundings) : Balanced [] m (m.announce s) := by
  unfold announce
  split
  · rename_i ws session hst
    have hsilent : paid (m.tell s true session).effects = [] :=
      paid_eq_nil fun f hf => (tell_silent s true session f hf).1
    simp [Balanced, Progress.andThen, hsilent, paid_answers_session, tell_state, hst,
      State.withWaiters, State.dues, State.waiters, State.completions]
  · simp [Balanced]

/-- To answer the one for whom a state was entered is balanced. -/
theorem pay_balanced (owed : Owed) : Balanced owed.due?.toList m (m.pay owed) := by
  cases owed with
  | nobody => simp [Balanced, pay, Owed.due?]
  | state t =>
      simpa [Balanced, pay, Owed.due?, paid, Effect.due?] using
        (List.perm_append_singleton (Due.state t) m.state.dues).symm
  | disconnect t =>
      simp only [pay]
      split
      · rename_i session cs hst
        simp [Balanced, Owed.due?, hst, State.dues, State.waiters, State.completions]
      · simpa [Balanced, Owed.due?, paid, Effect.due?] using
          (List.perm_append_singleton (Due.disconnection t) m.state.dues).symm

theorem refuse_balanced (e : SessionError) :
    Balanced [] m
      { machine := { m with state := m.state.withWaiters [] }
        effects := answers m.state.waiters (.session (.error e)) } := by
  simp [Balanced, paid_answers_session, State.dues_withWaiters m.state]

/-- The ones who wait get the session that is in use, not one that listeners
were told of before. -/
theorem announce_granting (s : Surroundings) : Granting (m.announce s) := by
  unfold announce
  split
  · rename_i ws session hst
    intro f hf session' hgrants
    rcases List.mem_append.mp hf with hf | hf
    · rw [Effect.grants?_eq_none_of_due? (tell_silent s true session f hf).1] at hgrants
      cases hgrants
    · obtain ⟨t, -, rfl⟩ := List.mem_map.mp hf
      cases hgrants
      simp [Progress.andThen, tell_state, hst, State.withWaiters, State.activeSession?]
  · simp [Granting]

/-- Where a session has been announced nobody waits for it. -/
theorem announce_served (s : Surroundings)
    (hactive : (m.announce s).machine.state.kind = .active) :
    (m.announce s).machine.state.waiters = [] := by
  unfold announce at *
  split at hactive
  · rename_i ws session hst
    simp [Progress.andThen, tell_state, hst, State.withWaiters, State.waiters]
  · rename_i hother
    cases hst : m.state <;> rw [hst] at hactive <;> cases hactive
    exact absurd hst (hother _ _)

theorem pay_grants (owed : Owed) : ∀ f ∈ (m.pay owed).effects, f.grants? = none := by
  cases owed with
  | nobody => simp [pay]
  | state t => simp [pay, Effect.grants?]
  | disconnect t =>
      simp only [pay]
      split <;> simp [Effect.grants?]

theorem pay_waiters (owed : Owed) : (m.pay owed).machine.state.waiters = m.state.waiters := by
  cases owed with
  | nobody => rfl
  | state t => rfl
  | disconnect t =>
      simp only [pay]
      split
      · rename_i session cs hst
        simp [hst, State.waiters]
      · rfl

/-- To conclude an entry answers those who wait for a session in use, and the
one for whom the state was entered. -/
theorem conclude_answers (s : Surroundings) (owed : Owed) (followUp : Option Event) :
    Answers owed m (m.conclude s owed followUp) := by
  have hconcludes := conclude_concludes (Q := fun _ => True) (m := m) s owed followUp
    fun _ _ _ _ _ => trivial
  have hbalanced := announce_balanced (m := { m with entry? := none }) s
  have hgranting := announce_granting (m := { m with entry? := none }) s
  have hserved := announce_served (m := { m with entry? := none }) s
  have hquiet := hconcludes.quiet
  have hentered := hconcludes.entry
  unfold conclude at *
  generalize announce s { m with entry? := none } = p at *
  have hraised : ∀ m : Machine, (followUp.elim m (m.raise s)).state = m.state := by
    intro m
    rw [raise_queue]
  have htold : Balanced [] m (p.andThen fun m => { machine := followUp.elim m (m.raise s) }) := by
    simpa [Balanced, Progress.andThen, hraised] using hbalanced
  exact {
    balance := by
      have hanswered := htold.andThen (f := (pay · owed)) (pay_balanced owed)
      simpa [Balanced, dues, hentered] using hanswered
    granting := by
      intro f hf session hgrants
      rcases List.mem_append.mp hf with hf | hf
      · have hactive := hgranting f (by simpa [Progress.andThen] using hf) session hgrants
        rw [← hactive]
        have hsame := State.activeSession?_of_bare (pay_serves
          (followUp.elim p.machine (p.machine.raise s)) owed).bare
        rw [hraised] at hsame
        exact hsame
      · rw [pay_grants owed f hf] at hgrants
        cases hgrants
    still := by
      intro t ht
      cases hquiet _ ht
    served := by
      intro _ hactive
      have hkind := (pay_serves (followUp.elim p.machine (p.machine.raise s)) owed).kind
      have hwaiters := pay_waiters (m := followUp.elim p.machine (p.machine.raise s)) owed
      rw [hraised] at hkind hwaiters
      exact hwaiters.trans (hserved (hkind.symm.trans hactive)) }

theorem waitFor_answers (owed : Owed) (awaiting : Awaiting) (c : Call) :
    Answers owed m (m.waitFor owed awaiting c) where
  balance := by
    have hunpaid : paid [.call c] = [] := rfl
    simp [waitFor, hunpaid, dues]
  granting := by simp [Granting, waitFor, Effect.grants?]
  still := by simp [waitFor]
  served := by simp [Served, waitFor]

theorem fail_answers (s : Surroundings) (owed : Owed) (e : SessionError) (followUp : Event) :
    Answers owed m (m.fail s owed e followUp) := by
  refine .after (refuse_balanced e) ?_ ?_ (conclude_answers s owed (some followUp))
  · intro f hf
    obtain ⟨t, -, rfl⟩ := List.mem_map.mp hf
    rfl
  · intro t ht
    obtain ⟨_, -, heq⟩ := List.mem_map.mp ht
    cases heq

theorem failReactivation_answers (s : Surroundings) (owed : Owed) (e : SessionError) :
    Answers owed m (m.failReactivation s owed e) :=
  fail_answers s owed e _

/-- Effects that concern no caller may come before what answers them. -/
theorem answers_after {owed : Owed} {f : Machine → Progress} (fs : List Effect)
    (hsilent : ∀ g ∈ fs, g.due? = none) (hstill : ∀ t, .published t ∉ fs)
    (hf : Answers owed m (f m)) :
    Answers owed m (({ machine := m, effects := fs } : Progress).andThen f) := by
  refine .after ?_ (fun g hg => Effect.grants?_eq_none_of_due? (hsilent g hg)) hstill hf
  simp [Balanced, paid_eq_nil hsilent]

/-- An activation keeps the balance, if its failure does: until the call ends
nobody is answered. -/
theorem activate_answers (s : Surroundings) (owed : Owed) (awaiting : Awaiting)
    (session : Session) {failed : SessionError → Machine → Progress}
    (hfails : ∀ e, Answers owed m (failed e m)) :
    Answers owed m (m.activate s owed awaiting session failed) := by
  obtain ⟨before, hhidden, h'⟩ := activate_cases s m owed awaiting session failed
  have hsilent : ∀ g ∈ before, g.due? = none := by
    intro g hg
    have hprivate_ := hhidden g hg
    cases g <;> first | rfl | cases hprivate_
  have hstill : ∀ t, .published t ∉ before := fun t ht => by cases hhidden _ ht
  rcases h' with ⟨e, -, h'⟩ | ⟨_, _, _, h'⟩
  · rw [h']
    exact answers_after before hsilent hstill (hfails e)
  · rw [h']
    exact answers_after before hsilent hstill (waitFor_answers owed awaiting _)

/-- **Entering a state keeps the balance.**  Whoever it is for is answered at
its end, or is remembered while a call is waited for. -/
theorem enter_answers (s : Surroundings) (event : Event) (owed : Owed) :
    Answers owed m (m.enter s event owed) := by
  unfold enter
  split
  · rename_i abandoned hst
    split
    · exact conclude_answers s owed none
    · have hemptied : (State.inactive none).dues = m.state.dues := by rw [hst]; rfl
      dsimp only
      split
      · exact .ofState hemptied (waitFor_answers owed _ _)
      · exact .ofState hemptied (waitFor_answers owed _ _)
  · exact waitFor_answers owed _ _
  · exact activate_answers s owed _ _ fun e => fail_answers s owed e _
  · dsimp only
    split
    · exact answers_after _ (by simp [Effect.due?]) (by simp) (conclude_answers s owed _)
    · split
      · exact answers_after _ (by simp [Effect.due?]) (by simp) (conclude_answers s owed _)
      · split
        · exact answers_after _ (by simp [Effect.due?]) (by simp) (waitFor_answers owed _ _)
        · exact answers_after _ (by simp [Effect.due?]) (by simp) (conclude_answers s owed _)
  · exact waitFor_answers owed _ _
  · exact answers_after _ (by simp [Effect.due?]) (by simp) (conclude_answers s owed _)
  · exact waitFor_answers owed _ _

/-- **Going on after a call keeps the balance.**  The one for whom the state
was entered has been remembered, and is answered now or remembered further. -/
theorem resume_answers (s : Surroundings) (o : Outcome) {entry : Entry}
    (hwaiting : m.entry? = some entry) : Answers entry.owed m (m.resume s o) := by
  obtain ⟨awaiting, owed⟩ := entry
  unfold resume
  simp only [hwaiting]
  cases awaiting with
  | closeAbandoned => exact waitFor_answers owed _ _
  | dropConnection => exact conclude_answers s owed _
  | connectToCreate =>
      dsimp only
      split
      · exact fail_answers s owed _ _
      · split
        · exact fail_answers s owed _ _
        · exact waitFor_answers owed _ _
  | createSession =>
      dsimp only
      split
      · exact fail_answers s owed _ _
      · unfold created
        split
        · rename_i hst
          exact .ofState (by rw [hst]; rfl) (conclude_answers s owed _)
        · exact conclude_answers s owed _
  | activateSession =>
      dsimp only
      split
      · exact fail_answers s owed _ _
      · unfold activated
        split
        · rename_i hst
          exact .ofState (by rw [hst]; rfl) (conclude_answers s owed _)
        · exact conclude_answers s owed _
  | transfer ids =>
      exact answers_after _ (by simp [Effect.due?]) (by simp) (conclude_answers s owed _)
  | closeSession => exact waitFor_answers owed _ _
  | closeConnection => exact conclude_answers s owed _
  | connectToReactivate =>
      dsimp only
      split
      · exact failReactivation_answers s owed _
      · exact activate_answers s owed _ _ fun e => failReactivation_answers s owed e
      · exact conclude_answers s owed _
  | reactivateSession =>
      dsimp only
      split
      · exact failReactivation_answers s owed _
      · unfold reactivated
        split
        · rename_i hst
          exact .ofState (by rw [hst]; rfl) (conclude_answers s owed _)
        · exact conclude_answers s owed _

/-! ## The balance of a whole command -/

/-- A caller who joins is answered at once or waits, by whether a session is
in use. -/
theorem attach_balanced (t : Ticket) : Balanced [.session t] m (m.attach t) := by
  unfold attach
  split
  · rename_i ws session hst
    simpa [Balanced, paid, Effect.due?] using
      (List.perm_append_singleton (Due.session t) m.state.dues).symm
  · simpa [Balanced, paid, Effect.due?] using
      (List.perm_append_singleton (Due.session t) m.state.dues).symm
  · simpa [Balanced, paid, Effect.due?] using
      (List.perm_append_singleton (Due.session t) m.state.dues).symm
  · rename_i hactive hinactive hclosing
    cases hst : m.state with
    | active ws session => exact absurd hst (hactive ws session)
    | inactive abandoned => exact absurd hst (hinactive abandoned)
    | closing session cs => exact absurd hst (hclosing session cs)
    | _ => simp [Balanced, hst, State.withWaiters, State.dues, State.waiters, State.completions]

theorem join_balanced (waiter : Option Ticket) :
    Balanced (waiter.map Due.session).toList m (waiter.elim { machine := m } m.attach) := by
  cases waiter with
  | none => simp [Balanced]
  | some t => exact attach_balanced t

/-- To leave a state answers those who wait for the end of a disconnection. -/
theorem leave_balanced (st : State) (epoch : Nat) :
    paid (leave st epoch) = st.completions.map .disconnection := by
  cases st with
  | closing session cs => exact paid_answers_disconnected cs
  | _ => rfl

/-- To move answers those who are left behind and keeps the others. -/
theorem move_balanced (s : Surroundings) {event : Event} {move : State.Move}
    (h : m.state.transition? event = some move) :
    Balanced [] m (m.move s event move) := by
  obtain ⟨hwaiters, hcompletions⟩ := State.waiters_of_transition? h
  have hgiven : Balanced [] m
      { machine := { m with state := move.next, epoch := m.epoch + 1 }
        effects := .published ⟨m.state.kind, event, move.next.kind⟩ :: leave m.state m.epoch
          ++ answers move.left (.session (.error .closed)) } := by
    have hwhole : paid (.published ⟨m.state.kind, event, move.next.kind⟩ ::
        (leave m.state m.epoch ++ answers move.left (.session (.error .closed)))) =
        m.state.completions.map .disconnection ++ move.left.map .session := by
      show paid (leave m.state m.epoch ++ _) = _
      rw [paid_append, leave_balanced, paid_answers_session]
    have hswap : (move.left.map Due.session ++ move.next.waiters.map Due.session).Perm
        (move.next.waiters.map .session ++ move.left.map .session) := List.perm_append_comm
    have hswapped := hswap.append_left (m.state.completions.map Due.disconnection)
    have hmoved := hswapped.trans List.perm_append_comm
    simpa [Balanced, hwhole, State.dues, hwaiters, hcompletions] using hmoved
  unfold Machine.move
  split
  · rename_i session _
    have hsilent : ∀ m : Machine, Balanced [] m (m.tell s false session) := by
      intro m
      simp [Balanced, tell_state, paid_eq_nil fun f hf => (tell_silent s false session f hf).1]
    exact hgiven.andThen (hsilent _)
  · exact hgiven

/-- To move gives nobody a session: those who are left behind are told an
error. -/
theorem move_refusing (s : Surroundings) (event : Event) (move : State.Move) :
    ∀ f ∈ (m.move s event move).effects, f.grants? = none := by
  have hgiven : ∀ f ∈ .published ⟨m.state.kind, event, move.next.kind⟩ :: leave m.state m.epoch
      ++ answers move.left (.session (.error .closed)), f.grants? = none := by
    intro f hf
    rw [List.cons_append, List.mem_cons, List.mem_append] at hf
    rcases hf with rfl | hf | hf
    · rfl
    · cases hst : m.state <;> rw [hst] at hf <;> simp [leave, answers] at hf
      · subst hf
        rfl
      · obtain ⟨t, -, rfl⟩ := hf
        rfl
      · subst hf
        rfl
    · obtain ⟨t, -, rfl⟩ := List.mem_map.mp hf
      rfl
  unfold Machine.move
  split
  · rename_i session _
    intro f hf
    rcases List.mem_append.mp hf with hf | hf
    · exact hgiven f hf
    · exact Effect.grants?_eq_none_of_due? (tell_silent s false session f hf).1
  · exact hgiven

theorem attach_granting (t : Ticket) : Granting (m.attach t) := by
  unfold attach
  split
  · rename_i ws session hst
    intro f hf session' hgrants
    rw [List.mem_singleton] at hf
    subst hf
    cases hgrants
    simp [hst, State.activeSession?]
  · simp [Granting, Effect.grants?]
  · simp [Granting, Effect.grants?]
  · simp [Granting]

theorem join_granting (waiter : Option Ticket) :
    Granting (waiter.elim { machine := m } m.attach) := by
  cases waiter with
  | none => simp [Granting]
  | some t => exact attach_granting t

theorem join_waiters (waiter : Option Ticket) (hactive : m.state.kind = .active) :
    (waiter.elim { machine := m } m.attach : Progress).machine.state.waiters =
      m.state.waiters := by
  cases waiter with
  | none => rfl
  | some t =>
      cases hst : m.state <;> rw [hst] at hactive <;> cases hactive
      simp [attach, hst]

/-- To enter the state in which a session is in use changes nothing of it. -/
theorem enter_keeps (s : Surroundings) (event : Event) (owed : Owed) {session : Session}
    (hactive : m.state.activeSession? = some session) :
    (m.enter s event owed).machine.state.activeSession? = some session := by
  have hconcluded : ∀ followUp, (m.conclude s owed followUp).machine.state.activeSession? =
      some session := by
    intro followUp
    rw [← hactive]
    exact State.activeSession?_of_bare (conclude_concludes (Q := fun _ => True) s owed
      followUp fun _ _ _ _ _ => trivial).bare
  cases hst : m.state with
  | active ws session' =>
      unfold enter
      simp only [hst]
      split
      · exact hconcluded _
      · split
        · exact hconcluded _
        · split
          · exact hactive
          · exact hconcluded _
  | _ =>
      rw [hst] at hactive
      cases hactive

/-- An event that is handled keeps the balance, with its caller among those
who are owed. -/
theorem handle_pays (s : Surroundings) (event : Event) (waiter : Option Ticket) (owed : Owed)
    (hidle : m.entry? = none) :
    Pays ((waiter.map Due.session).toList ++ owed.due?.toList) m
      (m.handle s event waiter owed) := by
  have hjoin : ∀ m : Machine, Serves m (waiter.elim { machine := m } m.attach) :=
    fun m => join_serves m waiter
  unfold handle
  cases hmove : m.state.transition? event with
  | none =>
      have hjoined := join_balanced (m := m) waiter
      refine ((hjoin m).andThen (f := (pay · owed)) (pay_serves _ owed)).pays hidle
        (hjoined.andThen (pay_balanced owed)) ?_ ?_
      · intro f hf session hgrants
        rcases List.mem_append.mp hf with hf | hf
        · have hactive := join_granting waiter f hf session hgrants
          rw [← hactive]
          exact State.activeSession?_of_bare (pay_serves _ owed).bare
        · rw [pay_grants owed f hf] at hgrants
          cases hgrants
      · intro hactive
        exact (pay_waiters owed).trans (join_waiters waiter hactive)
  | some move =>
      have hbalanced := (move_balanced s hmove).andThen
        (f := fun m => waiter.elim { machine := m } m.attach) (join_balanced waiter)
      have hentered := enter_answers (m := ((m.move s event move).andThen
        fun m => waiter.elim { machine := m } m.attach).machine) s event owed
      simp only
      exact {
        balance := hbalanced.answers hentered
        granting := by
          refine ⟨(m.move s event move).effects, _, List.append_assoc _ _ _,
            move_refusing s event move, ?_, ?_⟩
          · intro t ht
            rcases List.mem_append.mp ht with ht | ht
            · cases (hjoin _).quiet _ ht
            · exact hentered.still t ht
          · intro f hf session hgrants
            rcases List.mem_append.mp hf with hf | hf
            · exact enter_keeps s event owed (join_granting waiter f hf session hgrants)
            · exact hentered.granting f hf session hgrants
        served := fun _ => hentered.served }

/-- **Every command keeps the balance.**  Whoever asked for it is answered,
waits in the state, or is remembered until the state is entered. -/
theorem obey_pays (s : Surroundings) (c : Command) (hidle : m.entry? = none) :
    Pays c.due?.toList m (m.obey s c) := by
  cases c with
  | stamped e k =>
      by_cases hcurrent : k = m.epoch
      · rw [obey_current s m e hcurrent]
        exact handle_pays s e none .nobody hidle
      · rw [obey_stale s m e hcurrent]
        exact (Serves.refl m).pays hidle (by simp [Balanced, Command.due?]) (by simp [Granting])
          fun _ => rfl
  | event e ticket =>
      cases ticket with
      | none => exact handle_pays s e none .nobody hidle
      | some t => exact handle_pays s e none (.state t) hidle
  | getSession t =>
      unfold obey
      dsimp only
      split
      · rename_i session hactive
        have hserves : Serves m
            { machine := m, effects := [.answered t (.session (.ok session))] } :=
          ⟨rfl, rfl, rfl, rfl, rfl, by simp [Effect.isQuiet]⟩
        refine hserves.pays hidle ?_ ?_ fun _ => rfl
        · simpa [Balanced, Command.due?, paid, Effect.due?] using
            (List.perm_append_singleton (Due.session t) m.state.dues).symm
        · intro f hf session' hgrants
          rw [List.mem_singleton] at hf
          subst hf
          cases hgrants
          exact hactive
      · exact handle_pays s .sessionRequested (some t) .nobody hidle
  | disconnect t => exact handle_pays s .disconnectRequested none (.disconnect t) hidle

end Machine

end OpcSession.Session
