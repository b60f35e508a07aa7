import OpcSession.Proofs.Session.Invariant

/-!
# States are entered soundly

A state that was just moved to owns nothing yet.  Entering it starts its
timer or its watcher, waits for the calls that the state is for, and ends
with the outcome in the queue; each of these steps leaves the machine with
what `Run.Sound` asks for.

* `Run.Fresh.enter` — the first step into a state;
* `Run.Sound.resume` — the steps after each call.
-/

namespace OpcSession.Session

namespace Run

variable {A : Prop} {r : Run}

/-! ## The ends of an entry -/

/-- To wait for a call ends a step soundly in the states that the call
fits. -/
theorem Entering.waits (h : r.Entering A) (owed : Owed) {a : Awaiting} (c : Call)
    (hfits : a.Fits r.machine.state) : (r.proceed (r.machine.waitFor owed a c)).Sound A where
  stamps := by
    intro e k hk
    rcases h.stamps e k (by simpa [Machine.waitFor] using hk) with hlt | ⟨heq, hraises, hactive⟩
    · exact .inl (by simpa [Machine.waitFor] using hlt)
    · exact .inr (by simpa [Machine.waitFor] using ⟨heq, hraises, hactive⟩)
  fits := by
    intro entry hentry
    simp only [machine_proceed, Machine.waitFor, Option.some.injEq] at hentry
    subst hentry
    simpa [Machine.waitFor] using hfits
  outcome := by simp [Machine.waitFor]
  timer := by simpa [TimerOwned, Machine.waitFor, Engine.timersAfter] using h.timer
  delayed := by
    intro _ hd
    exact .inl (by
      simpa [Machine.waitFor, Engine.timersAfter] using h.delayed
        (by simpa [Machine.waitFor] using hd))
  watcher := by simpa [WatcherOwned, Machine.waitFor, Engine.watcherAfter] using h.watcher
  watched := by
    simpa [Watched, Machine.Queued, Machine.waitFor, Engine.watcherAfter] using h.watched
  moves := by simpa [Machine.waitFor, Happening.isMove] using h.moves

/-- To conclude an entry ends a step soundly, where the outcome is one that
the state can raise and there is an outcome if there has to be one. -/
theorem Entering.concludes {Q : Event → Prop} {s : Surroundings} {followUp : Option Event}
    {p : Progress} (h : r.Entering A) (hp : Concludes Q s followUp r.machine p)
    (hattended : A → s.attended) (hraises : ∀ e ∈ followUp, r.machine.state.Raises e)
    (hends : r.machine.state.kind.endsInEvent → followUp ≠ none) : (r.proceed p).Sound A := by
  obtain ⟨raised, -, hqueue⟩ := hp.queue
  have hkind := State.kind_eq_of_bare hp.bare
  have hwatcher : (r.proceed p).engine.watcher? = r.engine.watcher? := by
    rw [watcher_proceed, Engine.watcherAfter_quiet _ hp.quiet]
  have htimers : (r.proceed p).engine.timers = r.engine.timers := by
    rw [timers_proceed, Engine.timersAfter_quiet _ hp.quiet]
  have hkept : ∀ e, r.machine.Queued e → p.machine.Queued e := by
    intro e he
    rw [Machine.Queued, hp.epoch, hqueue, List.append_assoc]
    exact List.mem_append_left _ he
  have hadded : A → ∀ e ∈ followUp, p.machine.Queued e := by
    intro ha e he
    rw [Option.mem_def] at he
    rw [Machine.Queued, hp.epoch, hqueue, he]
    simp [Machine.outcome, hattended ha]
  exact {
    stamps := by
      intro e k hk
      rw [machine_proceed, hqueue] at hk
      rw [machine_proceed, hp.epoch, State.raises_of_bare hp.bare, hp.entry]
      rcases List.mem_append.mp hk with hk | hk
      · rcases List.mem_append.mp hk with hk | hk
        · rcases h.stamps e k hk with hlt | ⟨heq, hown, -⟩
          · exact .inl hlt
          · exact .inr ⟨heq, hown, .inl rfl⟩
        · simp at hk
      · obtain ⟨he, rfl⟩ := Machine.mem_outcome hk
        exact .inr ⟨rfl, hraises e he, .inl rfl⟩
    fits := by
      intro entry hentry
      rw [machine_proceed, hp.entry] at hentry
      cases hentry
    outcome := by
      intro ha _ hending
      rw [machine_proceed, hkind] at hending
      obtain ⟨e, he⟩ := Option.ne_none_iff_exists'.mp (hends hending)
      exact ⟨e, by simpa using hadded ha e he⟩
    timer := by
      rw [TimerOwned, htimers, machine_proceed, hkind, hp.epoch]
      exact h.timer
    delayed := by
      rw [machine_proceed, hkind, htimers]
      exact fun _ hd => .inl (h.delayed hd)
    watcher := by
      rw [WatcherOwned, hwatcher, machine_proceed, hkind, hp.epoch]
      exact h.watcher
    watched := by
      rw [machine_proceed, hkind]
      intro hA ha
      rcases h.watched hA ha with hwatching | ⟨e, he⟩
      · exact .inl (by rw [hwatcher]; exact hwatching)
      · exact .inr ⟨e, by simpa using hkept e he⟩
    moves := by
      rw [machine_proceed, hp.epoch, moves_proceed_quiet r hp.quiet]
      exact h.moves }

/-- A state whose entry has concluded satisfies the invariant, if it raises
its event or needs none. -/
theorem Entering.conclude {s : Surroundings} (h : r.Entering A) (hattended : A → s.attended)
    (owed : Owed) {followUp : Option Event}
    (hraises : ∀ e ∈ followUp, r.machine.state.Raises e)
    (hends : r.machine.state.kind.endsInEvent → followUp ≠ none) :
    (r.proceed (r.machine.conclude s owed followUp)).Sound A :=
  h.concludes (Machine.conclude_concludes (Q := fun _ => True) s owed followUp fun _ _ _ _ _ =>
    trivial)
    hattended hraises hends

/-- A state whose purpose has failed satisfies the invariant, since it raises
the event that says so. -/
theorem Entering.fail {s : Surroundings} (h : r.Entering A) (hattended : A → s.attended)
    (owed : Owed) (error : SessionError) {followUp : Event}
    (hraises : r.machine.state.Raises followUp) :
    (r.proceed (r.machine.fail s owed error followUp)).Sound A :=
  h.concludes
    (Machine.fail_concludes (Q := fun _ => True) s owed error followUp fun _ _ _ _ _ => trivial)
    hattended (by rintro e ⟨⟩; exact hraises) (by simp)

/-- A state other than the active one may come by its session while it is
being entered. -/
theorem Entering.withState (h : r.Entering A) (st : State)
    (hkind : st.kind = r.machine.state.kind) (hactive : st.kind ≠ .active) :
    (r.withMachine { r.machine with state := st }).Entering A where
  stamps := by
    intro e k hk
    rcases h.stamps e k hk with hlt | ⟨-, -, ha⟩
    · exact .inl hlt
    · exact absurd (hkind.trans ha) hactive
  timer := by
    rw [TimerOwned, machine_withMachine, hkind]
    exact h.timer
  delayed := by
    rw [machine_withMachine, hkind]
    exact h.delayed
  watcher := by
    rw [WatcherOwned, machine_withMachine, hkind]
    exact h.watcher
  watched := fun _ ha => absurd ha hactive
  moves := h.moves

/-- A state that has come by what its entry is for raises that it has. -/
theorem Entering.comesBy {s : Surroundings} (h : r.Entering A) (hattended : A → s.attended)
    (owed : Owed) {st : State} {event : Event} (hkind : st.kind = r.machine.state.kind)
    (hactive : st.kind ≠ .active) (hraises : st.Raises event) :
    (r.proceed (({ r.machine with state := st } : Machine).conclude s owed
      (some event))).Sound A := by
  have hnamed := h.withState st hkind hactive
  rw [← withMachine_proceed]
  exact hnamed.conclude hattended owed (by rintro e ⟨⟩; exact hraises) (by simp)

/-- To ask for an activation ends a step soundly if its failure does. -/
theorem Entering.activate {s : Surroundings} (h : r.Entering A) (owed : Owed)
    {awaiting : Awaiting} (hfits : awaiting.Fits r.machine.state) (session : Session)
    {failed : SessionError → Machine → Progress}
    (hfails : ∀ (r' : Run) (e : SessionError), r'.Entering A → r'.machine = r.machine →
      (r'.proceed (failed e r'.machine)).Sound A) :
    (r.proceed (r.machine.activate s owed awaiting session failed)).Sound A := by
  obtain ⟨before, hhidden, ⟨e, -, h'⟩ | ⟨_, _, _, h'⟩⟩ :=
    Machine.activate_cases s r.machine owed awaiting session failed
  · have hasked := h.alike (alike_of_quiet fun f hf => quiet_of_private (hhidden f hf))
    rw [h', proceed_andThen]
    exact hfails _ e hasked (by simp)
  · have hasked := h.alike (alike_of_quiet fun f hf => quiet_of_private (hhidden f hf))
    rw [h', proceed_andThen]
    exact hasked.waits owed _ (by simpa using hfits)

/-! ## To enter a state -/

/-- The connection is watched from the moment a session is in use, before it
is looked at whether it is still there. -/
theorem Fresh.watch (h : r.Fresh) (hactive : r.machine.state.kind = .active) :
    (r.proceed { machine := r.machine, effects := [.watched r.machine.epoch] }).Entering A where
  stamps := by
    intro e k hk
    exact .inl (by simpa using h.stamps e k (by simpa using hk))
  timer := .inl (by simpa [Engine.timersAfter] using h.timer)
  delayed := by simp [hactive]
  watcher := by simp [WatcherOwned, Engine.watcherAfter, hactive]
  watched := fun _ _ => .inl (by simp [Engine.watcherAfter])
  moves := by simpa [Happening.isMove] using h.moves

/-- The delay before an attempt to reactivate is the one timer that waits. -/
theorem Fresh.schedule (h : r.Fresh) (delay : Duration)
    (hdelayed : r.machine.state.kind = .reactivateDelay) :
    (r.proceed
      { machine := r.machine, effects := [.scheduled r.machine.epoch delay] }).Entering A where
  stamps := by
    intro e k hk
    exact .inl (by simpa using h.stamps e k (by simpa using hk))
  timer := .inr (by simp [Engine.timersAfter, Timers.schedule, h.timer, hdelayed])
  delayed := fun _ => by simp [Engine.timersAfter, Timers.schedule]
  watcher := by simp [WatcherOwned, Engine.watcherAfter, h.watcher]
  watched := by simp [hdelayed]
  moves := by simpa [Happening.isMove] using h.moves

theorem alike_startedPublishing (reset : Bool) :
    Alike r (r.proceed { machine := r.machine, effects := [.startedPublishing reset] }) := by
  constructor <;> simp [Engine.watcherAfter, Engine.timersAfter, Happening.isMove]

theorem alike_transferred (results : List (UInt32 × StatusCode)) :
    Alike r (r.proceed
      { machine := r.machine
        effects := [.transferred results, .startedPublishing true] }) := by
  constructor <;> simp [Engine.watcherAfter, Engine.timersAfter, Happening.isMove]

/-- **Every state is entered soundly.**  The courses of entering are gone
through one by one; each starts the timer or the watcher that its state needs,
or ends in a call or an event. -/
theorem Fresh.enter {s : Surroundings} (h : r.Fresh) (hattended : A → s.attended) (event : Event)
    (owed : Owed) : (r.proceed (r.machine.enter s event owed)).Sound A := by
  unfold Machine.enter
  split
  · rename_i abandoned hst
    have hentering : r.Entering A :=
      h.entering (by simp [hst, State.kind]) (by simp [hst, State.kind])
    by_cases hclosed : event = .disconnectSucceeded
    · rw [if_pos hclosed]
      exact hentering.conclude hattended owed
        (by simp) (by simp [hst, State.kind, Kind.endsInEvent])
    · rw [if_neg hclosed]
      have hemptied := hentering.withState (.inactive none)
        (by simp [hst, State.kind]) (by simp [State.kind])
      dsimp only
      split
      · rw [← withMachine_proceed]
        exact hemptied.waits owed _ trivial
      · rw [← withMachine_proceed]
        exact hemptied.waits owed _ trivial
  · rename_i ws created hst
    have hentering : r.Entering A :=
      h.entering (by simp [hst, State.kind]) (by simp [hst, State.kind])
    have hblank := h.blank
    rw [hst] at hblank
    cases hblank
    exact hentering.waits owed _ (by rw [hst]; trivial)
  · rename_i ws session hst
    have hentering : r.Entering A :=
      h.entering (by simp [hst, State.kind]) (by simp [hst, State.kind])
    refine hentering.activate owed (by rw [hst]; trivial) session ?_
    intro r' e hentering' hr'
    exact hentering'.fail hattended owed e (by rw [hr', hst]; exact .inr rfl)
  · rename_i ws session hst
    have hwatched := h.watch (A := A) (by simp [hst, State.kind])
    have hkind : r.machine.state.kind = .active := by simp [hst, State.kind]
    dsimp only
    split
    · rw [proceed_andThen]
      exact hwatched.conclude hattended owed (by rintro e ⟨⟩; simp [hst, State.Raises])
        (by simp [hkind, Kind.endsInEvent])
    · split
      · rw [proceed_andThen]
        exact hwatched.conclude hattended owed (by simp) (by simp [hkind, Kind.endsInEvent])
      · rename_i ids _
        split
        · rw [proceed_andThen]
          exact hwatched.waits owed _ (by simp [hst, Awaiting.Fits])
        · rw [proceed_andThen, proceed_andThen]
          have hpublished := hwatched.alike (alike_startedPublishing (event = .activateSucceeded))
          exact hpublished.conclude hattended owed (by simp) (by simp [hkind, Kind.endsInEvent])
  · rename_i session completions hst
    have hentering : r.Entering A :=
      h.entering (by simp [hst, State.kind]) (by simp [hst, State.kind])
    exact hentering.waits owed _ (by rw [hst]; trivial)
  · rename_i previous delay ws hst
    have hscheduled := h.schedule (A := A) (.ofSecs delay) (by simp [hst, State.kind])
    rw [proceed_andThen]
    exact hscheduled.conclude hattended owed (by simp)
      (by simp [hst, State.kind, Kind.endsInEvent])
  · rename_i previous delay ws session hst
    have hentering : r.Entering A :=
      h.entering (by simp [hst, State.kind]) (by simp [hst, State.kind])
    have hblank := h.blank
    rw [hst] at hblank
    cases hblank
    exact hentering.waits owed _ (by rw [hst]; trivial)

/-! ## To go on after a call -/

/-- **Every call that ends lets the entry of a state go on soundly.** -/
theorem Sound.resume {s : Surroundings} (h : r.Sound A) (hattended : A → s.attended) (o : Outcome) :
    (r.proceed (r.machine.resume s o)).Sound A := by
  unfold Machine.resume
  split
  · rw [proceed_silent]
    exact h
  · rename_i awaiting owed hwaiting
    have hentering := h.entering hwaiting
    have hfits := h.fits _ hwaiting
    cases awaiting with
    | closeAbandoned =>
        cases hst : r.machine.state <;> simp only [hst, Awaiting.Fits] at hfits
        exact hentering.waits owed _ (by rw [hst]; trivial)
    | dropConnection =>
        cases hst : r.machine.state <;> simp only [hst, Awaiting.Fits] at hfits
        exact hentering.conclude hattended owed (by simp)
          (by simp [hst, State.kind, Kind.endsInEvent])
    | connectToCreate =>
        cases hst : r.machine.state <;> simp only [hst, Awaiting.Fits] at hfits
        subst hfits
        dsimp only
        split
        · exact hentering.fail hattended owed _ (by rw [hst]; rfl)
        · split
          · exact hentering.fail hattended owed _ (by rw [hst]; rfl)
          · exact hentering.waits owed _ (by rw [hst]; rfl)
    | createSession =>
        cases hst : r.machine.state <;> simp only [hst, Awaiting.Fits] at hfits
        subst hfits
        rename_i ws
        dsimp only
        split
        · exact hentering.fail hattended owed _ (by rw [hst]; rfl)
        · simp only [Machine.created, hst]
          exact hentering.comesBy hattended owed (by simp [hst, State.kind])
            (by simp [State.kind]) rfl
    | activateSession =>
        cases hst : r.machine.state <;> simp only [hst, Awaiting.Fits] at hfits
        rename_i ws session
        dsimp only
        split
        · exact hentering.fail hattended owed _ (by rw [hst]; exact .inr rfl)
        · simp only [Machine.activated, hst]
          exact hentering.comesBy hattended owed (by simp [hst, State.kind]) (by simp [State.kind])
            (.inl rfl)
    | transfer ids =>
        cases hst : r.machine.state <;> simp only [hst, Awaiting.Fits] at hfits
        rw [proceed_andThen]
        have htransferred := hentering.alike
          (alike_transferred (transferResults ids (Machine.outcomeResponse o)))
        exact htransferred.conclude hattended owed (by simp)
          (by simp [hst, State.kind, Kind.endsInEvent])
    | closeSession =>
        cases hst : r.machine.state <;> simp only [hst, Awaiting.Fits] at hfits
        exact hentering.waits owed _ (by rw [hst]; trivial)
    | closeConnection =>
        cases hst : r.machine.state <;> simp only [hst, Awaiting.Fits] at hfits
        exact hentering.conclude hattended owed (by rintro e ⟨⟩; rw [hst]; rfl) (by simp)
    | connectToReactivate =>
        cases hst : r.machine.state <;> simp only [hst, Awaiting.Fits] at hfits
        subst hfits
        rename_i previous delay ws
        have hrefused : ∀ (r' : Run) (e : SessionError), r'.Entering A → r'.machine = r.machine →
            (r'.proceed (r'.machine.failReactivation s owed e)).Sound A := by
          intro r' e hentering' hr'
          exact hentering'.fail hattended owed e
            (by rw [hr', hst]; split <;> simp [State.Raises])
        cases o with
        | failed e => exact hrefused r e hentering rfl
        | done => exact hentering.activate owed (by rw [hst]; rfl) previous hrefused
        | response r => exact hentering.activate owed (by rw [hst]; rfl) previous hrefused
    | reactivateSession =>
        cases hst : r.machine.state <;> simp only [hst, Awaiting.Fits] at hfits
        subst hfits
        rename_i previous delay ws
        dsimp only
        split
        · exact hentering.fail hattended owed _ (by rw [hst]; split <;> simp [State.Raises])
        · simp only [Machine.reactivated, hst]
          exact hentering.comesBy hattended owed (by simp [hst, State.kind])
            (by simp [State.kind]) rfl

end Run

end OpcSession.Session
