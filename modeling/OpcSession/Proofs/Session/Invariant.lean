import OpcSession.Proofs.Session.Steps

/-!
# What ties the session machine to its queue, its timer and its watcher

An event stamped with the current epoch was raised by the very state that is
current, so it is one of the few events that this state can raise
(`State.Raises`), and each of those moves it.  The timer and the watcher that
are there belong to the current state, and a state that has been entered has
raised the outcome of its entry.

* `Run.Sound` — all of this at a point of a run;
* `Run.Entering`, `Run.Fresh` — what there is of it in the middle of a step;
* `State.Raises.moves` — whatever a state raises moves it.
-/

namespace OpcSession.Session

/-! ## What a state can raise -/

/-- The kinds of states whose entry ends in an event: what they are for has
come out one way or the other. -/
def Kind.endsInEvent : Kind → Bool
  | creating | activating | closing | reactivateExecute => true
  | _ => false

/-- The events that a state itself can raise: the outcome of its entry, what
its watcher sees, or what its timer asks for. -/
def State.Raises : State → Event → Prop
  | inactive _, _ => False
  | creating _ none, e => e = .createFailed
  | creating _ (some _), e => e = .createSucceeded
  | activating _ _, e => e = .activateSucceeded ∨ e = .activateFailed
  | active _ _, e => e = .connectionLost ∨ e = .sessionInvalid
  | closing _ _, e => e = .disconnectSucceeded
  | reactivateDelay _ _ _, e => e = .reactivateRequested
  | reactivateExecute _ _ _ none, e => e = .reactivateFailed ∨ e = .reactivateInvalid
  | reactivateExecute _ _ _ (some _), e => e = .reactivateSucceeded

theorem State.raises_bare (st : State) (e : Event) : st.bare.Raises e ↔ st.Raises e := by
  cases st with
  | creating ws created => cases created <;> rfl
  | reactivateExecute previous delay ws session => cases session <;> rfl
  | _ => rfl

theorem State.raises_of_bare {st st' : State} (h : st.bare = st'.bare) (e : Event) :
    st.Raises e ↔ st'.Raises e := by
  rw [← raises_bare st, h, raises_bare]

/-- A state that has not come by what its entry is for: the session to be
created, or the one that is to be presented again. -/
def State.Blank : State → Prop
  | creating _ created => created = none
  | reactivateExecute _ _ _ session => session = none
  | _ => True

theorem State.blank_of_bare {st st' : State} (h : st.bare = st'.bare) (hblank : st'.Blank) :
    st.Blank := by
  cases st <;> cases st' <;> cases h <;> exact hblank

/-- The table of moves leads to blank states only; what a state comes by it
gets while it is entered. -/
theorem State.transition?_blank {st : State} {e : Event} {move : State.Move}
    (h : st.transition? e = some move) : move.next.Blank := by
  unfold transition? at h
  split at h <;> cases h <;> trivial

/-- Whatever a state raises moves it, so no event of its own is lost on the
state that raised it. -/
theorem State.Raises.moves {st : State} {e : Event} (h : st.Raises e) :
    (st.transition? e).isSome := by
  cases st with
  | inactive abandoned => exact h.elim
  | creating ws created =>
      cases created with
      | none => cases h; rfl
      | some session => cases h; rfl
  | activating ws session => rcases h with rfl | rfl <;> rfl
  | active ws session => rcases h with rfl | rfl <;> rfl
  | closing session completions => cases h; rfl
  | reactivateDelay previous delay ws => cases h; rfl
  | reactivateExecute previous delay ws session =>
      cases session with
      | none => rcases h with rfl | rfl <;> rfl
      | some session => cases h; rfl

/-- The states in which the machine can wait for a call, with what they can
hold while it does. -/
def Awaiting.Fits : Awaiting → State → Prop
  | .closeAbandoned, .inactive _ | .dropConnection, .inactive _ => True
  | .connectToCreate, .creating _ created | .createSession, .creating _ created =>
    created = none
  | .activateSession, .activating _ _ => True
  | .transfer _, .active _ _ => True
  | .closeSession, .closing _ _ | .closeConnection, .closing _ _ => True
  | .connectToReactivate, .reactivateExecute _ _ _ session
  | .reactivateSession, .reactivateExecute _ _ _ session => session = none
  | _, _ => False

/-- Whether the queue holds an event stamped with the current epoch, which the
machine will not take for stale unless it moves before. -/
def Machine.Queued (m : Machine) (e : Event) : Prop := .stamped e m.epoch ∈ m.queue

/-! ## The invariant -/

namespace Run

/-- The timer of the current state is the only one that waits: a state that is
left takes its timer along. -/
def TimerOwned (r : Run) : Prop :=
  r.engine.timers.waiting = [] ∨
    r.machine.state.kind = .reactivateDelay ∧
      ∃ t, r.engine.timers.waiting = [t] ∧ t.task = r.machine.epoch

/-- The watcher of the current state is the only one that watches: a session
that is left is not watched any more. -/
def WatcherOwned (r : Run) : Prop :=
  ∀ w, r.engine.watcher? = some w →
    r.machine.state.kind = .active ∧ w.epoch = r.machine.epoch

/-- The connection is watched, or the watcher has seen what ends its watch. -/
def Watched (r : Run) : Prop :=
  r.engine.watcher?.isSome ∨ ∃ e, r.machine.Queued e

/-- **The invariant of the machine with its watcher and its timer.**  What
they raise gets into the queue as long as anyone is left, which is the
assumption `A`. -/
structure Sound (A : Prop) (r : Run) : Prop where
  /-- What is stamped is out of date or of the current epoch, and then the
  current state raised it, at the end of its entry unless a session is in
  use. -/
  stamps : ∀ e k, .stamped e k ∈ r.machine.queue → k < r.machine.epoch ∨
    k = r.machine.epoch ∧ r.machine.state.Raises e ∧
      (r.machine.entry? = none ∨ r.machine.state.kind = .active)
  /-- A call is waited for only in a state that it fits. -/
  fits : ∀ entry, r.machine.entry? = some entry → entry.awaiting.Fits r.machine.state
  /-- A state whose entry is over has raised how it came out. -/
  outcome : A → r.machine.entry? = none → r.machine.state.kind.endsInEvent →
    ∃ e, r.machine.Queued e
  /-- No timer of an earlier state is left. -/
  timer : r.TimerOwned
  /-- A wait has its timer, or the timer has fired. -/
  delayed : A → r.machine.state.kind = .reactivateDelay →
    r.engine.timers.waiting ≠ [] ∨ ∃ e, r.machine.Queued e
  /-- No watcher of an earlier session is left. -/
  watcher : r.WatcherOwned
  /-- A session in use is watched, or the watcher has raised what it saw. -/
  watched : A → r.machine.state.kind = .active → r.Watched
  moves : r.machine.epoch = r.moves

/-- The invariant in the middle of a step, while a state is being entered: the
outcome is still to come. -/
structure Entering (A : Prop) (r : Run) : Prop where
  stamps : ∀ e k, .stamped e k ∈ r.machine.queue → k < r.machine.epoch ∨
    k = r.machine.epoch ∧ r.machine.state.Raises e ∧ r.machine.state.kind = .active
  timer : r.TimerOwned
  delayed : r.machine.state.kind = .reactivateDelay → r.engine.timers.waiting ≠ []
  watcher : r.WatcherOwned
  watched : A → r.machine.state.kind = .active → r.Watched
  moves : r.machine.epoch = r.moves

/-- A state that was just moved to: nothing is its own yet, neither an event
in the queue nor a timer nor a watcher. -/
structure Fresh (r : Run) : Prop where
  blank : r.machine.state.Blank
  stamps : ∀ e k, .stamped e k ∈ r.machine.queue → k < r.machine.epoch
  timer : r.engine.timers.waiting = []
  watcher : r.engine.watcher? = none
  moves : r.machine.epoch = r.moves

theorem sound_start (A : Prop) : Sound A {} where
  stamps := by simp
  fits := by simp
  outcome := by simp [State.kind, Kind.endsInEvent]
  timer := .inl rfl
  delayed := by simp [State.kind]
  watcher := by simp [WatcherOwned]
  watched := by simp [State.kind]
  moves := rfl

variable {A : Prop} {r : Run}

/-- A delay is entered without a call, so the machine can take commands while
it waits. -/
theorem Sound.idle_of_delay (h : r.Sound A) (hdelay : r.machine.state.kind = .reactivateDelay) :
    r.machine.entry? = none := by
  cases hentry : r.machine.entry? with
  | none => rfl
  | some entry =>
      have hfits := h.fits entry hentry
      obtain ⟨awaiting, owed⟩ := entry
      cases hst : r.machine.state <;> rw [hst] at hdelay hfits <;> cases hdelay
      cases awaiting <;> exact hfits.elim

/-- While the machine waits for a call the state is still being entered. -/
theorem Sound.entering (h : r.Sound A) {entry : Entry}
    (hwaiting : r.machine.entry? = some entry) : r.Entering A where
  stamps := by
    intro e k hk
    rcases h.stamps e k hk with hlt | ⟨heq, hraises, hidle | hactive⟩
    · exact .inl hlt
    · rw [hwaiting] at hidle
      cases hidle
    · exact .inr ⟨heq, hraises, hactive⟩
  timer := h.timer
  delayed := by
    intro hdelay
    rw [h.idle_of_delay hdelay] at hwaiting
    cases hwaiting
  watcher := h.watcher
  watched := h.watched
  moves := h.moves

/-- Most states own nothing but the outcome of their entry, so they satisfy
the invariant as they are moved to. -/
theorem Fresh.entering (h : r.Fresh) (hactive : r.machine.state.kind ≠ .active)
    (hdelay : r.machine.state.kind ≠ .reactivateDelay) : r.Entering A where
  stamps := fun e k hk => .inl (h.stamps e k hk)
  timer := .inl h.timer
  delayed := fun hd => absurd hd hdelay
  watcher := by
    intro w hw
    rw [h.watcher] at hw
    cases hw
  watched := fun _ ha => absurd ha hactive
  moves := h.moves

/-! ## What leaves the invariant alone -/

/-- Two points of a run that differ only in who waits, in what the watcher has
not read, in the clock and in the listeners. -/
structure Alike (r r' : Run) : Prop where
  /-- The states hold the same, -/
  bare : r'.machine.state.bare = r.machine.state.bare
  /-- in the same epoch, -/
  epoch : r'.machine.epoch = r.machine.epoch
  /-- with the same commands ahead. -/
  queue : r'.machine.queue = r.machine.queue
  /-- The same call is waited for, -/
  entry : r'.machine.entry? = r.machine.entry?
  /-- the same timers wait, -/
  waiting : r'.engine.timers.waiting = r.engine.timers.waiting
  /-- the same connection is watched, -/
  watcher : r'.engine.watcher?.map (·.epoch) = r.engine.watcher?.map (·.epoch)
  /-- and as many moves were made. -/
  moves : r'.moves = r.moves

namespace Alike

variable {r' : Run}

theorem kind (ha : Alike r r') : r'.machine.state.kind = r.machine.state.kind :=
  State.kind_eq_of_bare ha.bare

theorem queued (ha : Alike r r') (e : Event) : r'.machine.Queued e ↔ r.machine.Queued e := by
  rw [Machine.Queued, Machine.Queued, ha.queue, ha.epoch]

theorem timerOwned (ha : Alike r r') : r'.TimerOwned ↔ r.TimerOwned := by
  rw [TimerOwned, TimerOwned, ha.waiting, ha.kind, ha.epoch]

theorem watcherOwned (ha : Alike r r') (h : r.WatcherOwned) : r'.WatcherOwned := by
  intro w' hw'
  have hmap : r.engine.watcher?.map (·.epoch) = some w'.epoch := by
    rw [← ha.watcher, hw']
    rfl
  obtain ⟨w, hw, hepoch⟩ := Option.map_eq_some_iff.mp hmap
  have howned := h w hw
  rw [ha.kind, ha.epoch, ← hepoch]
  exact howned

theorem watched (ha : Alike r r') : r'.Watched ↔ r.Watched := by
  have hisSome : r'.engine.watcher?.isSome = r.engine.watcher?.isSome := by
    rw [← Option.isSome_map, ha.watcher, Option.isSome_map]
  simp only [Watched, hisSome, ha.queued]

end Alike

theorem fits_of_bare {a : Awaiting} {st st' : State} (h : st.bare = st'.bare) :
    a.Fits st ↔ a.Fits st' := by
  have hbare : ∀ st : State, a.Fits st.bare ↔ a.Fits st := by
    intro st
    cases st with
    | creating ws created => cases created <;> cases a <;> rfl
    | reactivateExecute previous delay ws session => cases session <;> cases a <;> rfl
    | _ => cases a <;> rfl
  rw [← hbare st, h, hbare]

theorem Sound.alike {r' : Run} (h : r.Sound A) (ha : Alike r r') : r'.Sound A where
  stamps := by
    intro e k hk
    rw [ha.queue] at hk
    rw [ha.epoch, ha.kind, ha.entry, State.raises_of_bare ha.bare]
    exact h.stamps e k hk
  fits := by
    intro entry hentry
    rw [ha.entry] at hentry
    exact (fits_of_bare ha.bare).mpr (h.fits entry hentry)
  outcome := by
    simp only [ha.entry, ha.kind, ha.queued]
    exact h.outcome
  timer := ha.timerOwned.mpr h.timer
  delayed := by
    simp only [ha.kind, ha.waiting, ha.queued]
    exact h.delayed
  watcher := ha.watcherOwned h.watcher
  watched := by
    rw [ha.kind, ha.watched]
    exact h.watched
  moves := by
    rw [ha.epoch, ha.moves]
    exact h.moves

/-- A step that serves callers leaves everything else as it was, so nothing
that the invariant speaks of changes. -/
theorem alike_of_serves {p : Progress} (h : Serves r.machine p) : Alike r (r.proceed p) where
  bare := by simpa using h.bare
  epoch := by simpa using h.epoch
  queue := by simpa using h.queue
  entry := by simpa using h.entry
  waiting := by rw [timers_proceed, Engine.timersAfter_quiet _ h.quiet]
  watcher := by rw [watcher_proceed, Engine.watcherAfter_quiet _ h.quiet]
  moves := moves_proceed_quiet r h.quiet

theorem alike_of_quiet {fs : List Effect} (hquiet : ∀ f ∈ fs, f.isQuiet) :
    Alike r (r.proceed { machine := r.machine, effects := fs }) :=
  alike_of_serves ⟨rfl, rfl, rfl, rfl, rfl, hquiet⟩

theorem Entering.alike {r' : Run} (h : r.Entering A) (ha : Alike r r') : r'.Entering A where
  stamps := by
    intro e k hk
    rw [ha.queue] at hk
    rw [ha.epoch, ha.kind, State.raises_of_bare ha.bare]
    exact h.stamps e k hk
  timer := ha.timerOwned.mpr h.timer
  delayed := by
    simp only [ha.kind, ha.waiting]
    exact h.delayed
  watcher := ha.watcherOwned h.watcher
  watched := by
    rw [ha.kind, ha.watched]
    exact h.watched
  moves := by
    rw [ha.epoch, ha.moves]
    exact h.moves

end Run

end OpcSession.Session
