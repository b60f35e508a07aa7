import OpcSession.Proofs.Session.Run

/-!
# What a step of the session machine changes

One lemma for each part of a step says what it changes of the machine and
which effects it has; the laws about whole runs cite these and look into no
part again.

Three kinds of change come up.  A part may *serve* callers, which changes
nothing but who waits in the state.  Listeners that are told of an edge can
only raise events and come and go.  And a step ends by *concluding* the
entry of a state, which puts the outcome at the end of the queue under the
epoch of that state.
-/

namespace OpcSession.Session

/-! ## States without their callers -/

namespace State

/-- The state without those who wait in it: what it is about, and nothing of
its callers. -/
def bare : State → State
  | inactive abandoned => inactive abandoned
  | creating _ created => creating [] created
  | activating _ session => activating [] session
  | active _ session => active [] session
  | closing session _ => closing session []
  | reactivateDelay previous delay _ => reactivateDelay previous delay []
  | reactivateExecute previous delay _ session => reactivateExecute previous delay [] session

@[simp] theorem bare_withWaiters (st : State) (ws : List Ticket) :
    (st.withWaiters ws).bare = st.bare := by
  cases st <;> rfl

@[simp] theorem kind_bare (st : State) : st.bare.kind = st.kind := by
  cases st <;> rfl

theorem kind_eq_of_bare {st st' : State} (h : st.bare = st'.bare) : st.kind = st'.kind := by
  rw [← kind_bare st, h, kind_bare]

@[simp] theorem activeSession?_bare (st : State) :
    st.bare.activeSession? = st.activeSession? := by
  cases st <;> rfl

end State

/-! ## Effects that the engine does not notice -/

/-- An effect that only callers, listeners, the credentials or the key of the
client notice. -/
def Effect.isQuiet : Effect → Bool
  | .answered _ _ | .told _ _ _ | .identified _ | .signed _ => true
  | _ => false

/-- An effect that only the credentials or the key of the client notice. -/
def Effect.isPrivate : Effect → Bool
  | .identified _ | .signed _ => true
  | _ => false

theorem quiet_of_private {f : Effect} (h : f.isPrivate) : f.isQuiet := by
  cases f <;> first | rfl | cases h

theorem quiet_answers (tickets : List Ticket) (a : Answer) :
    ∀ f ∈ Machine.answers tickets a, f.isQuiet := by
  intro f hf
  obtain ⟨t, -, rfl⟩ := List.mem_map.mp hf
  rfl

theorem quiet_append {fs gs : List Effect} (hf : ∀ f ∈ fs, f.isQuiet)
    (hg : ∀ f ∈ gs, f.isQuiet) : ∀ f ∈ fs ++ gs, f.isQuiet := by
  intro f h
  rcases List.mem_append.mp h with h | h
  · exact hf f h
  · exact hg f h

theorem Engine.watcherAfter_quiet (w : Option Watcher) {fs : List Effect}
    (hquiet : ∀ f ∈ fs, f.isQuiet) : fs.foldl watcherAfter w = w := by
  induction fs with
  | nil => rfl
  | cons f fs ih =>
      have hf : watcherAfter w f = w := by
        have := hquiet f List.mem_cons_self
        cases f <;> first | rfl | cases this
      rw [List.foldl_cons, hf]
      exact ih fun g hg => hquiet g (List.mem_cons_of_mem _ hg)

theorem Engine.timersAfter_quiet (ts : Timers Nat) {fs : List Effect}
    (hquiet : ∀ f ∈ fs, f.isQuiet) : fs.foldl timersAfter ts = ts := by
  induction fs with
  | nil => rfl
  | cons f fs ih =>
      have hf : timersAfter ts f = ts := by
        have := hquiet f List.mem_cons_self
        cases f <;> first | rfl | cases this
      rw [List.foldl_cons, hf]
      exact ih fun g hg => hquiet g (List.mem_cons_of_mem _ hg)

/-- No quiet effect is a move, so none counts as one. -/
theorem countMoves_quiet {fs : List Effect} (hquiet : ∀ f ∈ fs, f.isQuiet) :
    (fs.map Happening.did).countP Happening.isMove = 0 := by
  rw [List.countP_eq_zero]
  intro x hx
  obtain ⟨f, hf, rfl⟩ := List.mem_map.mp hx
  have hquietf := hquiet f hf
  cases f <;> simp [Happening.isMove, Effect.isQuiet] at hquietf ⊢

theorem Run.moves_proceed_quiet (r : Run) {p : Progress}
    (hquiet : ∀ f ∈ p.effects, f.isQuiet) : (r.proceed p).moves = r.moves := by
  rw [moves_proceed, countMoves_quiet hquiet, Nat.add_zero]

/-! ## Parts of a step that serve callers -/

/-- The part changes nothing but who waits in the state.  Callers are answered
or join, and everything else stays as it is. -/
structure Serves (m : Machine) (p : Progress) : Prop where
  /-- What the state is about stays, -/
  bare : p.machine.state.bare = m.state.bare
  /-- as does the epoch, -/
  epoch : p.machine.epoch = m.epoch
  /-- the queue, -/
  queue : p.machine.queue = m.queue
  /-- the call that is waited for, -/
  entry : p.machine.entry? = m.entry?
  /-- and the listeners. -/
  listeners : p.machine.listeners = m.listeners
  /-- Nothing is done but to answer. -/
  quiet : ∀ f ∈ p.effects, f.isQuiet

namespace Serves

variable {m : Machine} {p : Progress}

theorem refl (m : Machine) : Serves m { machine := m } :=
  ⟨rfl, rfl, rfl, rfl, rfl, by simp⟩

theorem kind (h : Serves m p) : p.machine.state.kind = m.state.kind :=
  State.kind_eq_of_bare h.bare

theorem andThen (h : Serves m p) {f : Machine → Progress}
    (hf : Serves p.machine (f p.machine)) : Serves m (p.andThen f) where
  bare := hf.bare.trans h.bare
  epoch := hf.epoch.trans h.epoch
  queue := hf.queue.trans h.queue
  entry := hf.entry.trans h.entry
  listeners := hf.listeners.trans h.listeners
  quiet := quiet_append h.quiet hf.quiet

end Serves

namespace Machine

theorem attach_serves (m : Machine) (t : Ticket) : Serves m (m.attach t) := by
  unfold attach
  split
  · exact ⟨rfl, rfl, rfl, rfl, rfl, by simp [Effect.isQuiet]⟩
  · exact ⟨rfl, rfl, rfl, rfl, rfl, by simp [Effect.isQuiet]⟩
  · exact ⟨rfl, rfl, rfl, rfl, rfl, by simp [Effect.isQuiet]⟩
  · exact ⟨State.bare_withWaiters _ _, rfl, rfl, rfl, rfl, by simp⟩

/-- An event of the current epoch is handled, like any other event but without
a caller. -/
theorem obey_current (s : Surroundings) (m : Machine) (e : Event) {k : Nat}
    (hcurrent : k = m.epoch) : m.obey s (.stamped e k) = m.handle s e none .nobody :=
  if_pos hcurrent

/-- An event of another epoch is dropped, and leaves no trace. -/
theorem obey_stale (s : Surroundings) (m : Machine) (e : Event) {k : Nat}
    (hstale : k ≠ m.epoch) : m.obey s (.stamped e k) = { machine := m } :=
  if_neg hstale

theorem pay_serves (m : Machine) (owed : Owed) : Serves m (m.pay owed) := by
  cases owed with
  | nobody => exact .refl m
  | state t => exact ⟨rfl, rfl, rfl, rfl, rfl, by simp [pay, Effect.isQuiet]⟩
  | disconnect t =>
      simp only [pay]
      split
      · rename_i session cs hst
        exact ⟨by simp [State.bare, hst], rfl, rfl, rfl, rfl, by simp⟩
      · exact ⟨rfl, rfl, rfl, rfl, rfl, by simp [Effect.isQuiet]⟩

/-- To join those that wait, on behalf of a caller or of nobody. -/
theorem join_serves (m : Machine) (waiter : Option Ticket) :
    Serves m (waiter.elim { machine := m } m.attach) := by
  cases waiter with
  | none => exact .refl m
  | some t => exact attach_serves m t

end Machine

/-! ## Listeners -/

/-- The listener raises no other events than `Q` allows, whether it is told
that a session is in use or that it is not any more. -/
def Listener.RaisesOnly (Q : Event → Prop) (l : Listener) : Prop :=
  ∀ active e, Reaction.raise e ∈ l.reactions active → Q e

/-- None of the listeners raises other events than `Q` allows.  Those that
they add when they are called only listen. -/
def Listeners.RaiseOnly (Q : Event → Prop) (ls : Listeners) : Prop :=
  ∀ l ∈ ls.snapshot, l.RaisesOnly Q

/-- Listeners raise events, and nothing is asked of these. -/
theorem Listeners.raiseOnly_any (ls : Listeners) : ls.RaiseOnly fun _ => True :=
  fun _ _ _ _ _ => trivial

/-- All that listeners do to a machine when they are told of an edge: they
raise events and come and go. -/
def Hears (Q : Event → Prop) (m m' : Machine) : Prop :=
  ∃ (ls : Listeners) (raised : List Event),
    m' = { m with listeners := ls, queue := m.queue ++ raised.map (.event · none) } ∧
      (∀ e ∈ raised, Q e) ∧ ls.RaiseOnly Q

section Listening

variable {Q : Event → Prop} {m m' m'' : Machine}

theorem Hears.refl (h : m.listeners.RaiseOnly Q) : Hears Q m m :=
  ⟨m.listeners, [], by simp, by simp, h⟩

theorem Hears.trans (h : Hears Q m m') (h' : Hears Q m' m'') : Hears Q m m'' := by
  obtain ⟨ls, raised, rfl, hQ, -⟩ := h
  obtain ⟨ls', raised', rfl, hQ', hls'⟩ := h'
  refine ⟨ls', raised ++ raised', by simp, ?_, hls'⟩
  intro e he
  rcases List.mem_append.mp he with he | he
  · exact hQ e he
  · exact hQ' e he

theorem Hears.raiseOnly (h : Hears Q m m') : m'.listeners.RaiseOnly Q := by
  obtain ⟨ls, raised, rfl, -, hls⟩ := h
  exact hls

theorem Listeners.RaiseOnly.add {ls : Listeners} {l : Listener} (h : ls.RaiseOnly Q)
    (hallowed : l.RaisesOnly Q) : (ls.add l).RaiseOnly Q := by
  intro l' hl'
  simp only [snapshot, Listeners.add, List.map_append, List.map_cons, List.map_nil,
    List.mem_append, List.mem_singleton] at hl'
  rcases hl' with hl' | rfl
  · exact h l' hl'
  · exact hallowed

/-- A listener that only listens raises nothing, so it is allowed
everywhere. -/
theorem Listener.raisesOnly_silent (name : String) :
    ({ name := name } : Listener).RaisesOnly Q := by
  intro active e he
  cases active <;> cases he

theorem Listeners.RaiseOnly.remove {ls : Listeners} (h : ls.RaiseOnly Q) (name : String) :
    (ls.remove name).2.RaiseOnly Q := by
  unfold Listeners.remove
  split
  · exact h
  · intro l hl
    obtain ⟨entry, hentry, rfl⟩ := List.mem_map.mp hl
    exact h entry.2 (List.mem_map.mpr ⟨entry, (List.mem_filter.mp hentry).1, rfl⟩)

theorem Machine.react_hears (s : Surroundings) (h : m.listeners.RaiseOnly Q)
    (reaction : Reaction) (hallowed : ∀ e, reaction = .raise e → Q e) :
    Hears Q m (m.react s reaction) := by
  cases reaction with
  | add name =>
      exact ⟨_, [], by simp [react], by simp, h.add (Listener.raisesOnly_silent name)⟩
  | remove name => exact ⟨_, [], by simp [react], by simp, h.remove name⟩
  | raise e =>
      simp only [react]
      split
      · exact ⟨m.listeners, [e], by simp [push], by simpa using hallowed e rfl, h⟩
      · exact .refl h

theorem Machine.reactAll_hears (s : Surroundings) (reactions : List Reaction)
    (hallowed : ∀ e, .raise e ∈ reactions → Q e) (h : m.listeners.RaiseOnly Q) :
    Hears Q m (reactions.foldl (react s) m) := by
  induction reactions generalizing m with
  | nil => exact .refl h
  | cons reaction rest ih =>
      have hfirst := react_hears s h reaction fun e he => hallowed e (he ▸ List.mem_cons_self)
      exact hfirst.trans
        (ih (fun e he => hallowed e (List.mem_cons_of_mem _ he)) hfirst.raiseOnly)

/-- Listeners that are told of an edge only raise events and come and go. -/
theorem Machine.tell_hears (s : Surroundings) (h : m.listeners.RaiseOnly Q) (active : Bool)
    (session : Session) : Hears Q m (m.tell s active session).machine := by
  have hall : ∀ (told : List Listener) (m : Machine),
      (∀ l ∈ told, ∀ e, .raise e ∈ l.reactions active → Q e) → m.listeners.RaiseOnly Q →
      Hears Q m (told.foldl (fun m l => (l.reactions active).foldl (react s) m) m) := by
    intro told
    induction told with
    | nil => exact fun m _ h => .refl h
    | cons l rest ih =>
        intro m hallowed h
        have hfirst := reactAll_hears s (l.reactions active)
          (fun e he => hallowed l List.mem_cons_self e he) h
        exact hfirst.trans
          (ih _ (fun l hl => hallowed l (List.mem_cons_of_mem _ hl)) hfirst.raiseOnly)
  exact hall m.listeners.snapshot m (fun l hl e he => h l hl active e he) h

theorem Machine.tell_quiet (s : Surroundings) (m : Machine) (active : Bool)
    (session : Session) : ∀ f ∈ (m.tell s active session).effects, f.isQuiet := by
  intro f hf
  obtain ⟨l, -, rfl⟩ := List.mem_map.mp hf
  rfl

end Listening


/-! ## To conclude the entry of a state -/

/-- The outcome of an entry as it stands in the queue, if anyone is left. -/
def Machine.outcome (s : Surroundings) (m : Machine) (followUp : Option Event) :
    List Command :=
  if s.attended then (followUp.map (.stamped · m.epoch)).toList else []

theorem Machine.mem_outcome {s : Surroundings} {m : Machine} {followUp : Option Event}
    {e : Event} {k : Nat} (h : .stamped e k ∈ m.outcome s followUp) :
    e ∈ followUp ∧ k = m.epoch := by
  unfold outcome at h
  split at h
  · obtain ⟨e', he', heq⟩ := Option.map_eq_some_iff.mp (Option.mem_toList.mp h)
    cases heq
    exact ⟨he', rfl⟩
  · cases h

/-- The step ends the entry of a state: who waited is served, listeners have
raised what they raise, and the outcome comes last in the queue. -/
structure Concludes (Q : Event → Prop) (s : Surroundings) (followUp : Option Event)
    (m : Machine) (p : Progress) : Prop where
  /-- What the state is about stays, -/
  bare : p.machine.state.bare = m.state.bare
  /-- as does the epoch. -/
  epoch : p.machine.epoch = m.epoch
  /-- No call is waited for, -/
  entry : p.machine.entry? = none
  /-- listeners have raised what they may, and the event comes after that. -/
  queue : ∃ raised : List Event, (∀ e ∈ raised, Q e) ∧
    p.machine.queue = m.queue ++ raised.map (.event · none) ++ m.outcome s followUp
  /-- The listeners are as harmless as before. -/
  listeners : p.machine.listeners.RaiseOnly Q
  /-- Nothing is done but to tell and to answer. -/
  quiet : ∀ f ∈ p.effects, f.isQuiet

section Ending

variable {Q : Event → Prop} {m : Machine} {p : Progress}

theorem Machine.raise_queue (s : Surroundings) (m : Machine) (followUp : Option Event) :
    followUp.elim m (m.raise s) = { m with queue := m.queue ++ m.outcome s followUp } := by
  cases followUp with
  | none => simp [outcome]
  | some e => by_cases h : s.attended <;> simp [raise, outcome, push, h]

/-- A step that serves callers may come before the conclusion, and the whole
is one. -/
theorem Concludes.after {s : Surroundings} {followUp : Option Event} (h : Serves m p)
    {f : Machine → Progress} (hf : Concludes Q s followUp p.machine (f p.machine)) :
    Concludes Q s followUp m (p.andThen f) where
  bare := hf.bare.trans h.bare
  epoch := hf.epoch.trans h.epoch
  entry := hf.entry
  queue := by
    obtain ⟨raised, hQ, hqueue⟩ := hf.queue
    refine ⟨raised, hQ, ?_⟩
    rw [← h.queue]
    simpa [Machine.outcome, h.epoch, Progress.andThen] using hqueue
  listeners := hf.listeners
  quiet := quiet_append h.quiet hf.quiet

theorem Machine.announce_concludes (s : Surroundings) (hidle : m.entry? = none)
    (h : m.listeners.RaiseOnly Q) : Concludes Q s none m (m.announce s) := by
  unfold announce
  split
  · rename_i ws session hst
    obtain ⟨ls, raised, htold, hQ, hls⟩ := tell_hears s h true session
    exact {
      bare := by simp [Progress.andThen, htold]
      epoch := by simp [Progress.andThen, htold]
      entry := by simp [Progress.andThen, htold, hidle]
      queue := ⟨raised, hQ, by simp [Progress.andThen, htold, outcome]⟩
      listeners := by simpa [Progress.andThen, htold] using hls
      quiet := quiet_append (tell_quiet s m true session) (quiet_answers _ _) }
  · exact ⟨rfl, rfl, hidle, ⟨[], by simp, by simp [outcome]⟩, h, by simp⟩

theorem Machine.conclude_concludes (s : Surroundings) (owed : Owed)
    (followUp : Option Event) (h : m.listeners.RaiseOnly Q) :
    Concludes Q s followUp m (m.conclude s owed followUp) := by
  have htold := announce_concludes (m := { m with entry? := none }) s rfl h
  obtain ⟨raised, hQ, hqueue⟩ := htold.queue
  unfold conclude
  generalize announce s { m with entry? := none } = p at htold hqueue
  have hpaid := pay_serves (followUp.elim p.machine (p.machine.raise s)) owed
  rw [raise_queue] at hpaid
  simp only [Progress.andThen, raise_queue]
  exact {
    bare := hpaid.bare.trans htold.bare
    epoch := hpaid.epoch.trans htold.epoch
    entry := hpaid.entry.trans htold.entry
    queue := ⟨raised, hQ, by
      rw [hpaid.queue, hqueue]
      simp [outcome, htold.epoch]⟩
    listeners := by
      rw [hpaid.listeners]
      exact htold.listeners
    quiet := by
      rw [List.append_nil]
      exact quiet_append htold.quiet hpaid.quiet }

/-- The callers that wait learn why there is no session, and nobody waits
afterwards. -/
theorem Machine.refuse_serves (m : Machine) (e : SessionError) :
    Serves m
      { machine := { m with state := m.state.withWaiters [] }
        effects := answers m.state.waiters (.session (.error e)) } :=
  ⟨State.bare_withWaiters _ _, rfl, rfl, rfl, rfl, quiet_answers _ _⟩

theorem Machine.fail_concludes (s : Surroundings) (owed : Owed) (e : SessionError)
    (followUp : Event) (h : m.listeners.RaiseOnly Q) :
    Concludes Q s (some followUp) m (m.fail s owed e followUp) :=
  .after (refuse_serves m e) (conclude_concludes s owed (some followUp) h)

/-! ## To move to another state -/

/-- The step moves the machine: what is left is given up first, and then
listeners raise what they raise. -/
structure Moves (Q : Event → Prop) (m : Machine) (event : Event) (move : State.Move)
    (p : Progress) : Prop where
  /-- The state is the one that the table names. -/
  bare : p.machine.state.bare = move.next.bare
  /-- A new epoch has begun. -/
  epoch : p.machine.epoch = m.epoch + 1
  /-- No call has come into it. -/
  entry : p.machine.entry? = m.entry?
  /-- Only listeners have added to the queue. -/
  queue : ∃ raised : List Event, (∀ e ∈ raised, Q e) ∧
    p.machine.queue = m.queue ++ raised.map (.event · none)
  /-- The listeners are as harmless as before. -/
  listeners : p.machine.listeners.RaiseOnly Q
  /-- The move is made known first, and the state that was left is given up
  next. -/
  effects : ∃ rest, (∀ f ∈ rest, f.isQuiet) ∧
    p.effects = .published ⟨m.state.kind, event, move.next.kind⟩ ::
      Machine.leave m.state m.epoch ++ rest

/-- Whoever joins the machine after a move changes nothing but who waits.  The
whole is still that move. -/
theorem Moves.join {event : Event} {move : State.Move} {f : Machine → Progress}
    (h : Moves Q m event move p) (hf : Serves p.machine (f p.machine)) :
    Moves Q m event move (p.andThen f) where
  bare := hf.bare.trans h.bare
  epoch := hf.epoch.trans h.epoch
  entry := hf.entry.trans h.entry
  queue := by
    obtain ⟨raised, hQ, hqueue⟩ := h.queue
    exact ⟨raised, hQ, hf.queue.trans hqueue⟩
  listeners := by
    show (f p.machine).machine.listeners.RaiseOnly Q
    rw [hf.listeners]
    exact h.listeners
  effects := by
    obtain ⟨rest, hquiet, heffects⟩ := h.effects
    refine ⟨rest ++ (f p.machine).effects, quiet_append hquiet hf.quiet, ?_⟩
    simp [Progress.andThen, heffects]

/-- Listeners that hear of a move do to the machine what listeners do. -/
theorem Moves.hear {event : Event} {move : State.Move} {f : Machine → Progress}
    (h : Moves Q m event move p) (hf : Hears Q p.machine (f p.machine).machine)
    (hquiet : ∀ f' ∈ (f p.machine).effects, f'.isQuiet) :
    Moves Q m event move (p.andThen f) := by
  obtain ⟨ls, raised', hheard, hQ', hls⟩ := hf
  obtain ⟨raised, hQ, hqueue⟩ := h.queue
  obtain ⟨rest, hquietRest, heffects⟩ := h.effects
  exact {
    bare := by simp [Progress.andThen, hheard, h.bare]
    epoch := by simp [Progress.andThen, hheard, h.epoch]
    entry := by simp [Progress.andThen, hheard, h.entry]
    queue := by
      refine ⟨raised ++ raised', ?_, by simp [Progress.andThen, hheard, hqueue]⟩
      intro e he
      rcases List.mem_append.mp he with he | he
      · exact hQ e he
      · exact hQ' e he
    listeners := by simpa [Progress.andThen, hheard] using hls
    effects := by
      refine ⟨rest ++ (f p.machine).effects, quiet_append hquietRest hquiet, ?_⟩
      simp [Progress.andThen, heffects] }

theorem Machine.move_moves (s : Surroundings) (event : Event) (move : State.Move)
    (h : m.listeners.RaiseOnly Q) : Moves Q m event move (m.move s event move) := by
  have hgiven : Moves Q m event move
      { machine := { m with state := move.next, epoch := m.epoch + 1 }
        effects := .published ⟨m.state.kind, event, move.next.kind⟩ :: leave m.state m.epoch
          ++ answers move.left (.session (.error .closed)) } :=
    ⟨rfl, rfl, rfl, ⟨[], by simp, by simp⟩, h, _, quiet_answers _ _, rfl⟩
  unfold Machine.move
  split
  · rename_i session _
    exact hgiven.hear (tell_hears s hgiven.listeners false session) (tell_quiet s _ false session)
  · exact hgiven


/-- To give up a state is not to move; the move has been noted before. -/
theorem countMoves_leave (st : State) (epoch : Nat) :
    ((Machine.leave st epoch).map Happening.did).countP Happening.isMove = 0 := by
  cases st with
  | closing session completions => exact countMoves_quiet (quiet_answers _ _)
  | _ => rfl

theorem Moves.moves {r : Run} {event : Event} {move : State.Move} {p : Progress}
    (h : Moves Q r.machine event move p) : (r.proceed p).moves = r.moves + 1 := by
  obtain ⟨rest, hquiet, heffects⟩ := h.effects
  rw [Run.moves_proceed, heffects, List.cons_append, List.map_cons, List.map_append,
    List.countP_cons_of_pos rfl, List.countP_append, countMoves_leave, countMoves_quiet hquiet]

end Ending

/-! ## To ask for an activation -/

/-- Why a session cannot even be presented to the server: there is no
endpoint, no identity, or no signature where the policy asks for one. -/
inductive Surroundings.Refuses (s : Surroundings) (session : Session) : SessionError → Prop
  /-- There is no endpoint to present it at. -/
  | endpoint (hmissing : s.endpoint? = none) : Refuses s session .noEndpoint
  /-- No token can be made for this endpoint. -/
  | identity {endpoint : EndpointDescription} {e : SessionError}
      (hfound : s.endpoint? = some endpoint)
      (hrefused : s.identify endpoint session.serverNonce = .error e) : Refuses s session e
  /-- The data cannot be signed as the policy asks. -/
  | signature {algorithm : String} {e : SessionError}
      (hsigns : s.policy.signatureUri = some algorithm)
      (hrefused : s.sign (Surroundings.signedData session) = .error e) : Refuses s session e

/-- The only signature that can be missing is one that the policy asks for. -/
theorem Surroundings.refuses_of_signature {s : Surroundings} {session : Session}
    {data : Option (List UInt8)} {e : SessionError}
    (h : s.clientSignature session = (data, .error e)) : s.Refuses session e := by
  unfold clientSignature at h
  split at h
  · cases h
  · rename_i algorithm hsigns
    dsimp only at h
    cases hsign : s.sign (signedData session) with
    | error e' =>
        rw [hsign] at h
        cases h
        exact .signature hsigns hsign
    | ok signature =>
        rw [hsign] at h
        cases h

/-- How the request to activate a session comes about: it is sent under the
token of the session, unless there is no endpoint, identity or signature. -/
theorem Machine.activate_cases (s : Surroundings) (m : Machine) (owed : Owed)
    (awaiting : Awaiting) (session : Session) (failed : SessionError → Machine → Progress) :
    ∃ before : List Effect, (∀ f ∈ before, f.isPrivate) ∧
      ((∃ e, s.Refuses session e ∧ m.activate s owed awaiting session failed =
          ({ machine := m, effects := before } : Progress).andThen (failed e)) ∨
        ∃ identity tokenSignature signature,
          m.activate s owed awaiting session failed =
            ({ machine := m, effects := before } : Progress).andThen fun m =>
              m.waitFor owed awaiting
                (.send (s.activateRequest session identity tokenSignature signature))) := by
  unfold activate
  cases hfound : s.endpoint? with
  | none =>
      exact ⟨[], by simp, .inl ⟨.noEndpoint, .endpoint hfound, by simp [Progress.andThen]⟩⟩
  | some endpoint =>
      dsimp only
      cases hidentified : s.identify endpoint session.serverNonce with
      | error e =>
          exact ⟨[.identified session.serverNonce], by simp [Effect.isPrivate],
            .inl ⟨e, .identity hfound hidentified, rfl⟩⟩
      | ok token =>
          obtain ⟨identity, tokenSignature⟩ := token
          dsimp only
          generalize hsigned : s.clientSignature session = signing
          obtain ⟨data, signature⟩ := signing
          refine ⟨.identified session.serverNonce :: data.toList.map .signed, ?_, ?_⟩
          · intro f hf
            rcases List.mem_cons.mp hf with rfl | hf
            · rfl
            · obtain ⟨_, -, rfl⟩ := List.mem_map.mp hf
              rfl
          · cases signature with
            | error e =>
                exact .inl ⟨e, Surroundings.refuses_of_signature hsigned,
                  by simp [Progress.andThen]⟩
            | ok signature =>
                exact .inr ⟨identity, tokenSignature, signature, by simp [Progress.andThen]⟩

/-! ## What a step adds to the queue -/

/-- The events that the machine itself raises when it has entered a state. -/
def Event.isOutcome : Event → Bool
  | createSucceeded | createFailed | activateSucceeded | activateFailed | connectionLost
  | reactivateSucceeded | reactivateFailed | reactivateInvalid | disconnectSucceeded => true
  | _ => false

/-- While the machine stays in its state a step only adds to the queue what
listeners raise, and outcomes of the current epoch. -/
structure Adds (Q : Event → Prop) (m : Machine) (p : Progress) : Prop where
  epoch : p.machine.epoch = m.epoch
  queue : ∃ news, p.machine.queue = m.queue ++ news ∧
    ∀ c ∈ news, (∃ e, c = .event e none ∧ Q e) ∨
      ∃ e, c = .stamped e m.epoch ∧ e.isOutcome
  listeners : p.machine.listeners.RaiseOnly Q

section Adding

variable {Q : Event → Prop} {m : Machine} {p : Progress}

/-- The state itself plays no part in what is added, so it may come by its
session before. -/
theorem Adds.ofState {st : State} (h : Adds Q { m with state := st } p) : Adds Q m p :=
  ⟨h.epoch, h.queue, h.listeners⟩

/-- What neither changes the epoch nor the queue may come before, with its
effects. -/
theorem Adds.after {f : Machine → Progress} (hepoch : p.machine.epoch = m.epoch)
    (hqueue : p.machine.queue = m.queue) (hf : Adds Q p.machine (f p.machine)) :
    Adds Q m (p.andThen f) where
  epoch := hf.epoch.trans hepoch
  queue := by
    rw [← hqueue, ← hepoch]
    exact hf.queue
  listeners := hf.listeners

theorem Concludes.adds {s : Surroundings} {followUp : Option Event}
    (h : Concludes Q s followUp m p) (houtcome : ∀ e ∈ followUp, e.isOutcome) :
    Adds Q m p where
  epoch := h.epoch
  queue := by
    obtain ⟨raised, hQ, hqueue⟩ := h.queue
    refine ⟨raised.map (.event · none) ++ m.outcome s followUp, by simp [hqueue], ?_⟩
    intro c hc
    rcases List.mem_append.mp hc with hc | hc
    · obtain ⟨e, he, rfl⟩ := List.mem_map.mp hc
      exact .inl ⟨e, rfl, hQ e he⟩
    · unfold Machine.outcome at hc
      split at hc
      · obtain ⟨e, he, rfl⟩ := Option.map_eq_some_iff.mp (Option.mem_toList.mp hc)
        exact .inr ⟨e, rfl, houtcome e he⟩
      · cases hc
  listeners := h.listeners

namespace Machine

theorem waitFor_adds (h : m.listeners.RaiseOnly Q) (owed : Owed) (awaiting : Awaiting)
    (c : Call) : Adds Q m (m.waitFor owed awaiting c) :=
  ⟨rfl, ⟨[], by simp [waitFor], by simp⟩, h⟩

theorem conclude_adds (s : Surroundings) (h : m.listeners.RaiseOnly Q) (owed : Owed)
    {followUp : Option Event} (houtcome : ∀ e ∈ followUp, e.isOutcome) :
    Adds Q m (m.conclude s owed followUp) :=
  (conclude_concludes s owed followUp h).adds houtcome

theorem fail_adds (s : Surroundings) (h : m.listeners.RaiseOnly Q) (owed : Owed)
    (e : SessionError) {followUp : Event} (houtcome : followUp.isOutcome) :
    Adds Q m (m.fail s owed e followUp) :=
  (fail_concludes s owed e followUp h).adds (by rintro _ ⟨⟩; exact houtcome)

theorem activate_adds (s : Surroundings) (h : m.listeners.RaiseOnly Q) (owed : Owed)
    (awaiting : Awaiting) (session : Session) {failed : SessionError → Machine → Progress}
    (hfails : ∀ e, Adds Q m (failed e m)) :
    Adds Q m (m.activate s owed awaiting session failed) := by
  obtain ⟨before, -, ⟨e, -, h'⟩ | ⟨_, _, _, h'⟩⟩ :=
    activate_cases s m owed awaiting session failed
  · rw [h']
    exact .after rfl rfl (hfails e)
  · rw [h']
    exact .after rfl rfl (waitFor_adds h owed awaiting _)

theorem enter_adds (s : Surroundings) (h : m.listeners.RaiseOnly Q) (event : Event)
    (owed : Owed) : Adds Q m (m.enter s event owed) := by
  unfold enter
  split
  · split
    · exact conclude_adds s h owed (by simp)
    · dsimp only
      split
      · refine .ofState (waitFor_adds ?_ owed _ _)
        exact h
      · refine .ofState (waitFor_adds ?_ owed _ _)
        exact h
  · exact waitFor_adds h owed _ _
  · rename_i session _
    exact activate_adds s h owed _ session fun e => fail_adds s h owed e rfl
  · dsimp only
    split
    · exact .after rfl rfl (conclude_adds s h owed (by simp [Event.isOutcome]))
    · split
      · exact .after rfl rfl (conclude_adds s h owed (by simp [Event.isOutcome]))
      · split
        · exact .after rfl rfl (waitFor_adds h owed _ _)
        · exact .after rfl rfl (conclude_adds s h owed (by simp [Event.isOutcome]))
  · exact waitFor_adds h owed _ _
  · exact .after rfl rfl (conclude_adds s h owed (by simp [Event.isOutcome]))
  · exact waitFor_adds h owed _ _

theorem failReactivation_adds (s : Surroundings) (h : m.listeners.RaiseOnly Q) (owed : Owed)
    (e : SessionError) : Adds Q m (m.failReactivation s owed e) :=
  fail_adds s h owed e (by split <;> rfl)

theorem resume_adds (s : Surroundings) (h : m.listeners.RaiseOnly Q) (o : Outcome) :
    Adds Q m (m.resume s o) := by
  unfold resume
  split
  · exact ⟨rfl, ⟨[], by simp, by simp⟩, h⟩
  · rename_i awaiting owed _
    cases awaiting with
    | closeAbandoned => exact waitFor_adds h owed _ _
    | dropConnection => exact conclude_adds s h owed (by simp [Event.isOutcome])
    | connectToCreate =>
        dsimp only
        split
        · exact fail_adds s h owed _ rfl
        · split
          · exact fail_adds s h owed _ rfl
          · exact waitFor_adds h owed _ _
    | createSession =>
        dsimp only
        split
        · exact fail_adds s h owed _ rfl
        · unfold created
          split
          · refine .ofState (conclude_adds s ?_ owed (by simp [Event.isOutcome]))
            exact h
          · exact conclude_adds s h owed (by simp [Event.isOutcome])
    | activateSession =>
        dsimp only
        split
        · exact fail_adds s h owed _ rfl
        · unfold activated
          split
          · refine .ofState (conclude_adds s ?_ owed (by simp [Event.isOutcome]))
            exact h
          · exact conclude_adds s h owed (by simp [Event.isOutcome])
    | transfer ids => exact .after rfl rfl (conclude_adds s h owed (by simp [Event.isOutcome]))
    | closeSession => exact waitFor_adds h owed _ _
    | closeConnection => exact conclude_adds s h owed (by simp [Event.isOutcome])
    | connectToReactivate =>
        dsimp only
        split
        · exact failReactivation_adds s h owed _
        · exact activate_adds s h owed _ _ fun e => failReactivation_adds s h owed e
        · exact conclude_adds s h owed (by simp [Event.isOutcome])
    | reactivateSession =>
        dsimp only
        split
        · exact failReactivation_adds s h owed _
        · unfold reactivated
          split
          · refine .ofState (conclude_adds s ?_ owed (by simp [Event.isOutcome]))
            exact h
          · exact conclude_adds s h owed (by simp [Event.isOutcome])

/-- A command that is carried out adds to the queue only what listeners raise,
and events of the epoch that it leaves behind. -/
structure Leaves (Q : Event → Prop) (m : Machine) (p : Progress) : Prop where
  queue : ∃ news, p.machine.queue = m.queue ++ news ∧
    ∀ c ∈ news, (∃ e, c = .event e none ∧ Q e) ∨
      ∃ e, c = .stamped e p.machine.epoch ∧ e.isOutcome
  listeners : p.machine.listeners.RaiseOnly Q

theorem handle_leaves (s : Surroundings) (h : m.listeners.RaiseOnly Q) (event : Event)
    (waiter : Option Ticket) (owed : Owed) : Leaves Q m (m.handle s event waiter owed) := by
  unfold handle
  dsimp only
  split
  · have hserves := (join_serves m waiter).andThen (f := fun m => m.pay owed) (pay_serves _ owed)
    refine ⟨⟨[], by simpa using hserves.queue, by simp⟩, ?_⟩
    rw [hserves.listeners]
    exact h
  · rename_i move _
    have hmoved :=
      (move_moves s event move h).join (f := fun m => waiter.elim { machine := m } m.attach)
      (join_serves _ waiter)
    obtain ⟨raised, hQ, hqueue⟩ := hmoved.queue
    generalize ((m.move s event move).andThen fun m => waiter.elim { machine := m } m.attach) = p
      at hmoved hqueue
    have hentered := enter_adds s hmoved.listeners event owed
    obtain ⟨news, hqueue', hnews⟩ := hentered.queue
    refine ⟨⟨raised.map (.event · none) ++ news, ?_, ?_⟩, hentered.listeners⟩
    · show (enter s event owed p.machine).machine.queue = _
      rw [hqueue', hqueue, List.append_assoc]
    · intro c hc
      rcases List.mem_append.mp hc with hc | hc
      · obtain ⟨e, he, rfl⟩ := List.mem_map.mp hc
        exact .inl ⟨e, rfl, hQ e he⟩
      · rcases hnews c hc with hevent | ⟨e, he⟩
        · exact .inl hevent
        · exact .inr ⟨e, he.1.trans (congrArg _ hentered.epoch.symm), he.2⟩

theorem obey_leaves (s : Surroundings) (h : m.listeners.RaiseOnly Q) (c : Command) :
    Leaves Q m (m.obey s c) := by
  have hsilent : ∀ fs, Leaves Q m { machine := m, effects := fs } :=
    fun fs => ⟨⟨[], by simp, by simp⟩, h⟩
  unfold obey
  split
  · split
    · exact handle_leaves s h _ none .nobody
    · exact hsilent []
  · exact handle_leaves s h _ none .nobody
  · exact handle_leaves s h _ none _
  · split
    · exact hsilent _
    · exact handle_leaves s h _ _ .nobody
  · exact handle_leaves s h _ none _

end Machine

end Adding

/-! ## Who raises what -/

/-- Whoever raises an event or listens raises only what `Q` allows; all else
may happen. -/
def Occurrence.RaisesOnly (Q : Event → Prop) : Occurrence → Prop
  | asked (.event e _) => Q e
  | listening ls => ls.RaiseOnly Q
  | _ => True

/-- What happens around the machine: somebody asks something or listens, and
time passes. -/
def Occurrence.isOutside : Occurrence → Bool
  | asked _ | listening _ | fired _ _ | elapsed _ => true
  | _ => false

/-- As long as nobody adds other listeners there are no other listeners, also
where listeners change those that there are. -/
theorem Run.raiseOnly_happen {Q : Event → Prop} {r : Run} {o : Occurrence}
    (h : r.machine.listeners.RaiseOnly Q) (hallowed : o.RaisesOnly Q) :
    (r.happen o).machine.listeners.RaiseOnly Q := by
  cases o with
  | asked c => exact r.asked_cases (motive := (·.machine.listeners.RaiseOnly Q)) h fun _ => h
  | taking s =>
      refine r.taking_cases (motive := (·.machine.listeners.RaiseOnly Q)) h fun c rest _ _ => ?_
      rw [machine_proceed]
      exact ((r.dequeue c rest).machine.obey_leaves s h c).listeners
  | ended s o =>
      refine r.ended_cases (motive := (·.machine.listeners.RaiseOnly Q)) h fun entry _ => ?_
      rw [machine_proceed]
      exact (r.machine.resume_adds s h o).listeners
  | watching attended =>
      rcases r.machine_watching attended with hsame | ⟨_, _, _, hraised⟩
      · rw [hsame]
        exact h
      · rw [hraised]
        exact h
  | fired attended id =>
      rcases r.machine_fired attended id with hsame | ⟨_, hraised⟩
      · rw [hsame]
        exact h
      · rw [hraised]
        exact h
  | listening ls => exact hallowed
  | noticed capacity n => exact h
  | elapsed d => exact h

end OpcSession.Session
