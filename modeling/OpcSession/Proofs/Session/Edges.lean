import OpcSession.Proofs.Session.Parting

/-!
# What listeners are told

A session that comes into use is an edge, and so is one that goes out of use.
The machine tells its listeners of the second kind as soon as it moves, and of
the first only when the state has been entered, for which it may have to wait;
and while they are told listeners may add and remove one another and raise
events.  All the same what each of them hears is what the moves of the machine
say: a session came into use, that session went out of use, and so on, once for
each move into or out of the state in which a session is in use.

* `Announces`, `Alternates` — what may be told after what was told before;
* `Voices` — the effects of a part of a step, those told in the middle;
* `Run.Sound.hears` — what listeners are told by whatever happens;
* `Run.listeners_told_of_edges` — the law.
-/

namespace OpcSession.Session

/-! ## Edges -/

/-- An edge: whether a session is in use after it, and the session that came
into use or went out of it. -/
abbrev Edge := Bool × Session

/-- The edge that a move makes, which does not say of which session. -/
def Transition.edge? (t : Transition) : Option Bool :=
  if t.source ≠ .active ∧ t.target = .active then some true
  else if t.source = .active ∧ t.target ≠ .active then some false
  else none

/-- The moves lead from one kind of state to another, each beginning where the
one before it ended. -/
def Chain : Kind → List Transition → Kind → Prop
  | k, [], k' => k = k'
  | k, t :: ts, k' => t.source = k ∧ Chain t.target ts k'

/-- What may be told after a session was announced, or none, and what is
then. -/
inductive Announces : Option Session → Option Edge → Option Session → Prop
  /-- Nothing is told, and what is announced stays. -/
  | nothing {a : Option Session} : Announces a none a
  /-- A session is announced, where none was. -/
  | active {session : Session} : Announces none (some (true, session)) (some session)
  /-- The session that was announced is not in use any more. -/
  | inactive {session : Session} : Announces (some session) (some (false, session)) none

/-- Edges of which each follows from what was announced before it: sessions
come into use and go out of it by turns. -/
def Alternates : Option Session → List Edge → Option Session → Prop
  | a, [], a' => a = a'
  | none, (true, session) :: edges, a' => Alternates (some session) edges a'
  | some session, (false, session') :: edges, a' => session' = session ∧ Alternates none edges a'
  | _, _, _ => False

theorem Chain.append {k k' k'' : Kind} {ts ts' : List Transition} (h : Chain k ts k')
    (h' : Chain k' ts' k'') : Chain k (ts ++ ts') k'' := by
  induction ts generalizing k with
  | nil =>
      cases h
      exact h'
  | cons t ts ih => exact ⟨h.1, ih h.2⟩

/-- Such edges go on with one more that may follow. -/
theorem Alternates.append {a a' a'' : Option Session} {edges : List Edge} {e? : Option Edge}
    (h : Alternates a edges a') (h' : Announces a' e? a'') :
    Alternates a (edges ++ e?.toList) a'' := by
  induction edges generalizing a with
  | nil =>
      cases h
      cases h' <;> simp [Alternates]
  | cons e edges ih =>
      obtain ⟨active, session⟩ := e
      cases a with
      | none =>
          cases active with
          | true => exact ih h
          | false => exact h.elim
      | some session' =>
          cases active with
          | true => exact h.elim
          | false => exact ⟨h.1, ih h.2⟩

/-- Where a session is announced it was the last to be, by an edge that
nothing has followed. -/
theorem Alternates.last {session : Session} {edges : List Edge}
    (h : Alternates none edges (some session)) : ∃ before, edges = before ++ [(true, session)] := by
  have hall : ∀ (edges : List Edge) (a : Option Session), Alternates a edges (some session) →
      a = some session ∧ edges = [] ∨ ∃ before, edges = before ++ [(true, session)] := by
    intro edges
    induction edges with
    | nil => exact fun a h => .inl ⟨h, rfl⟩
    | cons e edges ih =>
        rintro a h
        obtain ⟨active, session'⟩ := e
        have hrest : ∃ a', Alternates a' edges (some session) ∧
            (a' = some session → (active, session') = (true, session)) := by
          cases a <;> cases active <;> first
            | exact h.elim
            | exact ⟨_, h, fun hsame => by cases hsame; rfl⟩
            | exact ⟨_, h.2, nofun⟩
        obtain ⟨a', halternates, hhead⟩ := hrest
        rcases ih a' halternates with ⟨hsame, rfl⟩ | ⟨before, rfl⟩
        · exact .inr ⟨[], congrArg (· :: []) (hhead hsame)⟩
        · exact .inr ⟨(active, session') :: before, rfl⟩
  exact (hall edges none h).resolve_left nofun

/-! ## What a machine has announced -/

/-- What a listener is told by an effect: that a session is in use, or is not
any more. -/
def Effect.told? : Effect → Option (Listener × Edge)
  | told l active session => some (l, active, session)
  | _ => none

/-- What a listener is told by an entry of a history, if it is the telling of
one. -/
def Happening.told? : Happening → Option (Listener × Edge)
  | did f => f.told?
  | _ => none

/-- What all listeners are told of an edge: those who are registered when it
is announced, each as often as it is registered. -/
def Listeners.heard (ls : Listeners) (e? : Option Edge) : List (Listener × Edge) :=
  e?.toList.flatMap fun e => ls.snapshot.map fun l => (l, e)

namespace Machine

/-- The session that listeners know to be in use: it is announced only when
the state has been entered. -/
def announced? (m : Machine) : Option Session :=
  if m.entry?.isNone then m.state.activeSession? else none

/-- The edge that is still to be announced, if the machine waits while it
enters the state in which a session is in use. -/
def unannounced (m : Machine) : List Bool :=
  if m.entry?.isSome ∧ m.state.kind = .active then [true] else []

end Machine

/-- An effect that tells no listener anything, and gives nobody a session;
such effects can stand anywhere among those that do. -/
def Effect.isMute (f : Effect) : Prop := f.told? = none ∧ f.grants? = none

/-- **The effects of a part of a step**, by what listeners are told of: it is
told before anybody is given a session, and only the one that is announced
then is given. -/
def Voices (ls : Listeners) (e? : Option Edge) (a : Option Session) (fs : List Effect) : Prop :=
  ∃ fore told aft, fs = fore ++ told ++ aft ∧ (∀ f ∈ fore, f.isMute) ∧
    told = (ls.heard e?).map (fun (l, e) => .told l e.1 e.2) ∧
    ∀ f ∈ aft, f.told? = none ∧ ∀ session, f.grants? = some session → a = some session

section Voices

variable {ls : Listeners} {e? : Option Edge} {a : Option Session} {fs gs : List Effect}

/-- A part of a step that is mute tells of no edge. -/
theorem voices_mute (hmute : ∀ f ∈ fs, f.isMute) : Voices ls none a fs :=
  ⟨fs, [], [], by simp, hmute, rfl, by simp⟩

/-- What is mute may follow the telling of an edge. -/
theorem Voices.after (hmute : ∀ f ∈ fs, f.isMute) (h : Voices ls e? a gs) :
    Voices ls e? a (fs ++ gs) := by
  obtain ⟨fore, told, aft, rfl, hmute', hheard, hgiven⟩ := h
  refine ⟨fs ++ fore, told, aft, by simp, ?_, hheard, hgiven⟩
  intro f hf
  exact (List.mem_append.mp hf).elim (hmute f) (hmute' f)

/-- What tells nothing, and gives no session but the announced one, may follow
too. -/
theorem Voices.before (h : Voices ls e? a fs)
    (hgiven : ∀ f ∈ gs, f.told? = none ∧ ∀ session, f.grants? = some session → a = some session) :
    Voices ls e? a (fs ++ gs) := by
  obtain ⟨fore, told, aft, rfl, hmute, hheard, hgiven'⟩ := h
  refine ⟨fore, told, aft ++ gs, by simp, hmute, hheard, ?_⟩
  intro f hf
  exact (List.mem_append.mp hf).elim (hgiven' f) (hgiven f)

/-- What the effects of telling tell is what was to be told. -/
theorem told_heard (hs : List (Listener × Edge)) :
    (hs.map fun (l, e) => Effect.told l e.1 e.2).filterMap Effect.told? = hs := by
  rw [List.filterMap_map]
  exact List.filterMap_some

theorem told_none (hsilent : ∀ f ∈ fs, f.told? = none) : fs.filterMap Effect.told? = [] :=
  List.filterMap_eq_nil_iff.mpr hsilent

/-- Where listeners are told of no edge they are told nothing, and a caller
gets only the session that is announced. -/
theorem Voices.silent (h : Voices ls none a fs) :
    ∀ f ∈ fs, f.told? = none ∧ ∀ session, f.grants? = some session → a = some session := by
  obtain ⟨fore, told, aft, rfl, hmute, rfl, hgiven⟩ := h
  intro f hf
  rcases List.mem_append.mp hf with hf | hf
  · rcases List.mem_append.mp hf with hf | hf
    · exact ⟨(hmute f hf).1, fun _ hgrants => nomatch (hmute f hf).2.symm.trans hgrants⟩
    · cases hf
  · exact hgiven f hf

/-- All listeners are told of the edge, each once and in the order in which
they are registered. -/
theorem Voices.told (h : Voices ls e? a fs) : fs.filterMap Effect.told? = ls.heard e? := by
  obtain ⟨fore, told, aft, rfl, hmute, rfl, hgiven⟩ := h
  rw [List.filterMap_append, List.filterMap_append, told_heard,
    told_none fun f hf => (hmute f hf).1, told_none fun f hf => (hgiven f hf).1]
  simp

/-- Whoever is given a session is given it after all listeners were told, and
it is the one that is announced. -/
theorem Voices.granted (h : Voices ls e? a fs) {pre post : List Effect} {f : Effect}
    {session : Session} (hsplit : fs = pre ++ f :: post) (hgrants : f.grants? = some session) :
    pre.filterMap Effect.told? = ls.heard e? ∧ a = some session := by
  obtain ⟨fore, told, aft, rfl, hmute, rfl, hgiven⟩ := h
  have helsewhere : ∀ g ∈ fore ++ (ls.heard e?).map (fun (l, e) => Effect.told l e.1 e.2),
      g.grants? = none := by
    intro g hg
    rcases List.mem_append.mp hg with hg | hg
    · exact (hmute g hg).2
    · obtain ⟨_, -, rfl⟩ := List.mem_map.mp hg
      rfl
  rcases List.append_eq_append_iff.mp hsplit with ⟨more, rfl, hrest⟩ | ⟨more, hfronts, hrest⟩
  · rw [hrest] at hgiven
    refine ⟨?_, (hgiven f (by simp)).2 session hgrants⟩
    rw [List.filterMap_append, List.filterMap_append, told_heard,
      told_none fun f hf => (hmute f hf).1,
      told_none fun g hg => (hgiven g (List.mem_append_left _ hg)).1]
    simp
  · cases more with
    | nil =>
        rw [List.append_nil] at hfronts
        rw [List.nil_append] at hrest
        rw [← hrest] at hgiven
        refine ⟨?_, (hgiven f List.mem_cons_self).2 session hgrants⟩
        rw [← hfronts, List.filterMap_append, told_heard, told_none fun f hf => (hmute f hf).1]
        rfl
    | cons g more =>
        cases hrest
        cases (helsewhere f (by rw [hfronts]; simp)).symm.trans hgrants

end Voices

/-! ## The parts of a step -/

theorem mute_answers (tickets : List Ticket) {a : Answer} (hrefusing : ∀ s, a ≠ .session (.ok s)) :
    ∀ f ∈ Machine.answers tickets a, f.isMute := by
  intro f hf
  obtain ⟨t, -, rfl⟩ := List.mem_map.mp hf
  refine ⟨rfl, ?_⟩
  cases a with
  | session r =>
      cases r with
      | ok session => exact absurd rfl (hrefusing session)
      | error e => rfl
  | _ => rfl

theorem mute_of_private {f : Effect} (h : f.isPrivate) : f.isMute := by
  cases f <;> first | exact ⟨rfl, rfl⟩ | cases h

/-- To leave a state is mute: the ones who wait for a disconnection are
answered, which gives no session. -/
theorem mute_leave (st : State) (epoch : Nat) : ∀ f ∈ Machine.leave st epoch, f.isMute := by
  intro f hf
  cases st with
  | closing session cs => exact mute_answers _ (by simp) f hf
  | active | reactivateDelay =>
      cases List.mem_singleton.mp hf
      exact ⟨rfl, rfl⟩
  | _ => cases hf

/-- To answer the one for whom a state was entered is mute. -/
theorem mute_pay (m : Machine) (owed : Owed) : ∀ f ∈ (m.pay owed).effects, f.isMute := by
  intro f hf
  refine ⟨?_, Machine.pay_grants owed f hf⟩
  cases owed with
  | nobody => cases hf
  | state t =>
      cases List.mem_singleton.mp hf
      rfl
  | disconnect t =>
      simp only [Machine.pay] at hf
      split at hf
      · cases hf
      · cases List.mem_singleton.mp hf
        rfl

theorem given_of_mute {f : Effect} (hmute : f.isMute) (a : Option Session) :
    f.told? = none ∧ ∀ session, f.grants? = some session → a = some session :=
  ⟨hmute.1, fun _ hgrants => nomatch hmute.2.symm.trans hgrants⟩

theorem mute_of_given {f : Effect}
    (hgiven : f.told? = none ∧ ∀ session, f.grants? = some session → none = some session) :
    f.isMute := by
  refine ⟨hgiven.1, ?_⟩
  cases hgrants : f.grants? with
  | none => rfl
  | some session => cases hgiven.2 session hgrants

/-- Where a session is in use the listeners are told when its state has been
entered, and then those who wait for it get it. -/
theorem Machine.conclude_voices (s : Surroundings) (owed : Owed) (followUp : Option Event)
    (m : Machine) :
    Voices m.listeners (m.state.activeSession?.map (true, ·)) m.state.activeSession?
      (m.conclude s owed followUp).effects := by
  have hannounced : Voices m.listeners (m.state.activeSession?.map (true, ·))
      m.state.activeSession? (announce s { m with entry? := none }).effects := by
    unfold announce
    cases hst : m.state with
    | active ws session =>
        refine ⟨[], _, answers ws (.session (.ok session)), rfl, by simp, ?_, ?_⟩
        · simp [State.activeSession?, Listeners.heard, Function.comp_def]
        · intro f hf
          obtain ⟨t, -, rfl⟩ := List.mem_map.mp hf
          exact ⟨rfl, fun _ hgrants => by cases hgrants; rfl⟩
    | _ => exact voices_mute (by simp)
  have hpaid := fun m => mute_pay m owed
  simp only [conclude, Progress.andThen, List.append_nil]
  exact hannounced.before fun f hf => given_of_mute (hpaid _ f hf) _

namespace Course

variable {s : Surroundings} {owed : Owed} {m : Machine} {c : Course}

/-- The session that is announced at the end of a course: the one in use, if
no call is left to wait for. -/
def announced? (c : Course) : Option Session :=
  if c.ending.call?.isNone then c.state.activeSession? else none

theorem announced?_run : (c.run s owed m).machine.announced? = c.announced? := by
  have hrests : (c.ending.entry? owed).isNone = c.ending.call?.isNone := by
    cases c.ending <;> rfl
  rw [Machine.announced?, entry_run, hrests, State.activeSession?_of_bare bare_run, announced?]

/-- Listeners are told in a course that comes to its end in the state in which
a session is in use. -/
theorem voices (s : Surroundings) (owed : Owed) (m : Machine)
    (hmute : ∀ f ∈ c.before, f.isMute) :
    Voices m.listeners (c.announced?.map (true, ·)) c.announced? (c.run s owed m).effects := by
  refine Voices.after hmute ?_
  obtain ⟨st, before, ending⟩ := c
  cases ending with
  | waits awaiting call =>
      refine voices_mute ?_
      rintro f hf
      cases List.mem_singleton.mp hf
      exact ⟨rfl, rfl⟩
  | concludes followUp => exact Machine.conclude_voices s owed followUp { m with state := st }
  | fails e followUp =>
      have hrefused := mute_answers st.waiters (a := .session (.error e)) (by simp)
      have hconcluded := Machine.conclude_voices s owed (some followUp)
        { m with state := st.withWaiters [] }
      have hsame : (st.withWaiters []).activeSession? = st.activeSession? :=
        State.activeSession?_of_bare (State.bare_withWaiters st [])
      rw [hsame] at hconcluded
      exact hconcluded.after hrefused

theorem published_run (s : Surroundings) (owed : Owed) (m : Machine)
    (haside : ∀ f ∈ c.before, f.isAside) :
    (c.run s owed m).effects.filterMap Effect.published? = [] :=
  published_eq_nil fun _ => still_run haside

/-- At the end of a course in the state in which a session is in use the
listeners have been told of it, or are still to be. -/
theorem edge_run (s : Surroundings) (owed : Owed) (m : Machine) (c : Course) :
    ((c.announced?.map fun session => (true, session)).map (·.1)).toList ++
      (c.run s owed m).machine.unannounced = if c.state.kind = .active then [true] else [] := by
  have hwaits : (c.ending.entry? owed).isSome = c.ending.call?.isSome := by
    cases c.ending <;> rfl
  rw [Machine.unannounced, entry_run, kind_run, hwaits, announced?]
  cases hst : c.state <;> cases c.ending.call? <;> simp [State.activeSession?, State.kind]

end Course

/-- What is done on entering a state is mute until the end of it. -/
theorem Enters.mute {s : Surroundings} {event : Event} {epoch : Nat} {st : State} {c : Course}
    (h : Enters s event epoch st c) : ∀ f ∈ c.before, f.isMute := by
  cases h with
  | activating hhidden | refused hhidden => exact fun f hf => mute_of_private (hhidden f hf)
  | _ => simp [Effect.isMute, Effect.told?, Effect.grants?]

/-- What is done after a call is mute until the end of it. -/
theorem Resumes.mute {s : Surroundings} {o : Outcome} {a : Awaiting} {st : State} {c : Course}
    (h : Resumes s o a st c) : ∀ f ∈ c.before, f.isMute := by
  cases h with
  | fails hhidden | reconnected hhidden => exact fun f hf => mute_of_private (hhidden f hf)
  | _ => simp [Effect.isMute, Effect.told?, Effect.grants?]

theorem Enters.activeSession? {s : Surroundings} {event : Event} {epoch : Nat} {st : State}
    {c : Course} (h : Enters s event epoch st c) : c.state.activeSession? = st.activeSession? := by
  cases h <;> rfl

theorem Resumes.activeSession? {s : Surroundings} {o : Outcome} {a : Awaiting} {st : State}
    {c : Course} (h : Resumes s o a st c) : c.state.activeSession? = st.activeSession? := by
  cases h <;> rfl

namespace Machine

variable {s : Surroundings} {m : Machine} {e : Event} {move : State.Move}

/-- Whoever joins those who wait for a session gets the one that is in use. -/
theorem join_given (waiter : Option Ticket) : ∀ f ∈ (m.join waiter).effects,
    f.told? = none ∧
      ∀ session, f.grants? = some session → m.state.activeSession? = some session := by
  intro f hf
  cases waiter with
  | none => cases hf
  | some t =>
      simp only [join, Option.elim, attach] at hf
      split at hf
      · rename_i hst
        cases List.mem_singleton.mp hf
        exact ⟨rfl, fun _ hgrants => by cases hgrants; rw [hst]; rfl⟩
      · cases List.mem_singleton.mp hf
        exact ⟨rfl, fun _ hgrants => by cases hgrants⟩
      · cases List.mem_singleton.mp hf
        exact ⟨rfl, fun _ hgrants => by cases hgrants⟩
      · cases hf

/-- When a machine moves, listeners are told of a session that was in use. -/
theorem move_voices (s : Surroundings) (m : Machine) (e : Event) (move : State.Move) :
    Voices m.listeners (m.state.activeSession?.map (false, ·)) none
    (m.move s e move).effects := by
  have hgives : ∀ f ∈ .published ⟨m.state.kind, e, move.next.kind⟩ :: leave m.state m.epoch
      ++ answers move.left (.session (.error .closed)), f.isMute := by
    intro f hf
    rcases List.mem_append.mp hf with hf | hf
    · rcases List.mem_cons.mp hf with rfl | hf
      · exact ⟨rfl, rfl⟩
      · exact mute_leave _ _ f hf
    · exact mute_answers _ (by simp) f hf
  unfold Machine.move
  split
  · rename_i session hactive
    rw [hactive]
    refine Voices.after hgives ⟨[], _, [], (List.append_nil _).symm, by simp, ?_, by simp⟩
    simp [Listeners.heard, Function.comp_def]
  · rename_i hinactive
    rw [hinactive]
    exact voices_mute hgives

end Machine

/-! ## A whole step -/

namespace State

variable {st : State} {e : Event} {move : Move} {session : Session}

theorem kind_of_active (h : st.activeSession? = some session) : st.kind = .active := by
  cases st <;> first | rfl | cases h

theorem kind_of_inactive (h : st.activeSession? = none) : st.kind ≠ .active := by
  cases st <;> first | (rintro ⟨⟩; done) | cases h

/-- No move leads from one session in use to another: in between there is a
state in which none is. -/
theorem inactive_of_transition? (hactive : st.activeSession? = some session)
    (h : st.transition? e = some move) : move.next.activeSession? = none := by
  cases st with
  | active ws session' => cases e <;> cases h <;> rfl
  | _ => cases hactive

/-- A caller who wants a session does not bring one into use at once; it has
to be created first. -/
theorem inactive_of_requested (h : st.transition? .sessionRequested = some move) :
    move.next.activeSession? = none := by
  unfold transition? at h
  split at h <;> first | (cases h; rfl) | contradiction

end State

namespace Machine

variable {s : Surroundings} {m : Machine}

/-- What has been announced of the edges and moves of a step, with what was
left from before it and what is left to the next. -/
def Tells (m : Machine) (p : Progress) (e? : Option Edge) : Prop :=
  Announces m.announced? e? p.machine.announced? ∧
    Voices m.listeners e? p.machine.announced? p.effects ∧
    m.unannounced ++ (p.effects.filterMap Effect.published?).filterMap Transition.edge? =
      (e?.map (·.1)).toList ++ p.machine.unannounced

theorem announced?_of_idle (hidle : m.entry? = none) : m.announced? = m.state.activeSession? := by
  rw [announced?, hidle]
  rfl

theorem unannounced_of_idle (hidle : m.entry? = none) : m.unannounced = [] := by
  rw [unannounced, hidle]
  rfl

/-- A step that serves callers announces nothing, since it neither moves nor
ends the entry of a state. -/
theorem tells_of_serves {p : Progress} (hserves : Serves m p) (hidle : m.entry? = none)
    (hgiven : ∀ f ∈ p.effects, f.told? = none ∧
      ∀ session, f.grants? = some session → m.state.activeSession? = some session) :
    m.Tells p none := by
  have hidle' : p.machine.entry? = none := hserves.entry.trans hidle
  have hsame : p.machine.announced? = m.state.activeSession? := by
    rw [announced?_of_idle hidle', State.activeSession?_of_bare hserves.bare]
  refine ⟨?_, ?_, ?_⟩
  · rw [hsame, announced?_of_idle hidle]
    exact .nothing
  · rw [hsame]
    exact ⟨[], [], p.effects, rfl, by simp, rfl, hgiven⟩
  · rw [unannounced_of_idle hidle, unannounced_of_idle hidle', published_quiet hserves.quiet]
    rfl

section Moving

variable {c : Command} {e : Event} {move : State.Move} {course : Course}

theorem published_moved
    (henters : Enters s e (m.epoch + 1) (m.depart s e move c.waiter?).machine.state course) :
    ((m.depart s e move c.waiter?).andThen (course.run s c.owed)).effects.filterMap
      Effect.published? = [⟨m.state.kind, e, move.next.kind⟩] := by
  have hstill := Course.published_run s c.owed (m.depart s e move c.waiter?).machine henters.aside
  rw [Progress.andThen, List.filterMap_append, (m.departs s e move c.waiter?).published, hstill]
  rfl

/-- Where no session is in use the listeners stay as they were, since none of
them is called on leaving. -/
theorem depart_listeners {waiter : Option Ticket} (hinactive : m.state.activeSession? = none) :
    (m.depart s e move waiter).machine.listeners = m.listeners := by
  have hmoved : (m.move s e move).machine.listeners = m.listeners := by
    unfold Machine.move
    rw [hinactive]
  exact (join_serves _ waiter).listeners.trans hmoved

/-- A machine that moves from another state tells nobody anything as it
does. -/
theorem depart_mute (hinactive : m.state.activeSession? = none) (hevent : c.event? m = some e)
    (hmoves : m.state.transition? e = some move) :
    ∀ f ∈ (m.depart s e move c.waiter?).effects, f.isMute := by
  have hmoved := move_voices s m e move
  rw [hinactive] at hmoved
  intro f hf
  rcases List.mem_append.mp hf with hf | hf
  · exact mute_of_given (hmoved.silent f hf)
  · have hbare := (m.move_moves s e move (Listeners.raiseOnly_any _)).bare
    have hgiven := join_given c.waiter? f hf
    rw [State.activeSession?_of_bare hbare] at hgiven
    cases c with
    | getSession t =>
        -- A caller who wants a session joins those who wait for it.
        cases (Option.ite_none_left_eq_some.mp hevent).2
        rw [State.inactive_of_requested hmoves] at hgiven
        exact mute_of_given hgiven
    | _ => cases hf

/-- A machine that moves out of the state in which a session is in use tells
its listeners as it does. -/
theorem leaving_tells {session : Session} (hidle : m.entry? = none)
    (hactive : m.state.activeSession? = some session)
    (hmoves : m.state.transition? e = some move)
    (henters : Enters s e (m.epoch + 1) (m.depart s e move c.waiter?).machine.state course) :
    m.Tells ((m.depart s e move c.waiter?).andThen (course.run s c.owed))
      (some (false, session)) := by
  have hdeparts := m.departs s e move c.waiter?
  have hgone := State.inactive_of_transition? hactive hmoves
  have hsilent : course.announced? = none := by
    rw [Course.announced?, henters.activeSession?, State.activeSession?_of_bare hdeparts.bare,
      hgone,
      ite_self]
  have hannounced : ((m.depart s e move c.waiter?).andThen
      (course.run s c.owed)).machine.announced? = none := Course.announced?_run.trans hsilent
  refine ⟨?_, ?_, ?_⟩
  · rw [hannounced, announced?_of_idle hidle, hactive]
    exact .inactive
  · have hmoved := move_voices s m e move
    have hcourses := course.voices s c.owed (m.depart s e move c.waiter?).machine henters.mute
    rw [hactive] at hmoved
    rw [hsilent] at hcourses
    rw [hannounced]
    refine (hmoved.before ?_).before hcourses.silent
    have hbare := (m.move_moves s e move (Listeners.raiseOnly_any _)).bare
    rw [← hgone, ← State.activeSession?_of_bare hbare]
    exact join_given c.waiter?
  · have hedges := Course.edge_run s c.owed (m.depart s e move c.waiter?).machine course
    have hleft : move.next.kind ≠ .active := State.kind_of_inactive hgone
    rw [hsilent, henters.kind, State.kind_eq_of_bare hdeparts.bare, if_neg hleft] at hedges
    have hnothing : ((m.depart s e move c.waiter?).andThen
        (course.run s c.owed)).machine.unannounced = [] := hedges
    rw [hnothing, published_moved henters, unannounced_of_idle hidle]
    simp [Transition.edge?, State.kind_of_active hactive, hleft]

/-- A machine that moves from another state tells its listeners if it comes
into the state in which a session is in use and has entered it then. -/
theorem arriving_tells (hidle : m.entry? = none) (hinactive : m.state.activeSession? = none)
    (hevent : c.event? m = some e) (hmoves : m.state.transition? e = some move)
    (henters : Enters s e (m.epoch + 1) (m.depart s e move c.waiter?).machine.state course) :
    m.Tells ((m.depart s e move c.waiter?).andThen (course.run s c.owed))
      (course.announced?.map (true, ·)) := by
  have hdeparts := m.departs s e move c.waiter?
  have hnext : course.state.kind = move.next.kind :=
    henters.kind.trans (State.kind_eq_of_bare hdeparts.bare)
  have hannounced : ((m.depart s e move c.waiter?).andThen
      (course.run s c.owed)).machine.announced? = course.announced? := Course.announced?_run
  refine ⟨?_, ?_, ?_⟩
  · rw [hannounced, announced?_of_idle hidle, hinactive]
    cases course.announced? with
    | none => exact .nothing
    | some session => exact .active
  · have hcourses := course.voices s c.owed (m.depart s e move c.waiter?).machine henters.mute
    rw [depart_listeners hinactive] at hcourses
    rw [hannounced]
    exact hcourses.after (depart_mute hinactive hevent hmoves)
  · have hedges := Course.edge_run s c.owed (m.depart s e move c.waiter?).machine course
    have hwhole : ((course.announced?.map fun session => (true, session)).map (·.1)).toList ++
        ((m.depart s e move c.waiter?).andThen (course.run s c.owed)).machine.unannounced =
          if move.next.kind = .active then [true] else [] := hnext ▸ hedges
    have haway : m.state.kind ≠ .active := State.kind_of_inactive hinactive
    rw [hwhole, published_moved henters, unannounced_of_idle hidle]
    by_cases harrived : move.next.kind = .active <;> simp [Transition.edge?, haway, harrived]

end Moving

/-- **What listeners are told by a command.**  A move out of use tells them at
once; a move into use tells them when the state has been entered without a
call. -/
theorem obey_tells (s : Surroundings) (c : Command) (hidle : m.entry? = none) :
    ∃ e?, m.Tells (m.obey s c) e? := by
  have hobeys := m.obey_obeys s c
  generalize m.obey s c = p at hobeys
  cases hobeys with
  | stale hnothing => exact ⟨none, tells_of_serves (.refl m) hidle (by simp)⟩
  | given hwants hactive =>
      refine ⟨none, tells_of_serves ⟨rfl, rfl, rfl, rfl, rfl, by simp [Effect.isQuiet]⟩ hidle ?_⟩
      intro f hf
      cases List.mem_singleton.mp hf
      exact ⟨rfl, fun _ hgrants => by cases hgrants; exact hactive⟩
  | ignored hevent hstill =>
      refine ⟨none, tells_of_serves (ignored_serves m _ _) hidle ?_⟩
      intro f hf
      rcases List.mem_append.mp hf with hf | hf
      · exact join_given c.waiter? f hf
      · exact given_of_mute (mute_pay _ _ f hf) _
  | moves hevent hmoves henters =>
      cases hactive : m.state.activeSession? with
      | some session => exact ⟨_, leaving_tells hidle hactive hmoves henters⟩
      | none => exact ⟨_, arriving_tells hidle hactive hevent hmoves henters⟩

end Machine

namespace Machine

variable {m : Machine} {entry : Entry} {course : Course}

/-- **What listeners are told after a call**: while a state is being entered
nothing has been announced. -/
theorem resume_tells {s : Surroundings} {o : Outcome} (hwaiting : m.entry? = some entry)
    (hresumes : Resumes s o entry.awaiting m.state course) :
    m.Tells (course.run s entry.owed m) (course.announced?.map (true, ·)) := by
  have hnothing : m.announced? = none := by rw [announced?, hwaiting]; rfl
  refine ⟨?_, ?_, ?_⟩
  · rw [hnothing, Course.announced?_run]
    cases course.announced? with
    | none => exact .nothing
    | some session => exact .active
  · rw [Course.announced?_run]
    exact course.voices s entry.owed m hresumes.mute
  · have hedges := Course.edge_run s entry.owed m course
    have hstill := Course.published_run s entry.owed m hresumes.aside
    rw [hedges, hstill, unannounced, hwaiting, hresumes.kind]
    simp

end Machine

/-! ## What happens -/

namespace Run

variable {A : Prop} {r r' : Run} {o : Occurrence}

/-- **What listeners are told by whatever happens**: nothing, or of one edge,
each of those that are there when it happens once and in order.  Whoever is
given a session is given it after that, and it is the one announced. -/
structure Hears (r : Run) (o : Occurrence) (e? : Option Edge) : Prop where
  /-- What is told follows from what was announced before. -/
  announces : Announces r.machine.announced? e? (r.happen o).machine.announced?
  /-- All listeners of the moment are told, once and in order. -/
  told : (r.news o).filterMap Happening.told? = r.machine.listeners.heard e?
  /-- A caller who gets a session gets the one that is announced, after the
  telling. -/
  granted : ∀ pre t session post,
    r.news o = pre ++ .did (.answered t (.session (.ok session))) :: post →
    pre.filterMap Happening.told? = r.machine.listeners.heard e? ∧
      (r.happen o).machine.announced? = some session
  /-- The moves made, with the one that was not announced before, are the edge
  told and the one that is not announced yet. -/
  edges : r.machine.unannounced ++
      ((r.news o).filterMap Happening.transition?).filterMap Transition.edge? =
    (e?.map (·.1)).toList ++ (r.happen o).machine.unannounced

theorem told?_step {x : Happening} {fs : List Effect} (hother : ∀ f, x ≠ .did f) :
    (x :: fs.map Happening.did).filterMap Happening.told? = fs.filterMap Effect.told? := by
  have hhead : x.told? = none := by
    cases x with
    | did f => exact absurd rfl (hother f)
    | _ => rfl
  rw [List.filterMap_cons_none hhead, List.filterMap_map]
  rfl

/-- An effect in what happens is one of the step, with the effects before and
after it. -/
theorem did_split {x : Happening} {fs : List Effect} {f : Effect} {pre post : List Happening}
    (hother : ∀ f, x ≠ .did f) (hsplit : x :: fs.map Happening.did = pre ++ .did f :: post) :
    ∃ before after, pre = x :: before.map .did ∧ fs = before ++ f :: after := by
  cases pre with
  | nil => exact absurd (List.cons.inj hsplit).1 (hother f)
  | cons y pre =>
      obtain ⟨rfl, hrest⟩ := List.cons.inj hsplit
      obtain ⟨before, more, rfl, rfl, hrest'⟩ := List.map_eq_append_iff.mp hrest
      obtain ⟨f', after, rfl, hsame, -⟩ := List.map_eq_cons_iff.mp hrest'
      cases hsame
      exact ⟨before, after, rfl, rfl⟩

/-- What a step of the machine tells is what is heard when it happens. -/
theorem hears_of_tells {x : Happening} {m : Machine} {p : Progress} {e? : Option Edge}
    (htells : m.Tells p e?) (hother : ∀ f, x ≠ .did f)
    (hannounced : r.machine.announced? = m.announced?)
    (hunannounced : r.machine.unannounced = m.unannounced)
    (hlisteners : r.machine.listeners = m.listeners)
    (hnews : r.news o = x :: p.effects.map .did) (hmachine : (r.happen o).machine = p.machine) :
    r.Hears o e? := by
  obtain ⟨hannounces, hvoices, hedges⟩ := htells
  rw [← hlisteners] at hvoices
  exact {
    announces := by rwa [hannounced, hmachine]
    told := by
      rw [hnews, told?_step hother]
      exact hvoices.told
    granted := by
      intro pre t session post hsplit
      rw [hnews] at hsplit
      obtain ⟨before, after, rfl, heffects⟩ := did_split hother hsplit
      obtain ⟨htold, hgiven⟩ := hvoices.granted heffects rfl
      rw [told?_step hother, hmachine]
      exact ⟨htold, hgiven⟩
    edges := by
      rw [hnews, transition?_step hother, hunannounced, hmachine]
      exact hedges }

/-- **Whatever happens, listeners hear of one edge at most.**  A step moves
once, and a session that comes into use at the end of a call was moved to
before. -/
theorem Sound.hears (h : r.Sound A) (o : Occurrence) : ∃ e?, r.Hears o e? := by
  have hbecomes := h.becomes o
  generalize hnext : r.happen o = r' at hbecomes
  cases hbecomes with
  | stays hhistory hstate hepoch hentry =>
      have hnothing : r.news o = [] := by rw [Run.news, hnext, hhistory, List.drop_length]
      refine ⟨none, ?_, ?_, ?_, ?_⟩
      · rw [hnext, Machine.announced?, Machine.announced?, hstate, hentry]
        exact .nothing
      · rw [hnothing]
        rfl
      · intro pre t session post hsplit
        rw [hnothing] at hsplit
        exact absurd hsplit (by simp)
      · rw [hnothing, hnext, Machine.unannounced, Machine.unannounced, hstate, hentry]
        simp
  | @takes s c rest p htaking hidle hqueue hstep hobeys =>
      obtain ⟨e?, htells⟩ := Machine.obey_tells (m := (r.dequeue c rest).machine) s c hidle
      rw [← hstep] at htells
      exact ⟨e?, hears_of_tells htells (by simp) rfl rfl rfl (news_takes hnext)
        (by rw [hnext, machine_proceed])⟩
  | resumes hended hwaiting hstep hresumes =>
      have htells := Machine.resume_tells hwaiting hresumes
      exact ⟨_, hears_of_tells htells (by simp) rfl rfl rfl (news_resumes hnext)
        (by rw [hnext, machine_proceed])⟩

end Run

/-! ## Whole runs -/

/-- A later point of a run, where something holds at every point on the
way. -/
inductive Throughout (I : Run → Prop) (r : Run) : Run → Prop
  /-- At the point itself it holds. -/
  | refl (hhere : I r) : Throughout I r r
  /-- It held up to a point, and holds after one more occurrence. -/
  | step {r' : Run} (o : Occurrence) (hbefore : Throughout I r r') (hhere : I (r'.happen o)) :
      Throughout I r (r'.happen o)

section Throughout

variable {I : Run → Prop} {r r' : Run}

theorem Throughout.here (h : Throughout I r r') : I r' := by
  cases h with
  | refl hhere => exact hhere
  | step _ _ hhere => exact hhere

/-- What every occurrence keeps as long as the condition holds is true at the
later point. -/
theorem Throughout.invariant {J : Run → Prop} (hstart : I r → J r)
    (hkept : ∀ r o, I r → J r → J (r.happen o)) (h : Throughout I r r') : J r' := by
  induction h with
  | refl hhere => exact hstart hhere
  | step o hbefore _ ih => exact hkept _ o hbefore.here ih

end Throughout

/-- The calls of a listener in a stretch of a history, each with the edge that
it was called for. -/
def calls (l : Listener) (xs : List Happening) : List Edge :=
  ((xs.filterMap Happening.told?).filter (·.1 = l)).map (·.2)

/-- How often a listener is registered: as often it is called for each
edge. -/
def Listeners.registrations (ls : Listeners) (l : Listener) : Nat := ls.snapshot.count l

theorem calls_append (l : Listener) (xs ys : List Happening) :
    calls l (xs ++ ys) = calls l xs ++ calls l ys := by
  simp [calls]

/-- A listener is told of an edge as often as it is registered. -/
theorem calls_heard {l : Listener} {xs : List Happening} {ls : Listeners} {e? : Option Edge}
    (htold : xs.filterMap Happening.told? = ls.heard e?) :
    calls l xs = e?.toList.flatMap (List.replicate (ls.registrations l)) := by
  have honce : ∀ e : Edge, (((ls.snapshot.map fun l => (l, e)).filter (·.1 = l)).map (·.2)) =
      List.replicate (ls.registrations l) e := by
    intro e
    rw [List.filter_map, List.map_map, Listeners.registrations, List.count_eq_length_filter,
      ← List.map_const']
    rfl
  rw [calls, htold, Listeners.heard]
  cases e? with
  | none => rfl
  | some e => simpa using honce e

namespace Run

variable {A : Prop} {r : Run} {o : Occurrence} {l : Listener} {n : Nat}

theorem transitions_happen (r : Run) (o : Occurrence) :
    (r.happen o).transitions = r.transitions ++ (r.news o).filterMap Happening.transition? := by
  rw [transitions, history_happen, List.filterMap_append]
  rfl

/-- **Whatever happens, the moves lead from the state before it to the state
after.** -/
theorem Sound.chain (h : r.Sound A) (o : Occurrence) :
    Chain r.machine.state.kind ((r.news o).filterMap Happening.transition?)
      (r.happen o).machine.state.kind := by
  have hbecomes := h.becomes o
  generalize hnext : r.happen o = r' at hbecomes
  cases hbecomes with
  | stays hhistory hstate =>
      rw [Run.news, hnext, hhistory, List.drop_length, hstate]
      rfl
  | @takes s c rest p htaking hidle hqueue hstep hobeys =>
      rw [news_takes hnext, transition?_step (by simp), machine_proceed]
      rcases hobeys.serves_or_moves with
        ⟨hserves, -⟩ | ⟨e, move, course, hevent, hmoves, henters, rfl⟩
      · rw [published_quiet hserves.quiet, hserves.kind]
        rfl
      · have hdeparts := (r.dequeue c rest).machine.departs s e move c.waiter?
        have hkind : ((Machine.depart s (r.dequeue c rest).machine e move c.waiter?).andThen
            (course.run s c.owed)).machine.state.kind = move.next.kind :=
          Course.kind_run.trans (henters.kind.trans (State.kind_eq_of_bare hdeparts.bare))
        rw [Machine.published_moved henters, hkind]
        exact ⟨rfl, rfl⟩
  | @resumes s outcome entry course hended hwaiting hstep hresumes =>
      rw [news_resumes hnext, transition?_step (by simp), machine_proceed, Course.kind_run,
        hresumes.kind, hstep, Machine.resume_published s r.machine outcome hwaiting]
      rfl

/-- **What a listener has heard** that is registered a number of times: each
edge that often, the edges in the order of the moves, and a session before any
caller gets it. -/
structure Hearing (l : Listener) (n : Nat) (r : Run) : Prop where
  /-- The moves form a chain from the start to where the machine is. -/
  chain : Chain .inactive r.transitions r.machine.state.kind
  /-- What was heard are the edges of the moves, and those are alternating. -/
  edges : ∃ edges, calls l r.history = edges.flatMap (List.replicate n) ∧
    edges.map (·.1) ++ r.machine.unannounced = r.transitions.filterMap Transition.edge? ∧
    Alternates none edges r.machine.announced?
  /-- Before a session was given to anyone the listener was called with it
  last. -/
  granted : 0 < n → ∀ before t session after,
    r.history = before ++ .did (.answered t (.session (.ok session))) :: after →
    (calls l before).getLast? = some (true, session)

theorem hearing_start (l : Listener) (n : Nat) (ls : Listeners) :
    Hearing l n (({} : Run).happen (.listening ls)) where
  chain := rfl
  edges := ⟨[], rfl, rfl, rfl⟩
  granted _ before _ _ _ hsplit := absurd hsplit (by simp [happen])

theorem last_replicated {edges : List Edge} {session : Session} (hregistered : 0 < n)
    (halternates : Alternates none edges (some session)) :
    (edges.flatMap (List.replicate n)).getLast? = some (true, session) := by
  obtain ⟨before, rfl⟩ := halternates.last
  obtain ⟨m, rfl⟩ := Nat.exists_eq_succ_of_ne_zero (Nat.ne_of_gt hregistered)
  simp [List.replicate_succ']

/-- **Whatever happens, a listener that is registered as often as before hears
what it should.** -/
theorem Hearing.happen (h : r.Hearing l n) (hsound : r.Sound A)
    (hregistered : r.machine.listeners.registrations l = n) (o : Occurrence) :
    (r.happen o).Hearing l n := by
  obtain ⟨e?, hhears⟩ := hsound.hears o
  obtain ⟨edges, hcalled, hmoved, halternates⟩ := h.edges
  have hlater := halternates.append hhears.announces
  refine ⟨?_, ⟨edges ++ e?.toList, ?_, ?_, hlater⟩, ?_⟩
  · rw [transitions_happen]
    exact h.chain.append (hsound.chain o)
  · rw [history_happen, calls_append, hcalled, calls_heard hhears.told, hregistered,
      List.flatMap_append]
  · have hnow := hhears.edges
    rw [transitions_happen, List.filterMap_append, ← hmoved, List.append_assoc, hnow]
    cases e? <;> simp
  · intro hpositive before t session after hsplit
    rcases history_split hsplit with ⟨after', hhistory⟩ | ⟨pre, rfl, hnews⟩
    · exact h.granted hpositive before t session after' hhistory
    · obtain ⟨htold, hannounced⟩ := hhears.granted pre t session after hnews
      rw [hannounced] at hlater
      rw [calls_append, hcalled, calls_heard htold, hregistered, ← List.flatMap_append]
      exact last_replicated hpositive hlater

/-! ## The law -/

/-- **Listeners hear of the edges of the chain of moves.**  The moves of a
machine are a chain from the state without a session to the state that it is
in.  A listener that is registered throughout a run, however often, is told
once for each registration and each move into or out of the state in which a
session is in use, and never otherwise; of a move into that state it may still
have to be told while the state is being entered.  What it is told alternates,
beginning with a session that came into use, and each time the session that
goes out of use is the one that came into use before.  Whoever is given a
session is given the one that the listener was told of last, as in use.  And
whatever happens next, all listeners that are registered then are told of one
edge at most, each once and in order, whoever comes and goes while they are
told. -/
theorem listeners_told_of_edges {ls : Listeners}
    (h : Throughout (fun r => r.machine.listeners.registrations l = n)
      (({} : Run).happen (.listening ls)) r) :
    Chain .inactive r.transitions r.machine.state.kind ∧
    (∃ edges, calls l r.history = edges.flatMap (List.replicate n) ∧
      edges.map (·.1) ++ r.machine.unannounced = r.transitions.filterMap Transition.edge? ∧
      Alternates none edges r.machine.announced?) ∧
    (0 < n → ∀ before t session after,
      r.history = before ++ .did (.answered t (.session (.ok session))) :: after →
      (calls l before).getLast? = some (true, session)) ∧
    ∀ o : Occurrence, ∃ e?, r.Hears o e? := by
  have hboth : r.Sound False ∧ r.Hearing l n :=
    h.invariant (J := fun r => r.Sound False ∧ r.Hearing l n)
      (fun _ => ⟨(sound_start False).happen False.elim, hearing_start l n ls⟩)
      (fun r o hregistered h => ⟨h.1.happen False.elim, h.2.happen h.1 hregistered o⟩)
  obtain ⟨hsound, hchain, hedges, hgranted⟩ := hboth
  exact ⟨hchain, hedges, hgranted, hsound.hears⟩

/-- A run may be given by the list of what happens in it. -/
theorem throughout_ofList {I : Run → Prop} (os : List Occurrence)
    (hhere : ∀ k ≤ os.length, I ((os.take k).foldl Run.happen r)) :
    Throughout I r (os.foldl Run.happen r) := by
  have hupTo : ∀ k ≤ os.length, Throughout I r ((os.take k).foldl Run.happen r) := by
    intro k
    induction k with
    | zero => exact fun _ => .refl (hhere 0 (Nat.zero_le _))
    | succ k ih =>
        intro hwithin
        have hnow := hhere (k + 1) hwithin
        rw [List.take_succ_eq_append_getElem hwithin, List.foldl_append] at hnow ⊢
        exact .step _ (ih (Nat.le_of_succ_le hwithin)) hnow
  have hall := hupTo os.length (Nat.le_refl _)
  rwa [List.take_length] at hall

/-- A listener that only listens: it raises nothing and changes no
registration when it is called. -/
def gauge : Listener := { name := "gauge" }

/-- It comes after one that goes away when it is told, and brings another. -/
def company : Listeners :=
  (({} : Listeners).add
    { name := "guest", onActive := [.add "friend", .remove "guest"] }).add gauge

/-- A listener hears of a session that comes into use, goes out of it and is
reactivated, although the one before it goes away when it is told of the
first. -/
theorem listeners_told_of_edges_reactivated :
    let r : Run := (opening 7 ⟨1, .numeric 9⟩ .null ++ reopening (.of [5])).foldl Run.happen
      (({} : Run).happen (.listening company))
    r.machine.listeners.snapshot.map (·.name) = ["gauge", "friend"] ∧
      (calls gauge r.history).map (·.1) = [true, false, true] ∧
      Alternates none (calls gauge r.history) r.machine.state.activeSession? := by
  intro r
  have hregistered := throughout_ofList (r := ({} : Run).happen (.listening company))
    (I := fun r => r.machine.listeners.registrations gauge = 1)
    (opening 7 ⟨1, .numeric 9⟩ .null ++ reopening (.of [5])) (by decide)
  obtain ⟨-, ⟨edges, hcalled, hmoved, halternates⟩, -⟩ := listeners_told_of_edges hregistered
  have hsingle : edges.flatMap (List.replicate 1) = edges := List.flatMap_singleton' edges
  have honce : calls gauge r.history = edges := hcalled.trans hsingle
  have hstill : r.machine.unannounced = [] := rfl
  have htransitions : r.transitions.filterMap Transition.edge? = [true, false, true] := rfl
  have hannounced : r.machine.announced? = r.machine.state.activeSession? := rfl
  rw [honce]
  refine ⟨rfl, ?_, hannounced ▸ halternates⟩
  have hkinds : edges.map (·.1) ++ r.machine.unannounced =
      r.transitions.filterMap Transition.edge? := hmoved
  rwa [hstill, List.append_nil, htransitions] at hkinds

end Run

end OpcSession.Session
