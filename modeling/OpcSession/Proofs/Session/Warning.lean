import OpcSession.Proofs.Session.Course
import OpcSession.Proofs.Session.Provenance

/-!
# A session is given up on warning

Some events are raised by nobody but the engine.  Where neither a caller nor a listener
raises such an event, the machine moves by it only after the engine has raised it, in the
very epoch that ends with the move.

So a session in use is given up as invalid only after the channel gave notice of a fault
that says so, and not before the session came into use: the notice was there for the
watcher of that epoch.

* `Run.Emits` — what the engine raises when something happens;
* `Run.Traced` — every trace of an event goes back to an epoch in which it was raised;
* `Run.Traced.happen` — everything that can happen keeps it so;
* `Run.Heeds`, `Run.Heeds.happen` — the same of the claim that a session is invalid, with
  the notices that the watcher has not read.
-/

namespace OpcSession.Session

/-! ## What is left unread -/

/-- A watcher that is there after a step was there before it, or has read
nothing and missed nothing. -/
theorem Engine.watcherAfter_unread {fs : List Effect} {before : Option Watcher} {w : Watcher}
    (hafter : fs.foldl watcherAfter before = some w) : before = some w ∨ w.unread = [] := by
  induction fs generalizing before with
  | nil => exact .inl hafter
  | cons f fs ih =>
      rcases ih hafter with hsame | hfresh
      · cases f with
        | watched epoch =>
            cases hsame
            exact .inr rfl
        | unwatched epoch => exact .inl (Option.filter_eq_some_iff.mp hsame).1
        | _ => exact .inl hsame
      · exact .inr hfresh

/-! ## What the engine raises -/

/-- A notice gives rise to the events of the watcher alone, not to the outcome
of an entry. -/
theorem Notice.isNotice_of_event? {n : Notice} {e : Event} (h : n.event? = some e) :
    e.isNotice := by
  rcases Notice.lost_or_invalid h with rfl | rfl <;> rfl

theorem Awaiting.isOutcome_failure (a : Awaiting) (e : SessionError) :
    (a.failure e).isOutcome := by
  cases a with
  | connectToReactivate | reactivateSession =>
      simp only [failure]
      split <;> rfl
  | _ => rfl

/-- To enter a state raises nothing but how it came out, and that the
connection is lost where it is. -/
theorem Enters.outcome {s : Surroundings} {event : Event} {epoch : Nat} {st : State}
    {c : Course} {e : Event} (h : Enters s event epoch st c) (hraises : e ∈ c.ending.followUp?) :
    e.isOutcome := by
  cases h <;> cases hraises <;> rfl

theorem Resumes.outcome {s : Surroundings} {o : Outcome} {a : Awaiting} {st : State}
    {c : Course} {e : Event} (h : Resumes s o a st c) (hraises : e ∈ c.ending.followUp?) :
    e.isOutcome := by
  cases h with
  | fails =>
      cases hraises
      exact a.isOutcome_failure _
  | _ => cases hraises <;> rfl

/-- To obey a command stamps nothing but the outcome of the state that is
entered. -/
theorem Machine.stamped_obey {s : Surroundings} {m : Machine} {c : Command} {e : Event} {k : Nat}
    (hqueued : .stamped e k ∈ (m.obey s c).machine.queue) :
    .stamped e k ∈ m.queue ∨
      ∃ event st course, Enters s event k st course ∧ e ∈ course.ending.followUp? := by
  rcases (m.obey_obeys s c).serves_or_moves with
    ⟨hserves, -⟩ | ⟨event, move, course, -, -, henters, hstep⟩
  · rw [hserves.queue] at hqueued
    exact .inl hqueued
  · have hdeparts := m.departs s event move c.waiter?
    rw [hstep] at hqueued
    rcases Course.stamped_run hqueued with hold | ⟨hraises, rfl⟩
    · obtain ⟨raised, -, hqueue⟩ := hdeparts.queue
      rw [hqueue, List.mem_append] at hold
      exact .inl (hold.resolve_right (by simp))
    · rw [hdeparts.epoch]
      exact .inr ⟨event, _, course, henters, hraises⟩

/-- The watcher stamps what it has read of with the epoch of its session. -/
theorem Engine.stamped_watch {engine : Engine} {attended : Bool} {e : Event} {k : Nat}
    (hqueued : .stamped e k ∈ (engine.watch attended).machine.queue) :
    .stamped e k ∈ engine.machine.queue ∨ attended = true ∧ ∃ w n,
      engine.watcher? = some w ∧ n ∈ w.unread ∧ n.event? = some e ∧ k = w.epoch := by
  unfold watch at hqueued
  split at hqueued
  · exact .inl hqueued
  · rename_i w hwatcher
    split at hqueued
    · exact .inl hqueued
    · rename_i event hseen
      obtain ⟨n, hunread, hraises⟩ := List.exists_of_findSome?_eq_some hseen
      cases attended with
      | false => exact .inl hqueued
      | true =>
          refine (List.mem_append.mp hqueued).imp_right fun hnew => ?_
          cases List.mem_singleton.mp hnew
          exact ⟨rfl, w, n, hwatcher, hunread, hraises, rfl⟩

namespace Run

/-- The events that the engine raises when something happens, each with the
epoch that it is stamped with: the outcome of a step, what the watcher has
seen, and the wish of a timer. -/
inductive Emits (r : Run) : Occurrence → Event → Nat → Prop
  /-- The state that is entered raises it, -/
  | enters {s : Surroundings} {event : Event} {epoch : Nat} {st : State} {course : Course}
      {e : Event} (henters : Enters s event epoch st course)
      (hraises : e ∈ course.ending.followUp?) :
      Emits r (.taking s) e epoch
  /-- or the one that goes on after a call, -/
  | resumes {s : Surroundings} {outcome : Outcome} {entry : Entry} {course : Course} {e : Event}
      (hwaiting : r.machine.entry? = some entry)
      (hresumes : Resumes s outcome entry.awaiting r.machine.state course)
      (hraises : e ∈ course.ending.followUp?) :
      Emits r (.ended s outcome) e r.machine.epoch
  /-- or the watcher, for a notice that it has not read before, -/
  | watches {w : Watcher} {n : Notice} {e : Event} (hwatcher : r.engine.watcher? = some w)
      (hunread : n ∈ w.unread) (hraises : n.event? = some e) : Emits r (.watching true) e w.epoch
  /-- or the timer, which has one event only. -/
  | fires {id k : Nat} : Emits r (.fired true id) .reactivateRequested k

theorem Sound.emits {A : Prop} {r : Run} (hsound : r.Sound A) {o : Occurrence} {e : Event}
    {k : Nat} (hqueued : .stamped e k ∈ (r.happen o).machine.queue) :
    .stamped e k ∈ r.machine.queue ∨ r.Emits o e k := by
  cases o with
  | asked c =>
      revert hqueued
      refine r.asked_cases
        (motive := fun r' => .stamped e k ∈ r'.machine.queue → _ ∨ r.Emits _ e k) .inl ?_
      intro hunstamped hqueued
      refine (List.mem_append.mp hqueued).imp_right fun hnew => ?_
      cases List.mem_singleton.mp hnew
      exact absurd rfl hunstamped
  | taking s =>
      revert hqueued
      refine r.taking_cases
        (motive := fun r' => .stamped e k ∈ r'.machine.queue → _ ∨ r.Emits _ e k) .inl ?_
      intro c rest _ hqueue hqueued
      rw [machine_proceed] at hqueued
      rcases Machine.stamped_obey hqueued with hold | ⟨_, _, _, henters, hraises⟩
      · refine .inl ?_
        rw [hqueue]
        exact List.mem_cons_of_mem _ hold
      · exact .inr (.enters henters hraises)
  | ended s o =>
      revert hqueued
      refine r.ended_cases
        (motive := fun r' => .stamped e k ∈ r'.machine.queue → _ ∨ r.Emits _ e k) .inl ?_
      intro entry hwaiting hqueued
      obtain ⟨course, hresumes, hstep⟩ :=
        Machine.resume_course s o hwaiting (hsound.fits entry hwaiting)
      rw [machine_proceed, hstep] at hqueued
      refine (Course.stamped_run hqueued).imp_right ?_
      rintro ⟨hraises, rfl⟩
      exact .resumes hwaiting hresumes hraises
  | noticed | elapsed | listening => exact .inl hqueued
  | watching attended =>
      refine (Engine.stamped_watch hqueued).imp_right ?_
      rintro ⟨rfl, w, n, hwatcher, hunread, hraises, rfl⟩
      exact .watches hwatcher hunread hraises
  | fired attended id =>
      simp only [Run.happen, Run.fire] at hqueued
      split at hqueued
      · exact .inl hqueued
      · cases attended with
        | false => exact .inl hqueued
        | true =>
            refine (List.mem_append.mp hqueued).imp_right fun hnew => ?_
            cases List.mem_singleton.mp hnew
            exact .fires

/-! ## Where an event comes from -/

/-- Every trace of an event goes back to an epoch in which it was raised, as
`H` knows them: where it waits in the queue, and where the machine moved by
it.  Nobody asked for it. -/
structure Traced (e : Event) (H : Nat → Prop) (r : Run) : Prop where
  /-- No caller has asked for the event, -/
  unasked : ∀ ticket, .event e ticket ∉ r.machine.queue
  /-- and no listener raises it. -/
  listeners : r.machine.listeners.RaiseOnly (· ≠ e)
  /-- Where it is in the queue it was raised for a reason. -/
  stamped : ∀ k, .stamped e k ∈ r.machine.queue → H k
  /-- Where it has moved the machine it was raised for a reason too. -/
  past : ∀ before t after, r.transitions = before ++ t :: after →
    t.event = e → H before.length

variable {A : Prop} {e : Event} {H : Nat → Prop} {r r' : Run}

theorem Traced.mono {H' : Nat → Prop} (h : r.Traced e H) (hmore : ∀ k, H k → H' k) :
    r.Traced e H' where
  unasked := h.unasked
  listeners := h.listeners
  stamped := fun k hk => hmore k (h.stamped k hk)
  past := fun before t after hsplit hmoved => hmore _ (h.past before t after hsplit hmoved)

theorem traced_start (hlisteners : r.machine.listeners.RaiseOnly (· ≠ e))
    (hqueue : r.machine.queue = []) (hhistory : r.history = []) : r.Traced e H where
  unasked := by simp [hqueue]
  listeners := hlisteners
  stamped := by simp [hqueue]
  past := by
    intro before t after hsplit
    simp [transitions, hhistory] at hsplit

/-- A command that comes to the event was stamped when it was raised. -/
theorem Traced.raised (h : r.Traced e H) (hunrequested : ¬ e.Ordinary) {c : Command}
    (hqueued : c ∈ r.machine.queue) {m : Machine} (hevent : c.event? m = some e) : H m.epoch := by
  cases c with
  | stamped e' k =>
      simp only [Command.event?, Option.ite_none_right_eq_some] at hevent
      obtain ⟨rfl, hsame⟩ := hevent
      cases hsame
      exact h.stamped _ hqueued
  | event e' ticket =>
      cases hevent
      exact absurd hqueued (h.unasked ticket)
  | getSession t =>
      simp only [Command.event?, Option.ite_none_left_eq_some] at hevent
      exact absurd (.inl (Option.some.inj hevent.2).symm) hunrequested
  | disconnect t => exact absurd (.inr (Option.some.inj hevent).symm) hunrequested

/-- Where callers and listeners do not raise the event it is not asked for. -/
theorem Traced.unasked_happen (h : r.Traced e H) {o : Occurrence}
    (hcareful : o.RaisesOnly (· ≠ e)) (ticket : Option Ticket) :
    .event e ticket ∉ (r.happen o).machine.queue := by
  have hbrought : ∀ {old news : List Command} {epoch : Nat},
      (∀ c ∈ old, c ∈ r.machine.queue) →
      (∀ c ∈ news, (∃ e', c = .event e' none ∧ e' ≠ e) ∨
        ∃ e', c = .stamped e' epoch ∧ e'.isOutcome) → .event e ticket ∉ old ++ news := by
    intro old news epoch hheld hbrought hqueued
    rcases List.mem_append.mp hqueued with hqueued | hqueued
    · exact h.unasked ticket (hheld _ hqueued)
    · rcases hbrought _ hqueued with ⟨e', hsame, hother⟩ | ⟨e', hsame, -⟩
      · cases hsame
        exact hother rfl
      · cases hsame
  have hpushed : ∀ {c : Command}, c ≠ .event e ticket →
      .event e ticket ∉ (r.machine.push c).queue := by
    intro c hother hqueued
    rcases List.mem_append.mp hqueued with hqueued | hqueued
    · exact h.unasked ticket hqueued
    · exact hother (List.mem_singleton.mp hqueued).symm
  cases o with
  | asked c =>
      refine r.asked_cases (motive := (.event e ticket ∉ ·.machine.queue)) (h.unasked ticket) ?_
      intro _
      refine hpushed ?_
      rintro rfl
      exact hcareful rfl
  | taking s =>
      refine r.taking_cases (motive := (.event e ticket ∉ ·.machine.queue)) (h.unasked ticket) ?_
      intro c rest _ hqueue
      obtain ⟨news, hqueue', hnews⟩ :=
        ((r.dequeue c rest).machine.obey_leaves s h.listeners c).queue
      rw [machine_proceed, hqueue']
      refine hbrought (fun c' hc' => ?_) hnews
      rw [hqueue]
      exact List.mem_cons_of_mem _ hc'
  | ended s o =>
      refine r.ended_cases (motive := (.event e ticket ∉ ·.machine.queue)) (h.unasked ticket) ?_
      intro entry _
      obtain ⟨news, hqueue, hnews⟩ := (r.machine.resume_adds s h.listeners o).queue
      rw [machine_proceed, hqueue]
      exact hbrought (fun _ hheld => hheld) hnews
  | watching attended =>
      rcases r.machine_watching attended with hsame | ⟨e', k, -, hraised⟩
      · rw [hsame]
        exact h.unasked ticket
      · rw [hraised]
        exact hpushed (by simp)
  | fired attended id =>
      rcases r.machine_fired attended id with hsame | ⟨k, hraised⟩
      · rw [hsame]
        exact h.unasked ticket
      · rw [hraised]
        exact hpushed (by simp)
  | noticed | elapsed | listening => exact h.unasked ticket

/-- Whatever moves the machine by the event was raised before, and the reason
for it was there then. -/
theorem Traced.past_happen (h : r.Traced e H) (hsound : r.Sound A) (hunrequested : ¬ e.Ordinary)
    (o : Occurrence) (before : List Transition) (t : Transition) (after : List Transition)
    (hsplit : (r.happen o).transitions = before ++ t :: after) (hmoved : t.event = e) :
    H before.length := by
  rcases (hsound.turns o).transitions_cases with
    hsame | ⟨c, rest, e', move, hqueue, hevent, -, hmore⟩
  · rw [hsame] at hsplit
    exact h.past before t after hsplit hmoved
  · rw [hmore] at hsplit
    refine forall_split_snoc (P := fun before t => t.event = e → H before.length) h.past ?_
      hsplit hmoved
    rintro rfl
    rw [length_transitions, ← hsound.moves]
    exact h.raised hunrequested (hqueue ▸ List.mem_cons_self) hevent

/-- **Everything that happens keeps the traces of the event**, if the engine
raises it only as `H` says, and neither callers nor listeners raise it. -/
theorem Traced.happen (h : r.Traced e H) (hsound : r.Sound A) (hunrequested : ¬ e.Ordinary)
    {o : Occurrence} (hcareful : o.RaisesOnly (· ≠ e))
    (hraised : ∀ k, .stamped e k ∈ (r.happen o).machine.queue →
      .stamped e k ∈ r.machine.queue ∨ H k) : (r.happen o).Traced e H where
  unasked := h.unasked_happen hcareful
  listeners := raiseOnly_happen h.listeners hcareful
  stamped := fun k hqueued => (hraised k hqueued).elim (h.stamped k) id
  past := h.past_happen hsound hunrequested o

/-! ## What the watcher has not read -/

/-- What the watcher has not read has just come in, or it was there before. -/
theorem Sound.unread_happen (hsound : r.Sound A) {o : Occurrence} {w' : Watcher} {n : Notice}
    (hwatcher : (r.happen o).engine.watcher? = some w') (hunread : n ∈ w'.unread) :
    (∃ w, r.engine.watcher? = some w ∧ w.epoch = w'.epoch ∧ n ∈ w.unread) ∨
      ∃ capacity, o = .noticed capacity n ∧ w'.epoch = r.machine.epoch := by
  have hold : r.engine.watcher? = some w' → ∃ w, r.engine.watcher? = some w ∧
      w.epoch = w'.epoch ∧ n ∈ w.unread := fun hsame => ⟨w', hsame, rfl, hunread⟩
  have hstepped : ∀ {r' : Run} {p : Progress}, r'.engine.watcher? = r.engine.watcher? →
      (r'.proceed p).engine.watcher? = some w' → r.engine.watcher? = some w' := by
    intro r' p hsame hwatcher
    rw [watcher_proceed, hsame] at hwatcher
    refine (Engine.watcherAfter_unread hwatcher).resolve_right fun hnothing => ?_
    rw [hnothing] at hunread
    cases hunread
  cases o with
  | asked c =>
      revert hwatcher
      exact r.asked_cases (motive := fun r' => r'.engine.watcher? = some w' → _)
        (fun hsame => .inl (hold hsame)) fun _ hsame => .inl (hold hsame)
  | taking s =>
      revert hwatcher
      exact r.taking_cases (motive := fun r' => r'.engine.watcher? = some w' → _)
        (fun hsame => .inl (hold hsame)) fun c rest _ _ hnext =>
          .inl (hold (hstepped (r.watcher_dequeue c rest) hnext))
  | ended s o =>
      revert hwatcher
      exact r.ended_cases (motive := fun r' => r'.engine.watcher? = some w' → _)
        (fun hsame => .inl (hold hsame)) fun _ _ hnext => .inl (hold (hstepped rfl hnext))
  | noticed capacity n' =>
      obtain ⟨w, hwatching, rfl⟩ := Option.map_eq_some_iff.mp hwatcher
      rcases List.mem_append.mp (List.mem_of_mem_drop hunread) with hbefore | hnew
      · exact .inl ⟨w, hwatching, rfl, hbefore⟩
      · cases List.mem_singleton.mp hnew
        exact .inr ⟨capacity, rfl, (hsound.watcher w hwatching).2⟩
  | watching attended =>
      simp only [Run.happen, Engine.watch] at hwatcher
      split at hwatcher
      · exact .inl (hold hwatcher)
      · split at hwatcher
        · cases hwatcher
          cases hunread
        · cases attended <;> cases hwatcher
  | fired attended id =>
      simp only [Run.happen, Run.fire] at hwatcher
      split at hwatcher
      · exact .inl (hold hwatcher)
      · cases attended <;> exact .inl (hold hwatcher)
  | elapsed | listening => exact .inl (hold hwatcher)

end Run

/-! ## Warnings -/

/-- A warning that the session is invalid, which is the one fault that the
watcher takes for such. -/
def Notice.Warns (n : Notice) : Prop := n.event? = some .sessionInvalid

theorem Notice.eq_of_warns {n : Notice} (h : n.Warns) : n = .serviceFault .badSessionIdInvalid := by
  cases n with
  | inactive => cases h
  | serviceFault status =>
      simp only [Warns, event?, Option.ite_none_right_eq_some] at h
      rw [h.1]

namespace Run

variable {A : Prop} {H : Nat → Prop} {r : Run} {o : Occurrence}

/-- That a session is invalid is what the watcher raises, and nobody else: a
rejected reactivation has an event of its own. -/
theorem Emits.of_invalid {k : Nat} (h : r.Emits o .sessionInvalid k) :
    ∃ w, r.engine.watcher? = some w ∧ w.epoch = k ∧ ∃ n ∈ w.unread, n.Warns := by
  cases h with
  | enters henters hraises => cases henters.outcome hraises
  | resumes _ hresumes hraises => cases hresumes.outcome hraises
  | watches hwatcher hunread hraises => exact ⟨_, hwatcher, rfl, _, hunread, hraises⟩

/-- Every trace of a claim that the session is invalid goes back to an epoch
with a warning, as `H` knows them: the notice that is unread, too. -/
structure Heeds (H : Nat → Prop) (r : Run) : Prop extends r.Traced .sessionInvalid H where
  /-- Where a warning has not been read there is a reason for it already. -/
  unread : ∀ w, r.engine.watcher? = some w → ∀ n ∈ w.unread, n.Warns → H w.epoch

theorem Heeds.mono {H' : Nat → Prop} (h : r.Heeds H) (hmore : ∀ k, H k → H' k) : r.Heeds H' where
  toTraced := h.toTraced.mono hmore
  unread := fun w hw n hn hwarns => hmore _ (h.unread w hw n hn hwarns)

theorem heeds_start (hlisteners : r.machine.listeners.RaiseOnly (· ≠ .sessionInvalid))
    (hqueue : r.machine.queue = []) (hwatcher : r.engine.watcher? = none)
    (hhistory : r.history = []) : r.Heeds H where
  toTraced := traced_start hlisteners hqueue hhistory
  unread := by simp [hwatcher]

/-- **Everything that happens with care keeps to the warnings**, where a
notice is a warning of the epoch in which it is given. -/
theorem Heeds.happen (h : r.Heeds H) (hsound : r.Sound A)
    (hcareful : o.RaisesOnly (· ≠ .sessionInvalid))
    (hwarned : ∀ capacity n, o = .noticed capacity n → n.Warns → H r.machine.epoch) :
    (r.happen o).Heeds H where
  toTraced := by
    refine h.toTraced.happen hsound (by simp [Event.Ordinary]) hcareful fun k hqueued => ?_
    refine (hsound.emits hqueued).imp_right fun hemits => ?_
    obtain ⟨w, hwatcher, rfl, n, hunread, hwarns⟩ := hemits.of_invalid
    exact h.unread w hwatcher n hunread hwarns
  unread := by
    intro w' hwatcher n hunread hwarns
    rcases hsound.unread_happen hwatcher hunread with
      ⟨w, hbefore, hepoch, hunread⟩ | ⟨capacity, hgiven, hepoch⟩
    · rw [← hepoch]
      exact h.unread w hbefore n hunread hwarns
    · rw [hepoch]
      exact hwarned capacity n hgiven hwarns

end Run

end OpcSession.Session
