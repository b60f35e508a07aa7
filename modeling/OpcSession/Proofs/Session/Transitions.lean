import OpcSession.Proofs.Lists
import OpcSession.Proofs.Session.Answering

/-!
# The moves of the session machine

Every move is published, once and before all else that comes of it; what else
a step does is no move.  So a command is published with the one move that its
event leads to, and going on after a call with none.

* `Machine.obey_published`, `Machine.resume_published` — the moves that a step
  is published with;
* `Run.transitions` — the moves of a run in order.
-/

namespace OpcSession.Session

/-- The move that an effect makes known, if it does that. -/
def Effect.published? : Effect → Option Transition
  | published t => some t
  | _ => none

/-- The move that an entry of a history is, if it is one. -/
def Happening.transition? : Happening → Option Transition
  | did f => f.published?
  | _ => none

theorem transition?_did (fs : List Effect) :
    (fs.map Happening.did).filterMap Happening.transition? = fs.filterMap Effect.published? :=
  List.filterMap_map

/-- What a step does, after the entry that says why it was made. -/
theorem transition?_step {x : Happening} {fs : List Effect} (hother : ∀ f, x ≠ .did f) :
    (x :: fs.map Happening.did).filterMap Happening.transition? =
      fs.filterMap Effect.published? := by
  have hhead : x.transition? = none := by
    cases x with
    | did f => exact absurd rfl (hother f)
    | _ => rfl
  rw [List.filterMap_cons_none hhead, transition?_did]

/-- The event that a command comes to, if it comes to one: a stamp may be out
of date, and the session in use may be given at once. -/
def Command.event? (m : Machine) : Command → Option Event
  | .stamped e epoch => if epoch = m.epoch then some e else none
  | .event e _ => some e
  | .getSession _ => if m.state.activeSession?.isSome then none else some .sessionRequested
  | .disconnect _ => some .disconnectRequested

/-- The moves that an event leads to: one, or none where it is ignored. -/
def State.published (st : State) (e : Event) : List Transition :=
  ((st.transition? e).map fun move => ⟨st.kind, e, move.next.kind⟩).toList

theorem published_eq_nil {fs : List Effect} (hstill : ∀ t, .published t ∉ fs) :
    fs.filterMap Effect.published? = [] := by
  rw [List.filterMap_eq_nil_iff]
  intro f hf
  cases f with
  | published t => exact absurd hf (hstill t)
  | _ => rfl

theorem published_quiet {fs : List Effect} (hquiet : ∀ f ∈ fs, f.isQuiet) :
    fs.filterMap Effect.published? = [] :=
  published_eq_nil fun _ ht => nomatch hquiet _ ht

theorem Machine.leave_published (st : State) (epoch : Nat) :
    (leave st epoch).filterMap Effect.published? = [] := by
  cases st with
  | closing session completions => exact published_quiet (quiet_answers _ _)
  | _ => rfl

/-- A move is published once, before all else, so the effects of a step tell
which moves it made. -/
theorem Moves.published {Q : Event → Prop} {m : Machine} {event : Event} {move : State.Move}
    {p : Progress} (h : Moves Q m event move p) :
    p.effects.filterMap Effect.published? = [⟨m.state.kind, event, move.next.kind⟩] := by
  obtain ⟨rest, hquiet, heffects⟩ := h.effects
  simp [heffects, Effect.published?, Machine.leave_published, published_quiet hquiet]

namespace Machine

variable (s : Surroundings) (m : Machine)

theorem handle_published (event : Event) (waiter : Option Ticket) (owed : Owed) :
    (m.handle s event waiter owed).effects.filterMap Effect.published? =
      m.state.published event := by
  unfold handle State.published
  cases hmove : m.state.transition? event with
  | none =>
      have hserves := (join_serves m waiter).andThen (f := fun m => m.pay owed)
        (pay_serves _ owed)
      exact published_quiet hserves.quiet
  | some move =>
      have hmoved := (move_moves (Q := fun _ => True) (m := m) s event move
        fun _ _ _ _ _ => trivial).join (f := fun m => waiter.elim { machine := m } m.attach)
        (join_serves _ waiter)
      have hentered := fun m => published_eq_nil (enter_answers (m := m) s event owed).still
      simp only [Progress.andThen, List.filterMap_append, hentered, List.append_nil]
      rw [← List.filterMap_append]
      exact hmoved.published

/-- **What a command is published with**: the move that its event leads to. -/
theorem obey_published (c : Command) :
    (m.obey s c).effects.filterMap Effect.published? =
      ((c.event? m).map m.state.published).getD [] := by
  cases c with
  | stamped e k =>
      by_cases hcurrent : k = m.epoch
      · rw [obey_current s m e hcurrent, handle_published]
        simp [Command.event?, hcurrent]
      · rw [obey_stale s m e hcurrent]
        simp [Command.event?, hcurrent]
  | event e ticket => cases ticket <;> exact handle_published s m e none _
  | getSession t =>
      simp only [obey, Command.event?]
      cases m.state.activeSession? with
      | none => exact handle_published s m .sessionRequested (some t) .nobody
      | some session => rfl
  | disconnect t => exact handle_published s m .disconnectRequested none _

/-- Going on after a call is no move; whatever comes of it is raised as an
event. -/
theorem resume_published {entry : Entry} (o : Outcome) (hwaiting : m.entry? = some entry) :
    (m.resume s o).effects.filterMap Effect.published? = [] :=
  published_eq_nil (m.resume_answers s o hwaiting).still

end Machine

namespace Run

variable {r r' : Run}

/-- The moves of a run in order, as its history tells them. -/
def transitions (r : Run) : List Transition := r.history.filterMap Happening.transition?

@[simp] theorem transitions_proceed (p : Progress) :
    (r.proceed p).transitions = r.transitions ++ p.effects.filterMap Effect.published? := by
  rw [transitions, history_proceed, List.filterMap_append, List.filterMap_map]
  rfl

@[simp] theorem transitions_returned (o : Outcome) :
    (r.record (.returned o)).transitions = r.transitions := by
  simp [transitions, Happening.transition?]

@[simp] theorem transitions_taken (c : Command) :
    (r.record (.taken c)).transitions = r.transitions := by
  simp [transitions, Happening.transition?]

@[simp] theorem transitions_dequeue (c : Command) (rest : List Command) :
    (r.dequeue c rest).transitions = r.transitions :=
  transitions_taken c

theorem transitions_of_history (hhistory : r'.history = r.history) :
    r'.transitions = r.transitions := by
  rw [transitions, hhistory, ← transitions]

/-- There are as many transitions as moves, so the epoch counts these too. -/
theorem length_transitions (r : Run) : r.transitions.length = r.moves := by
  rw [transitions, List.length_filterMap_eq_countP, moves]
  congr 1
  funext x
  cases x with
  | did f => cases f <;> rfl
  | _ => rfl

end Run

end OpcSession.Session
