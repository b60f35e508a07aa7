import OpcSession.Proofs.Session.Answering
import OpcSession.Proofs.Session.Course

/-!
# What the machine will ever owe

What the machine owes, and what it is asked for in its queue, is all that it can
come to pay.  Listeners that it tells and events that it raises add to the queue,
but nobody is owed anything for those.

* `Machine.prospects` — what is owed, and what is asked for;
* `Machine.prospects_take`, `Machine.prospects_resume` — what a step pays and what
  is left after it make up what was there before.
-/

namespace OpcSession.Session

/-- Whom something is owed, of whatever kind it is. -/
def Due.ticket : Due → Ticket
  | session t | state t | disconnection t => t

/-- Nobody is owed anything for what listeners raise, since their events carry
no ticket. -/
theorem unowed_raised (raised : List Event) :
    (raised.map (Command.event · none)).filterMap Command.due? = [] := by
  refine List.filterMap_eq_nil_iff.mpr fun c htold => ?_
  obtain ⟨e, -, rfl⟩ := List.mem_map.mp htold
  rfl

/-- Nobody is owed anything for what a course adds to the queue: its events
are its own or those of listeners. -/
theorem Course.unowed (s : Surroundings) (owed : Owed) (m : Machine) (course : Course) :
    (course.run s owed m).machine.queue.filterMap Command.due? =
      m.queue.filterMap Command.due? := by
  obtain ⟨raised, -, hqueue⟩ := course.queue_run s owed (Listeners.raiseOnly_any m.listeners)
  have hstamped : (m.outcome s course.ending.followUp?).filterMap Command.due? = [] :=
    List.filterMap_eq_nil_iff.mpr fun c hstamped => by
      unfold Machine.outcome at hstamped
      split at hstamped
      · obtain ⟨e, -, rfl⟩ := Option.map_eq_some_iff.mp (Option.mem_toList.mp hstamped)
        rfl
      · cases hstamped
  rw [hqueue, List.filterMap_append, List.filterMap_append, unowed_raised, hstamped,
    List.append_nil, List.append_nil]

namespace Machine

/-- What the machine owes, and what it is asked for in its queue. -/
def prospects (m : Machine) : List Due := m.dues ++ m.queue.filterMap Command.due?

variable {m : Machine}

/-- A command that is asked for adds what it is owed to the prospects, and
takes nothing from them. -/
theorem prospects_push (m : Machine) (c : Command) :
    (m.push c).prospects = m.prospects ++ c.due?.toList := by
  have hdues : (m.push c).dues = m.dues := rfl
  rw [prospects, hdues, push, List.filterMap_append, ← List.append_assoc]
  cases h : c.due? <;> simp [prospects, h]

/-- Where nothing is asked for that anybody is owed, what is paid and owed
after a step was owed before it, or for its command. -/
theorem prospects_of_balance {p : Progress} {before : List Due}
    (hbalance : (paid p.effects ++ p.machine.dues).Perm before)
    (hqueue : p.machine.queue.filterMap Command.due? = m.queue.filterMap Command.due?) :
    (paid p.effects ++ p.machine.prospects).Perm (before ++ m.queue.filterMap Command.due?) := by
  rw [prospects, ← List.append_assoc, hqueue]
  exact hbalance.append_right _

/-- Nobody is owed anything for what comes into the queue while a command is
carried out. -/
theorem Obeys.unowed {s : Surroundings} {c : Command} {p : Progress} (h : m.Obeys s c p) :
    p.machine.queue.filterMap Command.due? = m.queue.filterMap Command.due? := by
  rcases h.serves_or_moves with ⟨hserves, -⟩ | ⟨e, move, course, -, -, -, rfl⟩
  · rw [hserves.queue]
  · obtain ⟨raised, -, hqueue⟩ := (m.departs s e move c.waiter?).queue
    have hbefore : (m.depart s e move c.waiter?).machine.queue.filterMap Command.due? =
        m.queue.filterMap Command.due? := by
      rw [hqueue, List.filterMap_append, unowed_raised, List.append_nil]
    exact (Course.unowed _ _ _ _).trans hbefore

/-- **To take a command pays what was owed or asked for**, and leaves the
rest. -/
theorem prospects_take (m : Machine) (s : Surroundings) :
    (paid (m.take s).effects ++ (m.take s).machine.prospects).Perm m.prospects := by
  unfold take
  split
  · rename_i c rest hidle hqueue
    have hbalance := (obey_pays (m := { m with queue := rest }) s c hidle).balance
    have hqueued := (obey_obeys s { m with queue := rest } c).unowed
    have hdues : m.dues = m.state.dues := by simp [Machine.dues, hidle]
    have hasked :
        m.queue.filterMap Command.due? = c.due?.toList ++ rest.filterMap Command.due? := by
      rw [hqueue]
      cases h : c.due? <;> simp [h]
    have hwhole : m.prospects = (m.state.dues ++ c.due?.toList) ++ rest.filterMap Command.due? := by
      rw [prospects, hdues, hasked, List.append_assoc]
    rw [hwhole]
    exact prospects_of_balance (m := { m with queue := rest }) hbalance hqueued
  · exact .refl _

/-- **To go on after a call pays what was owed**, and leaves the rest. -/
theorem prospects_resume (s : Surroundings) (o : Outcome) {entry : Entry}
    (hwaiting : m.entry? = some entry) (hfits : entry.awaiting.Fits m.state) :
    (paid (m.resume s o).effects ++ (m.resume s o).machine.prospects).Perm m.prospects := by
  have hbalance := (m.resume_answers s o hwaiting).balance
  obtain ⟨course, -, hrun⟩ := resume_course s o hwaiting hfits
  have hqueued : (m.resume s o).machine.queue.filterMap Command.due? =
      m.queue.filterMap Command.due? := by
    rw [hrun]
    exact course.unowed _ _ _
  have hdues : m.dues = m.state.dues ++ entry.owed.due?.toList := by
    simp [Machine.dues, hwaiting]
  have hwhole : m.prospects =
      (m.state.dues ++ entry.owed.due?.toList) ++ m.queue.filterMap Command.due? := by
    rw [prospects, hdues]
  exact hwhole ▸ prospects_of_balance hbalance hqueued

end Machine

end OpcSession.Session
