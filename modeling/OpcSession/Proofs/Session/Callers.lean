import OpcSession.Proofs.Session.Answering

/-!
# Every caller is answered exactly once

What was taken from the queue on behalf of a caller and what was answered can
be read off the history of a run.  Between two commands the difference is what
the state holds: callers who wait for a session, in the states that are on
their way to one, and callers who wait for the session to be closed.

This holds of every run, whatever is asked for and raised, and whether anyone
is left to use the machine or not.

* `Run.Accounted` — the balance at a point of a run;
* `Run.callers_answered_once` — the law.
-/

namespace OpcSession.Session

/-- Whom an entry of a history takes on: the one who asked for the command
that is taken, if an answer is expected. -/
def Happening.taken? : Happening → Option Due
  | taken c => c.due?
  | _ => none

/-- Whom an entry of a history answers, by the kind of answer that was asked
for. -/
def Happening.answered? : Happening → Option Due
  | did f => f.due?
  | _ => none

namespace Run

/-- The calls that were taken from the queue, by what they are owed. -/
def taken (r : Run) : List Due := r.history.filterMap Happening.taken?

/-- The answers that were given along a run, in their order. -/
def answered (r : Run) : List Due := r.history.filterMap Happening.answered?

/-- **The balance at a point of a run.**  Every caller who was taken on has
been answered or is still owed an answer, and none is owed two. -/
structure Accounted (r : Run) : Prop where
  /-- Whoever was taken on is found once among those who were answered and
  those who are owed. -/
  balance : r.taken.Perm (r.answered ++ r.machine.dues)
  /-- Nobody waits while a session is in use. -/
  served : r.machine.Served

variable {r : Run}

/-- Nobody has been taken on when the machine starts, and nobody is owed. -/
theorem accounted_start : Accounted {} := ⟨.nil, by simp [Machine.Served, State.kind]⟩

/-- The effects of a step take nobody on; only commands do. -/
theorem taken_proceed (p : Progress) : (r.proceed p).taken = r.taken := by
  have hnone : (p.effects.map Happening.did).filterMap Happening.taken? = [] := by
    simp [List.filterMap_map, Function.comp_def, Happening.taken?]
  rw [taken, history_proceed, List.filterMap_append, hnone, List.append_nil, ← taken]

/-- What a step pays is added to what was paid before. -/
theorem answered_proceed (p : Progress) :
    (r.proceed p).answered = r.answered ++ paid p.effects := by
  rw [answered, history_proceed, List.filterMap_append, List.filterMap_map]
  rfl

/-- The balance of a step is the balance of the run after it. -/
theorem Accounted.step (h : r.Accounted) {more : List Due} {p : Progress}
    (hbalance : (paid p.effects ++ p.machine.dues).Perm (r.machine.dues ++ more)) :
    (r.taken ++ more).Perm ((r.answered ++ paid p.effects) ++ p.machine.dues) := by
  have hbefore := h.balance.append_right more
  have hafter := hbalance.symm.append_left r.answered
  rw [List.append_assoc] at hbefore
  rw [List.append_assoc]
  exact hbefore.trans hafter

/-- To take a command takes on whoever asked for it. -/
theorem taken_dequeue (c : Command) (rest : List Command) :
    (r.dequeue c rest).taken = r.taken ++ c.due?.toList := by
  rw [taken, history_dequeue, List.filterMap_append, ← taken]
  cases hdue : c.due? <;> simp [Happening.taken?, hdue]

theorem answered_dequeue (c : Command) (rest : List Command) :
    (r.dequeue c rest).answered = r.answered := by
  rw [answered, history_dequeue, List.filterMap_append, ← answered]
  simp [Happening.answered?]

theorem dues_of_idle {m : Machine} (hidle : m.entry? = none) : m.dues = m.state.dues := by
  simp [Machine.dues, hidle]

/-- A command that is taken is on the books with what it is owed. -/
theorem Accounted.take (h : r.Accounted) (s : Surroundings) {c : Command}
    {rest : List Command} (hidle : r.machine.entry? = none) :
    ((r.dequeue c rest).proceed ((r.dequeue c rest).machine.obey s c)).Accounted := by
  have hpays := (r.dequeue c rest).machine.obey_pays s c hidle
  have hbalance := hpays.balance
  rw [← dues_of_idle (m := (r.dequeue c rest).machine) hidle] at hbalance
  have hbalanced := h.step hbalance
  exact {
    balance := by
      rw [taken_proceed, answered_proceed, taken_dequeue, answered_dequeue, machine_proceed]
      exact hbalanced
    served := by
      rw [machine_proceed]
      exact hpays.served h.served }

/-- Whom the machine is to answer when a call has ended was on the books. -/
theorem Accounted.resume (h : r.Accounted) (s : Surroundings) (o : Outcome) {entry : Entry}
    (hwaiting : r.machine.entry? = some entry) :
    ((r.record (.returned o)).proceed (r.machine.resume s o)).Accounted := by
  have hanswers := r.machine.resume_answers s o hwaiting
  have htaken : (r.record (.returned o)).taken = r.taken := by
    simp [Run.taken, Happening.taken?]
  have hanswered : (r.record (.returned o)).answered = r.answered := by
    simp [Run.answered, Happening.answered?]
  have hdues : r.machine.dues = r.machine.state.dues ++ entry.owed.due?.toList := by
    simp [Machine.dues, hwaiting]
  have hbalance := hanswers.balance
  rw [← hdues, ← List.append_nil r.machine.dues] at hbalance
  have hbalanced := h.step hbalance
  exact {
    balance := by
      rw [taken_proceed, answered_proceed, htaken, hanswered, machine_proceed]
      rw [List.append_nil] at hbalanced
      exact hbalanced
    served := by
      rw [machine_proceed]
      exact hanswers.served }

/-- What happens around the machine is nobody's answer: it changes neither the
history nor who waits. -/
theorem Accounted.around (h : r.Accounted) {r' : Run} (hhistory : r'.history = r.history)
    (hstate : r'.machine.state = r.machine.state)
    (hentry : r'.machine.entry? = r.machine.entry?) : r'.Accounted where
  balance := by
    rw [taken, answered, hhistory, Machine.dues, hstate, hentry]
    exact h.balance
  served := by
    rw [Machine.Served, hstate, hentry]
    exact h.served

/-- **Everything that can happen keeps the balance.**  A command brings its
own caller into it, and what a step does after that is balanced on its own. -/
theorem Accounted.happen (h : r.Accounted) (o : Occurrence) : (r.happen o).Accounted := by
  cases o with
  | asked c =>
      refine r.asked_cases (motive := (·.Accounted)) h fun _ => ?_
      exact h.around rfl rfl rfl
  | taking s =>
      refine r.taking_cases (motive := (·.Accounted)) h fun c rest hidle _ => ?_
      exact h.take s hidle
  | ended s o =>
      refine r.ended_cases (motive := (·.Accounted)) h fun entry hwaiting => ?_
      exact h.resume s o hwaiting
  | watching attended =>
      rcases r.machine_watching attended with hsame | ⟨e, k, -, hraised⟩
      · exact h.around rfl (congrArg _ hsame) (congrArg _ hsame)
      · exact h.around rfl (by rw [hraised]; rfl) (by rw [hraised]; rfl)
  | fired attended id =>
      have hhistory := r.history_fired attended id
      rcases r.machine_fired attended id with hsame | ⟨k, hraised⟩
      · exact h.around hhistory (congrArg _ hsame) (congrArg _ hsame)
      · exact h.around hhistory (by rw [hraised]; rfl) (by rw [hraised]; rfl)
  | noticed capacity n => exact h.around rfl rfl rfl
  | elapsed d => exact h.around rfl rfl rfl
  | listening ls => exact h.around rfl rfl rfl

/-- The callers who wait for a session wait in a state on its way to one. -/
theorem Accounted.waiting (h : r.Accounted) (hidle : r.machine.entry? = none)
    (hsome : r.machine.state.waiters ≠ []) :
    r.machine.state.kind ∈ [.creating, .activating, .reactivateDelay, .reactivateExecute] := by
  cases hst : r.machine.state with
  | active ws session =>
      exact absurd (h.served hidle (by rw [hst]; rfl)) hsome
  | inactive abandoned => exact absurd (by rw [hst]; rfl) hsome
  | closing session cs => exact absurd (by rw [hst]; rfl) hsome
  | _ => simp [State.kind]

/-- **Every caller is answered exactly once.**  Between two commands the calls
that were taken are those that were answered, those that wait in the state for
a session, and those that wait for the session to be closed; who waits for a
session waits in a state on its way to one, and who waits for disconnection
waits while the session is being closed.  And at every point, if no call was
taken twice then no answer was given twice, nor to one who still waits. -/
theorem callers_answered_once {P : Occurrence → Prop} (h : Reachable P r) :
    (r.machine.entry? = none →
      r.taken.Perm (r.answered ++ (r.machine.state.waiters.map .session ++
        r.machine.state.completions.map .disconnection)) ∧
      (r.machine.state.waiters ≠ [] → r.machine.state.kind ∈
        [.creating, .activating, .reactivateDelay, .reactivateExecute]) ∧
      (r.machine.state.completions ≠ [] → r.machine.state.kind = .closing)) ∧
    (r.taken.Nodup → r.answered.Nodup ∧ ∀ d ∈ r.answered, d ∉ r.machine.dues) := by
  have haccounted : r.Accounted :=
    Reaches.invariant accounted_start (fun _ o _ h => h.happen o) h
  refine ⟨?_, ?_⟩
  · intro hidle
    refine ⟨?_, haccounted.waiting hidle, ?_⟩
    · have hbalance := haccounted.balance
      rw [dues_of_idle hidle] at hbalance
      exact hbalance
    · intro hsome
      cases hst : r.machine.state with
      | closing session cs => rfl
      | _ =>
          rw [hst] at hsome
          exact absurd rfl hsome
  · intro honce
    have hparts := List.nodup_append.mp (haccounted.balance.nodup_iff.mp honce)
    exact ⟨hparts.1, fun d hanswered hwaits => hparts.2.2 d hanswered d hwaits rfl⟩

/-- A caller whose session has just been created waits for it to be
activated. -/
theorem callers_answered_once_waiting :
    let r : Run := ((opening 7 .null .null).take 4).foldl Run.happen {}
    r.machine.entry? = none ∧ r.machine.state.waiters = [7] ∧
      r.taken = [.session 7] ∧ r.taken.Nodup ∧
      r.taken.Perm (r.answered ++ (r.machine.state.waiters.map .session ++
        r.machine.state.completions.map .disconnection)) ∧
      ∀ d ∈ r.answered, d ∉ r.machine.dues := by
  have hlaw := callers_answered_once (P := fun _ => True)
    (Reaches.ofList ((opening 7 .null .null).take 4) fun _ _ => trivial)
  have honce : (((opening 7 .null .null).take 4).foldl Run.happen {}).taken.Nodup := by decide
  exact ⟨rfl, rfl, rfl, honce, (hlaw.1 rfl).1, (hlaw.2 honce).2⟩

end Run

end OpcSession.Session
