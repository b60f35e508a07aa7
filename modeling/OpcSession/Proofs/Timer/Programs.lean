import OpcSession.Proofs.Timer.Firing

/-!
# Programs of timers come to their end

A program runs with only so much fuel, which bounds how deep its tasks call each other.  The fuel
is enough: to schedule a task takes more than is then left to be done for it, and a task that
fires is gone from those that wait.  So every program does on its clock what may happen there, each
advance runs until nothing is due, and its answer is how many tasks it ran.

* `Timer.Step.effort`, `Timer.weight` — what a step takes, and what is left to be done;
* `Timer.Run.follows` — with enough fuel a run goes on as journals do;
* `Timer.Run.timers_fire_in_order` — the law.
-/

namespace OpcSession.Timer

open Timers

/-! ## How much there is to do -/

mutual

/-- How deep a step goes, with all that it schedules.  It bounds the fuel that
is needed for it, and for all that comes of it later. -/
def Step.effort : Step → Nat
  | .schedule _ _ task => effortAll task + 2
  | .advance _ => 2
  | _ => 1

/-- How deep several steps go together. -/
def effortAll : List Step → Nat
  | [] => 0
  | s :: rest => s.effort + effortAll rest

end

/-- How deep the tasks that wait go, which is what is left to be done on a
clock. -/
def weight (waiting : List (Timer (String × List Step))) : Nat :=
  waiting.foldr (fun t n => effortAll t.task.2 + 1 + n) 0

mutual

/-- A step goes no deeper than twice what is written of it. -/
theorem Step.effort_le (s : Step) : s.effort ≤ 2 * s.size := by
  cases s with
  | schedule name delay task =>
      have := effortAll_le task
      simp only [Step.effort, Step.size]
      omega
  | _ => simp [Step.effort, Step.size]

theorem effortAll_le (steps : List Step) : effortAll steps ≤ 2 * sizeAll steps := by
  cases steps with
  | nil => simp [effortAll]
  | cons s rest =>
      have := s.effort_le
      have := effortAll_le rest
      simp only [effortAll, sizeAll]
      omega

end

theorem Step.effort_pos (s : Step) : 0 < s.effort := by
  cases s <;> simp [Step.effort]

/-- The fuel of a run is enough: it is computed from what is written, and
bounds what will be done. -/
theorem Run.effort_le_fuel (r : Run) (s : Step) :
    s.effort + weight r.timers.waiting ≤ r.fuel s := by
  have hstep := s.effort_le
  have hwaiting : weight r.timers.waiting ≤
      2 * r.timers.waiting.foldr (fun t n => sizeAll t.task.2 + 1 + n) 0 := by
    induction r.timers.waiting with
    | nil => simp [weight]
    | cons t ts ih =>
        have := effortAll_le t.task.2
        simp only [weight, List.foldr_cons] at ih ⊢
        omega
  unfold Run.fuel
  dsimp only
  omega

/-- One more task that waits is one more to be done. -/
theorem weight_cons (t : Timer (String × List Step)) (ts : List (Timer (String × List Step))) :
    weight (t :: ts) = effortAll t.task.2 + 1 + weight ts := rfl

/-- Tasks that wait in two lists are to be done together. -/
theorem weight_append (ts us : List (Timer (String × List Step))) :
    weight (ts ++ us) = weight ts + weight us := by
  induction ts with
  | nil => exact (Nat.zero_add _).symm
  | cons t ts ih =>
      rw [List.cons_append, weight_cons, weight_cons, ih]
      omega

/-- Fewer tasks are less to be done, so to cancel takes nothing. -/
theorem weight_filter (ts : List (Timer (String × List Step)))
    (p : Timer (String × List Step) → Bool) : weight (ts.filter p) ≤ weight ts := by
  induction ts with
  | nil => exact Nat.le_refl _
  | cons t ts ih =>
      rw [List.filter_cons]
      split
      · rw [weight_cons, weight_cons]
        omega
      · rw [weight_cons]
        omega

/-- A task that is taken from those that wait leaves so much less. -/
theorem weight_taken {ts : List (Timer (String × List Step))} {t : Timer (String × List Step)}
    (hwaits : t ∈ ts) :
    weight (ts.filter (·.id ≠ t.id)) + (effortAll t.task.2 + 1) ≤ weight ts := by
  induction ts with
  | nil => cases hwaits
  | cons u us ih =>
      rw [weight_cons]
      rcases List.mem_cons.mp hwaits with rfl | hwaits
      · have hrest := weight_filter us (·.id ≠ t.id)
        rw [List.filter_cons_of_neg (by simp)]
        omega
      · have hrest := ih hwaits
        rw [List.filter_cons]
        split
        · rw [weight_cons]
          omega
        · omega

/-- A timer that is taken does not weigh any more, which is what pays for
running its task. -/
theorem weight_takeDue {timers left : Timers (String × List Step)}
    {t : Timer (String × List Step)} (htaken : timers.takeDue? = some (t, left)) :
    weight left.waiting + (effortAll t.task.2 + 1) ≤ weight timers.waiting := by
  obtain ⟨u, hfirst, hsame⟩ := Option.map_eq_some_iff.mp htaken
  cases hsame
  exact weight_taken (List.mem_filter.mp (Timer.mem_of_first? hfirst)).1

/-! ## A run and its journal -/

/-- The journal of what a program does, in which tasks have a name and
steps. -/
abbrev Log := Journal (String × List Step)

/-- The journal keeps the timers of the run, and the names of the tasks that
ran. -/
structure Records (j : Log) (r : Run) : Prop where
  /-- Its timers are those of the program. -/
  timers : j.timers = r.timers
  /-- The names of what has fired are those that the program has noted. -/
  fired : (firedIn j.history).map (·.task.1) = r.fired

/-- What is written down of a step of a program, by what it answers. -/
inductive Told (r : Run) : Step → Answer → List (Entry (String × List Step)) → Prop
  /-- The timer got the next number, and is due after the delay from now. -/
  | scheduled {name : String} {delay : Duration} {task : List Step} :
      Told r (.schedule name delay task) .nothing
        [.scheduled ⟨r.timers.nextId, r.timers.now + delay, (name, task)⟩]
  /-- Somebody cancelled a timer that the name is known for, and was told
  whether that stopped it. -/
  | cancelled {name : String} {id : Nat} {won : Bool} (hknown : r.handle? name = some id) :
      Told r (.cancel name) (.cancelled won) [.cancelled id won]
  /-- No timer is known by that name. -/
  | unknown {name : String} (hunknown : r.handle? name = none) : Told r (.cancel name) .nothing []
  /-- A run began and came to its end, and its answer is how many tasks it
  ran. -/
  | advanced {by_ : Duration} {run ran : Nat} {now : Duration}
      {during : List (Entry (String × List Step))} :
      Told r (.advance by_) (.ran ran)
        (.began run (r.timers.now + by_) :: during ++ [.rested run now ran])
  /-- Somebody asked after a timer, and nothing happened. -/
  | status {name : String} {a : Answer} : Told r (.status name) a []
  /-- Somebody asked what was requested, and nothing happened. -/
  | requested {a : Answer} : Told r .requested a []

/-- What happens leads from one journal to another, and nothing but what may
happen on a clock does. -/
def Goes {α : Type} (j j' : Journal α) : Prop :=
  ∃ os : List (Occurrence α), os.foldl Journal.happen j = j'

section Goes

variable {α : Type} {j j' j'' : Journal α}

theorem Goes.refl (j : Journal α) : Goes j j := ⟨[], rfl⟩

theorem Goes.one (j : Journal α) (o : Occurrence α) : Goes j (j.happen o) := ⟨[o], rfl⟩

theorem Goes.trans (h : Goes j j') (h' : Goes j' j'') : Goes j j'' := by
  obtain ⟨os, rfl⟩ := h
  obtain ⟨os', rfl⟩ := h'
  exact ⟨os ++ os', List.foldl_append⟩

/-- What happens is only added to the history; nothing of it is taken back. -/
theorem Goes.history (h : Goes j j') : ∃ news, j'.history = j.history ++ news := by
  obtain ⟨os, rfl⟩ := h
  induction os generalizing j with
  | nil => exact ⟨[], (List.append_nil _).symm⟩
  | cons o os ih =>
      have hfirst : ∃ news, (j.happen o).history = j.history ++ news := by
        cases o with
        | fire | rest =>
            simp only [Journal.happen]
            split
            · exact ⟨_, rfl⟩
            · exact ⟨[], (List.append_nil _).symm⟩
        | _ => exact ⟨_, rfl⟩
      obtain ⟨news, hnews⟩ := hfirst
      obtain ⟨more, hmore⟩ := ih (j := j.happen o)
      exact ⟨news ++ more, by rw [List.foldl_cons, hmore, hnews, List.append_assoc]⟩

end Goes

/-- A step of a program is one course of what may happen, from one journal of
the run to the next, and is answered by it. -/
structure Performed (j : Log) (r : Run) (s : Step) (a : Answer) (r' : Run) (j' : Log) : Prop where
  /-- What a step does is what may happen on its clock. -/
  goes : Goes j j'
  /-- The journal goes on to record the program. -/
  records : Records j' r'
  /-- The runs that were going on still are, and no other. -/
  active : j'.active = j.active
  /-- What was answered is what was written down. -/
  told : ∃ news, j'.history = j.history ++ news ∧ Told r s a news

/-! ## With enough fuel -/

namespace Run

/-- So much fuel is enough for every step that does not go deeper. -/
def Performs (fuel : Nat) : Prop :=
  ∀ (s : Step) (r : Run) (j : Log), Records j r → s.effort + weight r.timers.waiting ≤ fuel →
    (∃ j', Performed j r s (performWithin fuel s r).1 (performWithin fuel s r).2 j') ∧
      weight (performWithin fuel s r).2.timers.waiting + 1 ≤ weight r.timers.waiting + s.effort

/-- So much fuel is enough for every task that does not go deeper. -/
def Runs (fuel : Nat) : Prop :=
  ∀ (steps : List Step) (r : Run) (j : Log), Records j r →
    effortAll steps + weight r.timers.waiting < fuel →
    (∃ j', Goes j j' ∧ Records j' (runWithin fuel steps r) ∧ j'.active = j.active) ∧
      weight (runWithin fuel steps r).timers.waiting ≤ weight r.timers.waiting + effortAll steps

/-- So much fuel is enough for all that waits, if it does not go deeper: when
nothing is due any more, the count is that of the run that is active. -/
def Fires (fuel : Nat) : Prop :=
  ∀ (count : Nat) (r : Run) (j : Log) (run : Nat) (others : List Ongoing), Records j r →
    j.active = ⟨run, count⟩ :: others → weight r.timers.waiting < fuel →
    (∃ j', Goes j j' ∧ Records j' (fireWithin fuel count r).2 ∧
      j'.active = ⟨run, (fireWithin fuel count r).1⟩ :: others) ∧
      (fireWithin fuel count r).2.timers.takeDue? = none ∧
      weight (fireWithin fuel count r).2.timers.waiting ≤ weight r.timers.waiting

/-- A step that schedules, cancels or asks is done at once, and one that
advances fires what is due with a unit of fuel less. -/
theorem performs_succ {fuel : Nat} (hfires : Fires fuel) : Performs (fuel + 1) := by
  intro s r j hrecords henough
  have htimers := hrecords.timers
  cases s with
  | schedule name delay task =>
      refine ⟨⟨j.happen (.schedule delay (name, task)), .one j _, ⟨?_, ?_⟩, rfl, _, rfl, ?_⟩, ?_⟩
      · exact congrArg (fun ts => (ts.schedule delay (name, task)).2) htimers
      · rw [Journal.happen]
        simp only [Journal.firedIn_snoc, Entry.fired?, Option.toList_none, List.append_nil]
        exact hrecords.fired
      · rw [htimers]
        exact .scheduled
      · simp only [performWithin, Timers.schedule, weight_append, Step.effort]
        rw [weight_cons]
        simp only [weight, List.foldr_nil]
        omega
  | cancel name =>
      cases hknown : r.handle? name with
      | none =>
          simp only [performWithin, hknown]
          refine ⟨⟨j, .refl j, hrecords, rfl, [], (List.append_nil _).symm, .unknown hknown⟩, ?_⟩
          exact Nat.le_refl _
      | some id =>
          simp only [performWithin, hknown]
          refine ⟨⟨j.happen (.cancel id), .one j _, ⟨?_, ?_⟩, rfl, _, rfl, ?_⟩, ?_⟩
          · exact congrArg (fun ts => (ts.cancel id).2) htimers
          · rw [Journal.happen]
            simp only [Journal.firedIn_snoc, Entry.fired?, Option.toList_none, List.append_nil]
            exact hrecords.fired
          · rw [htimers]
            exact .cancelled hknown
          · have hfewer : weight (r.timers.cancel id).2.waiting ≤ weight r.timers.waiting := by
              rw [(Journal.cancel_spec r.timers id).2.1]
              exact weight_filter _ _
            simp only [Step.effort]
            omega
  | status name =>
      have hanswers : (performWithin (fuel + 1) (.status name) r).2 = r := by
        simp only [performWithin]
        split <;> rfl
      rw [hanswers]
      exact ⟨⟨j, .refl j, hrecords, rfl, [], (List.append_nil _).symm, .status⟩, Nat.le_refl _⟩
  | requested =>
      exact ⟨⟨j, .refl j, hrecords, rfl, [], (List.append_nil _).symm, .requested⟩, Nat.le_refl _⟩
  | advance by_ =>
      simp only [Step.effort] at henough
      have hbegan : Records (j.happen (.advance by_)) { r with timers := r.timers.elapse by_ } := by
        refine ⟨congrArg (·.elapse by_) htimers, ?_⟩
        rw [Journal.happen]
        simp only [Journal.firedIn_snoc, Entry.fired?, Option.toList_none, List.append_nil]
        exact hrecords.fired
      obtain ⟨⟨j₁, hgoes, hrecords₁, hactive⟩, hnothing, hlighter⟩ :=
        hfires 0 _ _ j.begun j.active hbegan rfl
        (show weight r.timers.waiting < fuel by omega)
      simp only [performWithin]
      generalize fireWithin fuel 0 { r with timers := r.timers.elapse by_ } = fired
        at hrecords₁ hactive hnothing hlighter ⊢
      obtain ⟨count, r₁⟩ := fired
      dsimp only at hrecords₁ hactive hnothing hlighter ⊢
      have hrested : j₁.happen .rest = { j₁ with
          active := j.active
          history := j₁.history ++ [.rested j.begun j₁.timers.now count] } := by
        simp only [Journal.happen, hactive, hrecords₁.timers, hnothing]
      obtain ⟨during, hhistory⟩ := hgoes.history
      refine ⟨⟨j₁.happen .rest, ((Goes.one j _).trans hgoes).trans (.one j₁ _), ?_, ?_,
        .began j.begun (r.timers.now + by_) :: during ++ [.rested j.begun j₁.timers.now count],
        ?_, .advanced⟩, ?_⟩
      · rw [hrested]
        refine ⟨hrecords₁.timers, ?_⟩
        simp only [Journal.firedIn_snoc, Entry.fired?, Option.toList_none, List.append_nil]
        exact hrecords₁.fired
      · rw [hrested]
      · rw [hrested, hhistory, Journal.happen, ← htimers]
        simp [Timers.elapse]
      · have hsame : weight (r.timers.elapse by_).waiting = weight r.timers.waiting := rfl
        simp only [Step.effort]
        omega

/-- Steps one after the other do what each of them does. -/
theorem runs_succ {fuel : Nat} (hperforms : Performs fuel) (hruns : Runs fuel) :
    Runs (fuel + 1) := by
  intro steps r j hrecords henough
  cases steps with
  | nil => exact ⟨⟨j, .refl j, hrecords, rfl⟩, Nat.le_refl _⟩
  | cons s rest =>
      simp only [effortAll] at henough ⊢
      have hdeep := s.effort_pos
      obtain ⟨⟨j₁, hperformed⟩, hlighter⟩ := hperforms s r j hrecords (by omega)
      simp only [runWithin]
      obtain ⟨⟨j₂, hgoes, hrecords₂, hactive⟩, hlighter'⟩ :=
        hruns rest (performWithin fuel s r).2 j₁ hperformed.records (by omega)
      exact ⟨⟨j₂, hperformed.goes.trans hgoes, hrecords₂,
        hactive.trans hperformed.active⟩, by omega⟩

/-- To fire what is due is to take the first, to run its task, and to fire
what is due then. -/
theorem fires_succ {fuel : Nat} (hruns : Runs fuel) (hfires : Fires fuel) : Fires (fuel + 1) := by
  intro count r j run others hrecords hactive henough
  cases htaken : r.timers.takeDue? with
  | none =>
      simp only [fireWithin, htaken]
      exact ⟨⟨j, .refl j, hrecords, hactive⟩, trivial, Nat.le_refl _⟩
  | some p =>
      obtain ⟨⟨id, deadline, name, task⟩, timers⟩ := p
      have hleft : weight timers.waiting + (effortAll task + 1) ≤ weight r.timers.waiting :=
        weight_takeDue htaken
      simp only [fireWithin, htaken]
      have hfired : j.happen .fire = { j with
          timers := timers
          active := ⟨run, count + 1⟩ :: others
          history := j.history ++ [.fired run ⟨id, deadline, name, task⟩ j.timers.now] } := by
        simp only [Journal.happen, hactive, hrecords.timers, htaken]
      have hbegan : Records (j.happen .fire)
          { r with timers := timers, fired := r.fired ++ [name] } := by
        rw [hfired]
        refine ⟨rfl, ?_⟩
        simp only [Journal.firedIn_snoc, Entry.fired?, Option.toList_some, List.map_append,
          hrecords.fired]
        rfl
      obtain ⟨⟨j₁, hgoes₁, hrecords₁, hactive₁⟩, hlighter₁⟩ := hruns task _ _ hbegan
        (show effortAll task + weight timers.waiting < fuel by omega)
      rw [hfired] at hactive₁
      have hlighter₁ : weight (runWithin fuel task
          { r with timers := timers, fired := r.fired ++ [name] }).timers.waiting ≤
            weight timers.waiting + effortAll task := hlighter₁
      obtain ⟨⟨j₂, hgoes₂, hrecords₂, hactive₂⟩, hnothing, hlighter₂⟩ :=
        hfires (count + 1) _ j₁ run others hrecords₁ hactive₁ (by omega)
      exact ⟨⟨j₂, ((Goes.one j .fire).trans hgoes₁).trans hgoes₂, hrecords₂, hactive₂⟩, hnothing,
        by omega⟩

/-- **With enough fuel a program does what may happen on its clock**, and
comes to its end. -/
theorem follows (fuel : Nat) : Performs fuel ∧ Runs fuel ∧ Fires fuel := by
  induction fuel with
  | zero =>
      refine ⟨fun s r j _ henough => ?_, fun _ _ _ _ henough => ?_, fun _ _ _ _ _ _ _ henough => ?_⟩
      · have := s.effort_pos
        omega
      · exact absurd henough (Nat.not_lt_zero _)
      · exact absurd henough (Nat.not_lt_zero _)
  | succ fuel ih =>
      obtain ⟨hperforms, hruns, hfires⟩ := ih
      exact ⟨performs_succ hfires, runs_succ hperforms hruns, fires_succ hruns hfires⟩

/-- A step of a program is what may happen on its clock, for there is fuel
enough. -/
theorem performed {j : Log} {r : Run} (hrecords : Records j r) (s : Step) :
    ∃ j', Performed j r s (r.perform s).1 (r.perform s).2 j' :=
  ((follows _).1 s r j hrecords (r.effort_le_fuel s)).1

/-- A program has a journal, and no run of what is due is left unfinished
between its steps. -/
theorem journal_of_program (program : List Step) :
    ∃ j : Log, Goes {} j ∧ j.active = [] ∧
      Records j (program.foldl (fun r s => (r.perform s).2) {}) := by
  suffices hfrom_ : ∀ (r : Run) (j : Log), Goes {} j → j.active = [] → Records j r →
      ∃ j' : Log, Goes {} j' ∧ j'.active = [] ∧
        Records j' (program.foldl (fun r s => (r.perform s).2) r) from
    hfrom_ {} {} (.refl _) rfl ⟨rfl, rfl⟩
  induction program with
  | nil => exact fun r j hgoes hidle hrecords => ⟨j, hgoes, hidle, hrecords⟩
  | cons s rest ih =>
      intro r j hgoes hidle hrecords
      obtain ⟨j₁, hperformed⟩ := performed hrecords s
      exact ih _ j₁ (hgoes.trans hperformed.goes) (hperformed.active.trans hidle) hperformed.records

/-- **Timers fire once, in order, not before they are due and not after they
were cancelled.**  Whatever happens on a clock, all that fired did so in the
order of the deadlines and, for one deadline, in the order of scheduling;
every entry of the history is right by what happened before it; and the timers
that wait are those that were scheduled and have neither fired nor been
cancelled.  Every step of a program is such a course of happenings, with its
answer: to schedule is nothing else than that, and to advance comes to its
end, with how many tasks it ran. -/
theorem timers_fire_in_order :
    (∀ {α : Type} (os : List (Occurrence α)),
      let j := os.foldl Journal.happen ({} : Journal α)
      (firedIn j.history).Pairwise (fun t u => t.deadline.nanos < u.deadline.nanos ∨
        (t.deadline = u.deadline ∧ t.id < u.id)) ∧
      (∀ past (x : Entry α) rest, j.history = past ++ x :: rest → x.Right past) ∧
      j.timers.waiting = pendingIn j.history) ∧
    ∀ (program : List Step) (s : Step),
      let r := program.foldl (fun r s => (r.perform s).2) {}
      ∃ j j' : Log, Goes {} j ∧ j.active = [] ∧ Records j r ∧
        Performed j r s (r.perform s).1 (r.perform s).2 j' := by
  refine ⟨fun os => ?_, fun program s => ?_⟩
  · have hkept := Journal.kept_start.foldl os
    exact ⟨hkept.order.imp Timer.before_iff.mp, hkept.right, hkept.waiting⟩
  · obtain ⟨j, hgoes, hidle, hrecords⟩ := journal_of_program program
    obtain ⟨j', hperformed⟩ := performed hrecords s
    exact ⟨j, j', hgoes, hidle, hrecords, hperformed⟩

end Run

end OpcSession.Timer
