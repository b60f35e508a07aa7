import OpcSession.Proofs.Client.Moves
import OpcSession.Proofs.Session.Stranding
import OpcSession.Proofs.Session.Transitions
import OpcSession.Proofs.Timer.Firing

/-!
# The machine of a client runs as a session machine runs

Whatever a client does, its machine with its watcher and its timer goes
through points of a run of the session machine: each move of the client is one
occurrence of that run or a few of them, and publishes the moves of the
machine that they lead to.  So what holds along the runs of the session
machine holds of the machine in a client.

* `ClientRun.Follows` — from one point of a client to another;
* `ClientRun.follows_act`, … — one lemma for each kind of move.
-/

namespace OpcSession.Simulation

open Session Client

namespace ClientRun

/-- Along with the client from one point to another goes a run of the session
machine, in which only such things happen as `P` allows and events come from
`Q` only. -/
def Follows (Q : Event → Prop) (P : Occurrence → Prop) (r r' : ClientRun) : Prop :=
  ∀ run : Run, run.Sound False → run.machine.listeners.RaiseOnly Q → run.engine = r.engine →
    ∃ run', Reaches (fun o => o.RaisesOnly Q ∧ P o) run run' ∧ run'.engine = r'.engine ∧
      ∃ ts, run'.transitions = run.transitions ++ ts ∧ r'.transitions = r.transitions ++ ts

variable {Q : Event → Prop} {P : Occurrence → Prop} {r r' r'' : ClientRun}

/-- What leaves the core alone comes to nothing in the run, so the client is
still at the same point of it. -/
theorem follows_of_core (h : r'.core = r.core) : Follows Q P r r' := by
  intro run _ _ heq
  have hengine := engine_of_core h
  have htransitions := transitions_of_core h
  exact ⟨run, .refl, heq.trans hengine.symm, [], by simp, by simp [htransitions]⟩

/-- A client that does nothing stays at its point of the run. -/
theorem Follows.refl (r : ClientRun) : Follows Q P r r := follows_of_core rfl

theorem Follows.mono {P' : Occurrence → Prop} (h : Follows Q P r r') (hallowed : ∀ o, P o → P' o) :
    Follows Q P' r r' := by
  intro run hsound hraising heq
  obtain ⟨run', hreaches, hafter⟩ := h run hsound hraising heq
  exact ⟨run', hreaches.mono fun o h => ⟨h.1, hallowed o h.2⟩, hafter⟩

/-- One stretch after another: the run of the second goes on where the first
ended. -/
theorem Follows.trans (h : Follows Q P r r') (h' : Follows Q P r' r'') : Follows Q P r r'' := by
  intro run hsound hraising heq
  obtain ⟨run', hreaches, heq', ts, hpublished, hpublished'⟩ := h run hsound hraising heq
  -- What the second part asks of its run is kept along the first.
  have halong : run'.Sound False ∧ run'.machine.listeners.RaiseOnly Q :=
    Reaches.invariant
      (I := fun run => run.Sound False ∧ run.machine.listeners.RaiseOnly Q) ⟨hsound, hraising⟩
      (fun _ _ hallowed h => ⟨h.1.happen False.elim, Run.raiseOnly_happen h.2 hallowed.1⟩) hreaches
  obtain ⟨run'', hreaches', heq'', ts', hmore, hmore'⟩ := h' run' halong.1 halong.2 heq'
  exact ⟨run'', hreaches.trans hreaches', heq'', ts ++ ts', by simp [hmore, hpublished],
    by simp [hmore', hpublished']⟩

/-- One occurrence makes a step of the client.  It has to do to the engine
what the client did to it, and to publish the same moves. -/
theorem follows_happen {o : Occurrence} (hraises : r.listeners.RaiseOnly Q → o.RaisesOnly Q)
    (hallowed : P o)
    (hhappens : ∀ run : Run, run.engine = r.engine → (run.happen o).engine = r'.engine ∧
      ∃ ts, (run.happen o).transitions = run.transitions ++ ts ∧
        r'.transitions = r.transitions ++ ts) : Follows Q P r r' := by
  intro run _ hraising heq
  have hlisteners : r.listeners = run.machine.listeners := by rw [listeners, Run.machine, heq]
  exact ⟨run.happen o, .step o .refl ⟨hraises (hlisteners ▸ hraising), hallowed⟩, hhappens run heq⟩

/-! ## Steps of the machine -/

/-- An effect is carried out on the channel, or told to somebody; the engine
has had its part of it before. -/
@[simp] theorem engine_effect (r : ClientRun) (f : Effect) : (r.effect f).engine = r.engine := by
  cases f with
  | call c => exact engine_of_core (core_use r .machine c)
  | answered t a => exact engine_of_core (core_wake _ _)
  | watched epoch => exact engine_of_core (core_wake _ _)
  | told l active session =>
      simp only [effect]
      split <;> rfl
  | _ => rfl

/-- An effect adds the move that it makes known, and no other.  So what a
client publishes is what its machine does. -/
theorem transitions_effect (r : ClientRun) (f : Effect) :
    (r.effect f).transitions = r.transitions ++ f.published?.toList := by
  cases f with
  | published t => rfl
  | call c => exact (transitions_of_core (core_use r .machine c)).trans (List.append_nil _).symm
  | answered t a => exact (transitions_of_core (core_wake _ _)).trans (List.append_nil _).symm
  | watched epoch => exact (transitions_of_core (core_wake _ _)).trans (List.append_nil _).symm
  | told l active session =>
      simp only [effect]
      split <;> simp [Effect.published?, observe]
  | _ => simp [effect, Effect.published?]

/-- The effects of a step leave the engine to the step itself, and publish the
moves among them in order. -/
theorem foldl_effect (fs : List Effect) (r : ClientRun) :
    (fs.foldl effect r).engine = r.engine ∧
      (fs.foldl effect r).transitions = r.transitions ++ fs.filterMap Effect.published? := by
  induction fs generalizing r with
  | nil => simp
  | cons f fs ih =>
      obtain ⟨hengine, htransitions⟩ := ih (r.effect f)
      refine ⟨hengine.trans (engine_effect r f), ?_⟩
      rw [List.foldl_cons, htransitions, transitions_effect, List.append_assoc]
      cases hf : f.published? <;> simp [hf]

/-- A step of the machine in a client is the step of the machine. -/
theorem step_proceed (r : ClientRun) (f : Surroundings → Machine → Progress) {run : Run}
    (heq : run.engine = r.engine) :
    (run.proceed (f r.surroundings r.engine.machine)).engine = (r.step f).engine ∧
      (r.step f).transitions = r.transitions ++
        (f r.surroundings r.engine.machine).effects.filterMap Effect.published? := by
  obtain ⟨hengine, htransitions⟩ := foldl_effect
    (f r.surroundings r.engine.machine).effects
    { r with engine := (r.engine.step (f r.surroundings)).1 }
  refine ⟨?_, htransitions⟩
  rw [Run.proceed, heq]
  exact hengine.symm

/-- The machine takes its next command, if it rests and one was asked. -/
theorem follows_take (hidle : r.engine.machine.isIdle) (hsome : ¬ r.engine.machine.queue.isEmpty)
    (hallowed : P (.taking r.surroundings)) :
    Follows Q P r (r.step fun s m => m.take s) := by
  refine follows_happen (o := .taking r.surroundings) (fun _ => trivial) hallowed ?_
  intro run heq
  rw [Machine.isIdle, Option.isNone_iff_eq_none] at hidle
  obtain ⟨c, rest, hqueue⟩ := List.exists_cons_of_ne_nil (by simpa using hsome)
  obtain ⟨hengine, htransitions⟩ := r.step_proceed (fun s m => m.take s)
    (show (run.record (.taken c)).engine = r.engine from heq)
  have htaken : run.happen (.taking r.surroundings) =
      (run.record (.taken c)).proceed (r.engine.machine.take r.surroundings) := by
    simp only [Run.happen, Run.machine, heq, hidle, hqueue]
  rw [htaken]
  refine ⟨hengine, _, ?_, htransitions⟩
  rw [Run.transitions_proceed, Run.transitions_taken]

/-- The machine goes on after a call; without one it does nothing, and neither
does the run. -/
theorem follows_resume (outcome : Outcome) (hallowed : P (.ended r.surroundings outcome)) :
    Follows Q P r (r.step fun s m => m.resume s outcome) := by
  cases hwaiting : r.engine.machine.entry? with
  | none =>
      obtain ⟨hengine, htransitions⟩ := r.step_proceed (fun s m => m.resume s outcome)
        (show ({ engine := r.engine } : Run).engine = r.engine from rfl)
      have hnothing : r.engine.machine.resume r.surroundings outcome =
          { machine := r.engine.machine } := by
        simp only [Machine.resume, hwaiting]
      rw [hnothing] at hengine htransitions
      exact follows_of_core (Prod.ext hengine.symm (htransitions.trans (List.append_nil _)))
  | some entry =>
      refine follows_happen (o := .ended r.surroundings outcome) (fun _ => trivial) hallowed ?_
      intro run heq
      obtain ⟨hengine, htransitions⟩ := r.step_proceed (fun s m => m.resume s outcome)
        (show (run.record (.returned outcome)).engine = r.engine from heq)
      have hresumed : run.happen (.ended r.surroundings outcome) =
          (run.record (.returned outcome)).proceed
            (r.engine.machine.resume r.surroundings outcome) := by
        simp only [Run.happen, Run.machine, heq, hwaiting]
      rw [hresumed]
      refine ⟨hengine, _, ?_, htransitions⟩
      rw [Run.transitions_proceed, Run.transitions_returned]

/-- **The machine of a client goes on as a session machine does**, for however
many steps: each takes a command or what has come of a call. -/
theorem follows_runMachine (htaking : ∀ r : ClientRun, P (.taking r.surroundings))
    (hended : ∀ (r : ClientRun) o, P (.ended r.surroundings o)) (fuel : Nat) (r : ClientRun) :
    Follows Q P r (r.runMachine fuel) := by
  induction fuel generalizing r with
  | zero => exact .refl r
  | succ fuel ih =>
      have hproceeded : Follows Q P r (r.proceed .machine) :=
        follows_of_core (core_proceed r .machine)
      simp only [runMachine]
      split
      · rename_i outcome r' htaken
        have hconcluded : Follows Q P (r.proceed .machine) r' :=
          follows_of_core (core_takeOutcome? _ _ htaken)
        exact ((hproceeded.trans hconcluded).trans (follows_resume outcome (hended _ _))).trans
          (ih _)
      · split
        · rename_i hready
          have htook := follows_take (Q := Q) hready.1 (by simpa using hready.2) (htaking _)
          exact (hproceeded.trans htook).trans (ih _)
        · exact hproceeded

/-! ## Around the machine -/

/-- What happens around the machine publishes nothing. -/
theorem follows_around (o : Occurrence) {engine : Engine}
    (hraises : r.listeners.RaiseOnly Q → o.RaisesOnly Q) (hallowed : P o)
    (hcore : r'.core = (engine, r.transitions))
    (hhappens : ∀ run : Run, run.engine = r.engine →
      (run.happen o).engine = engine ∧ (run.happen o).history = run.history) :
    Follows Q P r r' := by
  refine follows_happen hraises hallowed ?_
  intro run heq
  obtain ⟨hengine', hhistory⟩ := hhappens run heq
  refine ⟨hengine'.trans (congrArg Prod.fst hcore).symm, [], ?_, ?_⟩
  · rw [Run.transitions_of_history hhistory, List.append_nil]
  · exact (congrArg Prod.snd hcore).trans (List.append_nil _).symm

/-- Somebody asks the machine something, which is an occurrence of the run by
the same name. -/
theorem follows_pushCommand {c : Command} (hunstamped : ¬ c.isStamped)
    (hraises : (Occurrence.asked c).RaisesOnly Q) (hallowed : P (.asked c)) :
    Follows Q P r (r.pushCommand c) := by
  refine follows_around (.asked c) (fun _ => hraises) hallowed (core_wake _ _) ?_
  intro run heq
  rw [Run.happen, if_neg hunstamped, ← heq]
  exact ⟨rfl, rfl⟩

/-- The channel gives notice, to a mailbox of the size that it has. -/
theorem follows_notify (n : Notice) (hallowed : P (.noticed Channel.mailbox n)) :
    Follows Q P r (r.notify n) := by
  have hcore : (r.notify n).core = (r.engine.notify Channel.mailbox n, r.transitions) := by
    unfold notify
    dsimp only
    split
    · exact core_wake _ _
    · rfl
  refine follows_around (.noticed Channel.mailbox n) (fun _ => trivial) hallowed hcore ?_
  intro run heq
  rw [← heq]
  exact ⟨rfl, rfl⟩

/-- The watcher reads its mailbox, and may report what it finds; it publishes
nothing. -/
theorem follows_runWatcher (hallowed : P (.watching true)) : Follows Q P r r.runWatcher := by
  have hcore : r.runWatcher.core = (r.engine.watch true, r.transitions) := by
    unfold runWatcher
    dsimp only
    split
    · exact core_wake _ _
    · rfl
  refine follows_around (.watching true) (fun _ => trivial) hallowed hcore ?_
  intro run heq
  rw [← heq]
  exact ⟨rfl, rfl⟩

/-- Listeners come and go, but none that raises what may not be raised. -/
theorem follows_setListeners {ls : Listeners}
    (hraises : r.listeners.RaiseOnly Q → ls.RaiseOnly Q) (hallowed : P (.listening ls)) :
    Follows Q P r (r.setListeners ls) := by
  refine follows_around (.listening ls) hraises hallowed rfl ?_
  intro run heq
  rw [Run.happen, Run.withMachine, Run.machine, heq]
  exact ⟨rfl, rfl⟩

/-! ## Timers -/

/-- The timers that are due fire one after the other: there is never more than
one that waits. -/
theorem reaches_fire (hraises : ∀ id, P (.fired true id)) (fuel : Nat) {run : Run}
    (hsound : run.Sound False) :
    ∃ run', Reaches (fun o => o.RaisesOnly Q ∧ P o) run run' ∧
      run'.engine = (run.engine.fire true fuel).2 ∧ run'.history = run.history := by
  induction fuel generalizing run with
  | zero => exact ⟨run, .refl, rfl, rfl⟩
  | succ fuel ih =>
      rw [Engine.fire]
      split
      · exact ⟨run, .refl, rfl, rfl⟩
      · rename_i timer timers hdue
        obtain ⟨first, hfirst, heq⟩ := Option.map_eq_some_iff.mp hdue
        cases heq
        have hwaits := (List.mem_filter.mp (Timer.mem_of_first? hfirst)).1
        -- A run names the timer that fires by its number, so the number has
        -- to stand for this timer.
        have hfound : run.engine.timers.waiting.find? (·.id = timer.id) = some timer := by
          rcases hsound.timer with hnone | ⟨-, t, hone, -⟩
          · rw [hnone] at hwaits
            cases hwaits
          · rw [hone] at hwaits ⊢
            cases List.mem_singleton.mp hwaits
            simp
        have hfired : (run.happen (.fired true timer.id)).engine =
            Engine.raise { run.engine with timers := { run.engine.timers with
              waiting := run.engine.timers.waiting.filter (·.id ≠ timer.id) } }
              true .reactivateRequested timer.task := by
          simp only [Run.happen, Run.fire, hfound]
        obtain ⟨run', hreaches, hengine, hhistory⟩ := ih (hsound.happen (o := .fired true timer.id)
          False.elim)
        have hfirst : Reaches (fun o => o.RaisesOnly Q ∧ P o) run
            (run.happen (.fired true timer.id)) := .step _ .refl ⟨trivial, hraises timer.id⟩
        refine ⟨run', hfirst.trans hreaches, ?_, hhistory.trans (run.history_fired true timer.id)⟩
        rw [hengine, hfired]

/-- The clock moves, and what is due fires: one occurrence for the clock, and
one for each timer. -/
theorem follows_advance (helapsed : ∀ d, P (.elapsed d)) (hfired : ∀ id, P (.fired true id))
    (d : Duration) : Follows Q P r (r.act (.advance d)).2 := by
  have hcore : (r.act (.advance d)).2.core = ((r.engine.advance true d).2, r.transitions) := by
    simp only [act]
    split
    · rfl
    · exact core_wake _ _
  intro run hsound _ heq
  obtain ⟨run', hreaches, hengine, hhistory⟩ := reaches_fire (Q := Q) hfired
    (r.engine.timers.elapse d).waiting.length (hsound.happen (o := .elapsed d) False.elim)
  have hfirst : Reaches (fun o => o.RaisesOnly Q ∧ P o) run (run.happen (.elapsed d)) :=
    .step _ .refl ⟨trivial, helapsed d⟩
  refine ⟨run', hfirst.trans hreaches, ?_, [], ?_, ?_⟩
  · rw [hengine, show (r.act (.advance d)).2.engine = _ from congrArg Prod.fst hcore, ← heq]
    rfl
  · rw [Run.transitions_of_history hhistory, List.append_nil]
    rfl
  · rw [show (r.act (.advance d)).2.transitions = _ from congrArg Prod.snd hcore,
      List.append_nil]

/-! ## What is done to a client -/

mutual

/-- Whatever is done raises only what `Q` allows, and so do the listeners that
are added. -/
def Action.RaisesOnly (Q : Event → Prop) : Action → Prop
  | .raise e | .call _ _ (.handle e) => Q e
  | .addListener l | .addListenerBriefly l => l.RaisesOnly Q
  | .batch actions => Action.AllRaiseOnly Q actions
  | _ => True

/-- All of several actions raise only what `Q` allows. -/
def Action.AllRaiseOnly (Q : Event → Prop) : List Action → Prop
  | [] => True
  | a :: rest => a.RaisesOnly Q ∧ Action.AllRaiseOnly Q rest

end

/-- What a call asks the machine for: a session, to be disconnected, or to
look at an event; and never more than one of these. -/
theorem start_asks {g : Goal} {ticket : Ticket} {now : Duration} {cache cache' : DataCache}
    {c : Command} (h : g.start ticket now cache = (.ask c, cache')) :
    c = .getSession ticket ∨ c = .disconnect ticket ∨
      ∃ e, g = .handle e ∧ c = .event e (some ticket) := by
  cases g with
  | session => cases h; exact .inl rfl
  | close => cases h; exact .inr (.inl rfl)
  | handle e => cases h; exact .inr (.inr ⟨e, rfl, rfl⟩)
  | read node a =>
      simp only [Goal.start] at h
      split at h
      · cases h
      · cases h
        exact .inl rfl
  | write node a value => cases h; exact .inl rfl
  | exchange request => cases h
  | connect => cases h
  | disconnect => cases h

/-- A call starts, which may ask the machine something, and does nothing else
to it. -/
theorem follows_call (id : String) (direct : Bool) (g : Goal)
    (hraises : (Action.call id direct g).RaisesOnly Q)
    (houtside : ∀ o, o.isOutside → o.Attended → P o) :
    Follows Q P r (r.call id direct g) := by
  unfold call
  dsimp only
  generalize hstart : g.start r.nextTicket r.now r.cache = started
  obtain ⟨next, cache⟩ := started
  cases next with
  | ask c =>
      have hasks := start_asks hstart
      refine .trans (follows_of_core ?_) (follows_pushCommand ?_ ?_ (houtside _ rfl trivial))
      · rfl
      · rcases hasks with rfl | rfl | ⟨e, -, rfl⟩ <;> simp [Command.isStamped]
      · rcases hasks with rfl | rfl | ⟨e, rfl, rfl⟩
        · trivial
        · trivial
        · exact hraises
  | _ => exact follows_of_core (core_follow _ _ _ (by simp))

mutual

/-- **What is done to a client comes to what is done to its machine.** -/
theorem follows_act (a : Action) (r : ClientRun) (hraises : a.RaisesOnly Q)
    (houtside : ∀ o, o.isOutside → o.Attended → P o) : Follows Q P r (r.act a).2 := by
  cases a with
  | call id direct g => exact follows_call id direct g hraises houtside
  | raise e =>
      exact follows_pushCommand (by simp [Command.isStamped]) hraises (houtside _ rfl trivial)
  | addListener l =>
      exact follows_setListeners (fun hraising => hraising.add hraises) (houtside _ rfl trivial)
  | removeListener name =>
      exact follows_setListeners (fun hraising => hraising.remove name) (houtside _ rfl trivial)
  | addListenerBriefly l =>
      exact follows_setListeners (fun hraising => ((hraising.add hraises).remove _).remove _)
        (houtside _ rfl trivial)
  | advance d =>
      exact follows_advance (fun _ => houtside _ rfl trivial) (fun _ => houtside _ rfl rfl) d
  | release gate => exact follows_of_core (core_of_backdrop (backdrop_wakeGate _ gate))
  | pushResponse handle response => exact follows_of_core (core_wake _ _)
  | push i => exact follows_of_core (core_of_backdrop (backdrop_push r i))
  | elapse d => exact follows_of_core (foldl_eq_of_step core (fun _ _ => core_wake _ _) _ _)
  | batch actions => exact follows_actAll actions r hraises houtside
  | _ => exact follows_of_core rfl

/-- One action after the other makes one stretch after another. -/
theorem follows_actAll (actions : List Action) (r : ClientRun)
    (hraises : Action.AllRaiseOnly Q actions) (houtside : ∀ o, o.isOutside → o.Attended → P o) :
    Follows Q P r (r.actAll actions).2 := by
  cases actions with
  | nil => exact .refl r
  | cons a rest =>
      exact (follows_act a r hraises.1 houtside).trans
        (follows_actAll rest _ hraises.2 houtside)

end

/-! ## Every move -/

/-- What may come of a move, as the session machine sees it.  A law about runs
in which some occurrence is ruled out applies to a client whose moves do not
cause it. -/
def Causes (r : ClientRun) : Move → Occurrence → Prop
  | .act _, o => o.isOutside
  | .machine, .taking _ | .machine, .ended _ _ | .watcher, .watching true => True
  | .received e, .noticed capacity n => r.channel.isConnected ∧
    capacity = Channel.mailbox ∧ some n = e.body.fault?.map .serviceFault
  | .cut, .noticed capacity n => capacity = Channel.mailbox ∧ n = .inactive
  | _, _ => False

/-- Where a move may come to a notice it comes to notices only. -/
theorem causes_notice {m : Move} {capacity : Nat} {n : Notice} {o : Occurrence}
    (hnotice : r.Causes m (.noticed capacity n)) (h : r.Causes m o) :
    ∃ capacity' n', o = .noticed capacity' n' := by
  cases m with
  | received e =>
      cases o with
      | noticed capacity' n' => exact ⟨capacity', n', rfl⟩
      | _ => exact h.elim
  | cut =>
      cases o with
      | noticed capacity' n' => exact ⟨capacity', n', rfl⟩
      | _ => exact h.elim
  | act a => cases hnotice
  | _ => exact hnotice.elim

theorem attended_of_received {e : ResponseEnvelope} {o : Occurrence}
    (h : r.Causes (.received e) o) : o.Attended := by
  cases o <;> trivial

/-- The move raises only what `Q` allows; of itself a client raises nothing
but what its machine does. -/
def Move.RaisesOnly (Q : Event → Prop) : Move → Prop
  | .act a => a.RaisesOnly Q
  | _ => True

/-- A response that comes in is at most a notice to the machine: which request
it answers the channel keeps to itself. -/
theorem follows_takeIn (e : ResponseEnvelope) (hconnected : r.channel.isConnected) :
    Follows Q (r.Causes (.received e)) r (r.takeIn e) := by
  have hconcluded : ∀ (r : ClientRun) (owner : Option Owner) (outcome : Outcome),
      (owner.elim r fun o => (r.conclude o outcome).wake (taskOf o)).core = r.core := by
    intro r owner outcome
    cases owner with
    | none => rfl
    | some o => exact (core_wake _ _).trans rfl
  unfold takeIn
  generalize hreceived : r.channel.receive e = received
  obtain ⟨notice, owner, channel⟩ := received
  have htold : e.body.fault?.map .serviceFault = notice := by
    unfold Channel.receive at hreceived
    exact congrArg Prod.fst hreceived
  cases notice with
  | none => exact follows_of_core (hconcluded _ owner _)
  | some n =>
      have hnoticed : Follows Q (r.Causes (.received e)) { r with channel := channel }
          (({ r with channel := channel } : ClientRun).notify n) :=
        follows_notify n ⟨hconnected, rfl, htold.symm⟩
      exact (Follows.trans (follows_of_core rfl) hnoticed).trans
        (follows_of_core (hconcluded _ owner _))

/-- **Every move of a client is one that its machine can make**, unless what
was observed is forgotten; and the client is there to use the machine. -/
theorem follows_move_attended (r : ClientRun) (m : Move) (hraises : m.RaisesOnly Q)
    (hobserved : m ≠ .forget) :
    Follows Q (fun o => r.Causes m o ∧ o.Attended) r (r.move m) := by
  cases m with
  | act a => exact follows_act a r hraises fun _ h hattended => ⟨h, hattended⟩
  | machine =>
      exact follows_runMachine (fun _ => ⟨trivial, rfl⟩) (fun _ _ => ⟨trivial, rfl⟩) 1 r
  | watcher => exact follows_runWatcher ⟨trivial, rfl⟩
  | caller t => exact follows_of_core (core_runCaller r t)
  | received e =>
      rw [move]
      split
      · rename_i hconnected
        exact (follows_takeIn e hconnected).mono fun o hcauses =>
          ⟨hcauses, attended_of_received hcauses⟩
      · exact .refl r
  | cut =>
      rw [move]
      split
      · refine .trans (follows_of_core ?_) (follows_notify _ ⟨⟨rfl, rfl⟩, trivial⟩)
        exact core_abandon _ _
      · exact .refl r
  | peer p => exact follows_of_core rfl
  | reorder ready => exact follows_of_core rfl
  | forget => exact absurd rfl hobserved

/-- **Every move of a client is one that its machine can make**, unless what
was observed is forgotten. -/
theorem follows_move (r : ClientRun) (m : Move) (hraises : m.RaisesOnly Q)
    (hobserved : m ≠ .forget) : Follows Q (r.Causes m) r (r.move m) :=
  (follows_move_attended r m hraises hobserved).mono fun _ h => h.1

end ClientRun

end OpcSession.Simulation
