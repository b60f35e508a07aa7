import OpcSession.Proofs.Client.Bystanders
import OpcSession.Proofs.Cache.Contents
import OpcSession.Proofs.Session.Prospects

/-!
# What is done beside the calls

Whatever else a client does — its machine goes on, its watcher reads, its
connection ends, time goes by — no call is made, goes on or is over by it, the
cache comes by no value, and nobody is promised more than before.

* `ClientRun.promises` — what callers were answered by the machine, and what it may
  ever answer them;
* `ClientRun.promises_machine` — the machine answers only what it was asked for;
* `ClientRun.Aside`, `ClientRun.aside_move` — a move beside the calls.
-/

namespace OpcSession.Simulation

open Session Client

namespace ClientRun

variable {r r' : ClientRun} {o : Owner} {d : Due}

/-! ## Promises -/

/-- What an answer pays: each is owed to one caller, by its ticket, and pays
for having asked. -/
def paidBy (p : Ticket × Session.Answer) : Option Due := (Effect.answered p.1 p.2).due?

/-- What callers were answered by the machine, and what it may ever answer
them. -/
def promises (r : ClientRun) : List Due :=
  r.answers.filterMap paidBy ++ r.engine.machine.prospects

/-- Every answer pays something, and to the caller that it was given to. -/
theorem paidBy_ticket (p : Ticket × Session.Answer) : ∃ d, paidBy p = some d ∧ d.ticket = p.1 := by
  obtain ⟨t, answer⟩ := p
  cases answer <;> exact ⟨_, rfl, rfl⟩

/-- Who was answered was promised that, so an answer that waits to be looked
at counts among the promises. -/
theorem promised_of_given {t : Ticket} {answer : Session.Answer}
    (hgiven : (t, answer) ∈ r.answers) :
    ∃ d ∈ r.answers.filterMap paidBy, d.ticket = t := by
  obtain ⟨d, hpaid, hticket⟩ := paidBy_ticket (t, answer)
  exact ⟨d, List.mem_filterMap.mpr ⟨_, hgiven, hpaid⟩, hticket⟩

/-- Where nobody is promised two things, who has taken an answer is promised
nothing more. -/
theorem settled_of_given {t : Ticket} {answer : Session.Answer}
    (hsingle : (r.promises.map Due.ticket).Nodup) (hgiven : (t, answer) ∈ r.answers) :
    ∀ d ∈ ({ r with answers := r.answers.filter (·.1 ≠ t) } : ClientRun).promises,
      d.ticket ≠ t := by
  intro d howed hsame
  rcases List.mem_append.mp howed with hleft | hprospect
  · obtain ⟨p, hkept, hpaid⟩ := List.mem_filterMap.mp hleft
    obtain ⟨d', hpaid', hticket⟩ := paidBy_ticket p
    cases hpaid.symm.trans hpaid'
    have hother : p.1 ≠ t := by simpa using (List.mem_filter.mp hkept).2
    exact hother (hticket.symm.trans hsame)
  · rw [promises, List.map_append] at hsingle
    obtain ⟨d', hpromised, hticket⟩ := promised_of_given hgiven
    exact (List.nodup_append.mp hsingle).2.2 _ (List.mem_map_of_mem hpromised) _
      (List.mem_map_of_mem hprospect) (hticket.trans hsame.symm)

/-- Of the effects of a step the answers are what pays. -/
theorem paidBy_answer? (f : Effect) : (answer? f).bind paidBy = f.due? := by
  cases f <;> rfl

/-- What the answers of a step pay is what the step pays. -/
theorem filterMap_answer? (fs : List Effect) :
    (fs.filterMap answer?).filterMap paidBy = paid fs := by
  rw [List.filterMap_filterMap]
  exact congrArg (List.filterMap · fs) (funext paidBy_answer?)

/-- Promises are made by the machine, and kept by the answers it has given;
nothing else counts. -/
theorem promises_congr (hmachine : r'.engine.machine = r.engine.machine)
    (hanswers : r'.answers = r.answers) : r'.promises = r.promises := by
  rw [promises, hmachine, hanswers, ← promises]

theorem promises_of_backdrop (h : r'.backdrop = r.backdrop) : r'.promises = r.promises :=
  promises_congr (congrArg Engine.machine (engine_of_core (core_of_backdrop h)))
    (answers_of_backdrop h)

/-- Where the machine is the same, and answers are at most taken, no more is
promised than before. -/
theorem promises_of_same (hmachine : r'.engine.machine = r.engine.machine)
    (hanswers : r'.answers.Sublist r.answers) : r'.promises.Sublist r.promises := by
  rw [promises, hmachine]
  exact (hanswers.filterMap paidBy).append_right _

/-- Whatever is asked of the machine, the channel is left as it is. -/
theorem works_pushCommand (r : ClientRun) (o : Owner) (c : Command) :
    Works o r (r.pushCommand c) := by
  have hpushed : Works o r
      { r with engine := { r.engine with machine := r.engine.machine.push c } } :=
    works_of_affairs o rfl rfl
  exact hpushed.trans (works_wake _ o .machine)

/-- What is asked of the machine adds what it is owed: an answer for each
command that comes with a ticket. -/
theorem promises_pushCommand (r : ClientRun) (c : Command) :
    (r.pushCommand c).promises = r.promises ++ c.due?.toList := by
  have hanswers : (r.pushCommand c).answers = r.answers :=
    (answers_of_backdrop (backdrop_wake _ .machine)).trans rfl
  have hengine : (r.pushCommand c).engine.machine = r.engine.machine.push c := by
    rw [pushCommand, engine_of_core (core_wake _ _)]
  rw [promises, hanswers, hengine, Machine.prospects_push, ← List.append_assoc, ← promises]

/-- An effect that answers somebody adds that answer; the others add none. -/
theorem answers_effect (r : ClientRun) (f : Effect) :
    (r.effect f).answers = r.answers ++ (answer? f).toList := by
  cases f with
  | call c =>
      have hused : (r.use .machine c).answers = r.answers :=
        answers_of_backdrop (backdrop_use r .machine c)
      exact hused.trans (List.append_nil _).symm
  | answered t a => exact answers_of_backdrop (backdrop_wake _ _)
  | watched epoch =>
      exact (answers_of_backdrop (backdrop_wake r .watcher)).trans (List.append_nil _).symm
  | told l active session =>
      simp only [effect]
      split <;> simp [answer?, observe]
  | _ => simp [effect, answer?]

/-- The answers that a step gives come after those that were there, in the
order of its effects. -/
theorem answers_effects (fs : List Effect) (r : ClientRun) :
    (fs.foldl effect r).answers = r.answers ++ fs.filterMap answer? := by
  induction fs generalizing r with
  | nil => simp
  | cons f fs ih =>
      rw [List.foldl_cons, ih, answers_effect, List.append_assoc]
      cases h : answer? f <;> simp [h]

/-- What the machine's effects do on the channel is its own work there. -/
theorem works_effect (r : ClientRun) (f : Effect) : Works .machine r (r.effect f) := by
  cases f with
  | call c => exact works_use r .machine c
  | answered t a =>
      have hgiven : Works .machine r { r with answers := r.answers ++ [(t, a)] } :=
        works_of_waiting _ rfl rfl rfl fun _ => id
      exact hgiven.trans (works_wake _ _ _)
  | watched epoch => exact works_wake r _ _
  | told l active session =>
      simp only [effect]
      split
      · exact .refl _ _
      · exact works_observe r _ _
  | _ => exact works_of_affairs _ rfl rfl

/-- **A step of the machine keeps its promises**, and is beside the calls. -/
theorem promises_step (r : ClientRun) (f : Surroundings → Machine → Progress)
    (hkeeps : (paid (f r.surroundings r.engine.machine).effects ++
      (f r.surroundings r.engine.machine).machine.prospects).Perm r.engine.machine.prospects) :
    Works .machine r (r.step f) ∧ (r.step f).promises.Perm r.promises := by
  constructor
  · have hengine : Works .machine r { r with engine := (r.engine.step (f r.surroundings)).1 } :=
      works_of_waiting _ rfl rfl rfl fun _ => id
    suffices hfolded : ∀ (fs : List Effect) (r₁ : ClientRun), Works .machine r r₁ →
        Works .machine r (fs.foldl effect r₁) from hfolded _ _ hengine
    intro fs
    induction fs with
    | nil => exact fun _ h => h
    | cons f fs ih => exact fun r₁ h => ih _ (h.trans (works_effect r₁ f))
  · have hanswers : (r.step f).answers = r.answers ++
        (f r.surroundings r.engine.machine).effects.filterMap answer? :=
      answers_effects _ _
    rw [promises, hanswers, engine_step, machine_step, List.filterMap_append, filterMap_answer?,
      List.append_assoc]
    exact hkeeps.append_left _

/-- **The machine goes on beside the calls, and keeps its promises.**  What it
still owes and what it has answered are together what they were. -/
theorem promises_machine (h : r.Driven) :
    Works .machine r (r.move .machine) ∧ (r.move .machine).promises.Perm r.promises := by
  have hproceeded := works_proceed r .machine
  have hbackdrop := backdrop_proceed r .machine
  simp only [move, runMachine]
  generalize r.proceed .machine = r₁ at hproceeded hbackdrop ⊢
  split
  · rename_i outcome r₂ htaken
    have htook := hproceeded.trans (works_takeOutcome? htaken)
    have hbackdrop := (backdrop_takeOutcome? _ _ htaken).trans hbackdrop
    have hengine := engine_of_core (core_of_backdrop hbackdrop)
    obtain ⟨hworks, hkeeps⟩ := promises_step r₂ (fun s m => m.resume s outcome) (by
      rw [hengine]
      cases hwaiting : r.engine.machine.entry? with
      | none =>
          have hnothing : r.engine.machine.resume r₂.surroundings outcome =
              { machine := r.engine.machine } := by simp [Machine.resume, hwaiting]
          rw [hnothing]
          exact .refl _
      | some entry => exact Machine.prospects_resume _ _ hwaiting (h.fits hwaiting))
    exact ⟨htook.trans hworks, promises_of_backdrop hbackdrop ▸ hkeeps⟩
  · split
    · obtain ⟨hworks, hkeeps⟩ := promises_step r₁ (fun s m => m.take s)
        (Machine.prospects_take _ _)
      exact ⟨hproceeded.trans hworks, promises_of_backdrop hbackdrop ▸ hkeeps⟩
    · exact ⟨hproceeded, promises_of_backdrop hbackdrop ▸ .refl _⟩

/-- A caller that goes on is answered no more than it was; it may only lose an
answer that it has looked at. -/
theorem answers_collect (r : ClientRun) (c : Caller) : (r.collect c).answers = r.answers := by
  unfold collect
  dsimp only
  split
  · exact answers_of_backdrop (backdrop_proceed r _)
  · rename_i outcome r₂ htaken
    have hsame : r₂.answers = r.answers :=
      answers_of_backdrop ((backdrop_takeOutcome? _ _ htaken).trans (backdrop_proceed r _))
    exact hsame

theorem promises_runCaller (r : ClientRun) (t : Ticket) :
    (r.runCaller t).promises.Sublist r.promises := by
  refine promises_of_same (congrArg Engine.machine (engine_of_core (core_runCaller r t))) ?_
  unfold runCaller
  split
  · exact .refl _
  · rename_i c _
    split
    · rename_i answer _
      have htaken : (r.answers.filter (·.1 ≠ t)).Sublist r.answers := List.filter_sublist
      have hasks := answered_ne_ask c.goal r.settings.session.timeoutHint answer
      cases hnext : c.goal.answered r.settings.session.timeoutHint answer with
      | ask command => exact absurd hnext (hasks command)
      | use call =>
          rw [follow, answers_collect, answers_of_backdrop (backdrop_use _ _ _)]
          exact htaken
      | _ => exact htaken
    · exact answers_collect r c ▸ .refl _

/-- A caller that sends its request is promised nothing new. -/
theorem promises_sends {c : Caller} (h : Sends r c r') : r'.promises.Sublist r.promises := by
  cases h with
  | before => exact .refl _
  | now =>
      rw [promises_of_backdrop (backdrop_send _ _ _)]
      exact promises_of_same rfl List.filter_sublist

/-! ## What is done beside the calls -/

/-- What is neither a call that is made or goes on nor a response. -/
def Move.isAside : Move → Bool
  | .act (.call _ _ _) | .act (.batch _) | .caller _ | .received _ => false
  | _ => true

/-- No call is made or is over, at most something is looked up in the cache or
dropped from it, and promises are kept. -/
structure Still (r r' : ClientRun) : Prop where
  /-- The calls are those that were made. -/
  callers : r'.callers = r.callers
  tickets : r'.nextTicket = r.nextTicket
  /-- The cache has come by no value; it may have lost some. -/
  cache : ∀ key v, r'.cache.Holds key v → r.cache.Holds key v
  /-- What is promised is what was promised, though some of it may have been
  answered by now. -/
  promises : r'.promises.Perm r.promises

/-- No call is made or goes on, and at most requests fail.  That is all that
callers notice of whatever is done beside them. -/
structure Aside (r r' : ClientRun) : Prop extends Still r r' where
  /-- Each caller is left as it is, or its request has failed. -/
  others : ∀ t, Leaves (.caller t) r r'

/-- What the machine does on the channel it does beside the calls. -/
theorem Works.aside (h : Works .machine r r') (hpromises : r'.promises.Perm r.promises) :
    Aside r r' where
  callers := congrArg (·.1) h.desk
  tickets := congrArg (·.2.1) h.desk
  cache := fun key v => by
    rw [cache_of_desk h.desk]
    exact id
  promises := hpromises
  others := fun t => h.others _ (by simp)

/-- Neither the channel nor the machine has changed, and the cache has come by
nothing. -/
theorem aside_of_affairs (haffairs : r'.affairs = r.affairs)
    (hmachine : r'.engine.machine = r.engine.machine) (hcallers : r'.callers = r.callers)
    (htickets : r'.nextTicket = r.nextTicket)
    (hcache : ∀ key v, r'.cache.Holds key v → r.cache.Holds key v) : Aside r r' where
  callers := hcallers
  tickets := htickets
  cache := hcache
  promises := .of_eq (promises_congr hmachine (congrArg (·.2.2.2) haffairs))
  others := fun _ => leaves_of_affairs haffairs _

/-- To do nothing is to do it beside the calls. -/
theorem Aside.refl (r : ClientRun) : Aside r r :=
  ⟨⟨rfl, rfl, fun _ _ => id, .refl _⟩, fun _ => .refl _ _⟩

theorem Still.trans {r'' : ClientRun} (h : Still r r') (h' : Still r' r'') : Still r r'' where
  callers := h'.callers.trans h.callers
  tickets := h'.tickets.trans h.tickets
  cache := fun key v hheld => h.cache key v (h'.cache key v hheld)
  promises := h'.promises.trans h.promises

/-- What is done beside the calls in two parts is done beside them. -/
theorem Aside.trans {r'' : ClientRun} (h : Aside r r') (h' : Aside r' r'') : Aside r r'' where
  toStill := h.toStill.trans h'.toStill
  others := fun t => (h.others t).trans (h'.others t)

/-- What is done beside the calls in any number of parts is done beside them;
by induction on the parts. -/
theorem Aside.foldl {α : Type} {f : ClientRun → α → ClientRun} (hstep : ∀ r x, Aside r (f r x))
    (xs : List α) (r : ClientRun) : Aside r (xs.foldl f r) := by
  induction xs generalizing r with
  | nil => exact .refl r
  | cons x xs ih => exact (hstep r x).trans (ih _)

theorem aside_wake (r : ClientRun) (t : Task) : Aside r (r.wake t) :=
  (works_wake r .machine t).aside (.of_eq (promises_of_backdrop (backdrop_wake r t)))

/-- The engine comes by nothing that anybody is owed, and loses nothing of
it. -/
theorem aside_engine (r : ClientRun) {e : Engine}
    (hprospects : e.machine.prospects = r.engine.machine.prospects) :
    Aside r { r with engine := e } := by
  have hchanged : Works .machine r { r with engine := e } :=
    works_of_waiting _ rfl rfl rfl fun _ => id
  exact hchanged.aside (.of_eq (congrArg (r.answers.filterMap paidBy ++ ·) hprospects))

/-- What is asked of the machine on behalf of nobody changes nothing of what
it owes. -/
theorem prospects_push {m : Machine} {c : Command} (hnobody : c.due? = none) :
    (m.push c).prospects = m.prospects := by
  rw [Machine.prospects_push, hnobody, Option.toList_none, List.append_nil]

/-- A timer that fires asks the machine something on behalf of nobody. -/
theorem prospects_fire (fuel : Nat) (e : Engine) :
    (e.fire true fuel).2.machine.prospects = e.machine.prospects := by
  induction fuel generalizing e with
  | zero => rfl
  | succ fuel ih =>
      rw [Engine.fire]
      split
      · rfl
      · exact (ih _).trans (prospects_push rfl)

/-- The watcher that reports asks the machine something on behalf of
nobody. -/
theorem prospects_watch (e : Engine) :
    (e.watch true).machine.prospects = e.machine.prospects := by
  rcases Run.machine_watching { engine := e } true with hsame | ⟨event, k, -, hraised⟩
  · exact congrArg Machine.prospects hsame
  · have hraised : (e.watch true).machine = e.machine.push (.stamped event k) := hraised
    rw [hraised]
    exact prospects_push rfl

/-- A notice is given to whoever listens, which is no caller. -/
theorem aside_notify (r : ClientRun) (n : Notice) : Aside r (r.notify n) := by
  have hnoticed : Aside r { r with engine := r.engine.notify Channel.mailbox n } :=
    aside_engine r rfl
  unfold notify
  dsimp only
  split
  · exact hnoticed.trans (aside_wake _ _)
  · exact hnoticed

/-- **What is done to a client beside its calls**: anything but to make a call
or to ask the machine something. -/
theorem aside_act (r : ClientRun) {a : Action} (haside : (Move.act a).isAside) :
    Aside r (r.act a).2 := by
  have hpeered : ∀ p : Peer, Aside r { r with peer := p } := fun _ =>
    aside_of_affairs rfl rfl rfl rfl fun _ _ => id
  cases a with
  | call id direct goal => cases haside
  | batch actions => cases haside
  | hold gate => exact hpeered _
  | release gate =>
      refine (hpeered _).trans (.foldl (fun r p => ?_) _ _)
      dsimp only
      split
      · exact aside_wake _ _
      · exact .refl r
  | script name s => exact hpeered _
  | raise e => exact (aside_engine r (prospects_push rfl)).trans (aside_wake _ _)
  | addListener l => exact aside_engine r rfl
  | removeListener name => exact aside_engine r rfl
  | addListenerBriefly l => exact aside_engine r rfl
  | setValue node a v => exact hpeered _
  | push i => exact (hpeered _).trans (aside_wake _ _)
  | pushResponse handle response => exact (hpeered _).trans (aside_wake _ _)
  | failEncoding text => exact hpeered _
  | advance d =>
      have hadvanced : Aside r { r with engine := (r.engine.advance true d).2 } :=
        aside_engine r (prospects_fire (r.engine.timers.elapse d).waiting.length
          { r.engine with timers := r.engine.timers.elapse d })
      simp only [act]
      split
      · exact hadvanced
      · exact hadvanced.trans (aside_wake _ _)
  | elapse d =>
      have hlater : Aside r { r with elapsed := r.elapsed + d } :=
        aside_of_affairs rfl rfl rfl rfl fun _ _ => id
      exact hlater.trans (.foldl (fun r o => aside_wake r (taskOf o)) _ _)
  | lookUp node a => exact aside_of_affairs rfl rfl rfl rfl (r.cache.holds_get r.now node a).2
  | invalidate node =>
      exact aside_of_affairs rfl rfl rfl rfl fun _ _ => AttributeCache.holds_invalidate
  | registry s => exact aside_of_affairs rfl rfl rfl rfl fun _ _ => id
  | _ => exact .refl r

/-- **A move beside the calls**: nothing that a caller waits for comes of
it. -/
theorem aside_move (h : r.Driven) {m : Move} (haside : m.isAside) : Aside r (r.move m) := by
  cases m with
  | act a => exact aside_act r haside
  | machine =>
      obtain ⟨hworks, hkeeps⟩ := promises_machine h
      exact hworks.aside hkeeps
  | watcher =>
      have hwatched : Aside r { r with engine := r.engine.watch true } :=
        aside_engine r (prospects_watch r.engine)
      simp only [move, runWatcher]
      split
      · exact hwatched.trans (aside_wake _ _)
      · exact hwatched
  | caller t => cases haside
  | received e => cases haside
  | cut =>
      rw [move]
      split
      · have hnobody : ({ r with channel := r.channel.finish.2 } : ClientRun).awaited = [] := by
          simp only [awaited, Channel.finish]
          cases r.channel.link? <;> rfl
        have hfinished : Works .machine r { r with channel := r.channel.finish.2 } :=
          works_of_waiting _ rfl rfl rfl (by simp [hnobody])
        have hlost := hfinished.trans (works_abandon _ .machine r.channel.finish.1 hnobody)
        have howed : (({ r with channel := r.channel.finish.2 } : ClientRun).abandon
            r.channel.finish.1).promises = r.promises :=
          promises_of_backdrop (backdrop_abandon _ _)
        exact (hlost.aside (.of_eq howed)).trans (aside_notify _ _)
      · exact .refl r
  | peer p => exact aside_of_affairs rfl rfl rfl rfl fun _ _ => id
  | reorder ready => exact aside_of_affairs rfl rfl rfl rfl fun _ _ => id
  | forget => exact aside_of_affairs rfl rfl rfl rfl fun _ _ => id

/-- When a response comes in no call is over; whoever waited for it will see
to it when it goes on. -/
theorem still_takeIn (r : ClientRun) (e : ResponseEnvelope) : Still r (r.takeIn e) := by
  obtain ⟨r₁, hchanged, htaken⟩ := takeIn_eq r e
  have hwithdrawn : Still r { r with channel := r.channel.withdraw e.handle } :=
    ⟨rfl, rfl, fun _ _ => id, .refl _⟩
  have hnoticed : Still r r₁ := by
    obtain rfl | ⟨n, rfl⟩ := hchanged
    · exact hwithdrawn
    · exact hwithdrawn.trans (aside_notify _ n).toStill
  obtain ⟨hsame, -⟩ | ⟨o, -, hconcluded⟩ := htaken
  · exact hsame ▸ hnoticed
  · have hconcludes : Still r₁ (r₁.conclude o (Channel.outcome e.body)) :=
      ⟨rfl, rfl, fun _ _ => id, .refl _⟩
    rw [hconcluded]
    exact (hnoticed.trans hconcludes).trans (aside_wake _ _).toStill

end ClientRun

end OpcSession.Simulation
