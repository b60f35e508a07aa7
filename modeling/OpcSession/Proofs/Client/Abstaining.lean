import OpcSession.Proofs.Client.Errands
import OpcSession.Proofs.Client.Following
import OpcSession.Proofs.Session.Parting

/-!
# A client that leaves the connection to its machine

As long as no caller connects or disconnects by itself, the machine is the only
one that does.  Then the machine is always about the errand that it waits for,
and a move of the client is one of a few things: something is asked, the watcher
reads its mailbox, a fault is noticed, the connection in use ends, or the
machine goes on.

* `ClientRun.Orderly` — a client whose machine is about what it waits for;
* `ClientRun.Orderly.advances` — what may come of it that the machine goes on;
* `ClientRun.Orderly.stirs` — what may come of any other move;
* `ClientRun.Orderly.along` — what every move keeps holds all along.
-/

namespace OpcSession.Simulation

open Session Client

namespace ClientRun

variable {r r' : ClientRun} {a : Option Awaiting} {b : Awaiting}

/-! ## What is done to a client -/

mutual

/-- Whatever is done, no call is made that connects or disconnects.  A caller
that did so beside the machine could take its connection away, or give it one
that it has not asked for. -/
def Action.Abstains : Action → Prop
  | .call _ _ goal => goal ≠ .connect ∧ goal ≠ .disconnect
  | .batch actions => Action.AllAbstain actions
  | _ => True

/-- All of several actions abstain. -/
def Action.AllAbstain : List Action → Prop
  | [] => True
  | a :: rest => a.Abstains ∧ Action.AllAbstain rest

end

/-- The move makes no call that connects or disconnects; only what is done to
a client makes calls. -/
def Move.Abstains : Move → Prop
  | .act a => a.Abstains
  | _ => True

/-- A call that is neither to connect nor to disconnect does not begin so. -/
theorem start_abstains {g : Goal} (habstains : g ≠ .connect ∧ g ≠ .disconnect) (ticket : Ticket)
    (now : Duration) (cache : DataCache) :
    (g.start ticket now cache).1 ≠ .use .connect ∧
      (g.start ticket now cache).1 ≠ .use .disconnect := by
  cases g with
  | connect => exact absurd rfl habstains.1
  | disconnect => exact absurd rfl habstains.2
  | read node a =>
      simp only [Goal.start]
      split <;> simp
  | _ => simp [Goal.start]

theorem Tidy.call (h : r.Tidy a) (id : String) (direct : Bool) {goal : Goal}
    (habstains : goal ≠ .connect ∧ goal ≠ .disconnect) : Beside a r (r.call id direct goal) := by
  have hnext := start_abstains habstains r.nextTicket r.now r.cache
  unfold ClientRun.call
  dsimp only
  generalize goal.start r.nextTicket r.now r.cache = started at hnext ⊢
  obtain ⟨next, cache⟩ := started
  have hcalled : Beside a r { r with
      cache := cache
      nextTicket := r.nextTicket + 1
      callers :=
        r.callers ++ [{ ticket := r.nextTicket, id := id, direct := direct, goal := goal }] } :=
    h.congr rfl
  exact hcalled.trans (·.follow _ _ ‹_›)

mutual

/-- **What is done to a client is done beside its machine**, as long as it
abstains.  The machine may be asked something, but it goes on with its errand
before it looks. -/
theorem Tidy.act (action : Action) (r : ClientRun) (h : r.Tidy a) (habstains : action.Abstains) :
    Beside a r (r.act action).2 := by
  cases action with
  | call id direct goal => exact h.call id direct habstains
  | raise e => exact h.congr (affairs_wake _ _)
  | release gate =>
      refine h.congr (foldl_eq_of_step affairs (fun r p => ?_) r.activities _)
      dsimp only
      split
      · exact affairs_wake _ _
      · rfl
  | push i => exact h.congr (affairs_push r i)
  | pushResponse handle response => exact h.congr (affairs_wake _ _)
  | advance d =>
      refine h.congr ?_
      simp only [ClientRun.act]
      split
      · rfl
      · exact affairs_wake _ _
  | elapse d => exact h.congr (foldl_eq_of_step affairs (fun _ _ => affairs_wake _ _) _ _)
  | batch actions => exact Tidy.actAll actions r h habstains
  | _ => exact h.congr rfl

/-- What is done to a client in one batch is done beside its machine, if none
of it makes a call that connects or disconnects. -/
theorem Tidy.actAll (actions : List Action) (r : ClientRun) (h : r.Tidy a)
    (habstains : Action.AllAbstain actions) : Beside a r (r.actAll actions).2 := by
  cases actions with
  | nil => exact h.still
  | cons action rest =>
      exact (Tidy.act action r h habstains.1).trans fun htidy =>
        Tidy.actAll rest _ htidy habstains.2

end

/-! ## Steps of the machine -/

/-- The caller that is answered, and the answer; most effects answer
nobody. -/
def answer? : Effect → Option (Ticket × Session.Answer)
  | .answered t a => some (t, a)
  | _ => none

/-- Unless it is a call, all that an effect does beside the machine is to
answer. -/
theorem affairs_effect (r : ClientRun) {f : Effect} (hsilent : ∀ c, f ≠ .call c) :
    (r.effect f).affairs =
      ({ r with answers := r.answers ++ (answer? f).toList } : ClientRun).affairs := by
  cases f with
  | call c => exact absurd rfl (hsilent c)
  | answered t a => exact affairs_wake _ _
  | watched epoch =>
      refine (affairs_wake _ _).trans ?_
      simp [affairs, answer?]
  | told l active session =>
      simp only [effect]
      split <;> simp [affairs, answer?, observe]
  | _ => simp [effect, affairs, answer?]

/-- Effects before a call are answers, as far as the machine is concerned. -/
theorem affairs_effects {fs : List Effect} (hsilent : ∀ f ∈ fs, ∀ c, f ≠ .call c) (r : ClientRun) :
    (fs.foldl effect r).affairs =
      ({ r with answers := r.answers ++ fs.filterMap answer? } : ClientRun).affairs := by
  induction fs generalizing r with
  | nil => simp [affairs]
  | cons f fs ih =>
      have hfirst := affairs_effect r (hsilent f List.mem_cons_self)
      rw [List.foldl_cons, ih (fun g hg => hsilent g (List.mem_cons_of_mem _ hg))]
      have hlink : (r.effect f).channel.link? = r.channel.link? := congrArg (·.1) hfirst
      have hactivities : (r.effect f).activities = r.activities := congrArg (·.2.1) hfirst
      have houtcomes : (r.effect f).outcomes = r.outcomes := congrArg (·.2.2.1) hfirst
      have hanswers : (r.effect f).answers = r.answers ++ (answer? f).toList :=
        congrArg (·.2.2.2) hfirst
      simp only [affairs, hlink, hactivities, houtcomes, hanswers, List.append_assoc]
      cases hf : answer? f <;> simp [hf]

/-- The call that is made where the machine comes to wait: one that begins the
errand, and none where it rests. -/
inductive Sets : Option Awaiting → Option Call → Prop
  /-- It waits for nothing, and calls nothing. -/
  | rests : Sets none none
  /-- It waits for what the call is to bring. -/
  | begins {b : Awaiting} {c : Call} (hbegins : Begins b c) : Sets (some b) (some c)

/-- A step makes a call, if any, for what the machine waits for afterwards. -/
def Embarks (p : Progress) : Prop :=
  ∃ c?, CallsLast c? p.effects ∧ Sets (p.machine.entry?.map (·.awaiting)) c?

/-- How a course ends says both what the machine waits for and which call it
makes. -/
theorem sets_of_ending {e : Ending} {owed : Owed}
    (hbegins : ∀ b c, e = .waits b c → Begins b c) :
    Sets ((e.entry? owed).map (·.awaiting)) e.call? := by
  cases e with
  | waits b c => exact .begins (hbegins b c rfl)
  | _ => exact .rests

/-- A machine that enters a state makes the call that fits what it will wait
for. -/
theorem begins_of_enters {s : Surroundings} {event : Event} {epoch : Nat} {st : State}
    {course : Course} (h : Enters s event epoch st course) {b : Awaiting} {c : Call}
    (hwaits : course.ending = .waits b c) : Begins b c := by
  cases h <;> cases hwaits <;> first | rfl | exact ⟨rfl, rfl⟩

/-- A machine that goes on after a call makes the next call, if it makes one,
for what it will wait for. -/
theorem begins_of_resumes {s : Surroundings} {o : Outcome} {a : Awaiting} {st : State}
    {course : Course} (h : Resumes s o a st course) {b : Awaiting} {c : Call}
    (hwaits : course.ending = .waits b c) : Begins b c := by
  cases h <;> cases hwaits <;> first | rfl | exact ⟨rfl, rfl⟩

/-- A course makes a call for what the machine waits for afterwards, and makes
no other. -/
theorem embarks_course (s : Surroundings) (owed : Owed) (m : Machine) {course : Course}
    (haside : ∀ f ∈ course.before, f.isAside)
    (hbegins : ∀ b c, course.ending = .waits b c → Begins b c) :
    Embarks (course.run s owed m) := by
  refine ⟨_, Course.callsLast s owed m haside, ?_⟩
  rw [Course.entry_run]
  exact sets_of_ending hbegins

/-- Every command that is taken makes a call for what the machine waits
for. -/
theorem embarks_of_obeys {s : Surroundings} {m : Machine} {c : Command} {p : Progress}
    (h : m.Obeys s c p) (hidle : m.entry? = none) : Embarks p := by
  rcases h.serves_or_moves with ⟨hserves, -⟩ | ⟨e, move, course, -, -, henters, rfl⟩
  · refine ⟨none, callsLast_of_silent fun f hf => ne_call_of_quiet (hserves.quiet f hf), ?_⟩
    rw [hserves.entry, hidle]
    exact .rests
  · obtain ⟨c?, hlast, hsets⟩ := embarks_course s c.owed
      (m.depart s e move c.waiter?).machine henters.aside fun _ _ => begins_of_enters henters
    exact ⟨c?, hlast.after (m.departs s e move c.waiter?).silent, hsets⟩

/-- **A step of the machine answers callers, and begins the errand that the
machine waits for.** -/
theorem Tidy.step (h : r.Tidy none) (f : Surroundings → Machine → Progress)
    (hembarks : Embarks (f r.surroundings r.engine.machine)) :
    (r.step f).Tidy ((f r.surroundings r.engine.machine).machine.entry?.map (·.awaiting)) ∧
      (r.step f).line? = r.line? ∧
      (r.step f).answers.Sublist
        (r.answers ++ (f r.surroundings r.engine.machine).effects.filterMap answer?) := by
  obtain ⟨c?, ⟨before, heffects, hsilent⟩, hsets⟩ := hembarks
  have hstepped : r.step f = (f r.surroundings r.engine.machine).effects.foldl effect
      { r with engine := (r.engine.step (f r.surroundings)).1 } := rfl
  rw [hstepped, heffects, List.foldl_append]
  have haffairs := affairs_effects hsilent
    { r with engine := (r.engine.step (f r.surroundings)).1 }
  generalize before.foldl effect { r with engine := (r.engine.step (f r.surroundings)).1 } = r₁
    at haffairs ⊢
  have htold :
      ({ r with answers := r.answers ++ before.filterMap answer? } : ClientRun).Tidy none :=
    ⟨h.errand.congr rfl rfl Iff.rfl, h.callers, h.paired⟩
  have h₁ : Beside none { r with answers := r.answers ++ before.filterMap answer? } r₁ :=
    htold.congr haffairs
  generalize (f r.surroundings r.engine.machine).machine.entry?.map (·.awaiting) = a at hsets ⊢
  cases hsets with
  | rests =>
      refine ⟨h₁.tidy, h₁.line, ?_⟩
      simpa using h₁.answers
  | @begins b c hbegins =>
      have hused := h₁.tidy.use hbegins
      have hsame : (before ++ (Option.map Effect.call (some c)).toList).filterMap answer? =
          before.filterMap answer? := by simp [answer?]
      rw [hsame]
      exact ⟨hused.tidy, hused.line.trans h₁.line, hused.answers.trans h₁.answers⟩

/-! ## A client in order -/

/-- The machine of the client has come about as session machines do, in a run
in which somebody attends to everything.  So whatever was shown of such runs
can be used of a client. -/
def Driven (r : ClientRun) : Prop :=
  ∃ run, Reachable Occurrence.Attended run ∧ run.engine = r.engine

/-- The machine of the client has come about as session machines do, and is
about what it waits for. -/
structure Orderly (r : ClientRun) : Prop where
  /-- Its machine has come about as session machines do. -/
  run : r.Driven
  /-- The machine is about what it waits for on the channel, and callers only
  exchange requests. -/
  tidy : r.Tidy (r.engine.machine.entry?.map (·.awaiting))

/-- In the beginning the machine rests, and nothing is about on the
channel. -/
theorem orderly_start (url : String) (settings : ClientSettings) (endpoint : EndpointDescription)
    (credentials : Credentials) : (start url settings endpoint credentials).Orderly where
  run := ⟨{}, .refl, rfl⟩
  tidy := ⟨.rests rfl rfl, nofun, nofun⟩

theorem Driven.congr (h : r.Driven) (hsame : r'.engine = r.engine) : r'.Driven := by
  obtain ⟨run, hreachable, hengine⟩ := h
  exact ⟨run, hreachable, hengine.trans hsame.symm⟩

/-- What holds of session machines holds of the machine of the client: there
is a sound run that it is at a point of. -/
theorem Driven.sound (h : r.Driven) : ∃ run : Run, run.Sound True ∧ run.engine = r.engine := by
  obtain ⟨run, hreachable, hengine⟩ := h
  exact ⟨run, Run.sound_of_reachable (fun _ hattended _ => hattended) hreachable, hengine⟩

/-- What the machine waits for fits the state that it is in. -/
theorem Driven.fits (h : r.Driven) {entry : Entry}
    (hwaiting : r.engine.machine.entry? = some entry) :
    entry.awaiting.Fits r.engine.machine.state := by
  obtain ⟨run, hsound, hengine⟩ := h.sound
  have hfits := hsound.fits entry
  rw [Run.machine, hengine] at hfits
  exact hfits hwaiting

/-- There is a sound run that the machine is at a point of. -/
theorem Orderly.sound (h : r.Orderly) : ∃ run : Run, run.Sound True ∧ run.engine = r.engine :=
  h.run.sound

/-- What the machine waits for fits the state that it is in. -/
theorem Orderly.fits (h : r.Orderly) {entry : Entry}
    (hwaiting : r.engine.machine.entry? = some entry) :
    entry.awaiting.Fits r.engine.machine.state :=
  h.run.fits hwaiting

/-! ## The machine goes on -/

/-- The engine after a step is what the step made of it, whatever the effects
did to the rest of the client. -/
theorem engine_step (r : ClientRun) (f : Surroundings → Machine → Progress) :
    (r.step f).engine = (r.engine.step (f r.surroundings)).1 :=
  (foldl_effect _ _).1

/-- The machine after a step is the one that the step left. -/
theorem machine_step (e : Engine) (f : Machine → Progress) :
    (e.step f).1.machine = (f e.machine).machine := by
  rw [Engine.step, Engine.foldl_apply]

/-- What may come of it that the machine goes on: it waits on, it takes a
command, or it goes on after its call. -/
inductive Advances (r r' : ClientRun) : Prop
  /-- It waits on, and goes ahead with its errand on the channel. -/
  | waits (hengine : r'.engine = r.engine)
      (hahead : Ahead (r.engine.machine.entry?.map (·.awaiting)) r r')
  /-- It had nothing to wait for, and takes the next command.  Whether it is
  connected it knows from the line. -/
  | takes {s : Surroundings} {c : Command} {rest : List Command} {p : Progress}
      (hattended : s.attended)
      (hconnected : s.connected = true ↔ ∃ connection, r'.line? = some (connection, true))
      (hidle : r.engine.machine.entry? = none) (hqueue : r.engine.machine.queue = c :: rest)
      (hobeys : ({ r.engine.machine with queue := rest } : Machine).Obeys s c p)
      (hengine : r'.engine = (r.engine.step fun _ => p).1)
      (hline : r'.line? = r.line?)
      (hanswers : r'.answers.Sublist (r.answers ++ p.effects.filterMap answer?))
  /-- What it waited for has come, and it goes on from there. -/
  | resumes {s : Surroundings} {outcome : Outcome} {entry : Entry} {course : Course}
      (hwaiting : r.engine.machine.entry? = some entry)
      (hresumes : Resumes s outcome entry.awaiting r.engine.machine.state course)
      (hengine : r'.engine = (r.engine.step fun m => course.run s entry.owed m).1)
      (hclosed : disconnects entry.awaiting → r'.line? = none)
      (hopened : connects entry.awaiting → r'.line? = none → ∃ e, outcome = .failed e)
      (hkeeps : KeepsLine (some entry.awaiting) → r'.line? = r.line?)
      (hkept : disconnects entry.awaiting = false → r'.line? = none → r.line? = none)
      (hanswers : r'.answers.Sublist
        (r.answers ++ (course.run s entry.owed r.engine.machine).effects.filterMap answer?))

/-- The machine goes on after its call, with what has come of it; the line is
as the errand has left it. -/
theorem Orderly.resumes (h : r.Orderly) {r₁ r₂ : ClientRun} {outcome : Outcome}
    (hahead : Ahead (r.engine.machine.entry?.map (·.awaiting)) r r₁)
    (hengine₁ : r₁.engine = r.engine)
    (htaken : r₁.takeOutcome? .machine = some (outcome, r₂)) :
    Advances r (r₂.step fun s m => m.resume s outcome) ∧
      (r₂.step fun s m => m.resume s outcome).Tidy
        ((r₂.step fun s m => m.resume s outcome).engine.machine.entry?.map (·.awaiting)) := by
  have hengine₂ : r₂.engine = r.engine :=
    (engine_of_core (core_takeOutcome? _ _ htaken)).trans hengine₁
  obtain ⟨b, habout, hclosed, hopened, htidy₂⟩ := hahead.tidy.take htaken
  obtain ⟨entry, hwaiting, rfl⟩ := Option.map_eq_some_iff.mp habout
  obtain ⟨course, hresumes, hrun⟩ :=
    Machine.resume_course r₂.surroundings outcome hwaiting (h.fits hwaiting)
  have hembarks : Embarks (r₂.engine.machine.resume r₂.surroundings outcome) := by
    rw [hengine₂, hrun]
    exact embarks_course _ _ _ hresumes.aside fun _ _ => begins_of_resumes hresumes
  obtain ⟨htidy, hline, hanswers⟩ := htidy₂.tidy.step (fun s m => m.resume s outcome) hembarks
  have hengine : (r₂.step fun s m => m.resume s outcome).engine =
      (r.engine.step fun m => course.run r₂.surroundings entry.owed m).1 := by
    rw [engine_step, hengine₂, Engine.step, Engine.step, hrun]
  refine ⟨.resumes hwaiting hresumes hengine ?_ ?_ ?_ ?_ ?_, ?_⟩
  · exact fun hdisconnects => (hline.trans htidy₂.line).trans (hclosed hdisconnects)
  · rw [hline, htidy₂.line]
    exact hopened
  · intro hkeeps
    rw [hline, htidy₂.line, hahead.line (habout ▸ hkeeps)]
  · intro hother
    rw [hline, htidy₂.line]
    exact hahead.kept (by rintro _ hb; cases habout.symm.trans hb; exact hother)
  · rw [hengine₂, hrun] at hanswers
    exact hanswers.trans ((htidy₂.answers.trans hahead.answers).append_right _)
  · rw [engine_step, machine_step]
    exact htidy

/-- The machine takes a command, when there is nothing that it waits for and
something that was asked. -/
theorem takes_of_ahead {r₁ : ClientRun}
    (hahead : Ahead (r.engine.machine.entry?.map (·.awaiting)) r r₁)
    (hengine₁ : r₁.engine = r.engine)
    (hidle : r.engine.machine.entry? = none) (hwaiting : r.engine.machine.queue ≠ []) :
    Advances r (r₁.step fun s m => m.take s) ∧
      (r₁.step fun s m => m.take s).Tidy
        ((r₁.step fun s m => m.take s).engine.machine.entry?.map (·.awaiting)) := by
  obtain ⟨c, rest, hqueue⟩ := List.exists_cons_of_ne_nil hwaiting
  have htidy₁ : r₁.Tidy none := by
    have htidy := hahead.tidy
    rwa [hidle] at htidy
  have htake : r₁.engine.machine.take r₁.surroundings =
      ({ r.engine.machine with queue := rest } : Machine).obey r₁.surroundings c := by
    simp only [hengine₁, Machine.take, hidle, hqueue]
  have hobeys := ({ r.engine.machine with queue := rest } : Machine).obey_obeys r₁.surroundings c
  generalize ({ r.engine.machine with queue := rest } : Machine).obey r₁.surroundings c = p
    at htake hobeys
  obtain ⟨htidy, hline, hanswers⟩ := htidy₁.step (fun s m => m.take s)
    (htake ▸ embarks_of_obeys hobeys hidle)
  have hline₁ : r₁.line? = r.line? := hahead.line (by rw [hidle]; rintro _ ⟨⟩)
  refine ⟨.takes (s := r₁.surroundings) rfl ?_ hidle hqueue hobeys ?_ (hline.trans hline₁) ?_, ?_⟩
  · rw [hline]
    exact r₁.isConnected_iff
  · rw [engine_step, hengine₁, Engine.step, Engine.step, ← hengine₁, htake]
  · rw [htake] at hanswers
    exact hanswers.trans (hahead.answers.append_right _)
  · rw [engine_step, machine_step]
    exact htidy

/-- **The machine goes on in one of three ways, and is then about what it
waits for.** -/
theorem Orderly.advances (h : r.Orderly) :
    Advances r (r.move .machine) ∧
      (r.move .machine).Tidy ((r.move .machine).engine.machine.entry?.map (·.awaiting)) := by
  have hahead := h.tidy.proceed
  have hengine₁ : (r.proceed .machine).engine = r.engine := engine_of_core (core_proceed r .machine)
  simp only [move, runMachine]
  generalize r.proceed .machine = r₁ at hahead hengine₁ ⊢
  split
  · rename_i outcome r₂ htaken
    exact h.resumes hahead hengine₁ htaken
  · split
    · rename_i hready
      rw [hengine₁] at hready
      exact takes_of_ahead hahead hengine₁ (Option.isNone_iff_eq_none.mp hready.1)
        (by simpa using hready.2)
    · exact ⟨.waits hengine₁ hahead, hengine₁ ▸ hahead.tidy⟩

/-! ## What comes around the machine -/

/-- At most something was asked of the machine, or its timer has fired. -/
structure Asks (e e' : Engine) : Prop where
  /-- It is in the state that it was in. -/
  state : e'.machine.state = e.machine.state
  /-- Its epoch is the one that it was, so events stamped before still
  count. -/
  epoch : e'.machine.epoch = e.machine.epoch
  /-- It waits for what it waited for. -/
  entry : e'.machine.entry? = e.machine.entry?
  /-- Nothing was read, and no notice given. -/
  watcher : e'.watcher? = e.watcher?
  /-- Commands were added behind those that were there, and none of them says
  that the connection was lost: only the watcher does. -/
  queue : ∃ news, e'.machine.queue = e.machine.queue ++ news ∧
    ∀ c ∈ news, ∀ k, c ≠ .stamped .connectionLost k

theorem Asks.refl (e : Engine) : Asks e e := ⟨rfl, rfl, rfl, rfl, [], by simp, by simp⟩

theorem Asks.trans {e e' e'' : Engine} (h : Asks e e') (h' : Asks e' e'') : Asks e e'' := by
  obtain ⟨news, hqueue, hother⟩ := h.queue
  obtain ⟨news', hqueue', hother'⟩ := h'.queue
  refine ⟨h'.state.trans h.state, h'.epoch.trans h.epoch, h'.entry.trans h.entry,
    h'.watcher.trans h.watcher, news ++ news', by rw [hqueue', hqueue, List.append_assoc], ?_⟩
  intro c hc
  rcases List.mem_append.mp hc with hc | hc
  · exact hother c hc
  · exact hother' c hc

/-- To ask the machine for something is to add one command. -/
theorem asks_push (e : Engine) {c : Command} (hother : ∀ k, c ≠ .stamped .connectionLost k) :
    Asks e { e with machine := e.machine.push c } :=
  ⟨rfl, rfl, rfl, rfl, [c], rfl, by simpa using hother⟩

/-- What happens to a session machine from outside asks it something at
most. -/
theorem asks_of_outside (run : Run) {o : Occurrence} (houtside : o.isOutside) :
    Asks run.engine (run.happen o).engine := by
  cases o with
  | asked c =>
      refine run.asked_cases (motive := fun run' => Asks run.engine run'.engine) (.refl _) ?_
      intro hunstamped
      refine asks_push run.engine ?_
      rintro k rfl
      exact hunstamped rfl
  | fired attended id =>
      simp only [Run.happen, Run.fire]
      split
      · exact .refl _
      · rename_i timer _
        cases attended with
        | false => exact ⟨rfl, rfl, rfl, rfl, [], by simp [Engine.raise], by simp⟩
        | true =>
            exact ⟨rfl, rfl, rfl, rfl, [.stamped .reactivateRequested timer.task], rfl, by simp⟩
  | elapsed d => exact ⟨rfl, rfl, rfl, rfl, [], by simp [Run.happen], by simp⟩
  | listening ls => exact ⟨rfl, rfl, rfl, rfl, [], by simp [Run.happen], by simp⟩
  | _ => cases houtside

mutual

/-- Any event is one that may be raised, if all are. -/
theorem raisesOnly_any : ∀ action : Action, action.RaisesOnly fun _ => True
  | .addListener _ | .addListenerBriefly _ => fun _ _ _ => trivial
  | .batch actions => allRaiseOnly_any actions
  | .call _ _ goal => by cases goal <;> trivial
  | .raise _ | .hold _ | .release _ | .script _ _ | .removeListener _ | .sign | .setValue _ _ _
  | .push _ | .pushResponse _ _ | .failEncoding _ | .advance _ | .elapse _ | .lookUp _ _
  | .invalidate _ | .describe | .describeAll | .inspect | .registry _ => trivial

/-- Whatever several actions raise may be raised, if anything may. -/
theorem allRaiseOnly_any : ∀ actions : List Action, Action.AllRaiseOnly (fun _ => True) actions
  | [] => trivial
  | action :: rest => ⟨raisesOnly_any action, allRaiseOnly_any rest⟩

end

/-- Whatever a move raises may be raised, if anything may. -/
theorem move_raisesOnly_any (m : Move) : m.RaisesOnly fun _ => True := by
  cases m with
  | act action => exact raisesOnly_any action
  | _ => trivial

/-- What may come of a move that is not one of the machine: something is
asked, the watcher reads its mailbox, a fault is noticed, or the connection in
use ends. -/
inductive Stirs (r r' : ClientRun) : Prop
  /-- Something is asked, and nobody touches the line. -/
  | asks (hengine : Asks r.engine r'.engine) (hline : r'.line? = r.line?)
  | watches (hengine : r'.engine = r.engine.watch true) (hline : r'.line? = r.line?)
  /-- A fault comes in, and is put into the mailbox. -/
  | hears {status : StatusCode} (hconnected : r.channel.isConnected)
      (hengine : r'.engine = r.engine.notify Channel.mailbox (.serviceFault status))
      (hline : r'.line? = r.line?)
  /-- The connection in use ends, and that is put into the mailbox. -/
  | ends (hengine : r'.engine = r.engine.notify Channel.mailbox .inactive)
      (hline : r'.line? = r.line?.map fun l => (l.1, false))

theorem engine_notify (r : ClientRun) (n : Notice) :
    (r.notify n).engine = r.engine.notify Channel.mailbox n := by
  unfold notify
  dsimp only
  split
  · exact engine_of_core (core_wake _ _)
  · rfl

/-- The client hears of a response at most that it is a fault. -/
theorem engine_takeIn (r : ClientRun) (e : ResponseEnvelope) :
    (r.takeIn e).engine = e.body.fault?.elim r.engine fun status =>
      r.engine.notify Channel.mailbox (.serviceFault status) := by
  have hconcluded : ∀ (r : ClientRun) (owner : Option Owner) (outcome : Outcome),
      (owner.elim r fun o => (r.conclude o outcome).wake (taskOf o)).engine = r.engine := by
    intro r owner outcome
    cases owner with
    | none => rfl
    | some o => exact engine_of_core (core_wake _ _)
  unfold takeIn
  generalize hreceived : r.channel.receive e = received
  obtain ⟨notice, owner, channel⟩ := received
  have htold : e.body.fault?.map .serviceFault = notice := congrArg Prod.fst hreceived
  subst htold
  cases e.body.fault? with
  | none => exact hconcluded _ owner _
  | some status => exact (hconcluded _ owner _).trans (engine_notify _ _)

/-- **Whatever else a client does is done beside its machine, or ends the
connection.** -/
theorem Orderly.stirs (h : r.Orderly) {m : Move} (habstains : m.Abstains) (hother : m ≠ .machine) :
    Onward (r.engine.machine.entry?.map (·.awaiting)) r (r.move m) ∧ Stirs r (r.move m) := by
  have hsame : ∀ {r' : ClientRun}, r'.engine = r.engine → Asks r.engine r'.engine := by
    intro r' hengine
    rw [hengine]
    exact .refl _
  have hstill : Onward (r.engine.machine.entry?.map (·.awaiting)) r r ∧ Stirs r r :=
    ⟨h.tidy.still.toOnward, .asks (.refl _) rfl⟩
  cases m with
  | machine => exact absurd rfl hother
  | act action =>
      have hbeside := Tidy.act action r h.tidy habstains
      obtain ⟨run, hreachable, hengine⟩ := h.run
      obtain ⟨run', hreaches, hengine', -⟩ := follows_act (Q := fun _ => True)
        (P := fun o => o.isOutside) action r (raisesOnly_any action) (fun _ houtside _ => houtside)
        run (Run.sound_of_reachable (fun _ _ => False.elim) hreachable)
        (fun _ _ _ _ _ => trivial) hengine
      refine ⟨hbeside.toOnward, .asks ?_ hbeside.line⟩
      rw [← hengine]
      change Asks run.engine (r.act action).2.engine
      rw [← hengine']
      exact Reaches.invariant (I := fun run' => Asks run.engine run'.engine) (.refl _)
        (fun run' o houtside hasks => hasks.trans (asks_of_outside run' houtside.2)) hreaches
  | watcher =>
      have hcore :
          r.runWatcher.affairs = r.affairs ∧ r.runWatcher.engine = r.engine.watch true := by
        unfold runWatcher
        dsimp only
        split
        · exact ⟨affairs_wake _ _, engine_of_core (core_wake _ _)⟩
        · exact ⟨rfl, rfl⟩
      have hbeside := h.tidy.congr hcore.1
      exact ⟨hbeside.toOnward, .watches hcore.2 hbeside.line⟩
  | caller t =>
      have hbeside := h.tidy.runCaller t
      exact ⟨hbeside.toOnward, .asks (hsame (engine_of_core (core_runCaller r t))) hbeside.line⟩
  | received e =>
      rw [move]
      split
      · rename_i hconnected
        have hbeside := h.tidy.takeIn e
        refine ⟨hbeside.toOnward, ?_⟩
        have hengine := engine_takeIn r e
        cases hfault : e.body.fault? with
        | none => exact .asks (hsame (by rw [hengine, hfault]; rfl)) hbeside.line
        | some status => exact .hears hconnected (by rw [hengine, hfault]; rfl) hbeside.line
      · exact hstill
  | cut =>
      rw [move]
      split
      · obtain ⟨honward, hline⟩ := h.tidy.cut
        refine ⟨honward, .ends ?_ hline⟩
        refine (engine_notify _ _).trans ?_
        rw [engine_of_core (core_abandon _ _)]
      · exact hstill
  | peer p =>
      have hbeside : Beside (r.engine.machine.entry?.map (·.awaiting)) r (r.move (.peer p)) :=
        h.tidy.congr rfl
      exact ⟨hbeside.toOnward, .asks (.refl _) rfl⟩
  | reorder ready =>
      have hbeside :
          Beside (r.engine.machine.entry?.map (·.awaiting)) r (r.move (.reorder ready)) :=
        h.tidy.congr rfl
      exact ⟨hbeside.toOnward, .asks (.refl _) rfl⟩
  | forget =>
      have hbeside : Beside (r.engine.machine.entry?.map (·.awaiting)) r (r.move .forget) :=
        h.tidy.congr rfl
      exact ⟨hbeside.toOnward, .asks (.refl _) rfl⟩

/-! ## Every move -/

/-- What does not make the machine go on leaves it in its state. -/
structure Stays (r r' : ClientRun) : Prop where
  /-- It is in the state that it was in. -/
  state : r'.engine.machine.state = r.engine.machine.state
  /-- Its epoch is the one that it was. -/
  epoch : r'.engine.machine.epoch = r.engine.machine.epoch
  /-- It waits for what it waited for. -/
  entry : r'.engine.machine.entry? = r.engine.machine.entry?
  /-- The link is given up by nobody, though it may have ended. -/
  line : r'.line? = none ↔ r.line? = none

/-- Around the machine nothing moves it; only what it does itself does. -/
theorem Stirs.stays (h : Stirs r r') : Stays r r' := by
  cases h with
  | asks hengine hline => exact ⟨hengine.state, hengine.epoch, hengine.entry, by rw [hline]⟩
  | watches hengine hline =>
      have hmachine : (r.engine.watch true).machine = r.engine.machine ∨
          ∃ c, (r.engine.watch true).machine = r.engine.machine.push c := by
        rcases Run.machine_watching { engine := r.engine } true with hsame | ⟨e, k, -, hraised⟩
        · exact .inl hsame
        · exact .inr ⟨_, hraised⟩
      rw [← hengine] at hmachine
      rcases hmachine with hsame | ⟨c, hpushed⟩
      · exact ⟨by rw [hsame], by rw [hsame], by rw [hsame], by rw [hline]⟩
      · exact ⟨by rw [hpushed]; rfl, by rw [hpushed]; rfl, by rw [hpushed]; rfl, by rw [hline]⟩
  | hears hconnected hengine hline =>
      exact ⟨by rw [hengine]; rfl, by rw [hengine]; rfl, by rw [hengine]; rfl, by rw [hline]⟩
  | ends hengine hline =>
      exact ⟨by rw [hengine]; rfl, by rw [hengine]; rfl, by rw [hengine]; rfl,
        by rw [hline, Option.map_eq_none_iff]⟩

/-- Whatever a client does, its machine does what session machines do, also
where callers connect and disconnect by themselves. -/
theorem Driven.move (h : r.Driven) (m : Move) : (r.move m).Driven := by
  obtain ⟨run, hreachable, hengine⟩ := h
  by_cases hforgets : m = .forget
  · exact ⟨run, hreachable, by rw [hengine, hforgets]; rfl⟩
  · obtain ⟨run', hreaches, hengine', -⟩ := follows_move_attended (Q := fun _ => True) r m
      (move_raisesOnly_any m) hforgets run
        (Run.sound_of_reachable (fun _ _ => False.elim) hreachable)
      (fun _ _ _ _ _ => trivial) hengine
    exact ⟨run', hreachable.trans (hreaches.mono fun _ hallowed => hallowed.2.2), hengine'⟩

/-- **Every move leaves a client in order**, as long as callers leave the
connection to the machine. -/
theorem Orderly.move (h : r.Orderly) {m : Move} (habstains : m.Abstains) : (r.move m).Orderly where
  run := h.run.move m
  tidy := by
    by_cases hmachine : m = .machine
    · subst hmachine
      exact h.advances.2
    · obtain ⟨honward, hstirs⟩ := h.stirs habstains hmachine
      rw [hstirs.stays.entry]
      exact honward.tidy

/-- **All along its moves a client is in order**, and so is what every move of
such a client keeps. -/
theorem Orderly.along {I : ClientRun → Prop} (h : r.Orderly) (hstart : I r)
    (hkeeps : ∀ (r : ClientRun) (m : Move), r.Orderly → m.Abstains → I r → I (r.move m))
    {ms : List Move} (habstain : ∀ m ∈ ms, m.Abstains) :
    (ms.foldl ClientRun.move r).Orderly ∧ I (ms.foldl ClientRun.move r) := by
  induction ms generalizing r with
  | nil => exact ⟨h, hstart⟩
  | cons m ms ih =>
      have hfirst := habstain m List.mem_cons_self
      exact ih (h.move hfirst) (hkeeps r m h hfirst hstart) fun m' hm' =>
        habstain m' (List.mem_cons_of_mem _ hm')

end ClientRun

end OpcSession.Simulation
