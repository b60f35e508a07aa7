import OpcSession.Proofs.Client.Overflow
import OpcSession.Proofs.Session.Publishing
import OpcSession.Proofs.Subscription.Registry

/-!
# Subscriptions that are transferred

When a session comes into use for the first time, the machine of a client asks the server to
transfer the subscriptions that the registry holds.  What comes of the call is a verdict on each
of them: the result at its place in the response, or one and the same verdict on all of them
where the response brings no results.

* `ClientRun.registry_act`, `ClientRun.holdings_proceed` — what leaves the registry alone;
* `ClientRun.Catalogued` — the registry is in order, and so are the ids asked for;
* `ClientRun.Transfers` — a transfer, from the request to where its outcome has come;
* `ClientRun.transfer_attributed` — each subscription is judged by the result at its place;
* `ClientRun.transfer_refused` — what becomes of a transfer that fails as a whole;
* `ClientRun.subscription_kept_on_good_fault` — where it keeps what was not transferred.
-/

namespace OpcSession

/-! ## Verdicts -/

namespace Session

/-- The results of a transfer, if a call brings any.  A response to something
else brings none, and neither does a failure. -/
def Outcome.results? : Outcome → Option (List TransferResult)
  | .response { body := .transferSubscriptions results, .. } => some results
  | _ => none

/-- What a call that brings no results says of everything that it was made
for. -/
def Outcome.verdict : Outcome → StatusCode
  | .done => .badSessionClosed
  | .response _ => .badUnexpectedError
  | .failed e => e.status

/-- A fault of the server that says that nothing went wrong.  A server has no
reason to send one, but may. -/
def Outcome.IsGoodFault (o : Outcome) : Prop :=
  ∃ status, o = .failed (.serviceFault status) ∧ status.isGood

/-- **Only a fault that says that nothing went wrong counts as a success.** -/
theorem Outcome.isGood_verdict (o : Outcome) : o.verdict.isGood ↔ o.IsGoodFault := by
  constructor
  · intro hgood
    cases o with
    | failed e =>
        cases e with
        | serviceFault status => exact ⟨status, rfl, hgood⟩
        | _ => exact absurd hgood (by simp only [verdict, SessionError.status]; decide)
    | _ => exact absurd hgood (by simp only [verdict]; decide)
  · rintro ⟨status, rfl, hgood⟩
    exact hgood

/-- Whether an effect reaches the registry; all others are for the channel,
the callers or the listeners. -/
def Effect.registers : Effect → Bool
  | .startedPublishing _ | .transferred _ => true
  | _ => false

/-- Whatever is for callers and listeners only does not reach the registry. -/
theorem not_registers_of_quiet {f : Effect} (hquiet : f.isQuiet) : ¬ f.registers := by
  cases f <;> first | exact Bool.false_ne_true | cases hquiet

/-- What a move does does not reach the registry; only entering a state does,
and the end of a transfer. -/
theorem Moves.not_registers {Q : Event → Prop} {m : Machine} {event : Event} {move : State.Move}
    {p : Progress} (h : Moves Q m event move p) : ∀ f ∈ p.effects, ¬ f.registers := by
  intro f hf
  rcases h.effect_cases hf with ⟨_, rfl⟩ | ⟨_, rfl⟩ | ⟨_, rfl⟩ | hquiet
  · exact Bool.false_ne_true
  · exact Bool.false_ne_true
  · exact Bool.false_ne_true
  · exact not_registers_of_quiet hquiet

/-- Without results everything has the same verdict, which is that of the call
as a whole. -/
theorem transferResults_refused {o : Outcome} (hrefused : o.results? = none) (ids : List UInt32) :
    transferResults ids (Machine.outcomeResponse o) = ids.map (·, o.verdict) := by
  cases o with
  | response r =>
      obtain ⟨header, body⟩ := r
      cases body with
      | transferSubscriptions results => cases hrefused
      | _ => rfl
  | _ => rfl

end Session

namespace Registry

/-- The verdicts that results are on the entries of a registry: one on each
entry in order, and one that is not good where the results have come to an
end. -/
def verdicts (r : Registry) (results : List TransferResult) : List (Registration × StatusCode) :=
  r.entries.zip (results.map (·.status) ++ List.replicate r.size .badUnexpectedError)

end Registry

namespace Simulation

open Session Client

namespace ClientRun

/-! ## What leaves the registry alone -/

/-- What a listener was told of a subscription that was not transferred, among
all that can be seen from outside. -/
def Observation.failure? : Observation → Option TransferFailure
  | .transferFailed f => some f
  | _ => none

/-- What the listeners were told of subscriptions that were not transferred,
in the order in which they were told. -/
def failures (r : ClientRun) : List TransferFailure := r.log.filterMap Observation.failure?

/-- The registry, and what its listeners were told.  Most of what a client
does leaves both alone, for which there is one lemma for each of its parts. -/
def holdings (r : ClientRun) : Registry × List TransferFailure := (r.registry, r.failures)

variable (r : ClientRun) (o : Owner)

/-- What is seen from outside is for a listener of the registry only if it is
a failure. -/
theorem holdings_observe {x : Observation} (hother : x.failure? = none) :
    (r.observe x).holdings = r.holdings := by
  simp [holdings, failures, observe, hother]

/-- A task that is made ready finds the registry as it was. -/
@[simp] theorem holdings_wake (t : Task) : (r.wake t).holdings = r.holdings := by
  unfold wake
  split <;> rfl

@[simp] theorem holdings_setActivity (a : Activity) :
    (r.setActivity o a).holdings = r.holdings := rfl

@[simp] theorem holdings_conclude (outcome : Outcome) :
    (r.conclude o outcome).holdings = r.holdings := rfl

@[simp] theorem holdings_passTurn : r.passTurn.holdings = r.holdings := by
  unfold passTurn
  dsimp only
  split
  · exact holdings_wake _ _
  · rfl

@[simp] theorem holdings_notify (n : Notice) : (r.notify n).holdings = r.holdings := by
  unfold notify
  dsimp only
  split
  · exact holdings_wake _ _
  · rfl

/-- Requests that are lost have nothing to do with the registry, not even a
request to transfer, until the machine goes on. -/
@[simp] theorem holdings_abandon (pending : List (UInt32 × Owner)) :
    (r.abandon pending).holdings = r.holdings := by
  apply foldl_eq_of_step holdings
  intro r p
  dsimp only
  split
  · rw [holdings_wake, holdings_conclude]
  · rfl

/-- To post a request is seen from outside, and not by listeners of the
registry. -/
@[simp] theorem holdings_post (request : Request) :
    (r.post o request).2.holdings = r.holdings := by
  unfold post
  split
  · rfl
  · dsimp only
    split
    · rfl
    · exact (holdings_observe _ rfl).trans rfl

@[simp] theorem holdings_handOver (envelope : RequestEnvelope) (error : Option TransportError) :
    (r.handOver o envelope error).holdings = r.holdings := by
  cases error with
  | some e => rfl
  | none =>
      dsimp only [handOver]
      split
      · split <;> rfl
      · split <;> rfl

/-- To send a request reaches the registry in neither of its steps. -/
@[simp] theorem holdings_send (request : Request) : (r.send o request).holdings = r.holdings := by
  have hsame := holdings_post r o request
  unfold send
  split
  · rename_i r₁ hposted
    rwa [hposted] at hsame
  · rename_i envelope r₁ hposted
    rw [hposted] at hsame
    rw [holdings_handOver, holdings_wake]
    exact hsame

/-- However an owner begins to use the channel, the registry is left alone. -/
@[simp] theorem holdings_use (c : Call) : (r.use o c).holdings = r.holdings := by
  cases c with
  | connect => rfl
  | disconnect => rfl
  | send request => exact holdings_send r o request

/-- Whether a connection comes about does not matter to the registry. -/
@[simp] theorem holdings_dial (deadline : Duration) :
    (r.dial o deadline).holdings = r.holdings := by
  unfold dial
  split
  · split
    · rw [holdings_passTurn, holdings_conclude]
    · rfl
  · split
    · rw [holdings_passTurn, holdings_conclude]
      rfl
    · rw [holdings_passTurn, holdings_conclude, holdings_wake, holdings_observe _ rfl]
      rfl

@[simp] theorem holdings_hangUp : (r.hangUp o).holdings = r.holdings := by
  unfold hangUp
  split
  · rfl
  · rw [holdings_passTurn, holdings_conclude]
    rfl

/-- **What an owner does on the channel leaves the registry alone**, and its
listeners are told nothing. -/
@[simp] theorem holdings_proceed : (r.proceed o).holdings = r.holdings := by
  unfold proceed
  split
  · rfl
  · split
    · rfl
    · split
      · rw [holdings_passTurn, holdings_conclude]
      · rw [holdings_dial, holdings_setActivity, holdings_observe _ rfl]
  · exact holdings_dial r o _
  · split
    · rfl
    · split
      · rw [holdings_passTurn, holdings_conclude]
      · rw [holdings_hangUp, holdings_setActivity, holdings_observe _ rfl, holdings_abandon]
        rfl
  · exact holdings_hangUp r o
  · split <;> rfl

/-- To take what has come of something leaves the registry to what is made of
it. -/
theorem holdings_takeOutcome? {outcome : Outcome} {r' : ClientRun}
    (h : r.takeOutcome? o = some (outcome, r')) : r'.holdings = r.holdings := by
  obtain ⟨-, rfl⟩ := takeOutcome?_cases r o h
  rfl

@[simp] theorem holdings_pushCommand (c : Command) : (r.pushCommand c).holdings = r.holdings :=
  holdings_wake _ _

@[simp] theorem holdings_collect (c : Caller) : (r.collect c).holdings = r.holdings := by
  unfold collect
  dsimp only
  split
  · exact holdings_proceed r _
  · rename_i htaken
    exact (holdings_takeOutcome? _ _ htaken).trans (holdings_proceed r _)

@[simp] theorem holdings_follow (c : Caller) (next : Next) :
    (r.follow c next).holdings = r.holdings := by
  match next with
  | .over result => rfl
  | .ask command => exact holdings_pushCommand _ _
  | .use call => rw [follow, holdings_collect, holdings_use]

/-- A call that is made leaves the registry alone, whatever it is about. -/
@[simp] theorem holdings_call (id : String) (direct : Bool) (g : Goal) :
    (r.call id direct g).holdings = r.holdings :=
  holdings_follow _ _ _

@[simp] theorem holdings_runCaller (t : Ticket) : (r.runCaller t).holdings = r.holdings := by
  unfold runCaller
  split
  · rfl
  · split
    · exact holdings_follow _ _ _
    · exact holdings_collect r _

@[simp] theorem holdings_runWatcher : r.runWatcher.holdings = r.holdings := by
  unfold runWatcher
  dsimp only
  split
  · exact holdings_wake _ _
  · rfl

/-- A response that comes in does not reach the registry before the machine
has taken it. -/
@[simp] theorem holdings_takeIn (e : ResponseEnvelope) : (r.takeIn e).holdings = r.holdings := by
  unfold takeIn
  generalize r.channel.receive e = received
  obtain ⟨notice, owner, channel⟩ := received
  cases notice with
  | none =>
      cases owner with
      | none => rfl
      | some o => exact holdings_wake _ _
  | some n =>
      cases owner with
      | none => exact holdings_notify _ _
      | some o => exact (holdings_wake _ _).trans (holdings_notify _ _)

/-- The end of the connection leaves the subscriptions where they are. -/
@[simp] theorem holdings_cut : r.cut.holdings = r.holdings :=
  (holdings_notify _ _).trans (holdings_abandon _ _)

@[simp] theorem holdings_wakeGate (gate : String) : (r.wakeGate gate).holdings = r.holdings := by
  apply foldl_eq_of_step holdings
  intro r p
  dsimp only
  split
  · exact holdings_wake _ _
  · rfl

variable {r}

theorem registry_of_holdings {r' : ClientRun} (h : r'.holdings = r.holdings) :
    r'.registry = r.registry := congrArg Prod.fst h

theorem failures_of_holdings {r' : ClientRun} (h : r'.holdings = r.holdings) :
    r'.failures = r.failures := congrArg Prod.snd h

mutual

/-- Whatever is done with the registry is one of the steps that `Q` allows. -/
def Action.Operates (Q : Registry.Step → Prop) : Action → Prop
  | .registry s => Q s
  | .batch actions => Action.AllOperate Q actions
  | _ => True

/-- All of several actions do with the registry only what `Q` allows. -/
def Action.AllOperate (Q : Registry.Step → Prop) : List Action → Prop
  | [] => True
  | a :: rest => a.Operates Q ∧ Action.AllOperate Q rest

end

/-- Whatever is done with the registry is one of the steps that `Q` allows. -/
def Move.Operates (Q : Registry.Step → Prop) : Move → Prop
  | .act a => a.Operates Q
  | _ => True

mutual

/-- Whatever an action does with the registry may be done, if anything may. -/
theorem operates_any (a : Action) : a.Operates fun _ => True := by
  cases a with
  | batch actions => exact allOperate_any actions
  | _ => trivial

theorem allOperate_any (actions : List Action) : Action.AllOperate (fun _ => True) actions := by
  cases actions with
  | nil => trivial
  | cons a rest => exact ⟨operates_any a, allOperate_any rest⟩

end

variable {Q : Registry.Step → Prop} {P : Registry → Prop}

mutual

/-- **What is done to a client reaches the registry only by its own
steps.** -/
theorem registry_act (hkept : ∀ g s, Q s → P g → P (g.perform s).2.1) (a : Action) (r : ClientRun)
    (hoperates : a.Operates Q) (hholds : P r.registry) : P (r.act a).2.registry := by
  have haside : ∀ {r' : ClientRun}, r'.holdings = r.holdings → P r'.registry :=
    fun hsame => registry_of_holdings hsame ▸ hholds
  cases a with
  | registry s => exact hkept _ s hoperates hholds
  | batch actions => exact registry_actAll hkept actions r hoperates hholds
  | call id direct g => exact haside (holdings_call r id direct g)
  | raise e => exact haside (holdings_pushCommand r _)
  | release gate => exact haside (holdings_wakeGate _ gate)
  | push i => exact haside (holdings_wake _ _)
  | pushResponse handle response => exact haside (holdings_wake _ _)
  | advance d =>
      refine haside ?_
      simp only [act]
      split
      · rfl
      · exact holdings_wake _ _
  | elapse d => exact haside (foldl_eq_of_step holdings (fun _ _ => holdings_wake _ _) _ _)
  | _ => exact hholds

/-- What each step keeps of the registry is kept by several actions, in
whatever order they come. -/
theorem registry_actAll (hkept : ∀ g s, Q s → P g → P (g.perform s).2.1) (actions : List Action)
    (r : ClientRun) (hoperates : Action.AllOperate Q actions) (hholds : P r.registry) :
    P (r.actAll actions).2.registry := by
  cases actions with
  | nil => exact hholds
  | cons a rest =>
      exact registry_actAll hkept rest _ hoperates.2 (registry_act hkept a r hoperates.1 hholds)

end

/-- The machine is all that reaches the registry otherwise: what the steps
from outside keep is kept by every move that is not the machine's. -/
theorem registry_move (hkept : ∀ g s, Q s → P g → P (g.perform s).2.1) {m : Move}
    (hoperates : m.Operates Q) (hbeside : m ≠ .machine) (hholds : P r.registry) :
    P (r.move m).registry := by
  have haside : ∀ {r' : ClientRun}, r'.holdings = r.holdings → P r'.registry :=
    fun hsame => registry_of_holdings hsame ▸ hholds
  cases m with
  | act a => exact registry_act hkept a r hoperates hholds
  | machine => exact absurd rfl hbeside
  | watcher => exact haside (holdings_runWatcher r)
  | caller t => exact haside (holdings_runCaller r t)
  | received e =>
      rw [move]
      split
      · exact haside (holdings_takeIn r e)
      · exact hholds
  | cut =>
      rw [move]
      split
      · exact haside (holdings_cut r)
      · exact hholds
  | _ => exact hholds

/-! ## The machine goes on -/

/-- The subscriptions that the machine has asked to be transferred, while it
waits for what comes of that. -/
def transferring? (r : ClientRun) : Option (List UInt32) :=
  match r.engine.machine.entry? with
  | some { awaiting := .transfer ids, .. } => some ids
  | _ => none

/-- What has come of the call that the machine waits for, by the time it goes
on. -/
def returned? (r : ClientRun) : Option Outcome := (r.proceed .machine).outcome? .machine

/-- The machine goes on after its call, takes a command, or waits on. -/
inductive GoesOn (r : ClientRun) : ClientRun → Prop
  /-- Nothing has come for it, and it goes on with what it does on the
  channel. -/
  | waits (hnothing : r.returned? = none) : GoesOn r (r.proceed .machine)
  /-- Something has come of its call, and it goes on from there. -/
  | resumes {outcome : Outcome} {r₁ : ClientRun} (hreturned : r.returned? = some outcome)
      (hcore : r₁.core = r.core) (hholdings : r₁.holdings = r.holdings) :
      GoesOn r (r₁.step fun s m => m.resume s outcome)
  /-- It has nothing to wait for, and takes a command. -/
  | takes {r₁ : ClientRun} (hnothing : r.returned? = none) (hidle : r.engine.machine.entry? = none)
      (hcore : r₁.core = r.core) (hholdings : r₁.holdings = r.holdings) :
      GoesOn r (r₁.step fun s m => m.take s)

/-- Whenever the machine goes on, it is in one of these ways. -/
theorem goesOn (r : ClientRun) : r.GoesOn (r.move .machine) := by
  have hcore := core_proceed r .machine
  have hholdings := holdings_proceed r .machine
  simp only [move, runMachine]
  split
  · rename_i outcome r₁ htaken
    exact .resumes (takeOutcome?_cases _ _ htaken).1 ((core_takeOutcome? _ _ htaken).trans hcore)
      ((holdings_takeOutcome? _ _ htaken).trans hholdings)
  · rename_i huntaken
    have hnothing : r.returned? = none := by
      have hnone := Option.map_eq_none_iff.mp huntaken
      rw [returned?, outcome?, hnone]
      rfl
    split
    · rename_i hready
      rw [engine_of_core hcore] at hready
      exact .takes hnothing (Option.isNone_iff_eq_none.mp hready.1) hcore hholdings
    · exact .waits hnothing

/-- A registry that is in order stays so by what the machine does. -/
theorem ascending_effect {f : Effect} (h : r.registry.Ascending) :
    (r.effect f).registry.Ascending := by
  have haside : ∀ {r' : ClientRun}, r'.holdings = r.holdings → r'.registry.Ascending :=
    fun hsame => registry_of_holdings hsame ▸ h
  cases f with
  | call c => exact haside (holdings_use r _ c)
  | answered t a => exact haside (holdings_wake _ _)
  | watched epoch => exact haside (holdings_wake _ _)
  | told l active session =>
      simp only [effect]
      split <;> exact h
  | startedPublishing reset => exact h.startPublishing reset
  | transferred results => exact h.transferred results
  | _ => exact h

/-- Whatever step the machine makes, the registry stays in the order of its
ids. -/
theorem ascending_step {f : Surroundings → Machine → Progress} (h : r.registry.Ascending) :
    (r.step f).registry.Ascending := by
  have hall : ∀ (fs : List Effect) (r : ClientRun), r.registry.Ascending →
      (fs.foldl effect r).registry.Ascending := by
    intro fs
    induction fs with
    | nil => exact fun _ h => h
    | cons f fs ih => exact fun r h => ih _ (ascending_effect h)
  exact hall _ _ h

/-- Other effects do not reach the registry, however many there are. -/
theorem holdings_effects {fs : List Effect} (hbeside : ∀ f ∈ fs, ¬ f.registers) (r : ClientRun) :
    (fs.foldl effect r).holdings = r.holdings := by
  induction fs generalizing r with
  | nil => rfl
  | cons f fs ih =>
      have hfirst : (r.effect f).holdings = r.holdings := by
        have hbeside := hbeside f List.mem_cons_self
        cases f with
        | call c => exact holdings_use r _ c
        | answered t a => exact holdings_wake _ _
        | watched epoch => exact holdings_wake _ _
        | told l active session =>
            simp only [effect]
            split
            · rfl
            · exact holdings_observe _ rfl
        | startedPublishing | transferred => exact absurd rfl hbeside
        | _ => rfl
      exact (ih (fun g hg => hbeside g (List.mem_cons_of_mem _ hg)) _).trans hfirst

/-! ## A transfer is asked for -/

/-- The machine that has taken a command waits for a transfer of what is
registered, and it is what it has asked for last. -/
theorem transfer_of_obeys {s : Surroundings} {m : Machine} {c : Command} {p : Progress}
    {ids : List UInt32} {owed : Owed} (h : m.Obeys s c p) (hidle : m.entry? = none)
    (hwaits : p.machine.entry? = some { awaiting := .transfer ids, owed := owed }) :
    s.subscriptionIds? = some ids ∧
      ∃ before session, p.effects = before ++ [.call (.send (s.transferRequest session ids))] ∧
        ∀ f ∈ before, ¬ f.registers := by
  rcases h.serves_or_moves with ⟨hserves, -⟩ | ⟨e, move, course, -, -, henters, rfl⟩
  · rw [hserves.entry, hidle] at hwaits
    cases hwaits
  · have hending :
        course.ending.entry? c.owed = some { awaiting := .transfer ids, owed := owed } := by
      rw [← Course.entry_run]
      exact hwaits
    have hdeparts := (m.departs s e move c.waiter?).not_registers
    generalize (m.depart s e move c.waiter?).machine.state = st at henters
    cases henters with
    | @transfers ws session ids' hup hmanaged =>
        cases hending
        refine ⟨hmanaged, (m.depart s e move c.waiter?).effects ++ [Effect.watched (m.epoch + 1)],
          session, (List.append_assoc _ [Effect.watched (m.epoch + 1)] _).symm, ?_⟩
        intro f hf
        rcases List.mem_append.mp hf with hf | hf
        · exact hdeparts f hf
        · cases List.mem_singleton.mp hf
          exact Bool.false_ne_true
    | _ => cases hending

/-- A machine that is transferring waits for that, and for those ids. -/
theorem waits_of_transferring {ids : List UInt32} (h : r.transferring? = some ids) :
    ∃ owed, r.engine.machine.entry? = some { awaiting := .transfer ids, owed := owed } := by
  unfold transferring? at h
  split at h
  · cases h
    exact ⟨_, ‹_›⟩
  · cases h

/-- **Where a transfer is asked for**, it is of what the registry holds. -/
theorem asks_transfer {ids : List UInt32} (hdriven : r.Driven) (hbefore : r.transferring? = none)
    (hafter : (r.move .machine).transferring? = some ids) :
    r.registry.ids = ids ∧ (r.move .machine).holdings = r.holdings ∧
      ∃ (r₁ : ClientRun) (request : Request), request.body = .transferSubscriptions ids true ∧
        r.move .machine = r₁.use .machine (.send request) := by
  obtain ⟨owed, hwaits⟩ := waits_of_transferring hafter
  have hgoes := r.goesOn
  generalize r.move .machine = r' at hgoes hwaits
  cases hgoes with
  | waits =>
      rw [engine_of_core (core_proceed r .machine)] at hwaits
      simp [transferring?, hwaits] at hbefore
  | @resumes outcome r₁ hreturned hcore hholdings =>
      rw [engine_step, machine_step, engine_of_core hcore] at hwaits
      cases hentry : r.engine.machine.entry? with
      | none => simp [Machine.resume, hentry] at hwaits
      | some entry' =>
          obtain ⟨course, hresumes, hrun⟩ :=
            Machine.resume_course r₁.surroundings outcome hentry (hdriven.fits hentry)
          rw [hrun, Course.entry_run] at hwaits
          cases hending : course.ending with
          | waits a call =>
              rw [hending] at hwaits
              cases hwaits
              exact absurd hending hresumes.ending_ne_transfer
          | _ => rw [hending] at hwaits; cases hwaits
  | @takes r₁ hnothing hidle hcore hholdings =>
      have hengine := engine_of_core hcore
      rw [engine_step, machine_step, hengine] at hwaits
      cases hqueue : r.engine.machine.queue with
      | nil => simp [Machine.take, hidle, hqueue] at hwaits
      | cons c rest =>
          have htake : r.engine.machine.take r₁.surroundings =
              ({ r.engine.machine with queue := rest } : Machine).obey r₁.surroundings c := by
            simp only [Machine.take, hidle, hqueue]
          rw [htake] at hwaits
          obtain ⟨hmanaged, effects, session, hlast, hbeside⟩ :=
            transfer_of_obeys
              (Machine.obey_obeys r₁.surroundings { r.engine.machine with queue := rest } c)
              hidle hwaits
          have hstepped : r₁.step (fun s m => m.take s) =
              (effects.foldl effect { r₁ with
                engine := (r₁.engine.step fun m => m.take r₁.surroundings).1 }).use .machine
                  (.send (r₁.surroundings.transferRequest session ids)) := by
            have hall : r₁.step (fun s m => m.take s) =
                (r₁.engine.machine.take r₁.surroundings).effects.foldl effect { r₁ with
                  engine := (r₁.engine.step fun m => m.take r₁.surroundings).1 } := rfl
            rw [hall, hengine, htake, hlast, List.foldl_append]
            rfl
          refine ⟨?_, ?_, _, r₁.surroundings.transferRequest session ids, rfl, hstepped⟩
          · rw [← registry_of_holdings hholdings]
            exact Option.some.inj hmanaged
          · rw [hstepped, holdings_use, holdings_effects hbeside]
            exact hholdings

/-! ## Until it has come of it -/

/-- Unless the machine goes on it waits for what it waited for. -/
theorem entry_move (hdriven : r.Driven) {m : Move} (hbeside : m ≠ .machine) :
    (r.move m).engine.machine.entry? = r.engine.machine.entry? := by
  by_cases hforgets : m = .forget
  · rw [hforgets]
    rfl
  obtain ⟨run, hreachable, hengine⟩ := hdriven
  have hsound := Run.sound_of_reachable (fun _ _ => False.elim) hreachable
  obtain ⟨run', hreaches, hengine', -⟩ :=
    follows_move r m (move_raisesOnly_any m) hforgets run hsound
    (Listeners.raiseOnly_any _) hengine
  have hkept : run'.Sound False ∧ run'.machine.entry? = run.machine.entry? := by
    refine Reaches.invariant (I := fun run' => run'.Sound False ∧
      run'.machine.entry? = run.machine.entry?) ⟨hsound, rfl⟩ ?_ hreaches
    rintro run₁ o ⟨-, hcauses⟩ ⟨hsound, hsame⟩
    refine ⟨hsound.happen False.elim, ?_⟩
    have hbecomes := hsound.becomes o
    generalize run₁.happen o = run₂ at hbecomes
    cases hbecomes with
    | stays _ _ _ hentry => exact hentry.trans hsame
    | takes htaking =>
        subst htaking
        cases m <;> first | exact absurd rfl hbeside | cases hcauses
    | resumes hended =>
        subst hended
        cases m <;> first | exact absurd rfl hbeside | cases hcauses
  rw [← hengine', ← hengine]
  exact hkept.2

/-- Unless the machine goes on a transfer is neither begun nor over. -/
theorem transferring_move (hdriven : r.Driven) {m : Move} (hbeside : m ≠ .machine) :
    (r.move m).transferring? = r.transferring? := by
  rw [transferring?, entry_move hdriven hbeside, ← transferring?]

/-- The registry of the client is in order, and so are the ids that the
machine has asked for. -/
structure Catalogued (r : ClientRun) : Prop where
  /-- Its machine has come about as session machines do. -/
  driven : r.Driven
  /-- The registry is in the order of its ids, with no id twice. -/
  registry : r.registry.Ascending
  /-- The ids that the server was asked to transfer are in that order too. -/
  asked : ∀ ids, r.transferring? = some ids → ids.Pairwise (· < ·)

theorem catalogued_start (url : String) (settings : ClientSettings) (endpoint : EndpointDescription)
    (credentials : Credentials) : (start url settings endpoint credentials).Catalogued where
  driven := (orderly_start url settings endpoint credentials).run
  registry := .nil
  asked := by rintro ids ⟨⟩

/-- The machine of a client that waits for a transfer waits on, or has what
came of it. -/
theorem transferred {ids : List UInt32} (h : r.transferring? = some ids) :
    (r.returned? = none ∧ (r.move .machine).transferring? = some ids ∧
      (r.move .machine).holdings = r.holdings) ∨
    ∃ outcome, r.returned? = some outcome ∧ (r.move .machine).transferring? = none ∧
      let after := r.registry.transferCompleted
        (transferResults ids (Machine.outcomeResponse outcome))
      (r.move .machine).registry = after.1.startPublishing true ∧
        (r.move .machine).failures = r.failures ++ after.2 := by
  obtain ⟨owed, hwaits⟩ := waits_of_transferring h
  have hgoes := r.goesOn
  generalize r.move .machine = r' at hgoes
  cases hgoes with
  | waits hnothing =>
      refine .inl ⟨hnothing, ?_, holdings_proceed r _⟩
      rw [transferring?, engine_of_core (core_proceed r .machine), ← transferring?]
      exact h
  | takes _ hidle => rw [hidle] at hwaits; cases hwaits
  | @resumes outcome r₁ hreturned hcore hholdings =>
      have hengine := engine_of_core hcore
      refine .inr ⟨outcome, hreturned, ?_, ?_⟩
      · have hended : (r₁.step fun s m => m.resume s outcome).engine.machine.entry? = none := by
          rw [engine_step, machine_step, hengine, Machine.resume, hwaits]
          exact (Machine.conclude_concludes (m := r.engine.machine) r₁.surroundings owed none
            (Listeners.raiseOnly_any _)).entry
        rw [transferring?, hended]
      · have hquiet := (Machine.conclude_concludes (m := r.engine.machine) r₁.surroundings owed none
          (Listeners.raiseOnly_any _)).quiet
        have hafter : (r₁.step fun s m => m.resume s outcome).holdings =
            (([.transferred (transferResults ids (Machine.outcomeResponse outcome)),
              .startedPublishing true] : List Effect).foldl effect r₁).holdings := by
          rw [step, Engine.step, hengine]
          simp only [Machine.resume, hwaits, Progress.andThen, List.foldl_append]
          exact (holdings_effects (fun f hf => not_registers_of_quiet (hquiet f hf)) _).trans rfl
        dsimp only
        rw [registry_of_holdings hafter, failures_of_holdings hafter,
          ← registry_of_holdings hholdings,
          ← failures_of_holdings hholdings]
        have htold : ∀ fs : List TransferFailure,
            (fs.map Observation.transferFailed).filterMap Observation.failure? = fs := fun fs => by
          rw [List.filterMap_map]
          exact List.filterMap_some
        refine ⟨rfl, ?_⟩
        simp only [List.foldl_cons, List.foldl_nil, effect, failures, List.filterMap_append, htold]

theorem Catalogued.move (h : r.Catalogued) (m : Move) : (r.move m).Catalogued where
  driven := h.driven.move m
  registry := by
    by_cases hmachine : m = .machine
    · subst hmachine
      have haside : ∀ {r' : ClientRun}, r'.holdings = r.holdings → r'.registry.Ascending :=
        fun hsame => registry_of_holdings hsame ▸ h.registry
      have hgoes := r.goesOn
      generalize r.move .machine = r' at hgoes
      cases hgoes with
      | waits => exact haside (holdings_proceed r _)
      | resumes _ _ hholdings => exact ascending_step (haside hholdings)
      | takes _ _ _ hholdings => exact ascending_step (haside hholdings)
    · have hany : m.Operates fun _ => True := by
        cases m with
        | act a => exact operates_any a
        | _ => trivial
      exact registry_move (fun _ s _ hascending => hascending.perform s) hany hmachine h.registry
  asked := by
    intro ids htransferring
    by_cases hmachine : m = .machine
    · subst hmachine
      cases hbefore : r.transferring? with
      | none => exact (asks_transfer h.driven hbefore htransferring).1 ▸ h.registry
      | some ids' =>
          rcases transferred hbefore with ⟨-, hsame, -⟩ | ⟨_, -, hover', -⟩
          · cases hsame.symm.trans htransferring
            exact h.asked ids hbefore
          · cases hover'.symm.trans htransferring
    · rw [transferring_move h.driven hmachine] at htransferring
      exact h.asked ids htransferring

theorem Catalogued.foldl (h : r.Catalogued) (ms : List Move) :
    (ms.foldl ClientRun.move r).Catalogued := by
  induction ms generalizing r with
  | nil => exact h
  | cons m ms ih => exact ih (h.move m)

/-- A transfer: the machine asks for it at its next move, and waits for what
comes of it all along the moves that follow. -/
structure Transfers (ids : List UInt32) (asking : ClientRun) (between : List Move) : Prop where
  /-- Before the machine went on there was no transfer. -/
  begins : asking.transferring? = none
  /-- From then on it has been waiting for the verdicts on these ids, at every
  point. -/
  waits : ∀ ms, ms <+: between →
    (ms.foldl move (asking.move .machine)).transferring? = some ids

variable {ids : List UInt32} {asking : ClientRun} {between : List Move}

/-- At the last point the machine still waits for the verdicts. -/
theorem Transfers.waiting (h : Transfers ids asking between) :
    (between.foldl ClientRun.move (asking.move .machine)).transferring? = some ids :=
  h.waits between (List.prefix_refl _)

/-- What the machine asked for when it asked for a transfer: all that was
registered, in ascending order. -/
theorem Transfers.asks (h : Transfers ids asking between) (hcatalogued : asking.Catalogued) :
    asking.registry.ids = ids ∧ ids.Pairwise (· < ·) ∧
      (asking.move .machine).registry = asking.registry ∧
      ∃ (r : ClientRun) (request : Request), request.body = .transferSubscriptions ids true ∧
        asking.move .machine = r.use .machine (.send request) := by
  obtain ⟨hasked, hholdings, hrequest⟩ :=
    asks_transfer hcatalogued.driven h.begins (h.waits [] List.nil_prefix)
  exact ⟨hasked, hasked ▸ hcatalogued.registry, registry_of_holdings hholdings, hrequest⟩

/-- What comes of a transfer when the call that it is for has ended. -/
theorem Transfers.ends (h : Transfers ids asking between) {outcome : Outcome}
    (hreturned : (between.foldl ClientRun.move (asking.move .machine)).returned? = some outcome) :
    let waiting := between.foldl ClientRun.move (asking.move .machine)
    let after := waiting.registry.transferCompleted
      (transferResults ids (Machine.outcomeResponse outcome))
    (waiting.move .machine).transferring? = none ∧
      (waiting.move .machine).registry = after.1.startPublishing true ∧
        (waiting.move .machine).failures = waiting.failures ++ after.2 := by
  rcases transferred h.waiting with ⟨hnothing, -⟩ | ⟨outcome', hreturned', hended⟩
  · cases hnothing.symm.trans hreturned
  · cases hreturned'.symm.trans hreturned
    exact hended

/-! ## The laws -/

/-- Two subscriptions are registered, somebody listens, and a session is about
to come into use. -/
def stocked : List Move :=
  [.act (.registry (.add { id := 7, interval := .ofSecs 1 })),
    .act (.registry (.add { id := 3, interval := .ofSecs 2 })),
    .act (.registry (.addListener "panel")),
    .act (.call "first" true .session), .machine, .machine, Chronicle.created 1 ⟨1, .numeric 1⟩,
    .machine, .machine, Chronicle.activated 2, .machine]

/-- The server answers the request to transfer the subscriptions, with a
result and a body of one's choice. -/
def answered (result : StatusCode) (body : ResponseBody) : Move :=
  .received { handle := 3, body := { header := { handle := 3, result := result }, body := body } }

/-- The transfer of the two subscriptions that are there, up to the point
where the server has answered in some way. -/
theorem transfers_stocked (result : StatusCode) (body : ResponseBody)
    (hwaits : ((answered result body :: []).foldl ClientRun.move
      ((stocked.foldl ClientRun.move Chronicle.plant.client).move .machine)).transferring? =
        some [3, 7]) :
    Transfers [3, 7] (stocked.foldl ClientRun.move Chronicle.plant.client)
      [answered result body] where
  begins := by decide +kernel
  waits := by
    intro ms hms
    rcases List.prefix_cons_iff.mp hms with rfl | ⟨rest, rfl, hrest⟩
    · decide +kernel
    · cases List.prefix_nil.mp hrest
      exact hwaits

/-- **What becomes of a transfer that fails as a whole.**

Whatever a client does and whatever its peer answers, in whatever order its
tasks run and whatever is done with the registry meanwhile: let the machine
ask for a transfer, and let the call end without results, by an error of any
kind, with a fault, or with a response of another service.  Unless it ends
with a fault that says that nothing went wrong, no subscription that was asked
for is registered any more, whatever else was registered stays as it is, and
of every subscription that goes every listener is told once, in the order of
the ids.  With a fault that says that nothing went wrong, all stays as it is
and nobody is told anything. -/
theorem transfer_refused (url : String) (settings : ClientSettings)
    (endpoint : EndpointDescription) (credentials : Credentials) (before between : List Move)
    (ids : List UInt32) (outcome : Outcome) :
    let asking := before.foldl ClientRun.move (start url settings endpoint credentials)
    let waiting := between.foldl ClientRun.move (asking.move .machine)
    let ended := waiting.move .machine
    Transfers ids asking between → waiting.returned? = some outcome → outcome.results? = none →
      asking.registry.ids = ids ∧
        (∃ (r : ClientRun) (request : Request), request.body = .transferSubscriptions ids true ∧
          asking.move .machine = r.use .machine (.send request)) ∧
        ended.transferring? = none ∧
        (¬ outcome.IsGoodFault →
          (∀ id ∈ ids, id ∉ ended.registry.ids) ∧
            ended.registry = ({ waiting.registry with
              entries := waiting.registry.entries.filter (·.id ∉ ids) } : Registry).startPublishing
                true ∧
            ended.failures = waiting.failures ++ waiting.registry.notices
              ((waiting.registry.entries.filter (·.id ∈ ids)).map fun e =>
                (e.subscription, outcome.verdict))) ∧
        (outcome.IsGoodFault →
          ended.registry = waiting.registry.startPublishing true ∧
            ended.failures = waiting.failures) := by
  intro asking waiting ended htransfers hreturned hbrings
  have hcatalogued : asking.Catalogued :=
    (catalogued_start url settings endpoint credentials).foldl before
  have hascending' : waiting.registry.Ascending :=
    ((hcatalogued.move .machine).foldl between).registry
  obtain ⟨hasked, hascending, -, hrequest⟩ := htransfers.asks hcatalogued
  obtain ⟨hover', hregistry, htold⟩ := htransfers.ends hreturned
  rw [transferResults_refused hbrings] at hregistry htold
  refine ⟨hasked, hrequest, hover', fun hfailed => ?_, fun hgood => ?_⟩
  · rw [← outcome.isGood_verdict] at hfailed
    rw [hascending'.condemned hascending hfailed] at hregistry htold
    refine ⟨fun id hrequested hlisted => ?_, hregistry, htold⟩
    have hstays : ended.registry.ids =
        (waiting.registry.entries.filter (·.id ∉ ids)).map (·.id) := by
      rw [show ended.registry = _ from hregistry, Registry.ids_startPublishing]
      rfl
    rw [hstays] at hlisted
    obtain ⟨e, he, rfl⟩ := List.mem_map.mp hlisted
    simpa [hrequested] using (List.mem_filter.mp he).2
  · rw [← outcome.isGood_verdict] at hgood
    rw [Registry.transferCompleted_good _ ids hgood] at hregistry htold
    exact ⟨hregistry, htold.trans (List.append_nil _)⟩

/-- The server refuses to transfer anything: nothing stays, and who listens is
told. -/
theorem transfer_refused_unsupported :
    let asking := stocked.foldl ClientRun.move Chronicle.plant.client
    let between := [answered .badServiceUnsupported .serviceFault]
    let waiting := between.foldl ClientRun.move (asking.move .machine)
    let ended := waiting.move .machine
    let outcome := Outcome.failed (.serviceFault .badServiceUnsupported)
    Transfers [3, 7] asking between ∧ waiting.returned? = some outcome ∧
      outcome.results? = none ∧ ¬ outcome.IsGoodFault ∧ ended.registry.ids = [] ∧
      ended.failures = [⟨"panel", { id := 3, interval := .ofSecs 2 }, .badServiceUnsupported⟩,
        ⟨"panel", { id := 7, interval := .ofSecs 1 }, .badServiceUnsupported⟩] := by
  intro asking between waiting ended outcome
  have htransfers : Transfers [3, 7] asking between := transfers_stocked _ _ (by decide +kernel)
  have hreturned : waiting.returned? = some outcome := by decide +kernel
  have hbad : ¬ outcome.IsGoodFault := by
    rw [← outcome.isGood_verdict]
    decide
  have hlaw := transfer_refused "plant" { session := { sessionName := "plant" } }
    (.unsecured "plant") .anonymous stocked between [3, 7] outcome
  rw [show start "plant" { session := { sessionName := "plant" } } (.unsecured "plant") .anonymous =
    Chronicle.plant.client from rfl] at hlaw
  extract_lets at hlaw
  obtain ⟨-, -, -, hfailed, -⟩ := hlaw htransfers hreturned rfl
  obtain ⟨-, hregistry, htold⟩ := hfailed hbad
  have hsilent : waiting.failures = [] := by decide +kernel
  refine ⟨htransfers, hreturned, rfl, hbad, ?_, ?_⟩
  · rw [hregistry]
    decide +kernel
  · rw [htold, hsilent]
    decide +kernel

/-- **A fault may keep what was not transferred.**  The server answers the
request with a fault, so nothing was transferred; but the fault says that
nothing went wrong, and every subscription stays registered. -/
theorem subscription_kept_on_good_fault :
    ¬ ∀ (before between : List Move) (ids : List UInt32) (outcome : Outcome),
      let asking := before.foldl ClientRun.move Chronicle.plant.client
      let waiting := between.foldl ClientRun.move (asking.move .machine)
      Transfers ids asking between → waiting.returned? = some outcome → outcome.results? = none →
        ∀ id ∈ ids, id ∉ (waiting.move .machine).registry.ids := by
  intro hclaim
  have hgone := hclaim stocked [answered .good .serviceFault] [3, 7]
    (.failed (.serviceFault .good)) (transfers_stocked _ _ (by decide +kernel))
    (by decide +kernel) rfl 3 (by decide)
  have hkept : (((answered .good .serviceFault :: []).foldl ClientRun.move
      ((stocked.foldl ClientRun.move Chronicle.plant.client).move .machine)).move
        .machine).registry.ids = [3, 7] := by
    decide +kernel
  rw [List.foldl_cons, List.foldl_nil] at hgone hkept
  exact hgone (hkept ▸ List.mem_cons_self)

end ClientRun

end Simulation

end OpcSession
