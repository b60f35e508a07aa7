import OpcSession.Simulation.ClientRun

/-!
# What the use of the channel leaves alone

Whoever uses the channel — the machine itself, or a caller — connects, sends,
waits and is woken.  None of that touches the session machine, its watcher and
its timer, nor the calls and the cache: that is the *backdrop* of the channel, and
one lemma for each operation says that it stays as it was.  The machine with its
watcher and its timer, and the moves that were published, are the *core*; a call
that goes on leaves that alone too.

* `ClientRun.backdrop_proceed` — what an owner does on the channel;
* `ClientRun.core_runCaller` — what a call does when it goes on.
-/

namespace OpcSession.Simulation

open Session Client

/-- Moves one after another: what is alike after each of them is alike after
all. -/
theorem foldl_eq_of_step {α β γ : Type} {f : α → β → α} (view : α → γ)
    (hkept : ∀ a b, view (f a b) = view a) (bs : List β) (a : α) :
    view (bs.foldl f a) = view a := by
  induction bs generalizing a with
  | nil => rfl
  | cons b bs ih => exact (ih (f a b)).trans (hkept a b)

namespace ClientRun

/-- The machine with its watcher and its timer, and the moves it has
published. -/
def core (r : ClientRun) : Engine × List Transition := (r.engine, r.transitions)

/-- The calls that are made, the next ticket, the cache, and the calls that
are over. -/
def desk (r : ClientRun) : List Caller × Ticket × DataCache × List Finished :=
  (r.callers, r.nextTicket, r.cache, r.done)

/-- All that the channel has nothing to do with: the core, what callers were
answered by the machine, and the desk. -/
def backdrop (r : ClientRun) : (Engine × List Transition) × List (Ticket × Answer) ×
    List Caller × Ticket × DataCache × List Finished :=
  (r.core, r.answers, r.desk)

theorem engine_of_core {r r' : ClientRun} (h : r'.core = r.core) : r'.engine = r.engine :=
  congrArg Prod.fst h

/-- The moves that were published are part of the core. -/
theorem transitions_of_core {r r' : ClientRun} (h : r'.core = r.core) :
    r'.transitions = r.transitions :=
  congrArg Prod.snd h

theorem core_of_backdrop {r r' : ClientRun} (h : r'.backdrop = r.backdrop) :
    r'.core = r.core :=
  congrArg Prod.fst h

/-- The desk, with the calls and the cache, is part of the backdrop. -/
theorem desk_of_backdrop {r r' : ClientRun} (h : r'.backdrop = r.backdrop) :
    r'.desk = r.desk :=
  congrArg (·.2.2) h

theorem answers_of_backdrop {r r' : ClientRun} (h : r'.backdrop = r.backdrop) :
    r'.answers = r.answers :=
  congrArg (·.2.1) h

variable (r : ClientRun) (o : Owner)

/-! ## Activities -/

@[simp] theorem backdrop_observe (x : Observation) : (r.observe x).backdrop = r.backdrop := rfl

/-- A task that is made ready finds everything as it was. -/
@[simp] theorem backdrop_wake (t : Task) : (r.wake t).backdrop = r.backdrop := by
  unfold wake
  split <;> rfl

@[simp] theorem backdrop_setActivity (a : Activity) :
    (r.setActivity o a).backdrop = r.backdrop := rfl

@[simp] theorem backdrop_conclude (outcome : Outcome) :
    (r.conclude o outcome).backdrop = r.backdrop := rfl

/-- The turn goes on, which only wakes the next owner. -/
@[simp] theorem backdrop_passTurn : r.passTurn.backdrop = r.backdrop := by
  unfold passTurn
  dsimp only
  split
  · exact backdrop_wake _ _
  · rfl

/-- Whoever is told that its request is lost will see to it when it goes on;
until then nothing else is done. -/
@[simp] theorem backdrop_abandon (pending : List (UInt32 × Owner)) :
    (r.abandon pending).backdrop = r.backdrop := by
  apply foldl_eq_of_step backdrop
  intro r p
  dsimp only
  split
  · rw [backdrop_wake, backdrop_conclude]
  · rfl

@[simp] theorem backdrop_push (i : Incoming) : (r.push i).backdrop = r.backdrop :=
  backdrop_wake _ _

/-- To post a request concerns the channel, and the peer that may fail to
encode it. -/
@[simp] theorem backdrop_post (request : Request) : (r.post o request).2.backdrop = r.backdrop := by
  unfold post
  split
  · rfl
  · dsimp only
    split <;> rfl

/-- To hand it over concerns the channel and its owner's activity. -/
@[simp] theorem backdrop_handOver (envelope : RequestEnvelope) (error : Option TransportError) :
    (r.handOver o envelope error).backdrop = r.backdrop := by
  cases error with
  | some e => rfl
  | none =>
      dsimp only [handOver]
      split
      · split <;> rfl
      · split <;> rfl

/-- To send a request is to post it and to hand it over, and neither touches
the backdrop. -/
@[simp] theorem backdrop_send (request : Request) : (r.send o request).backdrop = r.backdrop := by
  have hsame := backdrop_post r o request
  unfold send
  split
  · rename_i r₁ hposted
    rwa [hposted] at hsame
  · rename_i envelope r₁ hposted
    rw [hposted] at hsame
    rw [backdrop_handOver, backdrop_wake]
    exact hsame

/-- However an owner begins to use the channel, the backdrop is left alone. -/
@[simp] theorem backdrop_use (c : Call) : (r.use o c).backdrop = r.backdrop := by
  cases c with
  | connect => rfl
  | disconnect => rfl
  | send request => exact backdrop_send r o request

/-- Dialing asks the peer, and opens a link or not. -/
@[simp] theorem backdrop_dial (deadline : Duration) :
    (r.dial o deadline).backdrop = r.backdrop := by
  unfold dial
  split
  · split
    · rw [backdrop_passTurn, backdrop_conclude]
    · rfl
  · split
    · rw [backdrop_passTurn, backdrop_conclude]
      rfl
    · rw [backdrop_passTurn, backdrop_conclude, backdrop_wake, backdrop_observe]
      rfl

@[simp] theorem backdrop_hangUp : (r.hangUp o).backdrop = r.backdrop := by
  unfold hangUp
  split
  · rfl
  · rw [backdrop_passTurn, backdrop_conclude]
    rfl

/-- **What an owner does on the channel leaves the backdrop alone.**  The
machine's own errands are no exception: it hears of them when it takes what
has come of them. -/
@[simp] theorem backdrop_proceed : (r.proceed o).backdrop = r.backdrop := by
  unfold proceed
  split
  · rfl
  · split
    · rfl
    · split
      · rw [backdrop_passTurn, backdrop_conclude]
      · rw [backdrop_dial, backdrop_setActivity, backdrop_observe]
  · exact backdrop_dial r o _
  · split
    · rfl
    · split
      · rw [backdrop_passTurn, backdrop_conclude]
      · rw [backdrop_hangUp, backdrop_setActivity, backdrop_observe, backdrop_abandon]
        rfl
  · exact backdrop_hangUp r o
  · split <;> rfl

/-- To take what has come of something leaves the backdrop alone; what is made
of it comes after. -/
theorem backdrop_takeOutcome? {outcome : Outcome} {r' : ClientRun}
    (h : r.takeOutcome? o = some (outcome, r')) : r'.backdrop = r.backdrop := by
  obtain ⟨_, -, heq⟩ := Option.map_eq_some_iff.mp h
  cases heq
  rfl

/-- A gate that opens wakes those who wait at it. -/
theorem backdrop_wakeGate (gate : String) : (r.wakeGate gate).backdrop = r.backdrop := by
  apply foldl_eq_of_step backdrop
  intro r p
  dsimp only
  split
  · exact backdrop_wake _ _
  · rfl

/-! ## The machine -/

@[simp] theorem core_wake (t : Task) : (r.wake t).core = r.core :=
  core_of_backdrop (backdrop_wake r t)

@[simp] theorem core_abandon (pending : List (UInt32 × Owner)) :
    (r.abandon pending).core = r.core :=
  core_of_backdrop (backdrop_abandon r pending)

@[simp] theorem core_use (c : Call) : (r.use o c).core = r.core :=
  core_of_backdrop (backdrop_use r o c)

@[simp] theorem core_proceed : (r.proceed o).core = r.core :=
  core_of_backdrop (backdrop_proceed r o)

theorem core_takeOutcome? {outcome : Outcome} {r' : ClientRun}
    (h : r.takeOutcome? o = some (outcome, r')) : r'.core = r.core :=
  core_of_backdrop (backdrop_takeOutcome? r o h)

/-! ## Callers -/

/-- A call that is over leaves the core alone; it is part of the desk. -/
@[simp] theorem core_finish (c : Caller) (result : Result) : (r.finish c result).core = r.core :=
  rfl

/-- A call that looks for what has come of its request leaves the core alone,
though it may be over by that and write to the cache. -/
@[simp] theorem core_collect (c : Caller) : (r.collect c).core = r.core := by
  unfold collect
  dsimp only
  split
  · exact core_proceed r _
  · rename_i htaken
    rw [core_finish]
    exact (core_takeOutcome? _ _ htaken).trans (core_proceed r _)

/-- The machine that has answered a call is not asked again.  Each call asks
it at most once, where it starts. -/
theorem answered_ne_ask (g : Goal) (hint : UInt32) (a : Answer) (c : Command) :
    g.answered hint a ≠ .ask c := by
  cases a with
  | session outcome =>
      cases outcome with
      | error e => simp [Goal.answered]
      | ok s => cases g <;> simp [Goal.answered]
  | state k => simp [Goal.answered]
  | disconnected => simp [Goal.answered]

/-- The next step of a call leaves the core alone, unless it asks the machine
something. -/
theorem core_follow (c : Caller) (next : Next) (hasks : ∀ command, next ≠ .ask command) :
    (r.follow c next).core = r.core := by
  cases next with
  | ask command => exact absurd rfl (hasks command)
  | use call => rw [follow, core_collect, core_use]
  | _ => rfl

/-- **A call that goes on leaves the core alone.**  It has been answered by
then, if it asked, and asks no more. -/
@[simp] theorem core_runCaller (t : Ticket) : (r.runCaller t).core = r.core := by
  unfold runCaller
  split
  · rfl
  · split
    · exact core_follow _ _ _ (answered_ne_ask _ _ _)
    · exact core_collect r _

end ClientRun

end OpcSession.Simulation
