import OpcSession.Proofs.Client.Moves

/-!
# The errands of the machine on the channel

While the machine waits for a call it is about an *errand* on the channel, and
otherwise about none.  The errand is the one that the call is for: to connect,
to disconnect, or to exchange a request for its response.  As long as callers
only exchange requests, the errands of the machine are the only thing that opens
a connection or gives one up.

* `ClientRun.Errand` — what the machine is about, by what it waits for;
* `ClientRun.Tidy` — the errand, and what callers do beside it;
* `ClientRun.Beside`, `ClientRun.Ahead` — what is done beside the machine, and
  what the machine does itself, leave it about its errand;
* `ClientRun.Tidy.runCaller`, `ClientRun.Tidy.takeIn`, `ClientRun.Tidy.cut` — what
  happens beside the machine;
* `ClientRun.Tidy.use`, `ClientRun.Tidy.proceed`, `ClientRun.Tidy.take` — how the
  machine begins an errand, goes on with it, and takes what has come of it.
-/

namespace OpcSession.Simulation

open Session Client

/-! ## Errands -/

/-- Whether an activity only exchanges a request for its response.  The others
connect or disconnect, and change what the rest of the client can do. -/
def Activity.isExchange : Activity → Bool
  | exchanging _ _ _ => true
  | _ => false

/-- Whether what the machine waits for is to be connected; it wants that
before it creates a session, and before it tries again to activate one. -/
def connects : Awaiting → Bool
  | .connectToCreate | .connectToReactivate => true
  | _ => false

/-- Whether what the machine waits for is to be disconnected, be it from a
connection that has failed or at the end of a session. -/
def disconnects : Awaiting → Bool
  | .dropConnection | .closeConnection => true
  | _ => false

/-- The activities that an errand consists of.  To connect takes waiting for
the turn and dialing, and to disconnect waiting for the turn and hanging
up. -/
def Activity.Serves (a : Awaiting) : Activity → Prop
  | connecting | dialing _ => connects a
  | disconnecting | closing => disconnects a
  | exchanging _ _ _ => connects a = false ∧ disconnects a = false

/-- The calls that an errand begins with; the machine makes exactly one for
each thing that it waits for. -/
def Begins (a : Awaiting) : Call → Prop
  | .connect => connects a
  | .disconnect => disconnects a
  | .send _ => connects a = false ∧ disconnects a = false

/-- Nothing that the machine waits for is both to be connected and to be
disconnected. -/
theorem not_disconnects_of_connects {a : Awaiting} (h : connects a) : ¬ disconnects a := by
  cases a <;> first | exact Bool.false_ne_true | cases h

namespace ClientRun

variable (r : ClientRun) (o o' : Owner)

/-- What has come of what an owner did and was not taken yet. -/
def outcome? : Option Outcome := (r.outcomes.find? (·.1 = o)).map (·.2)

/-- The connection that was opened last and not given up, and whether it is
alive. -/
def line? : Option (ConnectionId × Bool) :=
  r.channel.link?.map fun l => (l.connection, l.alive)

/-- The channel is connected when the line is alive; a line that ended by
itself is still there, and is no connection. -/
theorem isConnected_iff :
    r.channel.isConnected ↔ ∃ connection, r.line? = some (connection, true) := by
  unfold Channel.isConnected Channel.current? line?
  cases r.channel.link? with
  | none => simp
  | some link => cases hlink : link.alive <;> simp [hlink]

/-- Who waits for a response on the link, with the handle of the request. -/
def awaited : List (UInt32 × Owner) := (r.channel.link?.map (·.pending)).getD []

/-- What the machine is about on the channel, by what it waits for. -/
inductive Errand (r : ClientRun) : Option Awaiting → Prop
  /-- It waits for nothing, does nothing, and has nothing to take. -/
  | rests (hidle : r.activity? .machine = none) (hnothing : r.outcome? .machine = none) :
      Errand r none
  /-- It does what serves the errand.  When it hangs up, the link was given up
  before. -/
  | doing {a : Awaiting} {activity : Activity} (hdoing : r.activity? .machine = some activity)
      (hnothing : r.outcome? .machine = none) (hserves : activity.Serves a)
      (hclosed : activity = .closing → r.line? = none) : Errand r (some a)
  /-- Something has come of the errand.  After disconnecting there is no line;
  after connecting there is one, or the machine has an error to take. -/
  | done {a : Awaiting} {outcome : Outcome} (hidle : r.activity? .machine = none)
      (hcame : r.outcome? .machine = some outcome) (hclosed : disconnects a → r.line? = none)
      (hopened : connects a → r.line? = none → ∃ e, outcome = .failed e) : Errand r (some a)

/-- The machine is about the errand that it waits for, callers only exchange
requests for responses, and a response that is for the machine is the one that
it waits for. -/
structure Tidy (r : ClientRun) (a : Option Awaiting) : Prop where
  /-- The machine is about the errand that it waits for, and about no
  other. -/
  errand : r.Errand a
  callers : ∀ t activity, r.activity? (.caller t) = some activity → activity.isExchange
  /-- A response that would go to the machine is the one that it waits for. -/
  paired : ∀ handle, (handle, .machine) ∈ r.awaited →
    ∃ service deadline, r.activity? .machine = some (.exchanging handle service deadline)

/-! ## Activities and outcomes -/

/-- What is dropped of one owner is not found any more, and what is found of
others stays. -/
theorem find_other {α : Type} (xs : List (Owner × α)) :
    (xs.filter (·.1 ≠ o)).find? (·.1 = o') =
      if o' = o then none else xs.find? (·.1 = o') := by
  rw [List.find?_filter]
  split
  · rename_i hsame
    rw [List.find?_eq_none]
    simp [hsame]
  · rename_i hother
    congr 1
    funext p
    by_cases h : p.1 = o' <;> simp [h, hother]

/-- What an owner begins is what it does; the others do what they did. -/
theorem activity?_setActivity (a : Activity) :
    (r.setActivity o a).activity? o' = if o' = o then some a else r.activity? o' := by
  simp only [setActivity, dropActivity, activity?, List.find?_append, find_other]
  by_cases h : o' = o
  · simp [h]
  · simp [h, Ne.symm h]

/-- Whoever is done does nothing any more; the others do what they did. -/
theorem activity?_conclude (outcome : Outcome) :
    (r.conclude o outcome).activity? o' = if o' = o then none else r.activity? o' := by
  simp only [conclude, dropActivity, activity?, find_other]
  split <;> rfl

/-- Of what comes of one owner the first counts, and the others have what they
had. -/
theorem outcome?_conclude (outcome : Outcome) :
    (r.conclude o outcome).outcome? o' =
      (r.outcome? o').or (if o' = o then some outcome else none) := by
  simp only [conclude, dropActivity, outcome?, List.find?_append, Option.map_or]
  by_cases h : o' = o
  · simp [h]
  · simp [h, Ne.symm h]

/-- What is taken is the first of what has come, and nothing is left of it. -/
theorem takeOutcome?_cases {outcome : Outcome} {r' : ClientRun}
    (h : r.takeOutcome? o = some (outcome, r')) :
    r.outcome? o = some outcome ∧ r' = { r with outcomes := r.outcomes.filter (·.1 ≠ o) } := by
  obtain ⟨p, hfound, heq⟩ := Option.map_eq_some_iff.mp h
  cases heq
  exact ⟨by rw [outcome?, hfound]; rfl, rfl⟩

/-- What is taken is gone, and nothing is taken from the others. -/
theorem outcome?_of_takeOutcome? {outcome : Outcome} {r' : ClientRun}
    (h : r.takeOutcome? o = some (outcome, r')) :
    r'.outcome? o' = if o' = o then none else r.outcome? o' := by
  obtain ⟨-, rfl⟩ := takeOutcome?_cases r o h
  simp only [outcome?, find_other]
  split <;> rfl

/-- To drop what has come of an owner changes nothing if nothing has. -/
theorem outcome?_dropped {outcomes : List (Owner × Outcome)} (hnothing : r.outcome? o = none)
    (hdropped : outcomes = r.outcomes ∨ outcomes = r.outcomes.filter (·.1 ≠ o)) :
    ({ r with outcomes := outcomes } : ClientRun).outcome? o' = r.outcome? o' := by
  rcases hdropped with rfl | rfl
  · rfl
  · simp only [outcome?, find_other]
    split
    · rename_i hsame
      rw [hsame]
      exact hnothing.symm
    · rfl

/-! ## What stays as it is -/

/-- The link, what its users do and have done on it, and what callers were
answered. -/
def affairs : Option Link × List (Owner × Activity) × List (Owner × Outcome) ×
    List (Ticket × Session.Answer) :=
  (r.channel.link?, r.activities, r.outcomes, r.answers)

/-- To be ready is no affair of the channel: nothing that owners do or have
depends on when they run. -/
@[simp] theorem affairs_wake (t : Task) : (r.wake t).affairs = r.affairs := by
  unfold wake
  split <;> rfl

/-- The turn goes to the next owner, and nothing else becomes of anybody. -/
@[simp] theorem affairs_passTurn : r.passTurn.affairs = r.affairs := by
  unfold passTurn
  dsimp only
  split
  · exact affairs_wake _ _
  · rfl

/-- What comes in from the other side waits for the reader, and reaches no
owner so far. -/
@[simp] theorem affairs_push (i : Incoming) : (r.push i).affairs = r.affairs := affairs_wake _ _

/-- A notice is for whoever listens, and changes nothing on the channel. -/
@[simp] theorem affairs_notify (n : Notice) : (r.notify n).affairs = r.affairs := by
  unfold notify
  dsimp only
  split
  · exact affairs_wake _ _
  · rfl

variable {r} {r' : ClientRun} {a : Option Awaiting} {b : Awaiting}

/-- An errand depends on what the machine does and has done, and on whether
there is a link. -/
theorem Errand.congr (h : r.Errand a) (hactivity : r'.activity? .machine = r.activity? .machine)
    (houtcome : r'.outcome? .machine = r.outcome? .machine)
    (hline : r'.line? = none ↔ r.line? = none) : r'.Errand a := by
  cases h with
  | rests hidle hnothing => exact .rests (hactivity.trans hidle) (houtcome.trans hnothing)
  | doing hdoing hnothing hserves hclosed =>
      exact .doing (hactivity.trans hdoing) (houtcome.trans hnothing) hserves (by rwa [hline])
  | done hidle hcame hclosed hopened =>
      exact .done (hactivity.trans hidle) (houtcome.trans hcame) (by rwa [hline]) (by rwa [hline])

/-- The machine is still about its errand, and nobody was answered.  The line
may have changed, as it does when the connection ends. -/
structure Onward (a : Option Awaiting) (r r' : ClientRun) : Prop where
  /-- The machine is about what it was about. -/
  tidy : r'.Tidy a
  /-- No caller was answered by the machine, though one may have taken its
  answer. -/
  answers : r'.answers.Sublist r.answers

/-- What was done is done beside the machine: its errand is as it was, and so
is the line. -/
structure Beside (a : Option Awaiting) (r r' : ClientRun) : Prop extends Onward a r r' where
  /-- The line is the same: no connection was opened, lost, or given up. -/
  line : r'.line? = r.line?

/-- To do nothing is to do it beside the machine. -/
theorem Tidy.still (h : r.Tidy a) : Beside a r r := ⟨⟨h, .refl _⟩, rfl⟩

/-- What happens in two parts leaves the machine about its errand, if the
second does where the first has left it. -/
theorem Onward.trans {r'' : ClientRun} (h : Onward a r r') (h' : r'.Tidy a → Onward a r' r'') :
    Onward a r r'' := ⟨(h' h.tidy).tidy, (h' h.tidy).answers.trans h.answers⟩

/-- What happens in two parts beside the machine happens beside it. -/
theorem Beside.trans {r'' : ClientRun} (h : Beside a r r') (h' : r'.Tidy a → Beside a r' r'') :
    Beside a r r'' :=
  ⟨h.toOnward.trans fun htidy => (h' htidy).toOnward, (h' h.tidy).line.trans h.line⟩

/-- What leaves the activities and outcomes of the machine alone and keeps the
line is done beside it. -/
theorem Tidy.beside (h : r.Tidy a) (hactivity : r'.activity? .machine = r.activity? .machine)
    (houtcome : r'.outcome? .machine = r.outcome? .machine) (hline : r'.line? = r.line?)
    (hcallers : ∀ t activity, r'.activity? (.caller t) = some activity → activity.isExchange)
    (hawaited : ∀ handle, (handle, .machine) ∈ r'.awaited → (handle, .machine) ∈ r.awaited)
    (hanswers : r'.answers.Sublist r.answers) : Beside a r r' where
  tidy := {
    errand := h.errand.congr hactivity houtcome (by rw [hline])
    callers := hcallers
    paired := fun handle hwaits => by
      rw [hactivity]
      exact h.paired handle (hawaited handle hwaits) }
  answers := hanswers
  line := hline

/-- What an owner does is an affair of the channel. -/
theorem activity?_of_affairs (h : r'.affairs = r.affairs) (o : Owner) :
    r'.activity? o = r.activity? o := by
  rw [activity?, show r'.activities = r.activities from congrArg (·.2.1) h, ← activity?]

/-- What has come of an owner is an affair of the channel. -/
theorem outcome?_of_affairs (h : r'.affairs = r.affairs) (o : Owner) :
    r'.outcome? o = r.outcome? o := by
  rw [outcome?, show r'.outcomes = r.outcomes from congrArg (·.2.2.1) h, ← outcome?]

theorem line?_of_affairs (h : r'.affairs = r.affairs) : r'.line? = r.line? := by
  rw [line?, show r'.channel.link? = r.channel.link? from congrArg (·.1) h, ← line?]

/-- Who waits, and under which handles, is an affair of the channel. -/
theorem awaited_of_affairs (h : r'.affairs = r.affairs) : r'.awaited = r.awaited := by
  rw [awaited, show r'.channel.link? = r.channel.link? from congrArg (·.1) h, ← awaited]

/-- What leaves the affairs of the channel alone happens beside the
machine. -/
theorem Tidy.congr (h : r.Tidy a) (haffairs : r'.affairs = r.affairs) : Beside a r r' := by
  refine h.beside (activity?_of_affairs haffairs _) (outcome?_of_affairs haffairs _)
    (line?_of_affairs haffairs) ?_ ?_ ?_
  · intro t activity
    rw [activity?_of_affairs haffairs]
    exact h.callers t activity
  · rw [awaited_of_affairs haffairs]
    exact fun _ hwaits => hwaits
  · have hsame : r'.answers = r.answers := congrArg (·.2.2.2) haffairs
    exact hsame ▸ List.Sublist.refl _

/-! ## What callers do -/

/-- Something has come of what a caller did, which is nothing to the
machine. -/
theorem Tidy.conclude_caller (h : r.Tidy a) (t : Ticket) (outcome : Outcome) :
    Beside a r (r.conclude (.caller t) outcome) := by
  refine h.beside ?_ ?_ rfl ?_ (fun _ hwaits => hwaits) (.refl _)
  · rw [activity?_conclude, if_neg (by simp)]
  · rw [outcome?_conclude, if_neg (by simp), Option.or_none]
  · intro t' activity
    rw [activity?_conclude]
    split
    · exact nofun
    · exact h.callers t' activity

/-- Whoever waits for the response with a handle waits no more when it was
withdrawn. -/
theorem mem_awaited_withdraw (handle : UInt32) (p : UInt32 × Owner) :
    p ∈ ({ r with channel := r.channel.withdraw handle } : ClientRun).awaited ↔
      p ∈ r.awaited ∧ p.1 ≠ handle := by
  simp only [awaited, Channel.withdraw]
  cases hlink : r.channel.link? with
  | none => simp
  | some l => simp

/-- Nobody waits any more for the response with a handle.  If the machine did,
it goes on with its errand and has to find out by its deadline. -/
theorem Tidy.withdraw (h : r.Tidy a) (handle : UInt32) :
    Beside a r { r with channel := r.channel.withdraw handle } := by
  refine h.beside rfl rfl ?_ h.callers ?_ (.refl _)
  · simp only [line?, Channel.withdraw, Option.map_map]
    rfl
  · exact fun _ hwaits => ((mem_awaited_withdraw handle _).mp hwaits).1

@[simp] theorem link?_allocate (c : Channel) : c.allocate.2.link? = c.link? := by
  unfold Channel.allocate
  split <;> rfl

@[simp] theorem turns_allocate (c : Channel) : c.allocate.2.turns = c.turns := by
  unfold Channel.allocate
  split <;> rfl

/-- Whoever is registered while there is a connection waits; without one it
would be registered nowhere. -/
theorem awaits_register {c : Channel} {link : Link} (h : c.current? = some link)
    (handle : UInt32) (o : Owner) : (c.register handle o).awaits handle o := by
  obtain ⟨hlink, halive⟩ := Option.filter_eq_some_iff.mp h
  simp [Channel.awaits, Channel.pending, Channel.current?, Channel.register, hlink,
    Option.filter, halive]

/-- A request that failed at once leaves nobody waiting who did not before,
and nothing that has come of what others did is lost. -/
structure Spares (o : Owner) (r r' : ClientRun) : Prop where
  activities : r'.activities = r.activities
  /-- What others have to return with stays, and so does what nobody had. -/
  outcomes : ∀ o', o' ≠ o ∨ r.outcome? o' = none → r'.outcome? o' = r.outcome? o'
  /-- Nothing has come of anybody that had not before. -/
  fewer : ∀ o' x, r'.outcome? o' = some x → r.outcome? o' = some x
  line : r'.line? = r.line?
  /-- Nobody waits who did not before. -/
  awaited : ∀ p ∈ r'.awaited, p ∈ r.awaited
  answers : r'.answers = r.answers

/-- What leaves the affairs of the channel alone spares everybody. -/
theorem Spares.of_affairs {o : Owner} (h : r'.affairs = r.affairs) : Spares o r r' where
  activities := congrArg (·.2.1) h
  outcomes := fun o' _ => outcome?_of_affairs h o'
  fewer := fun o' _ hcame => (outcome?_of_affairs h o').symm.trans hcame
  line := line?_of_affairs h
  awaited := fun _ hwaits => awaited_of_affairs h ▸ hwaits
  answers := congrArg (·.2.2.2) h

/-- To wait and to wait no more spares everybody, also where the owner gives
up something that had come of it before. -/
theorem Spares.of_withdrawn {o : Owner} (handle : UInt32) {outcomes : List (Owner × Outcome)}
    (hdropped : outcomes = r.outcomes ∨ outcomes = r.outcomes.filter (·.1 ≠ o))
    (h : r'.affairs = ({ r with
      channel := (r.channel.register handle o).withdraw handle
      outcomes := outcomes } : ClientRun).affairs) : Spares o r r' where
  activities := congrArg (·.2.1) h
  outcomes := by
    intro o' hfree
    rw [outcome?_of_affairs h]
    rcases hdropped with rfl | rfl
    · rfl
    · simp only [outcome?, find_other]
      split
      · rename_i hsame
        rcases hfree with hother | hnothing
        · exact absurd hsame hother
        · exact hnothing.symm
      · rfl
  fewer := by
    intro o' x hcame
    rw [outcome?_of_affairs h] at hcame
    rcases hdropped with rfl | rfl
    · exact hcame
    · simp only [outcome?, find_other] at hcame
      split at hcame
      · cases hcame
      · exact hcame
  line := by
    rw [line?_of_affairs h]
    simp only [line?, Channel.withdraw, Channel.register, Option.map_map]
    rfl
  awaited := by
    intro p hwaits
    rw [awaited_of_affairs h] at hwaits
    simp only [ClientRun.awaited, Channel.withdraw, Channel.register, Option.map_map] at hwaits ⊢
    cases hlink : r.channel.link? with
    | none => simp [hlink] at hwaits
    | some l =>
        simp only [hlink, Option.map_some, Option.getD_some, Function.comp_apply,
          List.filter_append, List.mem_append, List.mem_filter, List.mem_singleton] at hwaits ⊢
        rcases hwaits with hwaits | ⟨rfl, hother⟩
        · exact hwaits.1
        · simp at hother
  answers := congrArg (·.2.2.2) h

/-- What may come of a request without any response: it was not answered in
time, or something was wrong with the connection. -/
def Mishap (outcome : Outcome) : Prop :=
  outcome = .failed .timeout ∨ ∃ text, outcome = .failed (.transport text)

/-- A mishap is a failure, so the owner of the request has an error to return
with. -/
theorem Mishap.failed {outcome : Outcome} (h : Mishap outcome) : ∃ e, outcome = .failed e := by
  rcases h with rfl | ⟨text, rfl⟩
  · exact ⟨_, rfl⟩
  · exact ⟨_, rfl⟩

/-- A request fails at once, or goes out under the next handle, which its
owner waits for. -/
theorem post_cases (r : ClientRun) (o : Owner) (request : Request) :
    (r.channel.current? = none ∧
      r.post o request = (none, r.conclude o (.failed Channel.notConnected))) ∨
    ∃ link, r.channel.current? = some link ∧
      ((∃ peer text, r.post o request = (none,
          ({ r with channel := r.channel.allocate.2, peer := peer } : ClientRun).conclude o
            (.failed (.transport text)))) ∨
        ∃ envelope : RequestEnvelope,
          envelope = { handle := r.channel.allocate.1
                       body := request.withHandle r.channel.allocate.1 } ∧
          r.post o request = (some envelope,
            ({ r with
              channel := r.channel.allocate.2.register r.channel.allocate.1 o } : ClientRun).observe
                (.sent envelope link.connection))) := by
  unfold post
  cases r.channel.current? with
  | none => exact .inl ⟨rfl, rfl⟩
  | some link =>
      refine .inr ⟨link, rfl, ?_⟩
      dsimp only
      split
      · exact .inl ⟨_, _, rfl⟩
      · exact .inr ⟨_, rfl, rfl⟩

/-- The request of an owner that waits fails as soon as it is handed over, or
the owner goes on waiting. -/
theorem handOver_cases (r : ClientRun) (o : Owner) (envelope : RequestEnvelope)
    (error : Option TransportError) (hawaits : r.channel.awaits envelope.handle o) :
    (∃ outcomes outcome, Mishap outcome ∧
      (outcomes = r.outcomes ∨ outcomes = r.outcomes.filter (·.1 ≠ o)) ∧
      r.handOver o envelope error = ({ r with
        channel := r.channel.withdraw envelope.handle
        outcomes := outcomes } : ClientRun).conclude o outcome) ∨
      ∃ service deadline,
        r.handOver o envelope error =
          r.setActivity o (.exchanging envelope.handle service deadline) := by
  cases error with
  | some e =>
      rw [handOver, if_pos hawaits]
      exact .inl ⟨_, _, .inr ⟨_, rfl⟩, .inr rfl, rfl⟩
  | none =>
      rw [handOver, if_pos hawaits]
      dsimp only
      split
      · exact .inl ⟨_, _, .inl rfl, .inl rfl, rfl⟩
      · exact .inr ⟨_, _, rfl⟩

/-- The request of an owner that does not wait any more: what has come of it
stays, or it has failed. -/
theorem handOver_gone (r : ClientRun) (o : Owner) (envelope : RequestEnvelope)
    (error : Option TransportError) (hgone : ¬ r.channel.awaits envelope.handle o)
    (hidle : r.activity? o = none) :
    (r.handOver o envelope error).channel = r.channel ∧
      (∀ o', (r.handOver o envelope error).activity? o' = r.activity? o') ∧
      (∀ o', o' ≠ o → (r.handOver o envelope error).outcome? o' = r.outcome? o') ∧
      ∃ x, (r.handOver o envelope error).outcome? o = some x ∧
        (r.outcome? o = some x ∨ ∃ text, x = .failed (.transport text)) := by
  -- Where nothing has come of it, or that is dropped, the request has failed.
  have hfailed : ∀ (outcomes : List (Owner × Outcome)) (text : String),
      (∀ o', o' ≠ o → outcomes.find? (·.1 = o') = r.outcomes.find? (·.1 = o')) →
      outcomes.find? (·.1 = o) = none →
      let r' := ({ r with outcomes := outcomes } : ClientRun).conclude o (.failed (.transport text))
      r'.channel = r.channel ∧ (∀ o', r'.activity? o' = r.activity? o') ∧
        (∀ o', o' ≠ o → r'.outcome? o' = r.outcome? o') ∧
        ∃ x, r'.outcome? o = some x ∧
          (r.outcome? o = some x ∨ ∃ text, x = .failed (.transport text)) := by
    intro outcomes text hothers hnone
    refine ⟨rfl, fun o' => ?_, fun o' hother => ?_, _, ?_, .inr ⟨text, rfl⟩⟩
    · rw [activity?_conclude]
      split
      · rename_i hsame
        rw [hsame, hidle]
      · rfl
    · rw [outcome?_conclude, if_neg hother, Option.or_none, outcome?, hothers o' hother, ← outcome?]
    · rw [outcome?_conclude, outcome?, hnone, if_pos rfl]
      rfl
  cases error with
  | some e =>
      rw [handOver, if_neg hgone]
      refine hfailed _ _ (fun o' hother => ?_) ?_
      · rw [find_other, if_neg hother]
      · rw [find_other, if_pos rfl]
  | none =>
      rw [handOver, if_neg hgone]
      split
      · rename_i hcame
        obtain ⟨p, hp, howner⟩ := List.any_eq_true.mp hcame
        obtain ⟨q, hfound⟩ : ∃ q, r.outcomes.find? (·.1 = o) = some q :=
          Option.isSome_iff_exists.mp (List.find?_isSome.mpr ⟨p, hp, howner⟩)
        exact ⟨rfl, fun _ => rfl, fun _ _ => rfl, q.2, by rw [outcome?, hfound]; rfl,
          .inl (by rw [outcome?, hfound]; rfl)⟩
      · rename_i hnothing
        refine hfailed r.outcomes _ (fun _ _ => rfl) (List.find?_eq_none.mpr fun p hp howner => ?_)
        exact hnothing (List.any_eq_true.mpr ⟨p, hp, howner⟩)

/-- A request fails at once, or its owner waits for the response.  All that
follows about sending uses the two cases, not how they come about. -/
theorem send_cases (r : ClientRun) (o : Owner) (request : Request) :
    (∃ (r₁ : ClientRun) (e : SessionError), Spares o r r₁ ∧
      r.send o request = r₁.conclude o (.failed e)) ∨
    ∃ (r₁ : ClientRun) (handle : UInt32) (service : String) (deadline : Duration),
      r₁.affairs = ({ r with channel := r.channel.register handle o } : ClientRun).affairs ∧
      r.send o request = r₁.setActivity o (.exchanging handle service deadline) := by
  have hlink? := link?_allocate r.channel
  unfold send
  rcases post_cases r o request with
    ⟨-, hposted⟩ | ⟨link, hconnected, ⟨peer, text, hposted⟩ | ⟨envelope, rfl, hposted⟩⟩
  · rw [hposted]
    exact .inl ⟨r, _, .of_affairs rfl, rfl⟩
  · rw [hposted]
    exact .inl ⟨_, _, .of_affairs (by rw [affairs, hlink?]; rfl), rfl⟩
  · rw [hposted]
    generalize r.channel.allocate.1 = handle
    generalize r.channel.allocate.2 = channel at hlink?
    dsimp only
    generalize hhanded : ClientRun.wake _ _ = r₁
    have hchannel₁ : r₁.channel = channel.register handle o := by
      rw [← hhanded, channel_wake]
      rfl
    have hregistered : r₁.affairs =
        ({ r with channel := r.channel.register handle o } : ClientRun).affairs := by
      rw [← hhanded, affairs_wake]
      simp only [affairs, observe, Channel.register, hlink?]
    have hawaits : r₁.channel.awaits handle o := by
      rw [hchannel₁]
      exact awaits_register (by rwa [Channel.current?, hlink?]) handle o
    rcases handOver_cases r₁ o { handle := handle, body := request.withHandle handle } _
      hawaits with
      ⟨outcomes, outcome, hmishap, hdropped, hfailed⟩ | ⟨service, deadline, hgoes⟩
    · obtain ⟨e, rfl⟩ := hmishap.failed
      have hactivities₁ : r₁.activities = r.activities := congrArg (·.2.1) hregistered
      have houtcomes₁ : r₁.outcomes = r.outcomes := congrArg (·.2.2.1) hregistered
      have hanswers₁ : r₁.answers = r.answers := congrArg (·.2.2.2) hregistered
      have hlink₁ : r₁.channel.link? = (r.channel.register handle o).link? :=
        congrArg (·.1) hregistered
      refine .inl ⟨_, e, .of_withdrawn handle (houtcomes₁ ▸ hdropped) ?_, hfailed⟩
      simp only [affairs, Channel.withdraw, hlink₁, hactivities₁, hanswers₁]
    · exact .inr ⟨r₁, handle, service, deadline, hregistered, hgoes⟩

/-- To wait on a link leaves the line as it is. -/
theorem line?_register (r : ClientRun) (handle : UInt32) (o : Owner) :
    ({ r with channel := r.channel.register handle o } : ClientRun).line? = r.line? := by
  simp only [line?, Channel.register, Option.map_map]
  rfl

/-- Whoever waits after an owner was registered is that owner, under its
handle, or waited before. -/
theorem awaited_register {handle handle' : UInt32} {o o' : Owner}
    (h : (handle', o') ∈
      ({ r with channel := r.channel.register handle o } : ClientRun).awaited) :
    (handle', o') ∈ r.awaited ∨ (handle' = handle ∧ o' = o) := by
  simp only [awaited, Channel.register] at h ⊢
  cases hlink : r.channel.link? with
  | none => simp [hlink] at h
  | some l =>
      simp only [hlink, Option.map_some, Option.getD_some, List.mem_append, List.mem_singleton,
        Prod.mk.injEq] at h ⊢
      exact h

/-- A request that failed at once failed beside the machine, as long as it was
not the machine's own with something else to take. -/
theorem Tidy.spares (h : r.Tidy a) {o : Owner} (hspares : Spares o r r')
    (hfree : o = .machine → r.outcome? .machine = none) : Beside a r r' := by
  have hactivity : ∀ o', r'.activity? o' = r.activity? o' := by
    intro o'
    rw [activity?, hspares.activities, ← activity?]
  refine h.beside (hactivity _) (hspares.outcomes _ ?_) hspares.line ?_
    (fun handle => hspares.awaited _) (hspares.answers ▸ .refl _)
  · cases o with
    | machine => exact .inr (hfree rfl)
    | caller t => exact .inl (by simp)
  · intro t doing
    rw [hactivity]
    exact h.callers t doing

/-- A caller sends a request, and waits for the response or has failed; the
machine's errand goes on. -/
theorem Tidy.send_caller (h : r.Tidy a) (t : Ticket) (request : Request) :
    Beside a r (r.send (.caller t) request) := by
  rcases send_cases r (.caller t) request with
    ⟨r₁, e, hspares, hsent⟩ | ⟨r₁, handle, service, deadline, hregistered, hsent⟩
  · rw [hsent]
    exact (h.spares hspares nofun).trans (·.conclude_caller t (.failed e))
  · rw [hsent]
    refine h.beside ?_ ?_ ?_ ?_ ?_ ?_
    · rw [activity?_setActivity, if_neg (by simp)]
      exact activity?_of_affairs hregistered _
    · exact outcome?_of_affairs hregistered _
    · exact (line?_of_affairs hregistered).trans (line?_register r handle (.caller t))
    · intro t' activity
      rw [activity?_setActivity]
      split
      · rintro ⟨⟩
        rfl
      · rw [activity?_of_affairs hregistered]
        exact h.callers t' activity
    · intro handle' hwaits
      have hwaits' : (handle', .machine) ∈ r₁.awaited := hwaits
      rw [awaited_of_affairs hregistered] at hwaits'
      rcases awaited_register hwaits' with hwaits | ⟨-, hother⟩
      · exact hwaits
      · cases hother
    · have hsame : r₁.answers = r.answers := congrArg (·.2.2.2) hregistered
      exact hsame ▸ List.Sublist.refl _

/-- What a caller does on the channel goes on, which is to wait, or to find
that there is no time left. -/
theorem Tidy.proceed_caller (h : r.Tidy a) (t : Ticket) : Beside a r (r.proceed (.caller t)) := by
  unfold proceed
  cases hdoing : r.activity? (.caller t) with
  | none => exact h.still
  | some activity =>
      cases activity with
      | exchanging handle service deadline =>
          dsimp only
          split
          · exact (h.withdraw handle).trans (·.conclude_caller t _)
          · exact h.still
      | _ => cases h.callers t _ hdoing

/-- What has come of what a caller did is taken, and nobody waits for it. -/
theorem Tidy.take_caller (h : r.Tidy a) {t : Ticket} {outcome : Outcome}
    (htaken : r.takeOutcome? (.caller t) = some (outcome, r')) : Beside a r r' := by
  have houtcomes := outcome?_of_takeOutcome? r (.caller t) .machine htaken
  obtain ⟨-, rfl⟩ := takeOutcome?_cases r _ htaken
  exact h.beside rfl (by rw [houtcomes, if_neg (by simp)]) rfl h.callers
    (fun _ hwaits => hwaits) (.refl _)

/-- A caller looks for what has come of its request, beside the machine. -/
theorem Tidy.collect (h : r.Tidy a) (c : Caller) : Beside a r (r.collect c) := by
  unfold ClientRun.collect
  have hproceeded := h.proceed_caller c.ticket
  dsimp only
  split
  · exact hproceeded
  · rename_i htaken
    exact (hproceeded.trans (·.take_caller htaken)).trans (·.congr rfl)

/-- A caller that goes on without connecting or disconnecting leaves the
errand of the machine alone. -/
theorem Tidy.follow (h : r.Tidy a) (c : Caller) (next : Next)
    (habstains : next ≠ .use .connect ∧ next ≠ .use .disconnect) :
    Beside a r (r.follow c next) := by
  cases next with
  | ask command => exact h.congr (affairs_wake _ _)
  | use call =>
      cases call with
      | connect => exact absurd rfl habstains.1
      | disconnect => exact absurd rfl habstains.2
      | send request => exact (h.send_caller c.ticket request).trans (·.collect c)
  | _ => exact h.congr rfl

/-- A call that was answered by the machine neither connects nor disconnects.
Callers that do so use the channel directly, and are left out here. -/
theorem answered_abstains (g : Goal) (hint : UInt32) (answer : Session.Answer) :
    g.answered hint answer ≠ .use .connect ∧ g.answered hint answer ≠ .use .disconnect := by
  cases answer with
  | session outcome =>
      cases outcome with
      | error e => simp [Goal.answered]
      | ok s => cases g <;> simp [Goal.answered]
  | state k => simp [Goal.answered]
  | disconnected => simp [Goal.answered]

/-- **A call that goes on does so beside the machine**: it exchanges a
request, or is over. -/
theorem Tidy.runCaller (h : r.Tidy a) (t : Ticket) : Beside a r (r.runCaller t) := by
  unfold ClientRun.runCaller
  split
  · exact h.still
  · split
    · have htaken : Beside a r { r with answers := r.answers.filter (·.1 ≠ t) } :=
        h.beside rfl rfl rfl h.callers (fun _ hwaits => hwaits) List.filter_sublist
      exact htaken.trans (·.follow _ _ (answered_abstains _ _ _))
    · exact h.collect _

/-! ## What comes in -/

/-- Something has come of what the machine did: the connection is given up if
that is what it was about, and there is one if that is. -/
theorem Tidy.conclude (h : r.Tidy a) {activity : Activity} {outcome : Outcome}
    (hdoing : r.activity? .machine = some activity)
    (halone : ∀ handle, (handle, .machine) ∉ r.awaited)
    (hclosed : ∀ b ∈ a, disconnects b → r.line? = none)
    (hopened : ∀ b ∈ a, connects b → r.line? = none → ∃ e, outcome = .failed e) :
    Beside a r (r.conclude .machine outcome) where
  tidy := {
    errand := by
      cases h.errand with
      | rests hidle => cases hidle.symm.trans hdoing
      | done hidle => cases hidle.symm.trans hdoing
      | doing hdoing hnothing hserves =>
          exact .done (by rw [activity?_conclude, if_pos rfl])
            (by rw [outcome?_conclude, hnothing, if_pos rfl]; rfl) (hclosed _ rfl) (hopened _ rfl)
    callers := by
      intro t activity
      rw [activity?_conclude, if_neg (by simp)]
      exact h.callers t activity
    paired := fun handle hwaits => absurd hwaits (halone handle) }
  answers := .refl _
  line := rfl

/-- What the machine does serves what it waits for, so it does nothing while
it waits for nothing. -/
theorem Tidy.serves (h : r.Tidy a) {activity : Activity}
    (hdoing : r.activity? .machine = some activity) : ∃ b, a = some b ∧ activity.Serves b := by
  cases h.errand with
  | rests hidle => cases hidle.symm.trans hdoing
  | done hidle => cases hidle.symm.trans hdoing
  | @doing b _ hdoing' hnothing hserves =>
      cases hdoing'.symm.trans hdoing
      exact ⟨b, rfl, hserves⟩

/-- The exchange of the machine has come to its end, with a response or
without, and nobody waits for it any more. -/
theorem Tidy.conclude_exchange (h : r.Tidy a) {handle : UInt32} {service : String}
    {deadline : Duration}
    (hexchanging : r.activity? .machine = some (.exchanging handle service deadline))
    (halone : ∀ handle, (handle, .machine) ∉ r.awaited) (outcome : Outcome) :
    Beside a r (r.conclude .machine outcome) := by
  obtain ⟨b, rfl, hconnects, hdisconnects⟩ := h.serves hexchanging
  refine h.conclude hexchanging halone ?_ ?_
  · rintro _ ⟨⟩
    rw [hdisconnects]
    nofun
  · rintro _ ⟨⟩
    rw [hconnects]
    nofun

/-- Requests that are lost are lost beside the machine: if its own is among
them it has failed, and the errand is done. -/
theorem Tidy.abandon (h : r.Tidy a) (halone : r.awaited = []) (pending : List (UInt32 × Owner)) :
    Beside a r (r.abandon pending) ∧ (r.abandon pending).awaited = [] := by
  induction pending generalizing r with
  | nil => exact ⟨h.still, halone⟩
  | cons p rest ih =>
      have hfirst : ∀ r₁ : ClientRun, Beside a r r₁ → r₁.awaited = [] →
          Beside a r (r₁.abandon rest) ∧ (r₁.abandon rest).awaited = [] := by
        intro r₁ hbeside halone
        obtain ⟨hlater, hnone⟩ := ih hbeside.tidy halone
        exact ⟨hbeside.trans fun _ => hlater, hnone⟩
      obtain ⟨handle, o⟩ := p
      simp only [ClientRun.abandon, List.foldl_cons]
      split
      · rename_i handle' service deadline hexchanging
        have hwoken : ∀ r₁ : ClientRun, Beside a r r₁ → r₁.awaited = [] →
            Beside a r (r₁.wake (taskOf o)) ∧ (r₁.wake (taskOf o)).awaited = [] := by
          intro r₁ hbeside hnone
          exact ⟨hbeside.trans (·.congr (affairs_wake _ _)),
            (awaited_of_affairs (affairs_wake _ _)).trans hnone⟩
        cases o with
        | caller t =>
            obtain ⟨hbeside, hnone⟩ := hwoken _ (h.conclude_caller t _) halone
            exact hfirst _ hbeside hnone
        | machine =>
            obtain ⟨hbeside, hnone⟩ :=
              hwoken _ (h.conclude_exchange hexchanging (by simp [halone]) _) halone
            exact hfirst _ hbeside hnone
      · exact hfirst r h.still halone

/-- Who waits on a link that is alive waits on the link; the converse fails
when it is dead. -/
theorem mem_awaited_of_pending {p : UInt32 × Owner} (h : p ∈ r.channel.pending) :
    p ∈ r.awaited := by
  unfold Channel.pending Channel.current? at h
  unfold awaited
  cases hlink : r.channel.link? with
  | none => simp [hlink] at h
  | some l =>
      rw [hlink, Option.filter_some] at h
      split at h
      · exact h
      · cases h

theorem isConnected_of_pending {c : Channel} {p : UInt32 × Owner} (hwaits : p ∈ c.pending) :
    c.isConnected := by
  unfold Channel.pending at hwaits
  unfold Channel.isConnected
  cases hconnected : c.current? with
  | none => simp [hconnected] at hwaits
  | some link => rfl

/-- A response is handed on as it is, unless it is a fault. -/
theorem outcome_cases (b : Response) :
    (∃ e, Channel.outcome b = .failed e) ∨ Channel.outcome b = .response b := by
  unfold Channel.outcome
  split
  · exact .inl ⟨_, rfl⟩
  · exact .inr rfl

/-- A response that comes in goes to whoever waits for it, if somebody does; a
fault is noticed. -/
theorem takeIn_eq (r : ClientRun) (e : ResponseEnvelope) :
    ∃ r₁ : ClientRun,
      (r₁ = { r with channel := r.channel.withdraw e.handle } ∨
        ∃ n, r₁ = ({ r with channel := r.channel.withdraw e.handle } : ClientRun).notify n) ∧
      ((r.takeIn e = r₁ ∧ ∀ o, (e.handle, o) ∉ r.channel.pending) ∨
        ∃ o, (e.handle, o) ∈ r.channel.pending ∧
          r.takeIn e = (r₁.conclude o (Channel.outcome e.body)).wake (taskOf o)) := by
  unfold takeIn
  generalize hreceived : r.channel.receive e = received
  obtain ⟨notice, owner, channel⟩ := received
  unfold Channel.receive at hreceived
  obtain ⟨-, howner, rfl⟩ : _ ∧ (r.channel.pending.find? (·.1 = e.handle)).map (·.2) = owner ∧
      r.channel.withdraw e.handle = channel := by
    cases hreceived
    exact ⟨trivial, rfl, rfl⟩
  refine ⟨notice.elim { r with channel := r.channel.withdraw e.handle }
      ({ r with channel := r.channel.withdraw e.handle } : ClientRun).notify, ?_, ?_⟩
  · cases notice with
    | none => exact .inl rfl
    | some n => exact .inr ⟨n, rfl⟩
  cases owner with
  | none =>
      refine .inl ⟨rfl, fun o hwaits => ?_⟩
      simpa using List.find?_eq_none.mp (Option.map_eq_none_iff.mp howner) _ hwaits
  | some o =>
      obtain ⟨p, hfound, rfl⟩ := Option.map_eq_some_iff.mp howner
      have hhandle : p.1 = e.handle := by simpa using List.find?_some hfound
      refine .inr ⟨p.2, ?_, rfl⟩
      rw [← hhandle]
      exact List.mem_of_find?_eq_some hfound

/-- For the channel a response that comes in is at most something that has
come of what its owner did. -/
theorem takeIn_cases (r : ClientRun) (e : ResponseEnvelope) :
    ∃ r₁ : ClientRun,
      r₁.affairs = ({ r with channel := r.channel.withdraw e.handle } : ClientRun).affairs ∧
      ((r.takeIn e = r₁ ∧ ∀ o, (e.handle, o) ∉ r.channel.pending) ∨
        ∃ o, (e.handle, o) ∈ r.channel.pending ∧
          r.takeIn e = (r₁.conclude o (Channel.outcome e.body)).wake (taskOf o)) := by
  obtain ⟨r₁, rfl | ⟨n, rfl⟩, htaken⟩ := takeIn_eq r e
  · exact ⟨_, rfl, htaken⟩
  · exact ⟨_, affairs_notify _ n, htaken⟩

/-- **A response comes in beside the machine**, or is the one that it waits
for. -/
theorem Tidy.takeIn (h : r.Tidy a) (e : ResponseEnvelope) : Beside a r (r.takeIn e) := by
  obtain ⟨r₁, haffairs, ⟨hsame, -⟩ | ⟨o, hwaits, hconcluded⟩⟩ := takeIn_cases r e
  · rw [hsame]
    exact (h.withdraw e.handle).trans (·.congr haffairs)
  · generalize Channel.outcome e.body = outcome at hconcluded
    rw [hconcluded]
    have hwithdrawn := (h.withdraw e.handle).trans (·.congr haffairs)
    refine (hwithdrawn.trans fun h₁ => ?_).trans (·.congr (affairs_wake _ _))
    cases o with
    | caller t => exact h₁.conclude_caller t outcome
    | machine =>
        obtain ⟨service, deadline, hexchanging⟩ := h.paired e.handle (mem_awaited_of_pending hwaits)
        have hexchanging₁ : r₁.activity? .machine = some (.exchanging e.handle service deadline) :=
          (activity?_of_affairs haffairs _).trans hexchanging
        refine h₁.conclude_exchange hexchanging₁ ?_ outcome
        intro handle hwaits
        rw [awaited_of_affairs haffairs] at hwaits
        obtain ⟨hwaits, hother⟩ := (mem_awaited_withdraw _ _).mp hwaits
        obtain ⟨_, _, hexchanging'⟩ := h.paired handle hwaits
        cases hexchanging.symm.trans hexchanging'
        exact hother rfl

/-- The connection in use ends: the line is not alive any more, and the
machine goes on with its errand or has failed at it. -/
theorem Tidy.cut (h : r.Tidy a) :
    Onward a r r.cut ∧ r.cut.line? = r.line?.map fun l => (l.1, false) := by
  have hline : ({ r with channel := r.channel.finish.2 } : ClientRun).line? =
      r.line?.map fun l => (l.1, false) := by
    simp only [line?, Channel.finish, Option.map_map]
    rfl
  have halone : ({ r with channel := r.channel.finish.2 } : ClientRun).awaited = [] := by
    simp only [awaited, Channel.finish]
    cases r.channel.link? <;> rfl
  have hfinished : ({ r with channel := r.channel.finish.2 } : ClientRun).Tidy a := {
    errand := h.errand.congr rfl rfl (by rw [hline, Option.map_eq_none_iff])
    callers := h.callers
    paired := fun handle hwaits => by
      rw [halone] at hwaits
      cases hwaits }
  have habandoned := (hfinished.abandon halone r.channel.finish.1).1.trans
    (·.congr (affairs_notify _ .inactive))
  exact ⟨⟨habandoned.tidy, habandoned.answers⟩, habandoned.line.trans hline⟩

/-! ## What the machine does -/

/-- While the machine does not exchange a request no response is for it. -/
theorem Tidy.alone (h : r.Tidy a) {activity : Activity}
    (hdoing : r.activity? .machine = some activity) (hother : ¬ activity.isExchange)
    (handle : UInt32) : (handle, .machine) ∉ r.awaited := by
  intro hwaits
  obtain ⟨_, _, hexchanging⟩ := h.paired handle hwaits
  cases hdoing.symm.trans hexchanging
  exact hother rfl

/-- The machine goes on to another part of its errand, from waiting for the
turn to dialing or hanging up. -/
theorem Tidy.setActivity (h : r.Tidy a) {activity next : Activity}
    (hdoing : r.activity? .machine = some activity) (hother : ¬ activity.isExchange)
    (hserves : ∀ b ∈ a, next.Serves b) (hclosed : next = .closing → r.line? = none) :
    Beside a r (r.setActivity .machine next) where
  tidy := {
    errand := by
      cases h.errand with
      | rests hidle => cases hidle.symm.trans hdoing
      | done hidle => cases hidle.symm.trans hdoing
      | doing _ hnothing =>
          exact .doing (by rw [activity?_setActivity, if_pos rfl]) hnothing (hserves _ rfl) hclosed
    callers := by
      intro t activity
      rw [activity?_setActivity, if_neg (by simp)]
      exact h.callers t activity
    paired := fun handle hwaits => absurd hwaits (h.alone hdoing hother handle) }
  answers := .refl _
  line := rfl

/-- The machine hangs up when the link is given up, and is done with its
errand unless the close is held back. -/
theorem Tidy.hangUp (h : r.Tidy a) (hclosing : r.activity? .machine = some .closing)
    (hclosed : r.line? = none) : Beside a r (r.hangUp .machine) := by
  obtain ⟨b, rfl, hserves⟩ := h.serves hclosing
  unfold ClientRun.hangUp
  split
  · exact h.still
  · generalize r.peer.close = answer
    obtain ⟨error, peer⟩ := answer
    have hpeered : Beside (some b) r { r with peer := peer } := h.congr rfl
    refine (hpeered.trans fun h₁ => ?_).trans (·.congr (affairs_passTurn _))
    refine h₁.conclude hclosing (h.alone hclosing Bool.false_ne_true) (fun _ _ _ => hclosed) ?_
    rintro _ ⟨⟩ hconnects
    exact absurd hserves (not_disconnects_of_connects hconnects)

/-- A connection was opened, and the machine has what it was about.  Nobody
waits on the new link, so no response on it can be for the machine. -/
theorem Tidy.opened (h : r.Tidy (some b)) {deadline : Duration}
    (hdialing : r.activity? .machine = some (.dialing deadline)) (peer : Peer)
    (connection : ConnectionId) :
    Onward (some b) r
        ((((({ r with peer := peer, channel := r.channel.opened connection } : ClientRun).observe
          (.opened connection)).wake (.reader connection)).conclude .machine .done).passTurn) ∧
      ((((({ r with peer := peer, channel := r.channel.opened connection } : ClientRun).observe
        (.opened connection)).wake (.reader connection)).conclude .machine .done).passTurn).line? ≠
          none := by
  have hsame : ({ r with peer := peer, channel := r.channel.opened connection } :
    ClientRun).answers = r.answers := rfl
  generalize hr₁ : ({ r with peer := peer, channel := r.channel.opened connection } :
    ClientRun) = r₁ at hsame
  have halone : r₁.awaited = [] := by rw [← hr₁]; rfl
  have hline : r₁.line? ≠ none := by rw [← hr₁]; exact Option.some_ne_none _
  have hdialing₁ : r₁.activity? .machine = some (.dialing deadline) := by rw [← hr₁]; exact hdialing
  have hconnects : connects b := by
    obtain ⟨_, ⟨⟩, hserves⟩ := h.serves hdialing
    exact hserves
  have htidy : r₁.Tidy (some b) := {
    errand := by
      cases h.errand with
      | done hidle => cases hidle.symm.trans hdialing
      | doing hdoing hnothing hserves =>
          cases hdoing.symm.trans hdialing
          exact .doing hdialing₁ (by rw [← hr₁]; exact hnothing) hserves nofun
    callers := by rw [← hr₁]; exact h.callers
    paired := by simp [halone] }
  have haffairs : ((r₁.observe (.opened connection)).wake (.reader connection)).affairs =
      r₁.affairs := affairs_wake _ _
  have htold := htidy.congr haffairs
  suffices hconcluded : Beside (some b) _
      (((r₁.observe (.opened connection)).wake (.reader connection)).conclude .machine .done) by
    have hafter := (htold.trans fun _ => hconcluded).trans (·.congr (affairs_passTurn _))
    exact ⟨⟨hafter.tidy, hsame ▸ hafter.answers⟩, hafter.line ▸ hline⟩
  refine htold.tidy.conclude ((activity?_of_affairs haffairs _).trans hdialing₁) ?_ ?_ ?_
  · simp [awaited_of_affairs haffairs, halone]
  · rintro _ ⟨⟩ hdisconnects
    exact absurd hdisconnects (not_disconnects_of_connects hconnects)
  · rw [line?_of_affairs haffairs]
    exact fun _ _ _ hnone => absurd hnone hline

/-- The machine dials; no line is lost by that, since there was none that was
alive. -/
theorem Tidy.dial (h : r.Tidy a) {deadline : Duration}
    (hdialing : r.activity? .machine = some (.dialing deadline)) (deadline' : Duration) :
    Onward a r (r.dial .machine deadline') ∧
      ((r.dial .machine deadline').line? = none → r.line? = none) := by
  obtain ⟨b, rfl, hserves⟩ := h.serves hdialing
  have hbeside : ∀ {r'}, Beside (some b) r r' →
      Onward (some b) r r' ∧ (r'.line? = none → r.line? = none) :=
    fun hbeside => ⟨hbeside.toOnward, fun hnone => hbeside.line ▸ hnone⟩
  have hfailed : ∀ peer e, Beside (some b) r
      (({ r with peer := peer } : ClientRun).conclude .machine (.failed e)).passTurn := by
    intro peer e
    have hpeered : Beside (some b) r { r with peer := peer } := h.congr rfl
    refine (hpeered.trans fun h₁ => ?_).trans (·.congr (affairs_passTurn _))
    refine h₁.conclude hdialing (h.alone hdialing Bool.false_ne_true) ?_ fun _ _ _ _ => ⟨e, rfl⟩
    rintro _ ⟨⟩ hdisconnects
    exact absurd hdisconnects (not_disconnects_of_connects hserves)
  unfold ClientRun.dial
  split
  · split
    · exact hbeside (hfailed r.peer _)
    · exact hbeside h.still
  · split
    · exact hbeside (hfailed _ _)
    · obtain ⟨honward, hline⟩ := h.opened hdialing _ _
      exact ⟨honward, fun hnone => absurd hnone hline⟩

/-- Whoever does not exchange a request loses nothing with a connection, and
goes on with what it does. -/
theorem activity?_abandon {o : Owner} {activity : Activity} (pending : List (UInt32 × Owner))
    (hdoing : r.activity? o = some activity) (hother : ¬ activity.isExchange) :
    (r.abandon pending).activity? o = some activity := by
  induction pending generalizing r with
  | nil => exact hdoing
  | cons p rest ih =>
      simp only [ClientRun.abandon, List.foldl_cons]
      split
      · rename_i handle service deadline hexchanging
        refine ih ?_
        rw [activity?_of_affairs (affairs_wake _ _), activity?_conclude, if_neg]
        · exact hdoing
        · rintro rfl
          cases hdoing.symm.trans hexchanging
          exact hother rfl
      · exact ih hdoing

/-- The machine gives up the link, and hangs up.  All who waited on it fail,
of whom the machine is none. -/
theorem Tidy.detach (h : r.Tidy a) (hdisconnecting : r.activity? .machine = some .disconnecting)
    {connection : ConnectionId} {pending : List (UInt32 × Owner)} {channel : Channel}
    (hdetached : r.channel.detach = (some (connection, pending), channel)) :
    Onward a r ((((({ r with channel := channel } : ClientRun).abandon pending).observe
      (.close connection)).setActivity .machine .closing).hangUp .machine) := by
  obtain ⟨b, rfl, hserves⟩ := h.serves hdisconnecting
  obtain rfl : { r.channel with link? := none } = channel := congrArg Prod.snd hdetached
  have hgiven :
      ({ r with channel := { r.channel with link? := none } } : ClientRun).Tidy (some b) := {
    errand := by
      cases h.errand with
      | done hidle => cases hidle.symm.trans hdisconnecting
      | doing hdoing hnothing hserves =>
          cases hdoing.symm.trans hdisconnecting
          exact .doing hdoing hnothing hserves nofun
    callers := h.callers
    paired := fun _ hwaits => nomatch hwaits }
  have habandoned := (hgiven.abandon rfl pending).1
  have hdisconnecting :=
    activity?_abandon (r := { r with channel := { r.channel with link? := none } })
    pending hdisconnecting Bool.false_ne_true
  have honward : Onward (some b) r
      (({ r with channel := { r.channel with link? := none } } : ClientRun).abandon pending) :=
    ⟨habandoned.tidy, habandoned.answers⟩
  have hline : (({ r with channel := { r.channel with link? := none } } : ClientRun).abandon
    pending).line? = none := habandoned.line
  generalize ({ r with channel := { r.channel with link? := none } } : ClientRun).abandon
    pending = r₁ at honward hdisconnecting hline ⊢
  have htold : Beside (some b) r₁ (r₁.observe (.close connection)) := honward.tidy.congr rfl
  have hclosing : Beside (some b) (r₁.observe (.close connection))
      ((r₁.observe (.close connection)).setActivity .machine .closing) :=
    htold.tidy.setActivity hdisconnecting Bool.false_ne_true (by rintro _ ⟨⟩; exact hserves)
      fun _ => hline
  have hhung := hclosing.tidy.hangUp (by rw [activity?_setActivity, if_pos rfl]) hline
  exact honward.trans fun _ => ((htold.trans fun _ => hclosing).trans fun _ => hhung).toOnward

/-- An errand that needs no connection to be made or given up: all that are
exchanges, and to have none. -/
def KeepsLine (a : Option Awaiting) : Prop := ∀ b ∈ a, connects b = false ∧ disconnects b = false

/-- The machine goes on with its errand.  Only to disconnect costs it the
line, and what is neither to connect nor to disconnect leaves the line as it
is. -/
structure Ahead (a : Option Awaiting) (r r' : ClientRun) : Prop extends Onward a r r' where
  /-- An exchange leaves the line as it is. -/
  line : KeepsLine a → r'.line? = r.line?
  /-- The line is given up only by errands that are to disconnect. -/
  kept : (∀ b ∈ a, disconnects b = false) → r'.line? = none → r.line? = none

/-- What happens beside the machine is a way for its errand to go ahead. -/
theorem Beside.ahead (h : Beside a r r') : Ahead a r r' :=
  ⟨h.toOnward, fun _ => h.line, fun _ hnone => h.line ▸ hnone⟩

/-- What begins with the machine connecting goes on until it is connected, has
failed to, or has to wait for the other side. -/
theorem Tidy.proceed_connecting (h : r.Tidy a)
    (hconnecting : r.activity? .machine = some .connecting) :
    Ahead a r (r.proceed .machine) := by
  obtain ⟨b, rfl, hserves⟩ := h.serves hconnecting
  unfold ClientRun.proceed
  rw [hconnecting]
  dsimp only
  split
  · exact h.still.ahead
  · split
    · rename_i hconnected
      refine ((h.conclude hconnecting (h.alone hconnecting Bool.false_ne_true) ?_ ?_).trans
        (·.congr (affairs_passTurn _))).ahead
      · rintro _ ⟨⟩ hdisconnects
        exact absurd hdisconnects (not_disconnects_of_connects hserves)
      · intro _ _ _ hnone
        obtain ⟨connection, hline⟩ := r.isConnected_iff.mp hconnected
        cases hnone.symm.trans hline
    · have htold : Beside (some b) r (r.observe .connect) := h.congr rfl
      generalize r.elapsed + r.settings.transport.connectDuration = deadline
      have hdialing : Beside (some b) (r.observe .connect)
          ((r.observe .connect).setActivity .machine (.dialing deadline)) :=
        htold.tidy.setActivity hconnecting Bool.false_ne_true (by rintro _ ⟨⟩; exact hserves) nofun
      obtain ⟨hdialed, hkept⟩ :=
        hdialing.tidy.dial (by rw [activity?_setActivity, if_pos rfl]) deadline
      exact {
        toOnward := (htold.trans fun _ => hdialing).toOnward.trans fun _ => hdialed
        line := fun hkeeps => nomatch (hkeeps b rfl).1.symm.trans hserves
        kept := fun _ => hkept }

/-- What begins with the machine disconnecting goes on until there is no
link. -/
theorem Tidy.proceed_disconnecting (h : r.Tidy a)
    (hdisconnecting : r.activity? .machine = some .disconnecting) :
    Ahead a r (r.proceed .machine) := by
  obtain ⟨b, rfl, hserves⟩ := h.serves hdisconnecting
  suffices honward : Onward (some b) r (r.proceed .machine) by
    exact {
      toOnward := honward
      line := fun hkeeps => nomatch (hkeeps b rfl).2.symm.trans hserves
      kept := fun hkeeps => nomatch (hkeeps b rfl).symm.trans hserves }
  unfold ClientRun.proceed
  rw [hdisconnecting]
  dsimp only
  split
  · exact h.still.toOnward
  · split
    · rename_i hdetached
      have hline : r.line? = none := by
        have hnone : r.channel.link?.map (fun l => (l.connection, l.pending)) = none :=
          congrArg Prod.fst hdetached
        rw [line?, Option.map_eq_none_iff.mp hnone]
        rfl
      refine ((h.conclude hdisconnecting (h.alone hdisconnecting Bool.false_ne_true)
        (fun _ _ _ => hline) ?_).trans (·.congr (affairs_passTurn _))).toOnward
      rintro _ ⟨⟩ hconnects
      exact absurd hserves (not_disconnects_of_connects hconnects)
    · rename_i connection pending channel hdetached
      exact h.detach hdisconnecting hdetached

/-- **What the machine is about goes on as far as it can**, and it is the only
thing by which a line comes about or is given up. -/
theorem Tidy.proceed (h : r.Tidy a) : Ahead a r (r.proceed .machine) := by
  cases hdoing : r.activity? .machine with
  | none =>
      rw [ClientRun.proceed, hdoing]
      exact h.still.ahead
  | some activity =>
      cases activity with
      | connecting => exact h.proceed_connecting hdoing
      | disconnecting => exact h.proceed_disconnecting hdoing
      | dialing deadline =>
          obtain ⟨b, rfl, hserves⟩ := h.serves hdoing
          obtain ⟨honward, hkept⟩ := h.dial hdoing deadline
          rw [ClientRun.proceed, hdoing]
          exact {
            toOnward := honward
            line := fun hkeeps => nomatch (hkeeps b rfl).1.symm.trans hserves
            kept := fun _ => hkept }
      | closing =>
          have hclosed : r.line? = none := by
            cases h.errand with
            | rests hidle => cases hidle.symm.trans hdoing
            | done hidle => cases hidle.symm.trans hdoing
            | doing hdoing' hnothing hserves hclosed =>
                cases hdoing'.symm.trans hdoing
                exact hclosed rfl
          rw [ClientRun.proceed, hdoing]
          exact (h.hangUp hdoing hclosed).ahead
      | exchanging handle service deadline =>
          rw [ClientRun.proceed, hdoing]
          dsimp only
          split
          · refine ((h.withdraw handle).trans fun h₁ => h₁.conclude_exchange hdoing ?_ _).ahead
            intro handle' hwaits
            obtain ⟨hwaits, hother⟩ := (mem_awaited_withdraw _ _).mp hwaits
            obtain ⟨_, _, hdoing'⟩ := h.paired handle' hwaits
            cases hdoing.symm.trans hdoing'
            exact hother rfl
          · exact h.still.ahead

/-- **The machine takes what has come of its errand**: after it was to
disconnect there is no line, and after it was to connect there is one unless
that failed. -/
theorem Tidy.take (h : r.Tidy a) {outcome : Outcome}
    (htaken : r.takeOutcome? .machine = some (outcome, r')) :
    ∃ b, a = some b ∧ (disconnects b → r.line? = none) ∧
      (connects b → r.line? = none → ∃ e, outcome = .failed e) ∧ Beside none r r' := by
  have houtcomes := outcome?_of_takeOutcome? r .machine .machine htaken
  obtain ⟨hfound, rfl⟩ := takeOutcome?_cases r _ htaken
  cases h.errand with
  | rests _ hnothing => cases hnothing.symm.trans hfound
  | doing _ hnothing => cases hnothing.symm.trans hfound
  | @done b _ hidle hcame hclosed hopened =>
      cases hcame.symm.trans hfound
      refine ⟨b, rfl, hclosed, hopened, ?_⟩
      exact {
        tidy := {
          errand := .rests hidle (by rw [houtcomes, if_pos rfl])
          callers := h.callers
          paired := h.paired }
        answers := .refl _
        line := rfl }

/-- While the machine waits for nothing it is about nothing, and no response
can be for it. -/
theorem Tidy.idle (h : r.Tidy none) : r.activity? .machine = none ∧ r.outcome? .machine = none ∧
    ∀ handle, (handle, .machine) ∉ r.awaited := by
  cases h.errand with
  | rests hidle hnothing =>
      refine ⟨hidle, hnothing, fun handle hwaits => ?_⟩
      obtain ⟨_, _, hexchanging⟩ := h.paired handle hwaits
      cases hidle.symm.trans hexchanging

/-- The machine sets about an errand, from having none; what callers do beside
it is left alone. -/
theorem Tidy.undertake (h : r.Tidy none) {activity : Activity} (hserves : activity.Serves b)
    (hbegins : activity ≠ .closing) (hactivities : r'.activities = r.activities)
    (houtcomes : r'.outcomes = r.outcomes) (hline : r'.line? = r.line?)
    (hanswers : r'.answers.Sublist r.answers)
    (hpaired : ∀ handle, (handle, .machine) ∈ r'.awaited →
      (handle, .machine) ∈ r.awaited ∨
        ∃ service deadline, activity = .exchanging handle service deadline) :
    Beside (some b) r (r'.setActivity .machine activity) := by
  obtain ⟨-, hnothing, halone⟩ := h.idle
  refine ⟨⟨⟨?_, ?_, ?_⟩, hanswers⟩, hline⟩
  · refine .doing (by rw [activity?_setActivity, if_pos rfl]) ?_ hserves fun hclosing =>
      absurd hclosing hbegins
    rw [← hnothing, outcome?, outcome?, ← houtcomes]
    rfl
  · intro t other hdoing
    rw [activity?_setActivity, if_neg (by simp), activity?, hactivities] at hdoing
    exact h.callers t other hdoing
  · intro handle hwaits
    obtain ⟨service, deadline, rfl⟩ := (hpaired handle hwaits).resolve_left (halone handle)
    exact ⟨service, deadline, by rw [activity?_setActivity, if_pos rfl]⟩

/-- An errand has come to nothing at once, as when there is no connection to
send a request on. -/
theorem Tidy.undertake_failed (h : r.Tidy none) (hnoConnect : connects b = false)
    (hnoDisconnect : disconnects b = false) (outcome : Outcome) :
    Beside (some b) r (r.conclude .machine outcome) := by
  obtain ⟨-, hnothing, halone⟩ := h.idle
  have hcame : (r.conclude .machine outcome).outcome? .machine = some outcome := by
    rw [outcome?_conclude, hnothing, if_pos rfl]
    rfl
  refine ⟨⟨⟨?_, ?_, fun handle hwaits => absurd hwaits (halone handle)⟩, .refl _⟩, rfl⟩
  · refine .done (by rw [activity?_conclude, if_pos rfl]) hcame ?_ ?_
    · exact fun hdisconnects => nomatch hnoDisconnect.symm.trans hdisconnects
    · exact fun hconnects => nomatch hnoConnect.symm.trans hconnects
  · intro t other
    rw [activity?_conclude, if_neg (by simp)]
    exact h.callers t other

/-- **The machine begins an errand** with the call that it is for, and is
about it from then on. -/
theorem Tidy.use (h : r.Tidy none) {c : Call} (hbegins : Begins b c) :
    Beside (some b) r (r.use .machine c) := by
  cases c with
  | connect => exact h.undertake hbegins nofun rfl rfl rfl (.refl _) fun _ => .inl
  | disconnect => exact h.undertake hbegins nofun rfl rfl rfl (.refl _) fun _ => .inl
  | send request =>
      rw [ClientRun.use]
      rcases send_cases r .machine request with
        ⟨r₁, e, hspares, hsent⟩ | ⟨r₁, handle, service, deadline, hregistered, hsent⟩
      · have h₁ := h.spares hspares fun _ => h.idle.2.1
        rw [hsent]
        have hfailed := h₁.tidy.undertake_failed hbegins.1 hbegins.2 (.failed e)
        exact ⟨⟨hfailed.tidy, hfailed.answers.trans h₁.answers⟩, hfailed.line.trans h₁.line⟩
      · rw [hsent]
        have hsame : r₁.answers = r.answers := congrArg (·.2.2.2) hregistered
        refine h.undertake hbegins nofun (congrArg (·.2.1) hregistered)
          (congrArg (·.2.2.1) hregistered)
          ((line?_of_affairs hregistered).trans (line?_register r handle .machine))
          (hsame ▸ .refl _) fun handle' hwaits => ?_
        rw [awaited_of_affairs hregistered] at hwaits
        rcases awaited_register hwaits with hwaits | ⟨rfl, -⟩
        · exact .inl hwaits
        · exact .inr ⟨service, deadline, rfl⟩

end ClientRun

end OpcSession.Simulation
