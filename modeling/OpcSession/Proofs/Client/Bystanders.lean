import OpcSession.Proofs.Client.Abstaining
import OpcSession.Proofs.Client.Matching

/-!
# Bystanders

Many owners use the channel, and what one of them does is seldom about another:
it leaves the other as it is, or the other's request fails, because the connection
is lost for both.  In particular nobody but the reader brings anybody a response.

* `ClientRun.Leaves` — what others do, as one owner notices it;
* `ClientRun.Works`, `ClientRun.works_proceed` — what an owner does on the channel;
* `ClientRun.works_post`, `ClientRun.works_handOver` — sending, in its two steps;
* `ClientRun.Exchanges` — an owner that only exchanges requests, and gets responses
  of one kind;
* `ClientRun.Sends`, `ClientRun.Collects`, `ClientRun.runCaller_cases` — how a call goes on.
-/

namespace OpcSession.Simulation

open Session Client

namespace ClientRun

variable {r r' r'' : ClientRun} {o o' : Owner}

/-! ## What others notice -/

/-- What others do leaves an owner as it is, or its request fails and it waits
for nothing any more.  There is no third way: nobody else gives an owner a
response, or makes it begin anything. -/
inductive Leaves (o : Owner) (r r' : ClientRun) : Prop
  /-- It does what it did, has what it had, and waits for no more than it
  did. -/
  | spared (hactivity : r'.activity? o = r.activity? o) (houtcome : r'.outcome? o = r.outcome? o)
      (hawaited : ∀ handle, (handle, o) ∈ r'.awaited → (handle, o) ∈ r.awaited) : Leaves o r r'
  /-- It did something, and has failed; if it had something to return with
  already, it keeps that. -/
  | fails {e : SessionError} (hdoing : r.activity? o ≠ none) (hidle : r'.activity? o = none)
      (houtcome : r'.outcome? o = (r.outcome? o).or (some (.failed e)))
      (halone : ∀ handle, (handle, o) ∉ r'.awaited) : Leaves o r r'

/-- Whatever an owner does after others have gone on it did before. -/
theorem Leaves.activity (h : Leaves o r r') {a : Activity} (hdoing : r'.activity? o = some a) :
    r.activity? o = some a := by
  cases h with
  | spared hactivity => exact hactivity ▸ hdoing
  | fails _ hidle => cases hidle.symm.trans hdoing

/-- What has come of an owner while others went on had come of it before, or
is a failure. -/
theorem Leaves.outcome (h : Leaves o r r') {x : Outcome} (hcame : r'.outcome? o = some x) :
    r.outcome? o = some x ∨ (r.activity? o ≠ none ∧ ∃ e, x = .failed e) := by
  cases h with
  | spared _ houtcome => exact .inl (houtcome ▸ hcame)
  | fails hdoing _ houtcome =>
      rw [houtcome] at hcame
      cases hbefore : r.outcome? o with
      | some x' =>
          rw [hbefore] at hcame
          exact .inl hcame
      | none =>
          rw [hbefore] at hcame
          cases hcame
          exact .inr ⟨hdoing, _, rfl⟩

theorem Leaves.awaited (h : Leaves o r r') {handle : UInt32} (hwaits : (handle, o) ∈ r'.awaited) :
    (handle, o) ∈ r.awaited := by
  cases h with
  | spared _ _ hawaited => exact hawaited handle hwaits
  | fails _ _ _ halone => exact absurd hwaits (halone handle)

theorem Leaves.refl (o : Owner) (r : ClientRun) : Leaves o r r := .spared rfl rfl fun _ => id

/-- An owner that is left alone twice is left alone.  Whoever failed the first
time does nothing the second time, so it cannot fail again. -/
theorem Leaves.trans (h : Leaves o r r') (h' : Leaves o r' r'') : Leaves o r r'' := by
  cases h' with
  | spared hactivity' houtcome' hawaited' =>
      cases h with
      | spared hactivity houtcome hawaited =>
          exact .spared (hactivity'.trans hactivity) (houtcome'.trans houtcome)
            fun handle hwaits => hawaited handle (hawaited' handle hwaits)
      | fails hdoing hidle houtcome halone =>
          exact .fails hdoing (hactivity'.trans hidle) (houtcome'.trans houtcome)
            fun handle hwaits => halone handle (hawaited' handle hwaits)
  | fails hdoing' hidle' houtcome' halone' =>
      cases h with
      | spared hactivity houtcome =>
          exact .fails (hactivity ▸ hdoing') hidle' (houtcome ▸ houtcome') halone'
      | fails _ hidle => exact absurd hidle hdoing'

/-- What leaves the affairs of the channel alone leaves every owner alone. -/
theorem leaves_of_affairs (h : r'.affairs = r.affairs) (o : Owner) : Leaves o r r' :=
  .spared (activity?_of_affairs h o) (outcome?_of_affairs h o) fun _ hwaits =>
    awaited_of_affairs h ▸ hwaits

/-- An owner that does nothing, has nothing to return with, and waits for
nothing. -/
structure Absent (o : Owner) (r : ClientRun) : Prop where
  idle : r.activity? o = none
  /-- It has nothing to return with. -/
  nothing : r.outcome? o = none
  alone : ∀ handle, (handle, o) ∉ r.awaited

/-- An owner that is absent stays so whatever others do; they cannot fail a
request that it has not made. -/
theorem Absent.leaves (h : Absent o r) (hleaves : Leaves o r r') : Absent o r' where
  idle := by
    cases hdoing : r'.activity? o with
    | none => rfl
    | some a => cases h.idle.symm.trans (hleaves.activity hdoing)
  nothing := by
    cases hcame : r'.outcome? o with
    | none => rfl
    | some x =>
        rcases hleaves.outcome hcame with hbefore | ⟨hdoing, -⟩
        · cases h.nothing.symm.trans hbefore
        · exact absurd h.idle hdoing
  alone := fun handle hwaits => h.alone handle (hleaves.awaited hwaits)

/-- What an owner does on the channel: the calls and the cache stay as they
are, and so do other owners, unless their requests fail. -/
structure Works (o : Owner) (r r' : ClientRun) : Prop where
  /-- Calls and the cache stay as they are. -/
  desk : r'.desk = r.desk
  /-- Each of the others is left as it is, or has failed. -/
  others : ∀ o', o' ≠ o → Leaves o' r r'

/-- To do nothing is a way to work on the channel. -/
theorem Works.refl (o : Owner) (r : ClientRun) : Works o r r := ⟨rfl, fun _ _ => .refl _ _⟩

/-- What an owner does in two parts is one piece of work on the channel. -/
theorem Works.trans (h : Works o r r') (h' : Works o r' r'') : Works o r r'' :=
  ⟨h'.desk.trans h.desk, fun o' hother => (h.others o' hother).trans (h'.others o' hother)⟩

/-- What leaves the affairs of the channel and the desk alone may have been
anybody's work. -/
theorem works_of_affairs (o : Owner) (hdesk : r'.desk = r.desk)
    (haffairs : r'.affairs = r.affairs) :
    Works o r r' :=
  ⟨hdesk, fun o' _ => leaves_of_affairs haffairs o'⟩

/-- What leaves all activities and outcomes as they are, and makes nobody
wait. -/
theorem works_of_waiting (o : Owner) (hdesk : r'.desk = r.desk)
    (hactivities : r'.activities = r.activities) (houtcomes : r'.outcomes = r.outcomes)
    (hawaited : ∀ x ∈ r'.awaited, x ∈ r.awaited) : Works o r r' := by
  refine ⟨hdesk, fun o' _ => .spared ?_ ?_ fun handle => hawaited (handle, o')⟩
  · rw [activity?, hactivities, ← activity?]
  · rw [outcome?, houtcomes, ← outcome?]

/-! ## What an owner does -/

variable (r) (o)

theorem works_wake (t : Task) : Works o r (r.wake t) :=
  works_of_affairs o (desk_of_backdrop (backdrop_wake r t)) (affairs_wake r t)

theorem works_observe (x : Observation) : Works o r (r.observe x) := works_of_affairs o rfl rfl

/-- To pass the turn wakes the next owner, and nobody else notices. -/
theorem works_passTurn : Works o r r.passTurn :=
  works_of_affairs o (desk_of_backdrop (backdrop_passTurn r)) (affairs_passTurn r)

theorem works_conclude (outcome : Outcome) : Works o r (r.conclude o outcome) := by
  refine ⟨rfl, fun o' hother => .spared ?_ ?_ fun _ => id⟩
  · rw [activity?_conclude, if_neg hother]
  · rw [outcome?_conclude, if_neg hother, Option.or_none]

theorem works_setActivity (a : Activity) : Works o r (r.setActivity o a) := by
  refine ⟨rfl, fun o' hother => .spared ?_ rfl fun _ => id⟩
  rw [activity?_setActivity, if_neg hother]

/-- A handle is withdrawn: fewer wait, and nobody is told. -/
theorem works_withdraw (handle : UInt32) :
    Works o r { r with channel := r.channel.withdraw handle } :=
  works_of_waiting o rfl rfl rfl fun x hwaits => ((mem_awaited_withdraw handle x).mp hwaits).1

/-- Requests that are lost fail, where nobody waits any more.  Their owners
are those that the loss of a link is about; the rest is left alone. -/
theorem works_abandon (pending : List (UInt32 × Owner)) (hnobody : r.awaited = []) :
    Works o r (r.abandon pending) := by
  refine ⟨desk_of_backdrop (backdrop_abandon r pending), fun o' _ => ?_⟩
  have hawaited : (r.abandon pending).awaited = r.awaited :=
    awaited_of_link (congrArg Channel.link? (channel_abandon r pending))
  rcases r.abandon_cases o' pending with
    ⟨hactivity, houtcome, -⟩ | ⟨service, hdoing, hidle, hfailed⟩
  · exact .spared hactivity houtcome fun _ hwaits => hawaited ▸ hwaits
  · exact .fails hdoing hidle hfailed (by simp [hawaited, hnobody])

/-- What an owner has to return with is nothing to others, so it may drop
that. -/
theorem works_forget : Works o r { r with outcomes := r.outcomes.filter (·.1 ≠ o) } := by
  refine ⟨rfl, fun o' hother => .spared rfl ?_ fun _ => id⟩
  simp only [outcome?, find_other, if_neg hother]

/-- To draw a handle is nothing to others, whatever the peer says to it. -/
theorem works_allocate (peer : Peer) :
    Works o r { r with channel := r.channel.allocate.2, peer := peer } := by
  have hlink? := link?_allocate r.channel
  exact works_of_waiting o rfl rfl rfl fun x hwaits => by simpa only [awaited, hlink?] using hwaits

/-- Nobody else notices that a request is given a handle, whether it can be
sent then or fails before. -/
theorem works_post (request : Request) : Works o r (r.post o request).2 := by
  rcases post_cases r o request with
    ⟨-, hposted⟩ | ⟨link, -, ⟨peer, text, hposted⟩ | ⟨envelope, -, hposted⟩⟩
  · rw [hposted]
    exact works_conclude r o _
  · rw [hposted]
    exact (works_allocate r o peer).trans (works_conclude _ o _)
  · have hregistered : Works o { r with channel := r.channel.allocate.2 }
        { r with channel := r.channel.allocate.2.register r.channel.allocate.1 o } :=
      ⟨rfl, fun o' hother => .spared rfl rfl fun handle hwaits =>
        (awaited_register hwaits).resolve_right fun hown => hother hown.2⟩
    rw [hposted]
    exact ((works_allocate r o r.peer).trans hregistered).trans (works_observe _ o _)

/-- **Nobody else notices when a request is handed over**: at once, after a
response to it has come, after the link has been lost, or never, because
handing over failed. -/
theorem works_handOver (envelope : RequestEnvelope) (error : Option TransportError) :
    Works o r (r.handOver o envelope error) := by
  cases error with
  | some e =>
      rw [handOver]
      split
      · exact ((works_withdraw r o _).trans (works_forget _ o)).trans (works_conclude _ o _)
      · exact (works_forget r o).trans (works_conclude _ o _)
  | none =>
      rw [handOver]
      dsimp only
      split
      · split
        · exact (works_withdraw r o _).trans (works_conclude _ o _)
        · exact works_setActivity r o _
      · split
        · exact .refl o r
        · exact works_conclude r o _

/-- To send a request is to post it and to hand it over at once; nobody else
notices either. -/
theorem works_send (request : Request) : Works o r (r.send o request) := by
  have hposted := works_post r o request
  unfold send
  split
  · rename_i r₁ hfailed
    rwa [hfailed] at hposted
  · rename_i envelope r₁ hgoes
    rw [hgoes] at hposted
    have htaken : Works o r₁ { r₁ with peer := (r₁.peer.send envelope).2 } :=
      works_of_waiting o rfl rfl rfl fun _ => id
    exact ((hposted.trans htaken).trans (works_wake _ o _)).trans (works_handOver _ o envelope _)

/-- An owner begins to use the channel in one of the ways there are. -/
theorem works_use (c : Call) : Works o r (r.use o c) := by
  have hqueued : Works o r { r with channel := r.channel.queueUp o } :=
    works_of_waiting o rfl rfl rfl fun _ => id
  cases c with
  | connect => exact hqueued.trans (works_setActivity _ o _)
  | disconnect => exact hqueued.trans (works_setActivity _ o _)
  | send request => exact works_send r o request

/-- An owner is done, and passes the turn, after the peer has had its part in
it. -/
theorem works_pass (peer : Peer) (outcome : Outcome) :
    Works o r ((({ r with peer := peer } : ClientRun).conclude o outcome).passTurn) := by
  have hpeered : Works o r { r with peer := peer } := works_of_waiting o rfl rfl rfl fun _ => id
  exact (hpeered.trans (works_conclude _ o outcome)).trans (works_passTurn _ o)

/-- An owner dials.  Where it opens a connection nobody waited, since there
was no link that was alive. -/
theorem works_dial (deadline : Duration) : Works o r (r.dial o deadline) := by
  unfold dial
  split
  · split
    · exact works_pass r o r.peer _
    · exact .refl o r
  · split
    · exact works_pass r o _ _
    · rename_i connection peer haccepted
      have hopened : Works o r
          { r with peer := peer, channel := r.channel.opened connection } :=
        works_of_waiting o rfl rfl rfl (by simp [awaited, Channel.opened])
      have htold := hopened.trans (works_observe _ o (.opened connection))
      exact ((htold.trans (works_wake _ o _)).trans (works_conclude _ o .done)).trans
        (works_passTurn _ o)

/-- An owner closes the connection that it has given up, unless the close is
held back. -/
theorem works_hangUp : Works o r (r.hangUp o) := by
  unfold hangUp
  split
  · exact .refl o r
  · exact works_pass r o _ _

/-- **What an owner does on the channel leaves others as they are**, or their
requests fail. -/
theorem works_proceed : Works o r (r.proceed o) := by
  unfold proceed
  split
  · exact .refl o r
  · split
    · exact .refl o r
    · split
      · exact works_pass r o r.peer .done
      · have htold := works_observe r o .connect
        exact (htold.trans (works_setActivity _ o _)).trans (works_dial _ o _)
  · exact works_dial r o _
  · split
    · exact .refl o r
    · split
      · exact works_pass r o r.peer .done
      · rename_i connection pending channel hdetached
        obtain rfl : { r.channel with link? := none } = channel := congrArg Prod.snd hdetached
        have hgiven : Works o r { r with channel := { r.channel with link? := none } } :=
          works_of_waiting o rfl rfl rfl (by simp [awaited])
        have hlost := hgiven.trans (works_abandon _ o pending rfl)
        have htold := hlost.trans (works_observe _ o (.close connection))
        exact (htold.trans (works_setActivity _ o .closing)).trans (works_hangUp _ o)
  · exact works_hangUp r o
  · split
    · exact (works_withdraw r o _).trans (works_conclude _ o _)
    · exact .refl o r

variable {r} {o}

/-- An owner takes what has come of what it did, and leaves the others
theirs. -/
theorem works_takeOutcome? {outcome : Outcome} (htaken : r.takeOutcome? o = some (outcome, r')) :
    Works o r r' := by
  have houtcomes := fun o' => outcome?_of_takeOutcome? r o o' htaken
  obtain ⟨-, rfl⟩ := takeOutcome?_cases r o htaken
  refine ⟨rfl, fun o' hother => .spared rfl ?_ fun _ => id⟩
  rw [houtcomes, if_neg hother]

/-! ## Owners that only exchange requests -/

/-- An owner that does nothing but exchange requests, and gets only responses
of which `P` holds. -/
structure Exchanges (P : Response → Prop) (o : Owner) (r : ClientRun) : Prop where
  /-- It does nothing else than to wait for a response. -/
  activity : ∀ a, r.activity? o = some a → a.isExchange
  /-- What it has to return with is a failure, or a response that it may
  get. -/
  outcome : ∀ x, r.outcome? o = some x → (∃ e, x = .failed e) ∨ ∃ b, x = .response b ∧ P b

variable {P : Response → Prop}

theorem Absent.exchanges (h : Absent o r) : Exchanges P o r :=
  ⟨fun _ hdoing => (nomatch h.idle.symm.trans hdoing), fun _ hcame =>
    (nomatch h.nothing.symm.trans hcame)⟩

/-- Whoever gets only some responses gets only those and others. -/
theorem Exchanges.mono {P' : Response → Prop} (h : Exchanges P o r) (hmore : ∀ b, P b → P' b) :
    Exchanges P' o r :=
  ⟨h.activity, fun x hcame => (h.outcome x hcame).imp_right fun ⟨b, his, hfine⟩ =>
    ⟨b, his, hmore b hfine⟩⟩

theorem Exchanges.leaves (h : Exchanges P o r) (hleaves : Leaves o r r') : Exchanges P o r' where
  activity := fun a hdoing => h.activity a (hleaves.activity hdoing)
  outcome := fun x hcame => (hleaves.outcome hcame).elim (h.outcome x) fun hfailed => .inl hfailed.2

/-- Something comes of the exchange: a failure, or a response that the owner
may get.  What had come of it before counts first. -/
theorem Exchanges.conclude (h : Exchanges P o r) {x : Outcome}
    (hfine : (∃ e, x = .failed e) ∨ ∃ b, x = .response b ∧ P b) :
    Exchanges P o (r.conclude o x) where
  activity := by
    rw [activity?_conclude, if_pos rfl]
    exact nofun
  outcome := by
    intro x' hcame
    rw [outcome?_conclude, if_pos rfl] at hcame
    cases hbefore : r.outcome? o with
    | some earlier =>
        rw [hbefore] at hcame
        cases hcame
        exact h.outcome _ hbefore
    | none =>
        rw [hbefore] at hcame
        cases hcame
        exact hfine

theorem Exchanges.fail (h : Exchanges P o r) (e : SessionError) :
    Exchanges P o (r.conclude o (.failed e)) :=
  h.conclude (.inl ⟨e, rfl⟩)

/-- Who waits for a response goes on waiting, or its request times out. -/
theorem Exchanges.proceed (h : Exchanges P o r) : Exchanges P o (r.proceed o) := by
  unfold ClientRun.proceed
  cases hdoing : r.activity? o with
  | none => exact h
  | some a =>
      have hexchange := h.activity a hdoing
      cases a with
      | exchanging handle service deadline =>
          dsimp only
          split
          · have hwithdrawn : Exchanges P o { r with channel := r.channel.withdraw handle } :=
              ⟨h.activity, h.outcome⟩
            exact hwithdrawn.fail .timeout
          · exact h
      | _ => cases hexchange

/-- A request that is sent fails, or is waited for; no response has come of it
yet. -/
theorem Exchanges.send (h : Exchanges P o r) (request : Request) :
    Exchanges P o (r.send o request) := by
  rcases send_cases r o request with
    ⟨r₁, e, hspares, hsent⟩ | ⟨r₁, handle, service, deadline, hregistered, hsent⟩
  · rw [hsent]
    refine Exchanges.fail
      ⟨fun a hdoing => ?_, fun x hcame => h.outcome x (hspares.fewer o x hcame)⟩ e
    rw [activity?, hspares.activities, ← activity?] at hdoing
    exact h.activity a hdoing
  · rw [hsent]
    refine ⟨fun a hdoing => ?_, fun x hcame => ?_⟩
    · rw [activity?_setActivity, if_pos rfl] at hdoing
      cases hdoing
      rfl
    · exact h.outcome x ((outcome?_of_affairs hregistered o).symm.trans hcame)

/-! ## How a call goes on -/

/-- A caller goes on beside others, and if it only exchanged requests it still
does. -/
structure Continues (t : Ticket) (r r' : ClientRun) : Prop extends Works (.caller t) r r' where
  /-- If it only got responses of some kind, it still does. -/
  exchanges : ∀ P, Exchanges P (.caller t) r → Exchanges P (.caller t) r'

theorem Continues.trans {t : Ticket} (h : Continues t r r') (h' : Continues t r' r'') :
    Continues t r r'' :=
  ⟨h.toWorks.trans h'.toWorks, fun P hexchanges => h'.exchanges P (h.exchanges P hexchanges)⟩

theorem continues_send (r : ClientRun) (t : Ticket) (request : Request) :
    Continues t r (r.send (.caller t) request) :=
  ⟨works_send r _ request, fun _ h => h.send request⟩

/-- The time is that of the timers of the engine, so it does not change while
the core does not. -/
theorem now_of_core (h : r'.core = r.core) : r'.now = r.now := by
  rw [ClientRun.now, engine_of_core h, ← ClientRun.now]

theorem cache_of_desk (h : r'.desk = r.desk) : r'.cache = r.cache := congrArg (·.2.2.1) h

/-- What a call does before it looks for what has come of its request: it has
sent that before, or sends it now that it has been given a session. -/
inductive Sends (r : ClientRun) (c : Caller) : ClientRun → Prop
  /-- No answer of the machine is there to be looked at; the call has sent its
  request before. -/
  | before (hunanswered : r.answers.find? (·.1 = c.ticket) = none) : Sends r c r
  /-- The machine has answered with a session, and the request goes out under
  it. -/
  | now {answer : Session.Answer} {q : Request}
      (hanswered : r.answers.find? (·.1 = c.ticket) = some (c.ticket, answer))
      (hnext : c.goal.answered r.settings.session.timeoutHint answer = .use (.send q)) :
      Sends r c (({ r with answers := r.answers.filter (·.1 ≠ c.ticket) } : ClientRun).send
        (.caller c.ticket) q)

/-- What becomes of a call that looks for what has come of its request: it
goes on waiting if nothing has, and else is over. -/
inductive Collects (r : ClientRun) (c : Caller) : ClientRun → Prop
  /-- Nothing has come of the request so far. -/
  | nothing (hnothing : r.outcome? (.caller c.ticket) = none) : Collects r c r
  /-- Something has: the call is over with it, and has put into the cache what
  goes there. -/
  | ends {outcome : Outcome} {r₁ : ClientRun}
      (hcame : r.outcome? (.caller c.ticket) = some outcome)
      (hworks : Works (.caller c.ticket) r r₁)
      (hlog : r₁.log = r.log) :
      Collects r c (({ r₁ with cache := (c.goal.returned r.now r.cache outcome).2 } :
        ClientRun).finish c (c.goal.returned r.now r.cache outcome).1)

/-- To look for what has come of a request is not seen from outside. -/
theorem Collects.log {c : Caller} (h : Collects r c r') : r'.log = r.log := by
  cases h with
  | nothing => rfl
  | ends _ _ hlog => exact hlog

/-- A caller that waits goes on waiting, or finds that its time is up. -/
theorem continues_proceed (r : ClientRun) (t : Ticket) :
    Continues t r (r.proceed (.caller t)) :=
  ⟨works_proceed r _, fun _ => Exchanges.proceed⟩

/-- Whether it sends now or has sent before, a call goes on beside the
others. -/
theorem Sends.continues {c : Caller} (h : Sends r c r') : Continues c.ticket r r' := by
  cases h with
  | before => exact ⟨.refl _ r, fun _ => id⟩
  | @now answer q =>
      have hgiven : Continues c.ticket r { r with answers := r.answers.filter (·.1 ≠ c.ticket) } :=
        ⟨works_of_waiting _ rfl rfl rfl fun _ => id, fun _ h => ⟨h.activity, h.outcome⟩⟩
      exact hgiven.trans (continues_send _ c.ticket q)

/-- What has come of a call's use of the channel, if something has, ends the
call. -/
theorem collects (r : ClientRun) (c : Caller) :
    Collects (r.proceed (.caller c.ticket)) c (r.collect c) := by
  unfold collect
  dsimp only
  generalize r.proceed (.caller c.ticket) = r₁
  cases htaken : r₁.takeOutcome? (.caller c.ticket) with
  | none =>
      refine .nothing ?_
      rw [outcome?, Option.map_eq_none_iff]
      exact Option.map_eq_none_iff.mp htaken
  | some given =>
      obtain ⟨outcome, r₂⟩ := given
      have hbackdrop := backdrop_takeOutcome? _ _ htaken
      obtain ⟨hcame, rfl⟩ := takeOutcome?_cases _ _ htaken
      have hends := Collects.ends hcame (works_takeOutcome? htaken) rfl
      rw [← now_of_core (core_of_backdrop hbackdrop),
        ← cache_of_desk (desk_of_backdrop hbackdrop)] at hends
      exact hends

/-- **A call that goes on** is over with what the machine has answered, or
uses the channel, and is over with what has come of that if something has. -/
theorem runCaller_cases (r : ClientRun) {t : Ticket} {c : Caller}
    (hfound : r.callers.find? (·.ticket = t) = some c) :
    (∃ answer result, r.answers.find? (·.1 = t) = some (t, answer) ∧
      c.goal.answered r.settings.session.timeoutHint answer = .over result ∧
      r.runCaller t =
        ({ r with answers := r.answers.filter (·.1 ≠ t) } : ClientRun).finish c result) ∨
    ∃ r₁, Sends r c r₁ ∧ Collects (r₁.proceed (.caller c.ticket)) c (r.runCaller t) := by
  obtain rfl : c.ticket = t := by simpa using List.find?_some hfound
  unfold runCaller
  simp only [hfound]
  split
  · rename_i owner answer hasked
    obtain rfl : owner = c.ticket := by simpa using List.find?_some hasked
    cases hnext : c.goal.answered r.settings.session.timeoutHint answer with
    | ask command => exact absurd hnext (answered_ne_ask _ _ _ _)
    | use call =>
        obtain ⟨hnotConnect, hnotDisconnect⟩ :=
          answered_abstains c.goal r.settings.session.timeoutHint answer
        cases call with
        | connect => exact absurd hnext hnotConnect
        | disconnect => exact absurd hnext hnotDisconnect
        | send request => exact .inr ⟨_, .now hasked hnext, collects _ c⟩
    | _ result => exact .inl ⟨answer, result, hasked, hnext, rfl⟩
  · rename_i hunanswered
    exact .inr ⟨r, .before hunanswered, collects r c⟩

end ClientRun

end OpcSession.Simulation
