import OpcSession.Proofs.Client.Matching

/-!
# Incidents keep the ledger and the client in step

Owners take turns to connect and to disconnect.  With that, whatever happens on
the channel leaves the ledger in order and every open call standing as it should.

* `ClientRun.InTurn`, `ClientRun.InTurn.proceeds` — who dials or hangs up has the
  turn, so that no connection takes the place of one that is in use;
* `Traffic.Sound.proceed`, `Traffic.Sound.hear`, `Traffic.Sound.post`,
  `Traffic.Sound.handOver` — the incidents that matter;
* `Traffic.Sound.step`, `Traffic.Sound.after` — each incident, and all of them one
  after the other.
-/

namespace OpcSession.Simulation

open Session Client

namespace ClientRun

/-! ## Turns -/

/-- Whoever dials or hangs up has the turn, and nobody dials while there is a
connection. -/
structure InTurn (r : ClientRun) : Prop where
  /-- Whoever dials has the turn, and there is no connection that it could
  take the place of. -/
  dialing : ∀ o d, r.activity? o = some (.dialing d) →
    r.channel.hasTurn o ∧ r.channel.isConnected = false
  /-- Whoever hangs up has the turn. -/
  closing : ∀ o, r.activity? o = some .closing → r.channel.hasTurn o

variable {r r' : ClientRun} {o : Owner}

/-- Nobody begins to dial or to hang up, nobody loses the turn, and no
connection comes about. -/
theorem InTurn.keep (h : r.InTurn)
    (hturns : ∀ o, r.channel.hasTurn o → r'.channel.hasTurn o)
    (hline : r.channel.isConnected = false → r'.channel.isConnected = false)
    (hbegun : ∀ o a, r'.activity? o = some a → a.gate? ≠ none → r.activity? o = some a) :
    r'.InTurn where
  dialing := by
    intro o d hdialing
    obtain ⟨hturn, hnone⟩ := h.dialing o d (hbegun o _ hdialing nofun)
    exact ⟨hturns o hturn, hline hnone⟩
  closing := fun o hclosing => hturns o (h.closing o (hbegun o _ hclosing nofun))

/-- Nobody but the one who has the turn dials or hangs up, so two owners never
do so at once. -/
theorem InTurn.gate_of_turn (h : r.InTurn) (hturn : r.channel.hasTurn o) {o' : Owner}
    {a : Activity} (hdoing : r.activity? o' = some a) (hgate : a.gate? ≠ none) : o' = o := by
  have hturn' : r.channel.hasTurn o' := by
    cases a with
    | dialing d => exact (h.dialing o' d hdoing).1
    | closing => exact h.closing o' hdoing
    | _ => exact absurd rfl hgate
  have hhead : r.channel.turns.head? = some o := by simpa [Channel.hasTurn] using hturn
  have hhead' : r.channel.turns.head? = some o' := by simpa [Channel.hasTurn] using hturn'
  exact Option.some.inj (hhead'.symm.trans hhead)

/-- Whoever has the turn may pass it when it neither dials nor hangs up any
more. -/
theorem InTurn.pass (h : r.InTurn) (hturn : r.channel.hasTurn o)
    (hidle : r'.activity? o = none)
    (hothers : ∀ o', o' ≠ o → r'.activity? o' = r.activity? o') : r'.InTurn := by
  have hnobody : ∀ o' a, r'.activity? o' = some a → a.gate? = none := by
    intro o' a hdoing
    by_contra hgate
    by_cases hsame : o' = o
    · subst hsame
      cases hidle.symm.trans hdoing
    · exact hsame (h.gate_of_turn hturn ((hothers o' hsame).symm.trans hdoing) hgate)
  exact ⟨fun o' d hdoing => absurd (hnobody o' _ hdoing) nofun,
    fun o' hdoing => absurd (hnobody o' _ hdoing) nofun⟩

/-- Something comes of what an owner does, and then it neither dials nor hangs
up; the turn may be passed after that. -/
theorem InTurn.conclude (h : r.InTurn) (hactivities : r'.activities = r.activities)
    (hturns : r'.channel.turns = r.channel.turns) (hline : r'.line? = r.line?) (o : Owner)
    (outcome : Outcome) : (r'.conclude o outcome).InTurn := by
  refine h.keep ?_ ?_ ?_
  · intro o' hturn
    simpa [Channel.hasTurn, hturns] using hturn
  · exact fun hunconnected => (isConnected_of_line hline).trans hunconnected
  · intro o' a hdoing _
    rw [activity?_conclude, activity?, hactivities] at hdoing
    split at hdoing
    · cases hdoing
    · exact hdoing

/-- An owner begins to wait for the turn, behind whoever has it. -/
theorem InTurn.queueUp (h : r.InTurn) (o : Owner) {a : Activity} (hgate : a.gate? = none) :
    (({ r with channel := r.channel.queueUp o } : ClientRun).setActivity o a).InTurn := by
  refine h.keep ?_ id ?_
  · intro o' hturn
    have hhead : r.channel.turns.head? = some o' := by simpa [Channel.hasTurn] using hturn
    simp [Channel.hasTurn, Channel.queueUp, List.head?_append, hhead]
  · intro o' a' hdoing hbegins
    rw [activity?_setActivity] at hdoing
    split at hdoing
    · cases hdoing
      exact absurd hgate hbegins
    · exact hdoing

/-- Somebody who has the turn begins to dial, if there is no connection, or to
hang up. -/
theorem InTurn.begin (h : r.InTurn) (hturn : r.channel.hasTurn o) (x : ClientRun.Observation)
    {a : Activity} (hdials : ∀ d, a = .dialing d → r.channel.isConnected = false) :
    ((r.observe x).setActivity o a).InTurn := by
  have hdoing : ∀ o' a', ((r.observe x).setActivity o a).activity? o' = some a' →
      (o' = o ∧ a' = a) ∨ r.activity? o' = some a' := by
    intro o' a' hdoing
    rw [activity?_setActivity] at hdoing
    split at hdoing
    · rename_i hsame
      cases hdoing
      exact .inl ⟨hsame, rfl⟩
    · exact .inr hdoing
  refine ⟨?_, ?_⟩
  · intro o' d hdialing
    rcases hdoing o' _ hdialing with ⟨rfl, hsame⟩ | hbefore
    · exact ⟨hturn, hdials d hsame.symm⟩
    · exact h.dialing o' d hbefore
  · intro o' hclosing
    rcases hdoing o' _ hclosing with ⟨rfl, -⟩ | hbefore
    · exact hturn
    · exact h.closing o' hbefore

/-- The link is given up or ends.  That fails requests, but dials or hangs up
nothing. -/
theorem InTurn.abandon (h : r.InTurn) (channel : Channel) (pending : List (UInt32 × Owner))
    (hturns : channel.turns = r.channel.turns)
    (hline : r.channel.isConnected = false → channel.isConnected = false) :
    (({ r with channel := channel } : ClientRun).abandon pending).InTurn := by
  refine h.keep ?_ ?_ ?_
  · intro o hturn
    simpa [Channel.hasTurn, hturns] using hturn
  · simpa using hline
  · intro o a hdoing _
    rcases ({ r with channel := channel } : ClientRun).abandon_cases o pending with
      ⟨hsame, -⟩ | ⟨_, -, hnone, -⟩
    · exact hsame.symm.trans hdoing
    · cases hnone.symm.trans hdoing

/-! ## What is not an exchange -/

/-- An owner that exchanges no request gives out no handle, and leaves what
others do and have done alone. -/
structure Tends (o : Owner) (r r' : ClientRun) : Prop where
  next : r'.channel.nextHandle = r.channel.nextHandle
  /-- What others do and have to return with is left alone. -/
  others : ∀ o', o' ≠ o → r'.activity? o' = r.activity? o' ∧ r'.outcome? o' = r.outcome? o'
  /-- It does not begin to exchange a request. -/
  own : ∀ a ∈ r'.activity? o, ¬ a.isExchange
  turns : r'.InTurn

/-- What an owner does in two parts it tends to in both. -/
theorem Tends.trans {r'' : ClientRun} (h : Tends o r r') (h' : Tends o r' r'') : Tends o r r'' where
  next := h'.next.trans h.next
  others := fun o' hother => ⟨(h'.others o' hother).1.trans (h.others o' hother).1,
    (h'.others o' hother).2.trans (h.others o' hother).2⟩
  own := h'.own
  turns := h'.turns

/-- To do nothing is a way to tend to something else than a request. -/
theorem InTurn.tends (h : r.InTurn) {a : Activity} (hdoing : r.activity? o = some a)
    (hother : ¬ a.isExchange) : Tends o r r where
  next := rfl
  others := fun _ _ => ⟨rfl, rfl⟩
  own := by
    rw [hdoing]
    rintro _ ⟨⟩
    exact hother
  turns := h

/-- Somebody who has the turn is done, and passes it; a connection may have
come about. -/
theorem InTurn.tends_pass (h : r.InTurn) (hturn : r.channel.hasTurn o) {r₁ : ClientRun}
    (hnext : r₁.channel.nextHandle = r.channel.nextHandle)
    (hactivity : ∀ o, r₁.activity? o = r.activity? o) (houtcome : ∀ o, r₁.outcome? o = r.outcome? o)
    (x : Outcome) : Tends o r ((r₁.conclude o x).passTurn) := by
  have hothers : ∀ o', o' ≠ o → (r₁.conclude o x).passTurn.activity? o' = r.activity? o' ∧
      (r₁.conclude o x).passTurn.outcome? o' = r.outcome? o' := by
    intro o' hother
    simp only [activity?_passTurn, activity?_conclude, outcome?_passTurn, outcome?_conclude,
      if_neg hother, Option.or_none]
    exact ⟨hactivity o', houtcome o'⟩
  have hidle : (r₁.conclude o x).passTurn.activity? o = none := by simp [activity?_conclude]
  exact {
    next := by simpa [Channel.passTurn] using hnext
    others := hothers
    own := by simp [hidle]
    turns := h.pass hturn hidle fun o' hother => (hothers o' hother).1 }

/-- Somebody who has the turn begins to dial or to hang up, and no request is
concerned by that. -/
theorem InTurn.tends_begin (h : r.InTurn) (hturn : r.channel.hasTurn o) (x : ClientRun.Observation)
    {a : Activity} (hother : ¬ a.isExchange)
    (hdials : ∀ d, a = .dialing d → r.channel.isConnected = false) :
    Tends o r ((r.observe x).setActivity o a) where
  next := rfl
  others := by
    intro o' hother
    rw [activity?_setActivity, if_neg hother]
    exact ⟨rfl, rfl⟩
  own := by
    rw [activity?_setActivity, if_pos rfl]
    rintro _ ⟨⟩
    exact hother
  turns := h.begin hturn x hdials

/-- Somebody dials: the link stays, or a connection comes about where there is
none. -/
theorem InTurn.dial_cases (h : r.InTurn) {d : Duration}
    (hdialing : r.activity? o = some (.dialing d)) (deadline : Duration) :
    Tends o r (r.dial o deadline) ∧
      ((r.dial o deadline).channel.link? = r.channel.link? ∨
        ∃ c, (r.dial o deadline).channel.link? = some { connection := c }) := by
  obtain ⟨hturn, -⟩ := h.dialing o d hdialing
  unfold dial
  split
  · split
    · exact ⟨h.tends_pass hturn rfl (fun _ => rfl) (fun _ => rfl) _,
        .inl (by simp [Channel.passTurn])⟩
    · exact ⟨h.tends hdialing Bool.false_ne_true, .inl rfl⟩
  · split
    · rename_i e peer haccepted
      refine ⟨h.tends_pass hturn ?_ ?_ ?_ _, .inl (by simp [Channel.passTurn])⟩
      · rfl
      · exact fun _ => rfl
      · exact fun _ => rfl
    · rename_i connection peer haccepted
      refine ⟨h.tends_pass hturn ?_ ?_ ?_ _, .inr ⟨connection, ?_⟩⟩
      · simp [Channel.opened]
      · intro o'
        rw [activity?_wake]
        rfl
      · intro o'
        rw [outcome?_wake]
        rfl
      · simp [Channel.passTurn, Channel.opened]

/-- Somebody hangs up: the link was given up before that, and stays as it
is. -/
theorem InTurn.hangUp_cases (h : r.InTurn) (hclosing : r.activity? o = some .closing) :
    Tends o r (r.hangUp o) ∧ (r.hangUp o).channel.link? = r.channel.link? := by
  unfold hangUp
  split
  · exact ⟨h.tends hclosing Bool.false_ne_true, rfl⟩
  · refine ⟨h.tends_pass (h.closing o hclosing) ?_ ?_ ?_ _, by simp [Channel.passTurn]⟩
    · rfl
    · exact fun _ => rfl
    · exact fun _ => rfl

/-- How an owner goes on that exchanges no request.  It leaves the link as it
is; or it comes by a connection where there was none; or it gives up the link,
and the requests on it are lost. -/
inductive Proceeds (o : Owner) (r r' : ClientRun) : Prop
  /-- The link stays as it is, whatever else the owner does. -/
  | stays (htends : Tends o r r') (hlink : r'.channel.link? = r.channel.link?)
      (hkeeps : r.activity? o = some .disconnecting → r.channel.hasTurn o → r.channel.link? = none)
  /-- A connection comes about where there was none, and its link begins with
  nobody waiting. -/
  | opens (htends : Tends o r r') (hunconnected : r.channel.isConnected = false) (c : ConnectionId)
      (hlink : r'.channel.link? = some { connection := c })
      (hdials : r.activity? o ≠ some .disconnecting)
  /-- The link is given up by an owner that disconnects in its turn, and all
  who waited on it are told. -/
  | severs (hdisconnecting : r.activity? o = some .disconnecting) (hturn : r.channel.hasTurn o)
      (htends : Tends o (({ r with channel := { r.channel with link? := none } } :
        ClientRun).abandon r.awaited) r')
      (hlink : r'.channel.link? = none)

/-- **An owner that exchanges no request goes on as far as it can.** -/
theorem InTurn.proceeds (h : r.InTurn) {a : Activity} (hdoing : r.activity? o = some a)
    (hother : ¬ a.isExchange) : Proceeds o r (r.proceed o) := by
  have hstill : a ≠ .disconnecting → Proceeds o r r := fun hdiffers =>
    .stays (h.tends hdoing hother) rfl fun hdisconnecting =>
      absurd (Option.some.inj (hdoing.symm.trans hdisconnecting)) hdiffers
  cases a with
  | exchanging => exact absurd rfl hother
  | dialing d =>
      obtain ⟨htends, hlink | ⟨c, hlink⟩⟩ := h.dial_cases hdoing d
      · rw [proceed, hdoing]
        exact .stays htends hlink (by simp [hdoing])
      · rw [proceed, hdoing]
        exact .opens htends (h.dialing o d hdoing).2 c hlink (by simp [hdoing])
  | closing =>
      obtain ⟨htends, hlink⟩ := h.hangUp_cases hdoing
      rw [proceed, hdoing]
      exact .stays htends hlink (by simp [hdoing])
  | connecting =>
      rw [proceed, hdoing]
      dsimp only
      split
      · exact hstill (by simp)
      · rename_i hturn
        have hturn : r.channel.hasTurn o := by simpa using hturn
        split
        · exact .stays (h.tends_pass hturn rfl (fun _ => rfl) (fun _ => rfl) _)
            (by simp [Channel.passTurn]) (by simp [hdoing])
        · rename_i hunconnected
          have hunconnected : r.channel.isConnected = false := by simpa using hunconnected
          generalize r.elapsed + r.settings.transport.connectDuration = deadline
          have hbegun := h.tends_begin hturn .connect (a := .dialing deadline) Bool.false_ne_true
            fun _ _ => hunconnected
          obtain ⟨htends, hlink | ⟨c, hlink⟩⟩ := hbegun.turns.dial_cases
            (by rw [activity?_setActivity, if_pos rfl]) deadline
          · exact .stays (hbegun.trans htends) hlink (by simp [hdoing])
          · exact .opens (hbegun.trans htends) hunconnected c hlink (by simp [hdoing])
  | disconnecting =>
      rw [proceed, hdoing]
      dsimp only
      split
      · rename_i hwaiting
        exact .stays (h.tends hdoing hother) rfl fun _ hturn => by simp [hturn] at hwaiting
      · rename_i hturn
        have hturn : r.channel.hasTurn o := by simpa using hturn
        split
        · rename_i hdetached
          have hunlinked : r.channel.link? = none :=
            Option.map_eq_none_iff.mp (congrArg Prod.fst hdetached)
          exact .stays (h.tends_pass hturn rfl (fun _ => rfl) (fun _ => rfl) _)
            (by simp [Channel.passTurn]) fun _ _ => hunlinked
        · rename_i connection pending channel hdetached
          obtain ⟨link, hlink, hgiven⟩ := Option.map_eq_some_iff.mp (congrArg Prod.fst hdetached)
          obtain rfl : { r.channel with link? := none } = channel := congrArg Prod.snd hdetached
          have hall : r.awaited = pending := by
            rw [awaited, hlink]
            exact congrArg Prod.snd hgiven
          have hlost := h.abandon { r.channel with link? := none } pending rfl fun _ => rfl
          have hturn' : (({ r with channel := { r.channel with link? := none } } :
              ClientRun).abandon pending).channel.hasTurn o := by
            rw [channel_abandon]
            exact hturn
          have hbegun := hlost.tends_begin hturn' (.close connection) (a := .closing)
            Bool.false_ne_true (by simp)
          obtain ⟨htends, hlink⟩ := hbegun.turns.hangUp_cases
            (by rw [activity?_setActivity, if_pos rfl])
          refine .severs hdoing hturn ?_ ?_
          · rw [hall]
            exact hbegun.trans htends
          · rw [hlink]
            simp

end ClientRun

namespace Traffic

open ClientRun

variable {w : Traffic} {r' : ClientRun} {o : Owner}

/-! ## One incident -/

/-- The ledger is in order, the calls stand as they should, and whoever
connects or disconnects has the turn. -/
structure Sound (w : Traffic) : Prop where
  booked : w.Booked
  /-- Each open call waits for its own response. -/
  matched : w.Matched
  /-- Those who connect or disconnect take turns. -/
  turns : w.client.InTurn

/-- What somebody does who has no open call, and does not touch the link. -/
theorem Sound.around (h : w.Sound) (hfree : ∀ p ∈ w.calls, p.owner ≠ o)
    (hnext : r'.channel.nextHandle = w.client.channel.nextHandle)
    (hlink : r'.channel.link? = w.client.channel.link?)
    (hothers : ∀ o', o' ≠ o →
      r'.activity? o' = w.client.activity? o' ∧ r'.outcome? o' = w.client.outcome? o')
    (hown : ∀ a ∈ r'.activity? o, ¬ a.isExchange) (hturns : r'.InTurn) : (w.beside r').Sound where
  booked := h.booked.beside hnext
  matched := h.matched.around hfree hlink (fun o' hother => (hothers o' hother).1)
    (fun o' hother => (hothers o' hother).2) hown
  turns := hturns

/-- Somebody begins to connect or to disconnect; open calls are not concerned
until it has the turn. -/
theorem Sound.queueUp (h : w.Sound) (hidle : w.Idle o) {a : Activity} (hgate : a.gate? = none)
    (hother : ¬ a.isExchange) :
    (w.beside (({ w.client with channel := w.client.channel.queueUp o } : ClientRun).setActivity o
      a)).Sound := by
  have hactivity := activity?_setActivity
    ({ w.client with channel := w.client.channel.queueUp o } : ClientRun) o
  refine h.around hidle.2.2 rfl rfl ?_ ?_ (h.turns.queueUp o hgate)
  · intro o' hother
    rw [hactivity, if_neg hother]
    exact ⟨rfl, rfl⟩
  · rw [hactivity, if_pos rfl]
    rintro _ ⟨⟩
    exact hother

/-- The link is given up or ends: the requests on it are lost. -/
theorem Sound.abandon (h : w.Sound) (channel : Channel) (pending : List (UInt32 × Owner))
    (hnext : channel.nextHandle = w.client.channel.nextHandle)
    (hturns : channel.turns = w.client.channel.turns) (hended : channel.isConnected = false)
    (hgone : ({ w.client with channel := channel } : ClientRun).awaited = [])
    (hall : ∀ x ∈ w.client.awaited, x ∈ pending) :
    (w.beside (({ w.client with channel := channel } : ClientRun).abandon pending)).Sound where
  booked := h.booked.beside (by simpa using hnext)
  matched := h.matched.abandon rfl rfl hgone hall
  turns := h.turns.abandon channel pending hturns fun _ => hended

/-- An owner with an open call that waits for a response, and for how long. -/
theorem Sound.call_of_exchange (h : w.Sound) {handle : UInt32} {service : String}
    {deadline : Duration}
    (hexchanging : w.client.activity? o = some (.exchanging handle service deadline)) :
    ∃ p ∈ w.calls, p.owner = o ∧ p.handle = handle := by
  by_contra hnone
  refine h.matched.others o (fun p hp howner => hnone ⟨p, hp, howner, ?_⟩) _ hexchanging rfl
  subst howner
  cases h.matched.stands p hp with
  | lost _ hidle => cases hidle.symm.trans hexchanging
  | done hidle => cases hidle.symm.trans hexchanging
  | waits hdoes =>
      rcases hdoes with ⟨-, hidle⟩ | ⟨-, _, _, hexchanging'⟩
      · cases hidle.symm.trans hexchanging
      · cases hexchanging'.symm.trans hexchanging
        rfl

/-- Something has come of a call, and nobody waits under its handle any
more. -/
theorem Sound.conclude (h : w.Sound) (hspare : w.Sparing) {p : OpenCall} (hp : p ∈ w.calls)
    {outcomes : List (Owner × Outcome)} {outcome : Outcome} (hmishap : Mishap outcome)
    (hnothing : w.client.outcome? p.owner = none)
    (hdropped : outcomes = w.client.outcomes ∨
      outcomes = w.client.outcomes.filter (·.1 ≠ p.owner)) :
    (w.beside (({ w.client with
      channel := w.client.channel.withdraw p.handle
      outcomes := outcomes } : ClientRun).conclude p.owner outcome)).Sound := by
  generalize hr : ({ w.client with
    channel := w.client.channel.withdraw p.handle
    outcomes := outcomes } : ClientRun) = r
  have hactivity : ∀ o, r.activity? o = w.client.activity? o := by
    intro o
    rw [← hr]
    rfl
  have houtcome? : ∀ o, r.outcome? o = w.client.outcome? o := by
    intro o
    rw [← hr]
    exact outcome?_dropped w.client p.owner o hnothing hdropped
  have hline : r.line? = w.client.line? := by
    rw [← hr]
    simp only [line?, Channel.withdraw, Option.map_map]
    rfl
  have hothers :
      ∀ o, o ≠ p.owner → (r.conclude p.owner outcome).activity? o = w.client.activity? o ∧
      (r.conclude p.owner outcome).outcome? o = w.client.outcome? o := by
    intro o hother
    rw [activity?_conclude, outcome?_conclude, if_neg hother, if_neg hother, Option.or_none]
    exact ⟨hactivity o, houtcome? o⟩
  refine ⟨h.booked.beside (by rw [← hr]; rfl), ?_, ?_⟩
  · refine h.matched.conclude h.booked hspare hp ?_ ?_ (.inr hmishap) hothers hline ?_
      fun _ _ _ => rfl
    · rw [activity?_conclude, if_pos rfl]
    · rw [outcome?_conclude, houtcome?, hnothing, if_pos rfl]
      rfl
    · intro x
      rw [← hr]
      exact mem_awaited_withdraw (r := w.client) p.handle x
  · exact h.turns.conclude (by rw [← hr]) (by rw [← hr]; rfl) hline p.owner outcome

/-- An owner that exchanges no request leaves the link as it is, and with it
every open call. -/
theorem Sound.tends (h : w.Sound) (hfree : ∀ p ∈ w.calls, p.owner ≠ o)
    (htends : Tends o w.client r')
    (hlink : r'.channel.link? = w.client.channel.link?) : (w.beside r').Sound :=
  h.around hfree htends.next hlink htends.others htends.own htends.turns

/-- **An owner goes on as far as it can**: it waits, dials, hangs up, or its
request has run out of time. -/
theorem Sound.proceed (h : w.Sound) (hspare : w.Sparing) (o : Owner) :
    (w.beside (w.client.proceed o)).Sound := by
  cases hdoing : w.client.activity? o with
  | none =>
      rw [ClientRun.proceed, hdoing]
      exact h
  | some activity =>
      by_cases hexchange : activity.isExchange
      · cases activity with
        | exchanging handle service deadline =>
            obtain ⟨p, hp, rfl, rfl⟩ := h.call_of_exchange hdoing
            rw [ClientRun.proceed, hdoing]
            dsimp only
            split
            · have hnothing : w.client.outcome? p.owner = none := by
                cases h.matched.stands p hp with
                | waits _ hnothing => exact hnothing
                | lost _ _ hnothing => exact hnothing
                | done hidle => cases hidle.symm.trans hdoing
              exact h.conclude hspare hp (.inl rfl) hnothing (.inl rfl)
            · exact h
        | _ => cases hexchange
      · have hfree := h.matched.free hdoing hexchange
        cases h.turns.proceeds hdoing hexchange with
        | stays htends hlink => exact h.tends hfree htends hlink
        | opens htends hunconnected c hlink =>
            have hbefore : w.client.awaited = [] := by
              apply List.eq_nil_iff_forall_not_mem.mpr
              intro x hwaits
              exact absurd (h.matched.alive x hwaits) (by simp [hunconnected])
            have hafter : (w.client.proceed o).awaited = [] := by simp [awaited, hlink]
            exact {
              booked := h.booked.beside htends.next
              matched := h.matched.relink hfree hbefore hafter
                (fun o' hother => (htends.others o' hother).1)
                (fun o' hother => (htends.others o' hother).2) htends.own
              turns := htends.turns }
        | severs hdisconnecting hturn htends hlink =>
            have habandoned := h.abandon { w.client.channel with link? := none } w.client.awaited
              rfl rfl rfl rfl fun _ => id
            exact habandoned.tends hfree htends (by simp [hlink])

/-- The connection in use ends, and every call that waits on it has failed, or
will when its frame is handed over. -/
theorem Sound.cut (h : w.Sound) : (w.beside w.client.cut).Sound := by
  have hended : w.client.channel.finish.2.isConnected = false := by
    unfold Channel.finish Channel.isConnected Channel.current?
    cases w.client.channel.link? <;> rfl
  have hgone :
      ({ w.client with channel := w.client.channel.finish.2 } : ClientRun).awaited = [] := by
    simp only [awaited, Channel.finish]
    cases w.client.channel.link? <;> rfl
  have habandoned :=
    h.abandon w.client.channel.finish.2 w.client.channel.pending rfl rfl hended hgone
    fun x hwaits => (h.matched.pending_iff x).mpr hwaits
  generalize hr : ({ w.client with channel := w.client.channel.finish.2 } : ClientRun).abandon
    w.client.channel.pending = r at habandoned
  have hcut : w.client.cut = r.notify .inactive := by
    rw [← hr]
    rfl
  rw [hcut]
  refine ⟨habandoned.booked.beside (by simp), habandoned.matched.congr (affairs_notify _ _), ?_⟩
  refine habandoned.turns.keep (fun _ => by simp) (by simp) fun o a hdoing _ => ?_
  rwa [client_beside, activity?_notify] at hdoing

/-- A response comes in, and goes to whoever waits for it.  While handles are
spared that is one call, which has the response as its answer. -/
theorem Sound.takeIn (h : w.Sound) (hspare : w.Sparing) {c : ConnectionId}
    (hreads : w.client.channel.reads c) (e : ResponseEnvelope) :
    ({ w with client := w.client.takeIn e, heard := w.heard ++ [(c, e)] } : Traffic).Sound := by
  have hchannel := channel_takeIn w.client e
  have hawaited : ∀ x, x ∈ (w.client.takeIn e).awaited ↔ x ∈ w.client.awaited ∧ x.1 ≠ e.handle := by
    intro x
    rw [← mem_awaited_withdraw, ClientRun.awaited, hchannel]
    rfl
  have hline : (w.client.takeIn e).line? = w.client.line? := by
    rw [line?, hchannel]
    simp only [line?, Channel.withdraw, Option.map_map]
    rfl
  have hbooked := (h.booked.beside (r := w.client.takeIn e) (by rw [hchannel]; rfl)).hear (c, e)
  have hturns : (∀ o a, (w.client.takeIn e).activity? o = some a → w.client.activity? o = some a) →
      (w.client.takeIn e).InTurn := fun hactivity =>
    h.turns.keep (fun _ => by rw [hchannel]; exact id)
      (fun hunconnected => (isConnected_of_line hline).trans hunconnected)
      fun o a hdoing _ => hactivity o a hdoing
  obtain ⟨r₁, haffairs, ⟨hsame, hnobody⟩ | ⟨o, hwaits, hconcluded⟩⟩ := takeIn_cases w.client e
  · have hactivity : ∀ o, (w.client.takeIn e).activity? o = w.client.activity? o := fun o =>
      hsame ▸ activity?_of_affairs haffairs o
    have houtcome : ∀ o, (w.client.takeIn e).outcome? o = w.client.outcome? o := fun o =>
      hsame ▸ outcome?_of_affairs haffairs o
    have hnobody : ∀ o, (e.handle, o) ∉ w.client.awaited := fun o hwaits =>
      hnobody o ((h.matched.pending_iff _).mpr hwaits)
    refine ⟨hbooked, h.matched.unasked h.booked hnobody hactivity houtcome hline ?_, hturns ?_⟩
    · intro x
      rw [hawaited, and_iff_left_of_imp]
      rintro hwaits hsame
      exact hnobody x.2 (hsame ▸ hwaits)
    · exact fun o a hdoing => (hactivity o).symm.trans hdoing
  · obtain ⟨p, hp, rfl, hhandle, -, hnothing, hanswer⟩ :=
      h.matched.answered h.booked hreads ((h.matched.pending_iff _).mp hwaits)
    have hactivity : ∀ o, (w.client.takeIn e).activity? o =
        if o = p.owner then none else w.client.activity? o := by
      intro o
      rw [hconcluded, activity?_wake, activity?_conclude, activity?_of_affairs haffairs]
      rfl
    have houtcome : ∀ o, (w.client.takeIn e).outcome? o = (w.client.outcome? o).or
        (if o = p.owner then some (Channel.outcome e.body) else none) := by
      intro o
      rw [hconcluded, outcome?_wake, outcome?_conclude, outcome?_of_affairs haffairs]
      rfl
    refine ⟨hbooked, ?_, hturns ?_⟩
    · refine h.matched.conclude h.booked hspare hp ?_ ?_ (.inl ⟨e, hanswer, rfl⟩) ?_ hline ?_ ?_
      · rw [hactivity, if_pos rfl]
      · rw [houtcome, hnothing, if_pos rfl]
        rfl
      · intro o hother
        rw [hactivity, houtcome, if_neg hother, if_neg hother, Option.or_none]
        exact ⟨rfl, rfl⟩
      · intro x
        rw [hawaited, hhandle]
      · intro q hq hother
        exact h.booked.answer?_other hq (hhandle ▸ hother)
    · intro o a hdoing
      rw [hactivity] at hdoing
      split at hdoing
      · cases hdoing
      · exact hdoing

/-- **A text comes in.**  It is a response to a call, or to none, or no
response; the ledger keeps up with the client in each case. -/
theorem Sound.hear (h : w.Sound) (hspare : w.Sparing) (c : ConnectionId) (text : String) :
    (w.hear c text).Sound := by
  unfold Traffic.hear
  split
  · rename_i hreads
    cases hdecoded : Wire.decodeResponse? text with
    | none =>
        have hsame : w.client.read [.frame text] = w.client := by simp [ClientRun.read, hdecoded]
        simpa [hsame] using h
    | some e =>
        have hsame : w.client.read [.frame text] = w.client.takeIn e := by
          simp [ClientRun.read, hdecoded]
        simpa [hsame] using h.takeIn hspare hreads e
  · exact h

/-- Whoever is idle waits for nothing, for those who wait are open calls. -/
theorem Sound.alone (h : w.Sound) (hidle : w.Idle o) (handle : UInt32) :
    (handle, o) ∉ w.client.awaited := by
  intro hwaits
  obtain ⟨p, hp, -, howner⟩ := h.matched.owned _ hwaits
  exact hidle.2.2 p hp howner

/-- A request fails as soon as its call begins, for it cannot be encoded or
there is no time for it; the call is open until its owner returns. -/
theorem Sound.refuse (h : w.Sound) (hconnected : w.client.channel.isConnected) {p : OpenCall}
    (hidle : w.Idle p.owner) (hhandle : p.handle = w.client.channel.allocate.1)
    (hindex : p.index = w.allocated) (hsince : p.since = w.heard.length) (hsent : p.sent? = none)
    (peer : Peer) {outcome : Outcome} (hmishap : Mishap outcome) :
    ({ w with
      client := ({ w.client with channel := w.client.channel.allocate.2, peer := peer } :
        ClientRun).conclude p.owner outcome
      calls := w.calls ++ [p]
      allocated := w.allocated + 1 } : Traffic).Sound := by
  have halone := h.alone hidle
  obtain ⟨-, hnothing, hfree⟩ := hidle
  generalize hr : ({ w.client with channel := w.client.channel.allocate.2, peer := peer } :
    ClientRun).conclude p.owner outcome = r
  have hactivity : ∀ o, r.activity? o = if o = p.owner then none else w.client.activity? o := by
    intro o
    rw [← hr, activity?_conclude]
    rfl
  have houtcome' : ∀ o, r.outcome? o =
      (w.client.outcome? o).or (if o = p.owner then some outcome else none) := by
    intro o
    rw [← hr, outcome?_conclude]
    rfl
  have hsame : r.channel.link? = w.client.channel.link? := by
    rw [← hr]
    exact link?_allocate w.client.channel
  have hawaited := awaited_of_link hsame
  refine ⟨h.booked.open (by rw [← hr]; rfl) hfree hhandle hindex hsince (by simp [hsent]), ?_, ?_⟩
  · refine h.matched.open hfree hconnected ?_ ?_ (line?_of_link hsame) ?_ ?_
    · refine .done (by rw [hactivity, if_pos rfl]) (by rw [houtcome', hnothing, if_pos rfl]; rfl)
        (.inr hmishap) ?_
      rw [hawaited]
      exact halone
    · intro o hother
      rw [hactivity, houtcome', if_neg hother, if_neg hother, Option.or_none]
      exact ⟨rfl, rfl⟩
    · intro x _
      rw [hawaited]
    · intro handle hwaits
      rw [hawaited] at hwaits
      exact absurd hwaits (halone handle)
  · rw [← hr]
    refine h.turns.conclude ?_ (turns_allocate _) (line?_of_link (link?_allocate _)) p.owner outcome
    rfl

/-- A request goes out, and its owner waits under its handle, which nobody
else does. -/
theorem Sound.send (h : w.Sound) {l : Link} (hconnected : w.client.channel.current? = some l)
    {p : OpenCall} (hidle : w.Idle p.owner) (hhandle : p.handle = w.client.channel.allocate.1)
    (hindex : p.index = w.allocated) (hsince : p.since = w.heard.length)
    (hsent : p.sent? = some p.envelope) (hconnection : p.connection = l.connection)
    (hsending : p.handed = false) (x : ClientRun.Observation) :
    ({ w with
      client := ({ w.client with
        channel := w.client.channel.allocate.2.register w.client.channel.allocate.1 p.owner } :
          ClientRun).observe x
      calls := w.calls ++ [p]
      allocated := w.allocated + 1 } : Traffic).Sound := by
  have halone := h.alone hidle
  obtain ⟨hresting, hnothing, hfree⟩ := hidle
  obtain ⟨hlink, halive⟩ := Option.filter_eq_some_iff.mp hconnected
  have hisConnected : w.client.channel.isConnected := by simp [Channel.isConnected, hconnected]
  rw [← hhandle]
  generalize hr : (({ w.client with
    channel := w.client.channel.allocate.2.register p.handle p.owner } : ClientRun).observe x) = r
  have hactivity : ∀ o, r.activity? o = w.client.activity? o := by
    intro o
    rw [← hr]
    rfl
  have houtcome : ∀ o, r.outcome? o = w.client.outcome? o := by
    intro o
    rw [← hr]
    rfl
  have hline : r.line? = w.client.line? := by
    rw [← hr]
    simp [line?, Channel.register, hlink]
  have hawaited : r.awaited = w.client.awaited ++ [(p.handle, p.owner)] := by
    rw [← hr]
    simp [ClientRun.awaited, Channel.register, hlink]
  refine ⟨h.booked.open (by rw [← hr]; rfl) hfree hhandle hindex hsince (by simp [hsent]), ?_, ?_⟩
  · refine h.matched.open hfree hisConnected ?_ (fun o _ => ⟨hactivity o, houtcome o⟩) hline ?_ ?_
    · refine .waits (.inl ⟨hsending, by rw [hactivity, hresting]⟩) (by rw [houtcome, hnothing])
        (by simp [hawaited]) ⟨true, ?_⟩ ?_
      · rw [hline, line?, hlink, hconnection]
        simpa using halive
      · simp [OpenCall.answer?, hsince]
    · intro x hother
      simp only [hawaited, List.mem_append, List.mem_singleton]
      refine or_iff_left ?_
      rintro rfl
      exact hother rfl
    · intro handle hwaits
      rw [hawaited] at hwaits
      rcases List.mem_append.mp hwaits with hwaits | hsame
      · exact absurd hwaits (halone handle)
      · cases List.mem_singleton.mp hsame
        rfl
  · refine h.turns.keep ?_ ?_ ?_
    · intro o hturn
      rw [← hr]
      simpa [Channel.hasTurn, Channel.register] using hturn
    · exact fun hunconnected => (isConnected_of_line hline).trans hunconnected
    · exact fun o a hdoing _ => (hactivity o).symm.trans hdoing

/-- **A call begins**: its owner waits for the response, or has the error to
return with. -/
theorem Sound.post (h : w.Sound) (hidle : w.Idle o) (q : Request) : (w.post o q).Sound := by
  unfold Traffic.post
  rcases post_cases w.client o q with
    ⟨hunconnected, hposted⟩ | ⟨l, hconnected, ⟨peer, text, hposted⟩ | ⟨envelope, rfl, hposted⟩⟩
  · rw [hposted, hunconnected]
    refine h.around hidle.2.2 rfl rfl ?_ ?_ (h.turns.conclude rfl rfl rfl o _)
    · intro o' hother
      rw [activity?_conclude, outcome?_conclude, if_neg hother, if_neg hother, Option.or_none]
      exact ⟨rfl, rfl⟩
    · simp [activity?_conclude]
  · rw [hposted, hconnected]
    exact h.refuse (p := w.opening o q l.connection none)
      (by simp [Channel.isConnected, hconnected])
      hidle rfl rfl rfl rfl peer (.inr ⟨text, rfl⟩)
  · rw [hposted, hconnected]
    exact h.send (p := w.opening o q l.connection (some _)) hconnected hidle rfl rfl rfl rfl
      rfl rfl _

/-- The request of a call is not on its way any more, and the call stands as
one that was handed over. -/
theorem Sound.settle (h : w.Sound) {p : OpenCall} (hp : p ∈ w.calls)
    (hstands : ({ p with handed := true } : OpenCall).Stands r' w.heard)
    (hothers : ∀ o, o ≠ p.owner →
      r'.activity? o = w.client.activity? o ∧ r'.outcome? o = w.client.outcome? o)
    (hchannel : r'.channel = w.client.channel)
    (hown : ∀ a ∈ r'.activity? p.owner, a.gate? = none) :
    ((w.beside r').settle p.owner).Sound where
  booked := (h.booked.beside (by rw [hchannel])).settle p.owner
  matched := h.matched.hand h.booked hp hstands hothers (by rw [hchannel])
  turns := by
    refine h.turns.keep (fun _ => hchannel ▸ id) (hchannel ▸ id) fun o a hdoing hgate => ?_
    by_cases hsame : o = p.owner
    · subst hsame
      exact absurd (hown a hdoing) hgate
    · exact (hothers o hsame).1.symm.trans hdoing

/-- A request was handed over whose owner waits: it goes on waiting, or has
failed at once. -/
theorem Sound.handOver_waiting (h : w.Sound) (hspare : w.Sparing) {p : OpenCall}
    (hp : p ∈ w.calls) (hwaits : (p.handle, p.owner) ∈ w.client.awaited)
    (error : Option TransportError) :
    ((w.beside (w.client.handOver p.owner p.envelope error)).settle p.owner).Sound := by
  have hawaits : w.client.channel.awaits p.handle p.owner := by
    simpa [Channel.awaits] using (h.matched.pending_iff _).mpr hwaits
  cases h.matched.stands p hp with
  | lost _ _ _ hgone => exact absurd hwaits (hgone _)
  | done _ _ _ hgone => exact absurd hwaits (hgone _)
  | waits hdoes hnothing _ hline hunheard =>
      rcases handOver_cases w.client p.owner p.envelope error hawaits with
        ⟨outcomes, outcome, hmishap, hdropped, hfailed⟩ | ⟨service, deadline, hgoes⟩
      · rw [hfailed]
        have hconcluded := h.conclude hspare hp hmishap hnothing hdropped
        refine hconcluded.settle hp ?_ (fun _ _ => ⟨rfl, rfl⟩) rfl ?_
        · cases hconcluded.matched.stands p hp with
          | done hidle hcame hexplains hgone => exact .done hidle hcame hexplains hgone
          | waits _ hnothing => simp [outcome?_conclude] at hnothing
          | lost _ _ hnothing => simp [outcome?_conclude] at hnothing
        · simp [activity?_conclude]
      · rw [hgoes]
        have hactivity := activity?_setActivity w.client p.owner
        refine h.settle hp (.waits (.inr ⟨rfl, service, deadline, ?_⟩) hnothing hwaits hline
          hunheard)
          ?_ rfl ?_
        · rw [hactivity, if_pos rfl]
          rfl
        · intro o hother
          rw [hactivity, if_neg hother]
          exact ⟨rfl, rfl⟩
        · rw [hactivity, if_pos rfl]
          rintro _ ⟨⟩
          rfl

/-- A request was handed over whose owner does not wait any more: it was
answered or lost before. -/
theorem Sound.handOver_gone (h : w.Sound) {p : OpenCall} (hp : p ∈ w.calls)
    (hwaits : (p.handle, p.owner) ∉ w.client.awaited) (error : Option TransportError) :
    ((w.beside (w.client.handOver p.owner p.envelope error)).settle p.owner).Sound := by
  have hawaits : ¬ w.client.channel.awaits p.envelope.handle p.owner := by
    intro hawaits
    exact hwaits ((h.matched.pending_iff _).mp (by
      simpa [Channel.awaits, OpenCall.envelope] using hawaits))
  obtain ⟨hidle, hgone⟩ : w.client.activity? p.owner = none ∧
      ∀ handle, (handle, p.owner) ∉ w.client.awaited := by
    cases h.matched.stands p hp with
    | waits _ _ hwaiting => exact absurd hwaiting hwaits
    | lost _ hidle _ hgone => exact ⟨hidle, hgone⟩
    | done hidle _ _ hgone => exact ⟨hidle, hgone⟩
  obtain ⟨hchannel, hactivity, hothers, x, hcame, hsame⟩ :=
    ClientRun.handOver_gone w.client p.owner p.envelope error hawaits hidle
  refine h.settle hp (.done ((hactivity _).trans hidle) hcame ?_ ?_) ?_ hchannel ?_
  · rcases hsame with hbefore | hfailed
    · cases h.matched.stands p hp with
      | waits _ hnothing => cases hnothing.symm.trans hbefore
      | lost _ _ hnothing => cases hnothing.symm.trans hbefore
      | done _ hcame hexplains =>
          cases hcame.symm.trans hbefore
          exact hexplains
    · exact .inr (.inr hfailed)
  · intro handle
    rw [awaited_of_link (congrArg Channel.link? hchannel)]
    exact hgone handle
  · exact fun o hother => ⟨hactivity o, hothers o hother⟩
  · simp [hactivity, hidle]

/-- **The connection has taken the frame of a call**, or failed to.  In the
meantime the response may have come, or the link have been lost. -/
theorem Sound.handOver (h : w.Sound) (hspare : w.Sparing) (o : Owner)
    (error : Option TransportError) : (w.handOver o error).Sound := by
  rcases h.booked.handOver_cases o error with ⟨-, hsame⟩ | ⟨p, hp, rfl, -, -, hhanded⟩
  · rw [hsame]
    exact h
  · rw [hhanded]
    by_cases hwaits : (p.handle, p.owner) ∈ w.client.awaited
    · exact h.handOver_waiting hspare hp hwaits error
    · exact h.handOver_gone hp hwaits error

/-- **An owner returns**, unless what it sends is still on its way. -/
theorem Sound.leave (h : w.Sound) (o : Owner) : (w.leave o).Sound := by
  unfold Traffic.leave
  split
  · split
    · exact h
    · rename_i outcome client htaken
      refine ⟨?_, h.matched.leave htaken, ?_⟩
      · have hsame := (takeOutcome?_cases w.client o htaken).2
        exact (h.booked.beside (by rw [hsame])).leave o
      · rw [(takeOutcome?_cases w.client o htaken).2]
        exact h.turns.keep (fun _ => id) id fun _ _ hdoing _ => hdoing
  · exact h

/-- Nothing happens on the channel, and nothing is written into the ledger. -/
theorem Sound.same (h : w.Sound) (hchannel : r'.channel = w.client.channel)
    (haffairs : r'.affairs = w.client.affairs) : (w.beside r').Sound where
  booked := h.booked.beside (by rw [hchannel])
  matched := h.matched.congr haffairs
  turns := h.turns.keep (fun _ => hchannel ▸ id) (hchannel ▸ id) fun o _ hdoing _ =>
    (activity?_of_affairs haffairs o).symm.trans hdoing

/-- **Each incident keeps the ledger and the client in step**, while handles
are spared; there is one lemma above for each that matters. -/
theorem Sound.step (h : w.Sound) (hspare : w.Sparing) (i : Incident) : (w.step i).Sound := by
  cases i with
  | request o q =>
      rw [Traffic.step]
      split
      · rename_i hidle
        exact h.post hidle q
      · exact h
  | handed o error => exact h.handOver hspare o error
  | connect o =>
      rw [Traffic.step]
      split
      · rename_i hidle
        exact h.queueUp hidle rfl Bool.false_ne_true
      · exact h
  | disconnect o =>
      rw [Traffic.step]
      split
      · rename_i hidle
        exact h.queueUp hidle rfl Bool.false_ne_true
      · exact h
  | proceed o => exact h.proceed hspare o
  | frame c text => exact h.hear hspare c text
  | ended c =>
      rw [Traffic.step]
      split
      · exact h.cut
      · exact h
  | returned o => exact h.leave o
  | elapse d => exact h.same rfl rfl
  | peer p => exact h.same rfl rfl

/-! ## All incidents -/

/-- Incidents may be taken in two parts, one after the other. -/
theorem after_append (w : Traffic) (is js : List Incident) :
    w.after (is ++ js) = (w.after is).after js := by
  induction is generalizing w with
  | nil => rfl
  | cons i rest ih => exact ih (w.step i)

/-- **What happens one after the other keeps the ledger and the client in
step.** -/
theorem Sound.after (h : w.Sound) (incidents : List Incident) (hspare : w.Spares incidents) :
    (w.after incidents).Sound ∧ (w.after incidents).Sparing := by
  induction incidents generalizing w with
  | nil => exact ⟨h, hspare⟩
  | cons i rest ih => exact ih (h.step hspare.1 i) hspare.2

theorem sound_start (url : String) (settings : ClientSettings) (endpoint : EndpointDescription)
    (credentials : Credentials) : (start url settings endpoint credentials).Sound where
  booked := booked_start url settings endpoint credentials
  matched := matched_start url settings endpoint credentials
  turns := ⟨fun _ _ => nofun, fun _ => nofun⟩

end Traffic

end OpcSession.Simulation
