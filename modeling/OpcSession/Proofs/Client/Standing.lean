import OpcSession.Proofs.Client.Stations

/-!
# Each incident leaves every owner standing

Requests are posted and handed over, responses come in, the connection ends, and owners return.
Each of these is about one owner, and the others stand as before; when the connection ends, all
that waited stand as owners whose requests were lost.

* `Traffic.Standing.handOver` — a frame was handed over, or not; if its request was lost before, it
  has failed now;
* `Traffic.Standing.hear`, `Traffic.Standing.cut` — what comes in, and the end;
* `Traffic.Standing.post`, `Traffic.Standing.leave` — a call begins, and returns.
-/

namespace OpcSession.Simulation

open Session Client

namespace Traffic

open ClientRun

variable {w : Traffic} {r' : ClientRun} {o o' : Owner} {handle : UInt32}

/-! ## What is handed over -/

/-- To settle the calls of an owner is to write down that they were handed
over, and leaves the calls of others alone. -/
theorem calls_settle (o o' : Owner) : (w.settle o).calls.filter (·.owner = o') =
    if o' = o then (w.calls.filter (·.owner = o)).map fun p => { p with handed := true }
    else w.calls.filter (·.owner = o') := by
  have hkept : ∀ p : OpenCall,
      (if p.owner = o then { p with handed := true } else p).owner = p.owner := by
    intro p
    split <;> rfl
  have hfiltered : (w.settle o).calls.filter (·.owner = o') = (w.calls.filter (·.owner = o')).map
      fun p => if p.owner = o then { p with handed := true } else p := by
    rw [settle, List.filter_map]
    congr 2
    funext p
    exact congrArg (fun owner => decide (owner = o')) (hkept p)
  rw [hfiltered]
  split
  · rename_i hsame
    subst hsame
    refine List.map_congr_left fun p hp => ?_
    exact if_pos (by simpa using (List.mem_filter.mp hp).2)
  · rename_i hother
    refine (List.map_congr_left fun p hp => ?_).trans (List.map_id _)
    have howner : p.owner = o' := by simpa using (List.mem_filter.mp hp).2
    exact if_neg (howner ▸ hother)

/-- The station of another owner is as it was when one owner's call is
settled. -/
theorem station_settle_other (hother : o' ≠ o) : (w.settle o).station o' = w.station o' := by
  simp only [station, calls_settle, if_neg hother]
  rfl

/-- After it was settled, an owner's only call counts as handed over; what it
does and what has come of it are as before. -/
theorem station_settle {p : OpenCall} {a? : Option Activity} {x? : Option Outcome}
    {waits : List UInt32} (hown : w.station o = ⟨[p], a?, x?, waits⟩) :
    (w.settle o).station o = ⟨[{ p with handed := true }], a?, x?, waits⟩ := by
  have hcalls : w.calls.filter (·.owner = o) = [p] := congrArg Station.calls hown
  have hsame :
      (w.settle o).station o = { w.station o with calls := [{ p with handed := true }] } := by
    simp only [station, calls_settle, if_true, hcalls]
    rfl
  rw [hsame, hown]

/-- A client stands after a call of it was settled, if every station does and
the rest of what makes it stand was shown before. -/
theorem Standing.settle (hbooked : w.Booked) (hstands : ∀ o', ((w.settle o).station o').Stands)
    (hturns : w.client.InTurn) (hdistinct : (w.client.awaited.map (·.1)).Nodup)
    (halive : w.client.channel.isConnected = false → w.client.awaited = [])
    (hsending : ∀ p ∈ w.calls, p.handed = false → p.sent?.isSome) : (w.settle o).Standing where
  stands := hstands
  booked := hbooked.settle o
  turns := hturns
  distinct := hdistinct
  alive := halive
  sending := by
    intro p' hp' hunhanded
    obtain ⟨p, hp, rfl⟩ := List.mem_map.mp hp'
    split at hunhanded
    · cases hunhanded
    · rename_i hother
      rw [if_neg hother]
      exact hsending p hp hunhanded

/-- What is on its way for an owner is its only open call's frame, unless that
was handed over before. -/
theorem sending_of_station {p : OpenCall} {a? : Option Activity} {x? : Option Outcome}
    {waits : List UInt32} (hown : w.station o = ⟨[p], a?, x?, waits⟩) :
    p ∈ w.calls ∧ p.owner = o ∧ (w.calls.find? (·.owner = o)).bind OpenCall.sending? =
      p.sending? := by
  have hcalls : w.calls.filter (·.owner = o) = [p] := congrArg Station.calls hown
  have hlisted : p ∈ w.calls.filter (·.owner = o) := hcalls ▸ List.mem_cons_self
  obtain ⟨hmem, howner⟩ := List.mem_filter.mp hlisted
  refine ⟨hmem, by simpa using howner, ?_⟩
  rw [← List.head?_filter, hcalls]
  rfl

/-- A frame was handed over whose owner waits for the response.  It goes on
waiting, or the request has failed at once; the others stand as before. -/
theorem Standing.handOver_waiting (h : w.Standing) {p : OpenCall}
    (hown : w.station o = ⟨[p], none, none, [p.handle]⟩) (error : Option TransportError) :
    ((w.beside (w.client.handOver o p.envelope error)).settle o).Standing ∧
      ∀ o', o' ≠ o → ((w.beside (w.client.handOver o p.envelope error)).settle o).station o' =
        w.station o' := by
  have hnothing : w.client.outcome? o = none := congrArg Station.outcome? hown
  have hwaiting : (p.handle, o) ∈ w.client.awaited := by
    rw [← mem_waits, show w.client.waits o = [p.handle] from congrArg Station.waits hown]
    exact List.mem_cons_self
  have hawaits : w.client.channel.awaits p.envelope.handle o := h.awaits_iff.mpr hwaiting
  rcases handOver_cases w.client o p.envelope error hawaits with
    ⟨outcomes, x, -, hdropped, hfailed⟩ | ⟨service, deadline, hgoes⟩
  · rw [hfailed]
    have houtcome := fun o' => outcome?_dropped w.client o o' hnothing hdropped
    generalize hr : ({ w.client with
      channel := w.client.channel.withdraw p.envelope.handle
      outcomes := outcomes } : ClientRun) = r
    obtain ⟨hstanding, hothers, hsettled⟩ := h.concludes (r := r) hown (by rw [← hr]; rfl)
      (fun _ => hr ▸ rfl) (fun o' => hr ▸ houtcome o') x
    refine ⟨.settle hstanding.booked (fun o' => ?_) hstanding.turns hstanding.distinct
      hstanding.alive
      hstanding.sending, fun o' hother => (station_settle_other hother).trans (hothers o' hother)⟩
    by_cases hsame : o' = o
    · rw [hsame, station_settle hsettled]
      exact .done
    · rw [station_settle_other hsame]
      exact hstanding.stands o'
  · rw [hgoes]
    have hbegun :
        (w.beside (w.client.setActivity o (.exchanging p.handle service deadline))).station o =
        ⟨[p], some (.exchanging p.handle service deadline), none, [p.handle]⟩ := by
      have hsame : (w.beside (w.client.setActivity o
          (.exchanging p.handle service deadline))).station o =
          { w.station o with activity? := some (.exchanging p.handle service deadline) } := by
        simp only [station, client_beside, activity?_setActivity, if_true]
        rfl
      rw [hsame, hown]
    have hothers : ∀ o', o' ≠ o → ((w.beside (w.client.setActivity o
        (.exchanging p.handle service deadline))).settle o).station o' = w.station o' := by
      intro o' hother
      rw [station_settle_other hother]
      simp only [station, client_beside, activity?_setActivity, if_neg hother]
      rfl
    refine ⟨.settle (h.booked.beside rfl) (fun o' => ?_) ?_ h.distinct h.alive h.sending, hothers⟩
    · by_cases hsame : o' = o
      · subst hsame
        have hhanded := station_settle hbegun
        rw [OpenCall.envelope, hhanded]
        exact .waits (.inr ⟨rfl, service, deadline, rfl⟩)
      · exact hothers o' hsame ▸ h.stands o'
    · refine h.turns.keep (fun _ => id) id fun o' a hdoing hgate => ?_
      rw [client_beside, activity?_setActivity] at hdoing
      split at hdoing
      · cases hdoing
        exact absurd rfl hgate
      · exact hdoing

/-- A frame was handed over whose owner does not wait any more: the response
has come, and stays, or the request was lost, and has failed now. -/
theorem Standing.handOver_gone (h : w.Standing) {p : OpenCall} {x? : Option Outcome}
    (hown : w.station o = ⟨[p], none, x?, []⟩) (error : Option TransportError) :
    ((w.beside (w.client.handOver o p.envelope error)).settle o).Standing ∧
      (∀ o', o' ≠ o → ((w.beside (w.client.handOver o p.envelope error)).settle o).station o' =
        w.station o') ∧
      ∃ x, ((w.beside (w.client.handOver o p.envelope error)).settle o).station o =
          ⟨[{ p with handed := true }], none, some x, []⟩ ∧
        (x? = some x ∨ ∃ text, x = .failed (.transport text)) := by
  have hgone : ¬ w.client.channel.awaits p.envelope.handle o := by
    intro hawaits
    have hwaiting : p.handle ∈ w.client.waits o := mem_waits.mpr (h.awaits_iff.mp hawaits)
    rw [show w.client.waits o = [] from congrArg Station.waits hown] at hwaiting
    cases hwaiting
  have hidle : w.client.activity? o = none := congrArg Station.activity? hown
  obtain ⟨hchannel, hactivity, houtcome, x, hcame, hsame⟩ :=
    ClientRun.handOver_gone w.client o p.envelope error hgone hidle
  rw [show w.client.outcome? o = x? from congrArg Station.outcome? hown] at hsame
  generalize w.client.handOver o p.envelope error = r at hchannel hactivity houtcome hcame
  have hwaits : ∀ o', r.waits o' = w.client.waits o' := fun o' =>
    waits_of_link (congrArg Channel.link? hchannel)
  have hothers : ∀ o', o' ≠ o → ((w.beside r).settle o).station o' = w.station o' := by
    intro o' hother
    rw [station_settle_other hother]
    simp only [station, client_beside, hactivity, houtcome o' hother, hwaits]
    rfl
  have hended : (w.beside r).station o = ⟨[p], none, some x, []⟩ := by
    have hsame : (w.beside r).station o = { w.station o with outcome? := some x } := by
      simp only [station, client_beside, hactivity, hcame, hwaits]
      rfl
    rw [hsame, hown]
  have hhanded := station_settle hended
  refine ⟨.settle (h.booked.beside (by rw [hchannel])) (fun o' => ?_) ?_ ?_ ?_ h.sending,
    hothers, x,
    hhanded, hsame⟩
  · by_cases hsame : o' = o
    · rw [hsame, hhanded]
      exact .done
    · exact hothers o' hsame ▸ h.stands o'
  · exact h.turns.keep (fun _ => hchannel ▸ id) (hchannel ▸ id) fun o' a hdoing _ =>
      (hactivity o').symm.trans hdoing
  · rw [client_beside, awaited_of_link (congrArg Channel.link? hchannel)]
    exact h.distinct
  · rw [client_beside, awaited_of_link (congrArg Channel.link? hchannel), hchannel]
    exact h.alive

/-- **A frame was handed over, or not.**  If the request of its owner was lost
before, it has failed now. -/
theorem Standing.handOver (h : w.Standing) (o : Owner) (error : Option TransportError) :
    (w.handOver o error).Standing ∧
      (∀ o', o' ≠ o → (w.handOver o error).station o' = w.station o') ∧
      ∀ p, p.handed = false → w.station o = ⟨[p], none, none, []⟩ → ∃ text,
        (w.handOver o error).station o =
          ⟨[{ p with handed := true }], none, some (.failed (.transport text)), []⟩ := by
  rcases h.booked.handOver_cases o error with
    ⟨hnothing, hsame⟩ | ⟨p, hp, rfl, hunhanded, -, hhanded⟩
  · rw [hsame]
    refine ⟨h, fun _ _ => rfl, fun p hunhanded hown => ?_⟩
    obtain ⟨hmem, -, hsending⟩ := sending_of_station hown
    obtain ⟨e, hsent⟩ := Option.isSome_iff_exists.mp (h.sending p hmem hunhanded)
    rw [hnothing, OpenCall.sending?, hunhanded, hsent] at hsending
    cases hsending
  · rw [hhanded]
    rcases (h.stands p.owner).unhanded (h.calls_eq hp) hunhanded with hwaiting | ⟨x?, hgone⟩
    · obtain ⟨hstanding, hothers⟩ := h.handOver_waiting hwaiting error
      exact ⟨hstanding, hothers, fun p' _ hown => nomatch hwaiting.symm.trans hown⟩
    · obtain ⟨hstanding, hothers, x, hended, hcame⟩ := h.handOver_gone hgone error
      refine ⟨hstanding, hothers, fun p' _ hown => ?_⟩
      cases hgone.symm.trans hown
      obtain ⟨text, rfl⟩ := hcame.resolve_left nofun
      exact ⟨text, hended⟩

/-- A call that is lost stays lost when a frame is handed over, its own or
that of another. -/
theorem Standing.lost_handOver (h : w.Standing) {p : OpenCall} (hlost : (w.station o').Lost p)
    (o : Owner) (error : Option TransportError) : ((w.handOver o error).station o').Lost p := by
  obtain ⟨-, hothers, hfails⟩ := h.handOver o error
  by_cases hother : o' = o
  · subst hother
    generalize hs : w.station o' = s at hlost
    cases hlost with
    | sending hunhanded =>
        obtain ⟨text, hfailed⟩ := hfails p hunhanded hs
        rw [hfailed]
        exact .failed text
    | failed text =>
        have hsame : w.handOver o' error = w := by
          rw [Traffic.handOver, (sending_of_station hs).2.2]
          rfl
        rw [hsame, hs]
        exact .failed text
  · rw [hothers o' hother]
    exact hlost

/-! ## What comes in -/

/-- To write down what was heard concerns no owner's station. -/
theorem Standing.heard (h : w.Standing) (x : ConnectionId × ResponseEnvelope) :
    ({ w with heard := w.heard ++ [x] } : Traffic).Standing :=
  ⟨h.stands, h.booked.hear x, h.turns, h.distinct, h.alive, h.sending⟩

/-- What leaves the link, and what all owners do and have done, as it is. -/
theorem Standing.congr (h : w.Standing) (r' : ClientRun) (hchannel : r'.channel = w.client.channel)
    (haffairs : r'.affairs = w.client.affairs) :
    (∀ o, (w.beside r').station o = w.station o) ∧ (w.beside r').Standing := by
  have hsame : ∀ o, (w.beside r').station o = w.station o := by
    intro o
    simp only [station, client_beside, activity?_of_affairs haffairs, outcome?_of_affairs haffairs,
      waits_of_link (congrArg Channel.link? hchannel)]
    rfl
  refine ⟨hsame, fun o => hsame o ▸ h.stands o, h.booked.beside (by rw [hchannel]), ?_, ?_, ?_,
    h.sending⟩
  · exact h.turns.keep (fun _ => hchannel ▸ id) (hchannel ▸ id) fun o _ hdoing _ =>
      (activity?_of_affairs haffairs o).symm.trans hdoing
  · rw [client_beside, awaited_of_affairs haffairs]
    exact h.distinct
  · rw [client_beside, awaited_of_affairs haffairs, hchannel]
    exact h.alive

/-- **A response comes in**: nobody notices but the one that waits for it. -/
theorem Standing.takeIn (h : w.Standing) (e : ResponseEnvelope) :
    (w.beside (w.client.takeIn e)).Standing ∧ ∀ o, (e.handle, o) ∉ w.client.awaited →
      (w.beside (w.client.takeIn e)).station o = w.station o := by
  have hchannel := channel_takeIn w.client e
  obtain ⟨r₁, haffairs, ⟨hsame, hnobody⟩ | ⟨o, hwaits, hconcluded⟩⟩ := takeIn_cases w.client e
  · rw [h.pending_eq] at hnobody
    have hawaited : (w.client.takeIn e).awaited = w.client.awaited := by
      rw [hsame, awaited_of_affairs haffairs, awaited_withdraw]
      refine List.filter_eq_self.mpr fun x hwaits => ?_
      have hother : x.1 ≠ e.handle := fun hsame => hnobody x.2 (hsame ▸ hwaits)
      simpa using hother
    have hactivity : ∀ o, (w.client.takeIn e).activity? o = w.client.activity? o := fun o =>
      hsame ▸ activity?_of_affairs haffairs o
    have houtcome : ∀ o, (w.client.takeIn e).outcome? o = w.client.outcome? o := fun o =>
      hsame ▸ outcome?_of_affairs haffairs o
    have hstations : ∀ o, (w.beside (w.client.takeIn e)).station o = w.station o := by
      intro o
      simp only [station, client_beside, hactivity, houtcome, ClientRun.waits, hawaited]
      rfl
    refine ⟨⟨fun o => hstations o ▸ h.stands o, h.booked.beside (by rw [hchannel]; rfl), ?_, ?_, ?_,
      h.sending⟩, fun o _ => hstations o⟩
    · refine h.turns.keep (fun _ => hchannel ▸ id) (fun hunconnected => ?_)
        fun o _ hdoing _ => (hactivity o).symm.trans hdoing
      rw [client_beside, hchannel, isConnected_withdraw]
      exact hunconnected
    · rw [client_beside, hawaited]
      exact h.distinct
    · rw [client_beside, hawaited, hchannel, isConnected_withdraw]
      exact h.alive
  · rw [h.pending_eq] at hwaits
    obtain ⟨p, a?, hhandle, -, hown⟩ := h.waiting hwaits
    obtain ⟨hstanding, hothers, -⟩ := h.settles (x := Channel.outcome e.body) hown
      (by rw [hchannel]; rfl) (by rw [hchannel]; rfl) (by rw [hchannel, hhandle]) (fun o' => by
        rw [hconcluded, activity?_wake, activity?_conclude, activity?_of_affairs haffairs]
        rfl) fun o' => by
        have hnothing : r₁.outcome? o = none :=
          (outcome?_of_affairs haffairs o).trans (congrArg Station.outcome? hown)
        rw [hconcluded, outcome?_wake, outcome?_conclude_first hnothing,
          outcome?_of_affairs haffairs]
        rfl
    refine ⟨hstanding, fun o' habsent => hothers o' ?_⟩
    rintro rfl
    exact habsent hwaits

/-- A text that comes in may be for one owner that waits.  Whoever waits for
nothing stands as before, also where the text is no response. -/
theorem Standing.hear (h : w.Standing) (c : ConnectionId) (text : String) :
    (w.hear c text).Standing ∧ ∀ o, w.client.waits o = [] →
      (w.hear c text).station o = w.station o := by
  unfold Traffic.hear
  split
  · cases hdecoded : Wire.decodeResponse? text with
    | none =>
        have hsame : w.client.read [.frame text] = w.client := by simp [ClientRun.read, hdecoded]
        rw [hsame, Option.map_none, Option.toList_none, List.append_nil]
        exact ⟨h, fun _ _ => rfl⟩
    | some e =>
        have hsame : w.client.read [.frame text] = w.client.takeIn e := by
          simp [ClientRun.read, hdecoded]
        obtain ⟨hstanding, hothers⟩ := h.takeIn e
        simp only [hsame, Option.map_some, Option.toList_some]
        refine ⟨hstanding.heard (c, e), fun o halone => hothers o fun hwaits => ?_⟩
        have hlisted := mem_waits.mpr hwaits
        rw [halone] at hlisted
        cases hlisted
  · exact ⟨h, fun _ _ => rfl⟩

/-- **The connection in use ends**: whoever waited does not any more, and has
been told so unless its frame is still on its way. -/
theorem Standing.cut (h : w.Standing) :
    (∀ o, (w.station o).Severed ((w.beside w.client.cut).station o)) ∧
      (∀ o, w.client.cut.waits o = []) ∧ (w.beside w.client.cut).Standing := by
  have hended : w.client.channel.finish.2.isConnected = false := by
    unfold Channel.finish Channel.isConnected Channel.current?
    cases w.client.channel.link? <;> rfl
  have hgone :
      ({ w.client with channel := w.client.channel.finish.2 } : ClientRun).awaited = [] := by
    simp only [awaited, Channel.finish]
    cases w.client.channel.link? <;> rfl
  obtain ⟨hsevered, hstanding⟩ := h.abandon w.client.channel.finish.2 rfl rfl hended hgone
  have hcut : w.client.cut = (({ w.client with channel := w.client.channel.finish.2 } :
      ClientRun).abandon w.client.awaited).notify .inactive := by
    rw [← h.pending_eq]
    rfl
  rw [hcut]
  obtain ⟨hsame, hstanding⟩ := hstanding.congr _ (channel_notify _ .inactive) (affairs_notify _ _)
  refine ⟨fun o => hsame o ▸ hsevered o, fun o => ?_, hstanding⟩
  rw [ClientRun.waits, awaited_of_affairs (affairs_notify _ _),
    awaited_of_link (congrArg Channel.link? (channel_abandon _ _)), hgone]
  rfl

/-! ## Calls that begin and return -/

/-- A call is opened by an owner that was idle.  What the others are about is
left as it was, so it is enough that the owner's own station stands. -/
theorem Standing.open (h : w.Standing) {p : OpenCall} {n : Nat} (hidle : w.Idle p.owner)
    (hbooked : ({ w with client := r', calls := w.calls ++ [p], allocated := n } : Traffic).Booked)
    (hothers : ∀ o, o ≠ p.owner → (w.beside r').station o = w.station o)
    (hown : (⟨[p], r'.activity? p.owner, r'.outcome? p.owner, r'.waits p.owner⟩ : Station).Stands)
    (hturns : r'.InTurn) (hdistinct : (r'.awaited.map (·.1)).Nodup)
    (halive : r'.channel.isConnected = false → r'.awaited = [])
    (hsending : p.handed = false → p.sent?.isSome) :
    ({ w with client := r', calls := w.calls ++ [p], allocated := n } : Traffic).Standing ∧
      ∀ o, o ≠ p.owner → ({ w with client := r', calls := w.calls ++ [p], allocated := n } :
        Traffic).station o = w.station o := by
  have hspared : ∀ o, o ≠ p.owner → ({ w with
      client := r', calls := w.calls ++ [p], allocated := n } : Traffic).station o =
        w.station o := by
    intro o hother
    rw [← hothers o hother]
    simp [station, beside, List.filter_append, Ne.symm hother]
  have hopened : ({ w with client := r', calls := w.calls ++ [p], allocated := n } :
      Traffic).station p.owner =
        ⟨[p], r'.activity? p.owner, r'.outcome? p.owner, r'.waits p.owner⟩ := by
    have hnone : w.calls.filter (·.owner = p.owner) = [] := congrArg Station.calls (h.idle hidle)
    simp [station, List.filter_append, hnone]
  refine ⟨h.around p.owner hbooked hspared (hopened ▸ hown) hturns hdistinct halive ?_, hspared⟩
  intro q hq
  rcases List.mem_append.mp hq with hq | hq
  · exact h.sending q hq
  · rw [List.mem_singleton.mp hq]
    exact hsending

/-- A call that begins without a connection fails, and no handle is given
out. -/
theorem Standing.turned_away (h : w.Standing) (hidle : w.Idle o) :
    (w.beside (w.client.conclude o (.failed Channel.notConnected))).Standing ∧ ∀ o', o' ≠ o →
      (w.beside (w.client.conclude o (.failed Channel.notConnected))).station o' =
        w.station o' := by
  have hresting := h.idle hidle
  refine h.tends (congrArg Station.calls hresting) (congrArg Station.waits hresting) ?_ rfl h.alive
  refine ⟨rfl, fun o' hother => ?_, ?_, h.turns.conclude rfl rfl rfl o _⟩
  · rw [activity?_conclude, outcome?_conclude, if_neg hother, if_neg hother, Option.or_none]
    exact ⟨rfl, rfl⟩
  · simp [activity?_conclude]

/-- A call begins whose request cannot be encoded, and fails.  A handle was
drawn for it all the same, and is not given out again at once. -/
theorem Standing.unencoded (h : w.Standing) (hidle : w.Idle o) (q : Request) (l : Link)
    (peer : Peer)
    (text : String) :
    let r := ({ w.client with channel := w.client.channel.allocate.2, peer := peer } :
      ClientRun).conclude o (.failed (.transport text))
    let w' : Traffic := { w with
      client := r
      calls := w.calls ++ [w.opening o q l.connection none]
      allocated := w.allocated + 1 }
    w'.Standing ∧ ∀ o', o' ≠ o → w'.station o' = w.station o' := by
  have hresting := h.idle hidle
  have halone : w.client.waits o = [] := congrArg Station.waits hresting
  intro r w'
  have hactivity : ∀ o', r.activity? o' = if o' = o then none else w.client.activity? o' :=
    fun o' =>
    activity?_conclude _ _ _ _
  have houtcome : ∀ o', r.outcome? o' =
      if o' = o then some (.failed (.transport text)) else w.client.outcome? o' := fun o' =>
    outcome?_conclude_first hidle.2.1 _ o'
  have hlink : r.channel.link? = w.client.channel.link? := link?_allocate _
  refine h.open (p := w.opening o q l.connection none) hidle ?_
    (fun o' hother => ?_) ?_ ?_ ?_ ?_ nofun
  · exact h.booked.open rfl hidle.2.2 rfl rfl rfl (by simp [opening])
  · have hother : o' ≠ o := hother
    simp only [station, client_beside, hactivity, houtcome, if_neg hother, waits_of_link hlink]
    rfl
  · simp only [opening, hactivity, houtcome, if_true, waits_of_link hlink, halone]
    exact .done
  · refine h.turns.conclude ?_ ?_ ?_ o _
    · rfl
    · exact turns_allocate _
    · exact line?_of_link (link?_allocate _)
  · rw [awaited_of_link hlink]
    exact h.distinct
  · rw [awaited_of_link hlink, isConnected_of_line (line?_of_link hlink)]
    exact h.alive

/-- A call begins, and waits for the response under a handle that nobody else
waits under. -/
theorem Standing.sent (h : w.Standing) (hidle : w.Idle o) (q : Request) {l : Link}
    (hconnected : w.client.channel.current? = some l) (e : RequestEnvelope)
    (hmade : e = { handle := w.client.channel.allocate.1
                   body := q.withHandle w.client.channel.allocate.1 })
    (hfresh : ∀ x ∈ w.client.awaited, x.1 ≠ w.client.channel.allocate.1) :
    let r := ({ w.client with
      channel := w.client.channel.allocate.2.register w.client.channel.allocate.1 o } :
        ClientRun).observe (.sent e l.connection)
    let w' : Traffic := { w with
      client := r
      calls := w.calls ++ [w.opening o q l.connection (some e)]
      allocated := w.allocated + 1 }
    w'.Standing ∧ ∀ o', o' ≠ o → w'.station o' = w.station o' := by
  have halone : w.client.waits o = [] := congrArg Station.waits (h.idle hidle)
  have hlinked := (Option.filter_eq_some_iff.mp hconnected).1
  intro r w'
  have hactivity : ∀ o', r.activity? o' = w.client.activity? o' := fun _ => rfl
  have houtcome : ∀ o', r.outcome? o' = w.client.outcome? o' := fun _ => rfl
  have hawaited : r.awaited = w.client.awaited ++ [(w.client.channel.allocate.1, o)] := by
    simp [r, ClientRun.awaited, Channel.register, hlinked]
  have hline : r.line? = w.client.line? := by
    simp [r, line?, Channel.register]
    rfl
  refine h.open (p := w.opening o q l.connection (some e)) hidle ?_
    (fun o' hother => ?_) ?_ ?_ ?_ ?_
    fun _ => rfl
  · exact h.booked.open rfl hidle.2.2 rfl rfl rfl (by simp [opening, hmade]; rfl)
  · have hother : o ≠ o' := Ne.symm hother
    simp only [station, client_beside, hactivity, houtcome, ClientRun.waits, hawaited,
      List.filter_append]
    simp [beside, hother]
  · have hwaits : r.waits o = [w.client.channel.allocate.1] := by
      rw [ClientRun.waits, hawaited, List.filter_append, List.map_append]
      rw [show (w.client.awaited.filter (·.2 = o)).map (·.1) = [] from halone]
      simp
    simp only [opening, hactivity, houtcome, hwaits, hidle.1, hidle.2.1]
    exact .waits (.inl ⟨rfl, rfl⟩)
  · refine h.turns.keep (fun o' hturn => ?_)
      (fun hunconnected => (isConnected_of_line hline).trans hunconnected)
      fun o' a hdoing _ => (hactivity o').symm.trans hdoing
    simpa [r, Channel.hasTurn, Channel.register] using hturn
  · rw [hawaited, List.map_append]
    refine List.nodup_append.mpr ⟨h.distinct, by simp, ?_⟩
    intro handle hx handle' hx' hsame
    obtain ⟨x, hwaits, rfl⟩ := List.mem_map.mp hx
    have hnew : handle' = w.client.channel.allocate.1 := by simpa using hx'
    exact hfresh x hwaits (hsame.trans hnew)
  · intro hunconnected
    rw [isConnected_of_line hline, Channel.isConnected, hconnected] at hunconnected
    cases hunconnected

/-- **A call begins.**  Nobody else may wait under the handle that it gets. -/
theorem Standing.post (h : w.Standing) (hidle : w.Idle o) (q : Request)
    (hfresh : (w.client.post o q).1.isSome →
      ∀ x ∈ w.client.awaited, x.1 ≠ w.client.channel.allocate.1) :
    (w.post o q).Standing ∧ ∀ o', o' ≠ o → (w.post o q).station o' = w.station o' := by
  unfold Traffic.post
  rcases post_cases w.client o q with
    ⟨hunconnected, hposted⟩ | ⟨l, hconnected, ⟨peer, text, hposted⟩ | ⟨e, hmade, hposted⟩⟩
  · rw [hposted, hunconnected]
    exact h.turned_away hidle
  · rw [hposted, hconnected]
    exact h.unencoded hidle q l peer text
  · have hfresh := hfresh (by rw [hposted]; rfl)
    rw [hposted, hconnected]
    exact h.sent hidle q hconnected e hmade hfresh

/-- An owner begins to connect or to disconnect, and waits for its turn; it
exchanges no request while it does. -/
theorem Standing.queueUp (h : w.Standing) (hidle : w.Idle o) {a : Activity} (hgate : a.gate? = none)
    (hother : ¬ a.isExchange) :
    (w.beside (({ w.client with channel := w.client.channel.queueUp o } : ClientRun).setActivity o
      a)).Standing ∧ ∀ o', o' ≠ o →
        (w.beside (({ w.client with channel := w.client.channel.queueUp o } :
          ClientRun).setActivity o a)).station o' = w.station o' := by
  have hresting := h.idle hidle
  refine h.tends (congrArg Station.calls hresting) (congrArg Station.waits hresting) ?_ rfl h.alive
  refine ⟨rfl, fun o' hdiffers => ?_, ?_, h.turns.queueUp o hgate⟩
  · rw [activity?_setActivity, if_neg hdiffers]
    exact ⟨rfl, rfl⟩
  · rw [activity?_setActivity, if_pos rfl]
    rintro _ ⟨⟩
    exact hother

/-- **An owner returns**, and takes with it what has come of its call.
Whoever has not got anything yet stays. -/
theorem Standing.leave (h : w.Standing) (o : Owner) : (w.leave o).Standing ∧
    ∀ o', o' ≠ o → (w.leave o).station o' = w.station o' := by
  unfold Traffic.leave
  split
  · cases htaken : w.client.takeOutcome? o with
    | none => exact ⟨h, fun _ _ => rfl⟩
    | some given =>
        obtain ⟨x, r⟩ := given
        have houtcomes := fun o' => outcome?_of_takeOutcome? w.client o o' htaken
        obtain ⟨hcame, rfl⟩ := takeOutcome?_cases w.client o htaken
        have hothers : ∀ o', o' ≠ o → ({ w with
            client := { w.client with outcomes := w.client.outcomes.filter (·.1 ≠ o) }
            calls := w.calls.filter (·.owner ≠ o) } : Traffic).station o' = w.station o' := by
          intro o' hother
          have hcalls : (w.calls.filter (·.owner ≠ o)).filter (·.owner = o') =
              w.calls.filter (·.owner = o') := by
            rw [List.filter_filter]
            refine List.filter_congr fun p _ => ?_
            by_cases hsame : p.owner = o'
            · simp [hsame, hother]
            · simp [hsame]
          simp only [station, houtcomes, if_neg hother, hcalls]
          rfl
        -- Whoever has something to return with does not wait.
        obtain ⟨hidle, halone⟩ : (∀ a ∈ w.client.activity? o, ¬ a.isExchange) ∧
            w.client.waits o = [] := by
          have houtcome : (w.station o).outcome? = some x := hcame
          have hactivity : (w.station o).activity? = w.client.activity? o := rfl
          have hwaits : (w.station o).waits = w.client.waits o := rfl
          have hstands := h.stands o
          generalize w.station o = s at houtcome hactivity hwaits hstands
          rw [← hactivity, ← hwaits]
          cases hstands with
          | free hother => exact ⟨hother, rfl⟩
          | waits | lost => cases houtcome
          | done => exact ⟨by simp, rfl⟩
        have hleft : ({ w with
            client := { w.client with outcomes := w.client.outcomes.filter (·.1 ≠ o) }
            calls := w.calls.filter (·.owner ≠ o) } : Traffic).station o =
              ⟨[], w.client.activity? o, none, []⟩ := by
          have hcalls : (w.calls.filter (·.owner ≠ o)).filter (·.owner = o) = [] := by
            rw [List.filter_filter, List.filter_eq_nil_iff]
            simp
          simp only [station, houtcomes, if_true, hcalls, ← halone]
          rfl
        have hbooked := (h.booked.beside (r := { w.client with
          outcomes := w.client.outcomes.filter (·.1 ≠ o) }) rfl).leave o
        refine ⟨h.around o hbooked hothers ?_ ?_ h.distinct h.alive ?_, hothers⟩
        · rw [hleft]
          exact .free hidle
        · exact h.turns.keep (fun _ => id) id fun _ _ hdoing _ => hdoing
        · exact fun p hp => h.sending p (List.mem_filter.mp hp).1
  · exact ⟨h, fun _ _ => rfl⟩

/-! ## All incidents -/

/-- Nobody waits yet under the handle that a request gets.  Handles recur
after all others were given out, so this has to be asked for;
`Cabling.displaced` sees to it. -/
def Fresh (w : Traffic) : Incident → Prop
  | .request o q => w.Idle o → (w.client.post o q).1.isSome →
      ∀ x ∈ w.client.awaited, x.1 ≠ w.client.channel.allocate.1
  | _ => True

/-- Whoever has an open call is not idle, and so is another than one that
is. -/
theorem Idle.other {p : OpenCall} (hidle : w.Idle o) (hlost : (w.station o').Lost p) : o' ≠ o := by
  rintro rfl
  exact hlost.calls (List.filter_eq_nil_iff.mpr (by simpa using hidle.2.2))

/-- **Each incident leaves every owner standing**, and a lost call stays lost
until it returns. -/
theorem Standing.step (h : w.Standing) (i : Incident) (hfresh : w.Fresh i) :
    (w.step i).Standing ∧ ∀ p o', (w.station o').Lost p → i ≠ .returned o' →
      ((w.step i).station o').Lost p := by
  cases i with
  | request o q =>
      rw [Traffic.step]
      split
      · rename_i hidle
        obtain ⟨hstanding, hothers⟩ := h.post hidle q (hfresh hidle)
        exact ⟨hstanding, fun p o' hlost _ => hothers o' (hidle.other hlost) ▸ hlost⟩
      · exact ⟨h, fun _ _ hlost _ => hlost⟩
  | handed o error =>
      exact ⟨(h.handOver o error).1, fun p o' hlost _ => h.lost_handOver hlost o error⟩
  | connect o =>
      rw [Traffic.step]
      split
      · rename_i hidle
        obtain ⟨hstanding, hothers⟩ := h.queueUp hidle (a := .connecting) rfl Bool.false_ne_true
        exact ⟨hstanding, fun p o' hlost _ => hothers o' (hidle.other hlost) ▸ hlost⟩
      · exact ⟨h, fun _ _ hlost _ => hlost⟩
  | disconnect o =>
      rw [Traffic.step]
      split
      · rename_i hidle
        obtain ⟨hstanding, hothers⟩ := h.queueUp hidle (a := .disconnecting) rfl Bool.false_ne_true
        exact ⟨hstanding, fun p o' hlost _ => hothers o' (hidle.other hlost) ▸ hlost⟩
      · exact ⟨h, fun _ _ hlost _ => hlost⟩
  | proceed o =>
      obtain ⟨hstanding, hothers⟩ := h.proceed o
      refine ⟨hstanding, fun p o' hlost _ => ?_⟩
      by_cases hother : o' = o
      · subst hother
        have hidle : w.client.activity? o' = none := hlost.activity?
        have hsame : w.client.proceed o' = w.client := by rw [ClientRun.proceed, hidle]
        rw [Traffic.step, hsame]
        exact hlost
      · have hsame := hlost.severed (hothers o' hother)
        exact hsame ▸ hlost
  | frame c text =>
      obtain ⟨hstanding, hothers⟩ := h.hear c text
      exact ⟨hstanding, fun p o' hlost _ => hothers o' hlost.waits ▸ hlost⟩
  | ended c =>
      rw [Traffic.step]
      split
      · obtain ⟨hsevered, -, hstanding⟩ := h.cut
        exact ⟨hstanding, fun p o' hlost _ => (hlost.severed (hsevered o')) ▸ hlost⟩
      · exact ⟨h, fun _ _ hlost _ => hlost⟩
  | returned o =>
      obtain ⟨hstanding, hothers⟩ := h.leave o
      refine ⟨hstanding, fun p o' hlost hstays => hothers o' ?_ ▸ hlost⟩
      rintro rfl
      exact hstays rfl
  | elapse d =>
      obtain ⟨hsame, hstanding⟩ :=
        h.congr { w.client with elapsed := w.client.elapsed + d } rfl rfl
      exact ⟨hstanding, fun p o' hlost _ => hsame o' ▸ hlost⟩
  | peer p =>
      obtain ⟨hsame, hstanding⟩ := h.congr { w.client with
        peer := { p with connections := w.client.peer.connections } } rfl rfl
      exact ⟨hstanding, fun p o' hlost _ => hsame o' ▸ hlost⟩

end Traffic

end OpcSession.Simulation
