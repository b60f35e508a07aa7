import OpcSession.Proofs.Client.Incidents
import OpcSession.Proofs.Message.Wire

/-!
# Responses and requests belong together

Whatever happens on the channel, in whatever order, a request is answered by the
first response with its handle that comes in on its connection, and by no other;
and when its call returns nobody waits under its handle.

* `Traffic.Correlated` — what that says of a client with its ledger;
* `Traffic.Sound.answers`, `Traffic.Sound.returns` — a response that comes in, and a
  call that returns;
* `Traffic.requests_correlated` — the law.
-/

namespace OpcSession.Simulation

open Session Client

namespace Traffic

open ClientRun

variable {w : Traffic} {r' : ClientRun} {o : Owner}

/-! ## The law -/

/-- The request of a call under its handle, as it goes over the wire. -/
def frameOf (handle : UInt32) (q : Request) : String :=
  Wire.encodeRequest { handle := handle, body := q.withHandle handle }

/-- Responses and requests belong together.  Each clause is about a client in
any state that incidents may have led to, and says what the next incident
makes of an open call. -/
structure Correlated (w : Traffic) : Prop where
  /-- What goes out for a call is its request under the handle that it waits
  for. -/
  sends : ∀ p ∈ w.calls, (∀ text ∈ p.frame?, text = frameOf p.handle p.request) ∧
    ∀ handle, (handle, p.owner) ∈ w.client.awaited → handle = p.handle
  /-- While there is a connection a call begins with a frame, and waits. -/
  begins : ∀ o q link, w.Idle o → w.client.channel.current? = some link →
    w.client.peer.encodingFailure? = none →
      ∃ p, (w.step (.request o q)).calls = w.calls ++ [p] ∧ p.owner = o ∧ p.request = q ∧
        p.connection = link.connection ∧ p.since = w.heard.length ∧
        p.frame? = some (frameOf p.handle q) ∧
        (p.handle, o) ∈ (w.step (.request o q)).client.awaited
  /-- A response is for the one call that waits for its handle on its
  connection; if none does, nothing comes of it. -/
  answers : ∀ c text e, w.client.channel.reads c → Wire.decodeResponse? text = some e →
    (∃ p ∈ w.calls, p.handle = e.handle ∧ p.connection = c ∧
        (p.handle, p.owner) ∈ w.client.awaited ∧ w.client.outcome? p.owner = none ∧
        (w.step (.frame c text)).client.outcomes =
          w.client.outcomes ++ [(p.owner, Channel.outcome e.body)]) ∨
      ((∀ p ∈ w.calls, p.handle = e.handle → (p.handle, p.owner) ∉ w.client.awaited) ∧
        (w.step (.frame c text)).client.outcomes = w.client.outcomes)
  /-- What is no response, or comes in on another connection, changes nothing,
  and fails nobody. -/
  ignores : ∀ c text, ¬ w.client.channel.reads c ∨ Wire.decodeResponse? text = none →
    (w.step (.frame c text)).client = w.client
  /-- A call returns with the first response that has its handle and came in
  on its connection since it began, or with a mishap; then nobody waits under
  its handle. -/
  returns : ∀ p ∈ w.calls, p.handed → ∀ outcome r,
    w.client.takeOutcome? p.owner = some (outcome, r) →
      ((∃ e, p.answer? w.heard = some e ∧ outcome = Channel.outcome e.body) ∨ Mishap outcome) ∧
      (∀ b, outcome = .response b → ∃ e, p.answer? w.heard = some e ∧ e.body = b) ∧
      (w.step (.returned p.owner)).client = r ∧ ∀ o, (p.handle, o) ∉ r.awaited

/-- A good response is the body of the frame that brought it; nothing is put
in or left out on the way to the caller. -/
theorem body_of_outcome {b b' : Response} (h : Channel.outcome b = .response b') : b = b' := by
  rcases outcome_cases b with ⟨e, hfailed⟩ | hsame
  · cases hfailed.symm.trans h
  · exact Outcome.response.inj (hsame.symm.trans h)

/-- While there is a connection a call begins with a frame, and waits. -/
theorem begins (w : Traffic) {l : Link} (hidle : w.Idle o)
    (hconnected : w.client.channel.current? = some l)
    (hencodes : w.client.peer.encodingFailure? = none) (q : Request) :
    ∃ p, (w.step (.request o q)).calls = w.calls ++ [p] ∧ p.owner = o ∧ p.request = q ∧
      p.connection = l.connection ∧ p.since = w.heard.length ∧
      p.frame? = some (frameOf p.handle q) ∧
      (p.handle, o) ∈ (w.step (.request o q)).client.awaited := by
  have hlink := (Option.filter_eq_some_iff.mp hconnected).1
  have hposted : w.step (.request o q) = w.post o q := if_pos hidle
  have hsent : (w.client.post o q).1 = some {
      handle := w.client.channel.allocate.1
      body := q.withHandle w.client.channel.allocate.1 } := by
    simp [ClientRun.post, hconnected, hencodes]
  have hchannel : (w.client.post o q).2.channel =
      w.client.channel.allocate.2.register w.client.channel.allocate.1 o := by
    simp [ClientRun.post, hconnected, hencodes]
  rw [hposted, Traffic.post, hconnected]
  refine ⟨w.opening o q l.connection (w.client.post o q).1, rfl, rfl, rfl, rfl, rfl, ?_, ?_⟩
  · rw [hsent]
    rfl
  · rw [awaited, hchannel]
    simp [Channel.register, hlink, opening]

/-- A response that comes in goes to the one call that waits under its handle
on its connection, or to none; the others wait as before. -/
theorem Sound.answers (h : w.Sound) {c : ConnectionId} {text : String} {e : ResponseEnvelope}
    (hreads : w.client.channel.reads c) (hdecoded : Wire.decodeResponse? text = some e) :
    (∃ p ∈ w.calls, p.handle = e.handle ∧ p.connection = c ∧
        (p.handle, p.owner) ∈ w.client.awaited ∧ w.client.outcome? p.owner = none ∧
        (w.step (.frame c text)).client.outcomes =
          w.client.outcomes ++ [(p.owner, Channel.outcome e.body)]) ∨
      ((∀ p ∈ w.calls, p.handle = e.handle → (p.handle, p.owner) ∉ w.client.awaited) ∧
        (w.step (.frame c text)).client.outcomes = w.client.outcomes) := by
  have htaken : (w.step (.frame c text)).client = w.client.takeIn e := by
    simp [Traffic.step, Traffic.hear, hreads, ClientRun.read, hdecoded]
  rw [htaken]
  obtain ⟨r₁, haffairs, ⟨hsame, hnobody⟩ | ⟨o, hwaits, hconcluded⟩⟩ := takeIn_cases w.client e
  · refine .inr ⟨fun p _ hhandle hwaits => hnobody p.owner ?_, ?_⟩
    · exact (h.matched.pending_iff _).mpr (hhandle ▸ hwaits)
    · rw [hsame]
      exact congrArg (·.2.2.1) haffairs
  · have hwaits := (h.matched.pending_iff _).mp hwaits
    obtain ⟨p, hp, rfl, hhandle, hconnection, hnothing, -⟩ :=
      h.matched.answered h.booked hreads hwaits
    refine .inl ⟨p, hp, hhandle, hconnection, hhandle ▸ hwaits, hnothing, ?_⟩
    rw [hconcluded]
    have houtcomes : r₁.outcomes = w.client.outcomes := congrArg (·.2.2.1) haffairs
    rw [← houtcomes]
    exact congrArg (·.2.2.1) (affairs_wake (r₁.conclude p.owner (Channel.outcome e.body)) _)

/-- A call that returns does so with its response or with a mishap, and leaves
nobody waiting under its handle. -/
theorem Sound.returns (h : w.Sound) (hspare : w.Sparing) {p : OpenCall} (hp : p ∈ w.calls)
    (hhanded : p.handed) {outcome : Outcome}
    (htaken : w.client.takeOutcome? p.owner = some (outcome, r')) :
    p.Explains w.heard outcome ∧ (w.step (.returned p.owner)).client = r' ∧
      ∀ o, (p.handle, o) ∉ r'.awaited := by
  obtain ⟨hcame, rfl⟩ := takeOutcome?_cases w.client p.owner htaken
  cases h.matched.stands p hp with
  | waits _ hnothing => cases hnothing.symm.trans hcame
  | lost _ _ hnothing => cases hnothing.symm.trans hcame
  | done hidle hcame' hexplains hgone =>
      cases hcame'.symm.trans hcame
      refine ⟨hexplains, ?_, ?_⟩
      · have hall : ∀ q ∈ w.calls, q.owner = p.owner → q.handed := by
          intro q hq howner
          rw [h.booked.eq_of_owner hq hp howner]
          exact hhanded
        rw [Traffic.step, Traffic.leave, if_pos hall, htaken]
      · intro o hwaits
        have hwaits : (p.handle, o) ∈ w.client.awaited := hwaits
        obtain ⟨q, hq, hhandle, howner⟩ := h.matched.owned _ hwaits
        rw [h.booked.alone hspare hq hp hhandle] at howner
        exact hgone p.handle (howner ▸ hwaits)

/-- **Each request is answered by its own response.**  Whatever happens on the
channel, and in whatever order: as long as no call stays open while all other
handles are given out, what goes out for a request is its encoding under the
handle that its call waits for, a response is for the one call that waits for
its handle on its connection, and a call returns with the first such response
or with a mishap, and leaves nobody waiting under its handle. -/
theorem requests_correlated (url : String) (settings : ClientSettings)
    (endpoint : EndpointDescription) (credentials : Credentials) (incidents : List Incident)
    (hspare : (start url settings endpoint credentials).Spares incidents) :
    ((start url settings endpoint credentials).after incidents).Correlated := by
  obtain ⟨hsound, hspare⟩ := (sound_start url settings endpoint credentials).after incidents hspare
  generalize (start url settings endpoint credentials).after incidents = w at hsound hspare ⊢
  refine ⟨?_, ?_, ?_, ?_, ?_⟩
  · intro p hp
    refine ⟨fun text hout => ?_, fun handle => hsound.matched.handle_of_awaited hsound.booked hp⟩
    obtain ⟨e, hsent, rfl⟩ := Option.map_eq_some_iff.mp hout
    rw [hsound.booked.sent p hp e hsent]
    rfl
  · intro o q link hidle hconnected hencodes
    exact w.begins hidle hconnected hencodes q
  · exact fun c text e hreads hdecoded => hsound.answers hreads hdecoded
  · rintro c text (hunread | hundecoded)
    · rw [Traffic.step, Traffic.hear, if_neg hunread]
    · rw [Traffic.step, Traffic.hear]
      split
      · simp [ClientRun.read, hundecoded]
      · rfl
  · intro p hp hhanded outcome r htaken
    obtain ⟨hexplains, hreturned, hgone⟩ := hsound.returns hspare hp hhanded htaken
    refine ⟨hexplains, ?_, hreturned, hgone⟩
    rintro b rfl
    rcases hexplains with ⟨e, hanswered, hsame⟩ | htimeout | ⟨text, hfailed⟩
    · exact ⟨e, hanswered, body_of_outcome hsame.symm⟩
    · cases htimeout
    · cases hfailed

/-! ## Two calls at once -/

/-- An incident gives out one handle at most, so a call that is open for few
incidents is not open for too long. -/
theorem allocated_step (w : Traffic) (i : Incident) : (w.step i).allocated ≤ w.allocated + 1 := by
  have hsame : w.allocated ≤ w.allocated + 1 := Nat.le_succ _
  cases i with
  | request o q =>
      rw [Traffic.step]
      split
      · unfold Traffic.post
        cases w.client.channel.current? with
        | none => exact hsame
        | some link => exact Nat.le_refl _
      · exact hsame
  | handed o error =>
      rw [Traffic.step, Traffic.handOver]
      split <;> exact hsame
  | frame c text =>
      rw [Traffic.step, Traffic.hear]
      split <;> exact hsame
  | returned o =>
      rw [Traffic.step, Traffic.leave]
      split
      · split <;> exact hsame
      · exact hsame
  | connect o | disconnect o | ended c =>
      rw [Traffic.step]
      split <;> exact hsame
  | proceed o | elapse d | peer p => exact hsame

/-- Where not many things happen no call stays open for too long.  With it a
short course of incidents is known to spare handles without going through
it. -/
theorem spares_of_few (w : Traffic) (incidents : List Incident)
    (hfew : w.allocated + incidents.length < 2 ^ 32) : w.Spares incidents := by
  have hsparing : w.Sparing := by
    intro p _
    unfold further
    omega
  induction incidents generalizing w with
  | nil => exact hsparing
  | cons i rest ih =>
      have hstep := allocated_step w i
      rw [List.length_cons] at hfew
      have hfew' : (w.step i).allocated + rest.length < 2 ^ 32 := by omega
      refine ⟨hsparing, ih (w.step i) hfew' ?_⟩
      intro p _
      unfold further
      omega

/-- A connection is read on when a response has come in; only its end stops
the reader. -/
theorem reads_takeIn (r : ClientRun) (e : ResponseEnvelope) (c : ConnectionId) :
    (r.takeIn e).channel.reads c = r.channel.reads c := by
  rw [channel_takeIn]
  unfold Channel.reads Channel.current? Channel.withdraw
  cases r.channel.link? with
  | none => rfl
  | some link => cases halive : link.alive <;> simp [Option.filter, halive]

/-- Responses that a server has sent are taken in as they were sent. -/
theorem after_responses (w : Traffic) {c : ConnectionId} (hreads : w.client.channel.reads c)
    (es : List ResponseEnvelope) (hfinite : ∀ e ∈ es, ∀ x ∈ e.body.doubles, x.isFinite = true) :
    (w.after (es.map fun e => .frame c (Wire.encodeResponse e))).client =
        es.foldl ClientRun.takeIn w.client ∧
      (w.after (es.map fun e => .frame c (Wire.encodeResponse e))).calls = w.calls := by
  induction es generalizing w with
  | nil => exact ⟨rfl, rfl⟩
  | cons e rest ih =>
      have hdecoded := Wire.decodeResponse?_encodeResponse (hfinite e (by simp))
      have hfirst : w.step (.frame c (Wire.encodeResponse e)) =
          { w with client := w.client.takeIn e, heard := w.heard ++ [(c, e)] } := by
        simp [Traffic.step, Traffic.hear, hreads, ClientRun.read, hdecoded]
      rw [List.map_cons, Traffic.after, hfirst]
      exact ih _ ((reads_takeIn w.client e c).trans hreads) fun e' he' => hfinite e' (by simp [he'])

/-- The answer to a read, under a handle; what a well-behaved server sends. -/
def reply (handle : UInt32) (v : DataValue) : ResponseEnvelope where
  handle := handle
  body := { header := .good handle, body := .read [v] }

/-- Two calls read at once, and the frame of the first was taken. -/
def reading : List Incident :=
  [.connect (.caller 0), .proceed (.caller 0), .returned (.caller 0),
    .request (.caller 1) (readRequest {} .null .value),
    .request (.caller 2) (readRequest {} .null .displayName), .handed (.caller 1) none]

/-- The second call is answered first, the first one after it, and then once
more. -/
def crossing : List ResponseEnvelope :=
  [reply 2 {}, reply 1 {}, reply 1 { status := .badNodeIdUnknown }]

/-- The law at work where two responses come in crosswise: each caller has the
value that it asked for, though the one asked last was answered first. -/
theorem requests_correlated_crossing :
    let w := (start "plant" { session := { sessionName := "plant" } } (.unsecured "plant")
      .anonymous).after (reading ++ crossing.map fun e => .frame ⟨1⟩ (Wire.encodeResponse e))
    w.Correlated ∧ w.calls.map (fun p => (p.owner, p.handle, p.handed)) =
        [(.caller 1, 1, true), (.caller 2, 2, false)] ∧
      w.client.outcomes =
        [(.caller 2, .response (reply 2 {}).body), (.caller 1, .response (reply 1 {}).body)] ∧
      w.client.awaited = [] := by
  have hspare := spares_of_few (start "plant" { session := { sessionName := "plant" } }
    (.unsecured "plant") .anonymous)
    (reading ++ crossing.map fun e => .frame ⟨1⟩ (Wire.encodeResponse e))
    (by simp [start, reading, crossing])
  have hlaw := requests_correlated _ _ _ _ _ hspare
  rw [after_append] at hlaw ⊢
  generalize hw : (start "plant" { session := { sessionName := "plant" } } (.unsecured "plant")
    .anonymous).after reading = w at hlaw ⊢
  have hreads : w.client.channel.reads ⟨1⟩ := by
    rw [← hw]
    decide +kernel
  obtain ⟨hclient, hcalls⟩ := w.after_responses hreads crossing (by decide)
  refine ⟨hlaw, ?_, ?_, ?_⟩
  · rw [hcalls, ← hw]
    decide +kernel
  · rw [hclient, ← hw]
    decide +kernel
  · rw [hclient, ← hw]
    decide +kernel

end Traffic

end OpcSession.Simulation
