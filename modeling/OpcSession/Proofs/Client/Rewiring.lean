import OpcSession.Proofs.Client.Wiring

/-!
# What each incident makes of the links

A request waits on the link in use.  It stops to wait when its frame cannot be sent, when its
response comes in, and when there is no time left.  A link comes to its end when its stream does,
and when the channel disconnects; then all who wait on it stop.  A new connection takes the place
of a link that is not alive.

* `Cabling.Wired.request`, `Cabling.Wired.handOver`, `Cabling.Wired.hear`, `Cabling.Wired.expire`,
  `Cabling.Wired.leave` — requests on links that stay as they are;
* `Cabling.Wired.cut`, `Cabling.Wired.give`, `Cabling.Wired.dial` — links that end, and that begin;
* `Cabling.Wired.happen` — whatever happens, the links stay wired as they should be.
-/

namespace OpcSession.Simulation

open Session Client

namespace ClientRun

variable {r : ClientRun} {o o' : Owner} {handle : UInt32}

/-! ## What becomes of the client -/

/-- When a frame could not be sent, nobody waits under its handle, whoever did
before.  The owner that is refused may have lost its place to another by then,
so the handle is taken from that one. -/
theorem link?_refuse (r : ClientRun) (o : Owner) (e : RequestEnvelope) (error : TransportError) :
    ((r.displace e.handle o).handOver o e (some error)).channel.link? =
      r.channel.link?.map (·.remove e.handle) := by
  by_cases hawaits : r.channel.awaits e.handle o
  · rw [displace, if_pos hawaits, link?_handOver, if_pos ⟨hawaits, .inl rfl⟩]
  · have htwice : ∀ l : Link, (l.remove e.handle).remove e.handle = l.remove e.handle := by
      intro l
      simp only [Link.remove, List.filter_filter, Bool.and_self]
    rw [link?_handOver, link?_displace, if_neg hawaits]
    split
    · rw [Option.map_map]
      congr 1
      exact funext htwice
    · rfl

/-- Whoever waits for a response goes on waiting until the deadline; to let it
go on before that changes nothing. -/
theorem proceed_early {service : String} {deadline : Duration}
    (hdoing : r.activity? o = some (.exchanging handle service deadline))
    (hearly : ¬ deadline ≤ r.elapsed) : r.proceed o = r := by
  rw [proceed, hdoing]
  exact if_neg hearly

end ClientRun

namespace Traffic

/-- The ledger of calls is kept beside the client: to post a request there is
to post it in the client. -/
theorem client_post (w : Traffic) (o : Owner) (q : Request) :
    (w.post o q).client = (w.client.post o q).2 := by
  unfold Traffic.post
  dsimp only
  split <;> rfl

/-- To hand over in the ledger what is on its way for an owner is to hand it
over in the client, whether the connection takes it or not. -/
theorem client_handOver {w : Traffic} {o : Owner} {e : RequestEnvelope}
    (hsending : (w.calls.find? (·.owner = o)).bind OpenCall.sending? = some e)
    (error : Option TransportError) :
    (w.handOver o error).client = w.client.handOver o e error := by
  rw [Traffic.handOver, hsending]
  rfl

end Traffic

namespace Cabling

open ClientRun Traffic

variable {b : Cabling} {x y : Cable} {o : Owner}

/-! ## Requests -/

/-- A request goes out under the next handle, and waits on the link in use.
Whoever waited under that handle before was displaced, so its place on the
link is free. -/
theorem Wired.request_sent (h : b.Wired) {q : Request} (hidle : b.Idle o) {e : RequestEnvelope}
    (hposted : (b.client.post o q).1 = some e) : b.Holds (.incident (.request o q)) := by
  obtain ⟨-, hown, -⟩ := h.standing.displace e.handle o
  have hidle' : (b.beside (b.client.displace e.handle o)).Idle o :=
    ⟨(congrArg Station.activity? hown).trans hidle.1,
      (congrArg Station.outcome? hown).trans hidle.2.1, hidle.2.2⟩
  have hclient : (b.happen (.incident (.request o q))).client =
      ((b.client.displace e.handle o).post o q).2 := by
    simp [happen, displaced, Traffic.step, hidle, hidle', hposted, client_post]
  have hcables : b.rewired (.request o q) =
      b.change (fun x => b.inSlot x ∧ x.alive) fun x => (x.insert e.handle o).hold o := by
    simp [rewired, hidle, hposted]
  have hunawaited : ¬ b.client.channel.awaits e.handle o := fun hawaits =>
    h.standing.unawaited hidle e.handle (h.standing.awaits_iff.mp hawaits)
  refine h.lasts (·.insert e.handle o) hcables rfl ?_ (fun _ => ⟨rfl, rfl, rfl⟩) ?_ ?_ ?_
    (List.forall_mem_nil _) ?_
  · rw [hclient, link?_post, (post_displace _ _ _ _ _).trans hposted, Option.elim_some,
      link?_displace, if_neg hunawaited, Option.map_map]
    rfl
  · intro x hx hslot
    have halive : x.alive := (h.connected hx hslot).symm.trans (handle_of_post hposted).1
    simp only [hslot, halive, and_self, decide_true, if_true]
    rfl
  · intro x hx hhere hdead
    simp [hdead] at hhere
  · intro x hx hhere
    have hboth : b.inSlot x ∧ x.alive := by simpa using hhere
    exact (h.sound x hx).insert hboth.2 e.handle o
  · rw [Told, hclient]
    exact (engine_of_core (core_of_backdrop (backdrop_post _ _ _))).trans (engine_displace _ _ _)

/-- A request for which nothing is to be sent waits on no link.  Its call
still holds the link in use, if there was one, until its owner returns. -/
theorem Wired.request_failed (h : b.Wired) {q : Request} (hidle : b.Idle o)
    (hposted : (b.client.post o q).1 = none) : b.Holds (.incident (.request o q)) := by
  have hclient : (b.happen (.incident (.request o q))).client = (b.client.post o q).2 := by
    simp [happen, displaced, Traffic.step, hidle, hposted, client_post]
  have hcables : b.rewired (.request o q) =
      b.change (fun x => b.inSlot x ∧ x.alive) (·.hold o) := by
    simp [rewired, hidle, hposted]
  refine h.lasts id hcables rfl ?_ (fun _ => ⟨rfl, rfl, rfl⟩) ?_ ?_
    (fun x hx _ => (h.sound x hx).hold o) (List.forall_mem_nil _) ?_
  · rw [hclient, link?_post, hposted, Option.map_id_fun]
    rfl
  · intro x _ _
    split <;> rfl
  · intro x _ hhere hdead
    simp [hdead] at hhere
  · rw [Told, hclient]
    exact engine_of_core (core_of_backdrop (backdrop_post _ _ _))

/-- **A request begins**: it waits on the link in use, and on no other. -/
theorem Wired.request (h : b.Wired) (o : Owner) (q : Request) :
    b.Holds (.incident (.request o q)) := by
  by_cases hidle : b.Idle o
  · cases hposted : (b.client.post o q).1 with
    | none => exact h.request_failed hidle hposted
    | some e => exact h.request_sent hidle hposted
  · have hmade : (b.happen (.incident (.request o q))).toTraffic = b.toTraffic := by
      simp [happen, displaced, Traffic.step, hidle]
    refine h.still (if_neg hidle) rfl rfl ?_ ?_
    · rw [hmade]
    · rw [hmade]

/-! ## What is handed over -/

/-- That the call of an owner holds the link in use is written on that link
alone, because no other link has its number. -/
theorem Wired.holdsSlot_iff (h : b.Wired) (hx : x ∈ b.cables) (hslot : b.inSlot x) :
    b.holdsSlot o ↔ o ∈ x.users := by
  simp only [holdsSlot, List.any_eq_true, decide_eq_true_eq]
  constructor
  · rintro ⟨y, hy, hslot', huser⟩
    exact h.eq_of_slot hy hx hslot' hslot ▸ huser
  · exact fun huser => ⟨x, hx, hslot, huser⟩

/-- **A frame could not be handed over**: nobody waits under its handle any
more on the link that its owner holds.  If that is the link in use, whoever
had the handle was displaced before; if not, the client is left alone. -/
theorem Wired.refuse (h : b.Wired) {e : RequestEnvelope} (hsent : b.sending? o = some e)
    (error : TransportError) : b.Holds (.incident (.handed o (some error))) := by
  have hcables : b.rewired (.handed o (some error)) =
      b.change (fun x => o ∈ x.users) (·.remove e.handle) := by
    simp [rewired, hsent]
  by_cases hholds : b.holdsSlot o
  · have hclient : (b.happen (.incident (.handed o (some error)))).client =
        (b.client.displace e.handle o).handOver o e (some error) := by
      have hdisplaced : b.displaced (.handed o (some error)) =
          b.beside (b.client.displace e.handle o) := by
        simp [displaced, hholds, hsent]
      rw [show (b.happen (.incident (.handed o (some error)))).client =
        ((b.displaced (.handed o (some error))).handOver o (some error)).client from rfl,
          hdisplaced]
      exact client_handOver (w := b.beside (b.client.displace e.handle o)) hsent (some error)
    refine h.forget (Q := True) e.handle hcables rfl ?_ ?_ (List.forall_mem_nil _) ?_
    · rw [hclient, link?_refuse, if_pos trivial]
    · intro x hx hslot
      simpa using (h.holdsSlot_iff hx hslot).mp hholds
    · rw [Told, hclient]
      exact (engine_of_core (core_of_backdrop (backdrop_handOver _ _ _ _))).trans
        (engine_displace _ _ _)
  · have hclient : (b.happen (.incident (.handed o (some error)))).client =
        b.client.handOver o e (some error) := by
      have hdisplaced : b.displaced (.handed o (some error)) = b.toTraffic := if_neg hholds
      rw [show (b.happen (.incident (.handed o (some error)))).client =
        ((b.displaced (.handed o (some error))).handOver o (some error)).client from rfl,
          hdisplaced]
      exact client_handOver hsent (some error)
    have hunawaited : ¬ b.client.channel.awaits e.handle o := by
      intro hawaits
      obtain ⟨x, hx, hslot, -, huser⟩ := h.holds_of_awaited (h.standing.awaits_iff.mp hawaits)
      exact hholds ((h.holdsSlot_iff hx hslot).mpr huser)
    refine h.forget (Q := False) e.handle hcables rfl ?_ ?_ (List.forall_mem_nil _) ?_
    · rw [hclient, link?_handOver, if_neg fun hboth => hunawaited hboth.1, if_neg id]
    · intro x hx hslot
      simpa using fun huser => hholds ((h.holdsSlot_iff hx hslot).mpr huser)
    · rw [Told, hclient]
      exact engine_of_core (core_of_backdrop (backdrop_handOver _ _ _ _))

/-- **A frame was handed over**: its owner waits for the response, unless
there is no time for one, and then it waits on its link no longer. -/
theorem Wired.deliver (h : b.Wired) {e : RequestEnvelope} (hsent : b.sending? o = some e) :
    b.Holds (.incident (.handed o none)) := by
  have hclient : (b.happen (.incident (.handed o none))).client = b.client.handOver o e none :=
    client_handOver hsent none
  have hengine : (b.client.handOver o e none).engine = b.client.engine :=
    engine_of_core (core_of_backdrop (backdrop_handOver _ _ _ _))
  have hlink := link?_handOver b.client o e none
  rw [← hclient] at hengine hlink
  by_cases hzero : b.client.settings.transport.requestDuration = .zero
  · have hcables : b.rewired (.handed o none) =
        b.change (fun x => o ∈ x.users ∧ (e.handle, o) ∈ x.pending) (·.remove e.handle) := by
      simp [rewired, hsent, hzero]
    refine h.forget (Q := (e.handle, o) ∈ b.client.awaited) e.handle hcables rfl ?_ ?_
      (List.forall_mem_nil _) hengine
    · refine hlink.trans (if_congr ?_ rfl rfl)
      rw [h.standing.awaits_iff]
      simp [hzero]
    · intro x hx hslot
      rw [h.awaited hx hslot]
      simpa using fun hwaits => (h.sound x hx).users _ hwaits
  · refine h.still ?_ rfl rfl ?_ hengine
    · simp [rewired, hsent, hzero]
    · exact hlink.trans (if_neg (by simp [hzero]))

/-- **What was on its way for an owner is not any more**: it was taken or
refused, or there was nothing. -/
theorem Wired.handOver (h : b.Wired) (o : Owner) (error : Option TransportError) :
    b.Holds (.incident (.handed o error)) := by
  cases hsent : b.sending? o with
  | some e =>
      cases error with
      | some error => exact h.refuse hsent error
      | none => exact h.deliver hsent
  | none =>
      have hmade : (b.happen (.incident (.handed o error))).toTraffic = b.toTraffic := by
        have hnothing : (b.calls.find? (·.owner = o)).bind OpenCall.sending? = none := hsent
        cases error <;> simp [happen, displaced, Traffic.step, Traffic.handOver, hsent, hnothing]
      refine h.still ?_ rfl rfl ?_ ?_
      · simp [rewired, hsent]
      · rw [hmade]
      · rw [hmade]

/-! ## What comes in -/

/-- At most the link in use is read, so what comes in on a connection comes in
on one link. -/
theorem Wired.filter_reads_eq (h : b.Wired) {c : ConnectionId} (hx : x ∈ b.cables)
    (hreads : x.reads c) : b.cables.filter (·.reads c) = [x] := by
  have hlisted : x ∈ b.cables.filter (·.reads c) := List.mem_filter.mpr ⟨hx, hreads⟩
  have hone : (b.cables.filter (·.reads c)).length = 1 := Nat.le_antisymm
    (h.length_filter_le fun y hy => h.inSlot_of_reads hy) (List.length_pos_of_mem hlisted)
  obtain ⟨y, hsingle⟩ := List.length_eq_one_iff.mp hone
  rw [hsingle] at hlisted ⊢
  rw [List.mem_singleton.mp hlisted]

/-- The client reads from no connection whose link is not read.  A text that
comes in there is lost on the client and in the ledger alike. -/
theorem Wired.unread (h : b.Wired) {c : ConnectionId}
    (hsilent : ∀ x ∈ b.cables, x.reads c = false) :
    b.client.channel.reads c = false := by
  cases hfound : b.cables.find? b.inSlot with
  | none =>
      have hunlinked := h.link
      rw [hfound] at hunlinked
      rw [Channel.reads, Channel.current?, hunlinked]
      rfl
  | some x =>
      have hx := List.mem_of_find?_eq_some hfound
      rw [h.reads hx (List.find?_some hfound) c, hsilent x hx]

/-- What comes in on a connection comes in on a link that is read, or nobody
reads it. -/
theorem reads_cases (b : Cabling) (c : ConnectionId) :
    (∃ x ∈ b.cables, x.reads c) ∨ ∀ x ∈ b.cables, x.reads c = false := by
  by_cases hreading : ∃ x ∈ b.cables, x.reads c
  · exact .inl hreading
  · refine .inr fun x hx => ?_
    by_contra hreads
    exact hreading ⟨x, hx, by simpa using hreads⟩

/-- A response comes in: on the link that is read nobody waits for it any
more, and a fault has been told to whoever listens. -/
theorem Wired.takeIn (h : b.Wired) (c : ConnectionId) {text : String} {e : ResponseEnvelope}
    (hdecoded : Wire.decodeResponse? text = some e) : b.Holds (.incident (.frame c text)) := by
  have hcables : b.rewired (.frame c text) = b.change (·.reads c) (·.remove e.handle) := by
    simp [rewired, hdecoded]
  have hclient : (b.toTraffic.hear c text).client =
      if b.client.channel.reads c then b.client.takeIn e else b.client := by
    unfold Traffic.hear
    split <;> simp [ClientRun.read, hdecoded]
  have htold : b.news (.frame c text) = e.body.fault?.elim [] fun status =>
      (b.cables.filter (·.reads c)).map fun x => (x.number, .serviceFault status) := by
    simp [news, hdecoded]
  refine h.forget (Q := b.client.channel.reads c) e.handle hcables rfl ?_ ?_ ?_ ?_
  · refine (congrArg (·.channel.link?) hclient).trans ?_
    split
    · rw [channel_takeIn]
      rfl
    · rfl
  · intro x hx hslot
    rw [h.reads hx hslot]
  · intro n hn
    rw [htold] at hn
    cases hfault : e.body.fault? with
    | none =>
        rw [hfault] at hn
        cases hn
    | some status =>
        rw [hfault] at hn
        obtain ⟨x, hx, rfl⟩ := List.mem_map.mp hn
        exact ⟨h.number_lt (List.mem_filter.mp hx).1, by simp⟩
  · rw [Told, htold]
    refine (congrArg (·.engine) hclient).trans ?_
    rcases b.reads_cases c with ⟨x, hx, hreads⟩ | hsilent
    · have hread := (h.reads hx (h.inSlot_of_reads hx hreads) c).trans hreads
      rw [if_pos hread, h.filter_reads_eq hx hreads, engine_takeIn]
      cases e.body.fault? <;> rfl
    · have hnone : b.cables.filter (·.reads c) = [] :=
        List.filter_eq_nil_iff.mpr fun x hx => by simp [hsilent x hx]
      rw [h.unread hsilent, hnone]
      cases e.body.fault? <;> rfl

/-- **A text comes in on a connection**; one that is no response is passed
over. -/
theorem Wired.hear (h : b.Wired) (c : ConnectionId) (text : String) :
    b.Holds (.incident (.frame c text)) := by
  cases hdecoded : Wire.decodeResponse? text with
  | some e => exact h.takeIn c hdecoded
  | none =>
      have hsame : (b.toTraffic.hear c text).client = b.client := by
        unfold Traffic.hear
        split
        · simp [ClientRun.read, hdecoded]
        · rfl
      refine h.still ?_ rfl ?_ ?_ ?_
      · simp [rewired, hdecoded]
      · simp [news, hdecoded]
      · exact congrArg (·.channel.link?) hsame
      · exact congrArg (·.engine) hsame

/-- The stream of a link that is read ends: the link has come to its end, and
that is told once.  All who waited on it wait no longer, and no other link is
touched. -/
theorem Wired.lapse (h : b.Wired) {c : ConnectionId} (hx : x ∈ b.cables) (hreads : x.reads c) :
    b.Holds (.incident (.ended c)) := by
  have hslot := h.inSlot_of_reads hx hreads
  have hread : b.client.channel.reads c := (h.reads hx hslot c).trans hreads
  have hmade : (b.happen (.incident (.ended c))).toTraffic = b.toTraffic.beside b.client.cut := by
    simp [happen, displaced, Traffic.step, hread, ClientRun.read]
  have hnews : b.news (.ended c) = [(x.number, .inactive)] := by
    simp [Cabling.news, h.filter_reads_eq hx hreads]
  obtain ⟨hsevered, hnobody, -⟩ := h.standing.cut
  have honly : ∀ y ∈ b.cables, y.alive → y = x := fun y hy halive =>
    h.eq_of_slot hy hx (h.kept y hy halive) hslot
  have halive : x.alive := by
    have hreading : x.reading ∧ x.connection = c := by simpa [Cable.reads] using hreads
    exact (h.sound x hx).reading ▸ hreading.1
  have hcables : b.rewired (.ended c) = b.cables.map (Cable.turn (·.reads c) (·.finish .lapsed)) :=
    rfl
  have hnumber := Cable.number_turn (P := (·.reads c)) (f := (·.finish .lapsed)) fun _ => rfl
  have hfinished : x.turn (·.reads c) (·.finish .lapsed) = x.finish .lapsed := Cable.turn_of hreads
  have hother : ∀ y ∈ b.cables, y ≠ x → y.turn (·.reads c) (·.finish .lapsed) = y :=
    fun y hy hdiffers => Cable.turn_of_not fun hreads' =>
      hdiffers (h.eq_of_slot hy hx (h.inSlot_of_reads hy hreads') hslot)
  generalize Cable.turn (·.reads c) (·.finish .lapsed) = g at hcables hnumber hfinished hother
  have hunended : x.ending? = none := (h.sound x hx).ended.mpr halive
  have hending : (g x).ending? = some .lapsed := hfinished ▸ x.ending?_finish hunended .lapsed
  have hdead : ∀ y ∈ b.cables, y.alive = false → g y = y := by
    intro y hy hended
    refine hother y hy ?_
    rintro rfl
    cases halive.symm.trans hended
  refine ⟨h.rewire (·.finish) hcables rfl ?_ hnumber ?_
    (fun y hy hended => by rw [hdead y hy hended])
    ?_ ?_ ?_ ?_, g, hnumber, ⟨[], hcables.trans (List.append_nil _).symm⟩, ?_,
    .inr ⟨⟨.lapsed, ⟨c, rfl⟩, ?_⟩, fun o => ?_, fun p _ => ?_⟩⟩
  · rw [hmade, client_beside]
    exact (congrArg Channel.link? (channel_notify _ _)).trans
      (congrArg Channel.link? (channel_abandon _ _))
  · intro y hy hslot'
    rw [h.eq_of_slot hy hx hslot' hslot, hfinished]
    rfl
  · intro y hy
    by_cases hsame : y = x
    · rw [hsame, hfinished]
      exact x.sound_finish .lapsed
    · rw [hother y hy hsame]
      exact h.sound y hy
  · intro y hy
    rw [hnews, List.count_append, h.told y hy]
    by_cases hsame : y = x
    · rw [hsame, hending, hunended]
      simp
    · have hdiffers : x.number ≠ y.number := fun hnumber =>
        hsame (h.eq_of_number hy hx hnumber.symm)
      rw [hother y hy hsame, List.count_singleton]
      simp [hdiffers]
  · intro n hn
    rw [hnews] at hn
    rw [List.mem_singleton.mp hn]
    exact h.number_lt hx
  · rw [Told, hmade, hnews]
    exact engine_cut _
  · intro y hy hended
    rw [hdead y hy hended]
    exact ⟨rfl, rfl, fun _ => id⟩
  · intro y hy halive
    rw [honly y hy halive, hending]
  · rw [hmade]
    exact hnobody o
  · rw [hmade]
    exact hsevered p.owner

/-- **A connection ends**: if it is read, its link has come to its end, which
is told once. -/
theorem Wired.cut (h : b.Wired) (c : ConnectionId) : b.Holds (.incident (.ended c)) := by
  rcases b.reads_cases c with ⟨x, hx, hreads⟩ | hsilent
  · exact h.lapse hx hreads
  · have hmade : (b.happen (.incident (.ended c))).toTraffic = b.toTraffic := by
      simp [happen, displaced, Traffic.step, h.unread hsilent]
    refine h.still ?_ rfl ?_ ?_ ?_
    · refine (List.map_congr_left fun x hx => ?_).trans (List.map_id _)
      simp [hsilent x hx]
    · exact List.map_eq_nil_iff.mpr (List.filter_eq_nil_iff.mpr fun x hx => by simp [hsilent x hx])
    · rw [hmade]
    · rw [hmade]

/-! ## What owners do -/

/-- **An owner returns**: no link is held by it any more.  It waits on none by
then, so that those who wait are still among those who hold. -/
theorem Wired.leave (h : b.Wired) (o : Owner) : b.Holds (.incident (.returned o)) := by
  have hstanding := (h.standing.leave o).1
  have hleft : (b.toTraffic.leave o).client.channel = b.client.channel ∧
      (b.toTraffic.leave o).client.engine = b.client.engine := by
    unfold Traffic.leave
    split
    · cases htaken : b.client.takeOutcome? o with
      | none => exact ⟨rfl, rfl⟩
      | some given =>
          obtain ⟨x, r⟩ := given
          obtain ⟨-, rfl⟩ := takeOutcome?_cases b.client o htaken
          exact ⟨rfl, rfl⟩
    · exact ⟨rfl, rfl⟩
  by_cases hstays : (b.toTraffic.leave o).calls.any (·.owner = o)
  · exact h.still (if_pos hstays) rfl rfl (congrArg Channel.link? hleft.1) hleft.2
  · have hnone : ((b.toTraffic.leave o).station o).calls = [] :=
      List.filter_eq_nil_iff.mpr (by simpa using hstays)
    have hnobody : b.client.waits o = [] := by
      rw [← waits_of_link (congrArg Channel.link? hleft.1)]
      exact (hstanding.stands o).alone hnone
    have hcables : b.rewired (.returned o) = b.change (fun _ => true) (·.release o) := by
      refine (if_neg hstays).trans ?_
      simp [change]
    refine h.lasts id hcables rfl ?_ (fun _ => ⟨rfl, rfl, rfl⟩)
      (fun _ _ _ => rfl) (fun _ _ _ _ => ⟨rfl, List.filter_subset_self _⟩) ?_
      (List.forall_mem_nil _) hleft.2
    · rw [Option.map_id_fun]
      exact congrArg Channel.link? hleft.1
    · intro x hx _
      refine (h.sound x hx).release fun handle hwaits => ?_
      have hlisted := mem_waits.mpr (h.awaited_of_pending hx hwaits).2
      rw [hnobody] at hlisted
      cases hlisted

/-- Somebody begins to listen: there is nothing to hear yet, and what was told
before is for nobody. -/
theorem Wired.subscribe (h : b.Wired) (epoch : Nat) : b.Holds (.subscribed epoch) := by
  refine ⟨{ h with
    standing := (h.standing.congr { b.client with
      engine := { b.client.engine with watcher? := some { epoch := epoch } } } rfl rfl).2
    since := Nat.le_refl _
    mailbox := ?_ }, id, fun _ => rfl, ⟨[], by simp [happen]⟩, fun _ _ _ => ⟨rfl, rfl, fun _ => id⟩,
    .inl fun _ _ => id⟩
  rintro w ⟨⟩
  simp [happen, Engine.newest]

/-- An incident that leaves the link of the client as it is, and gives rise to
no notice, leaves all links wired as they were. -/
theorem Wired.apart (h : b.Wired) {i : Incident} (hcables : b.rewired i = b.cables)
    (hslot : b.slotAfter i = b.slot?) (hdisplaced : b.displaced i = b.toTraffic)
    (hsilent : b.news i = [])
    (hlink : (b.toTraffic.step i).client.channel.link? = b.client.channel.link?)
    (hengine : (b.toTraffic.step i).client.engine = b.client.engine) : b.Holds (.incident i) := by
  have hmade : (b.happen (.incident i)).toTraffic = b.toTraffic.step i := by
    simp only [happen, hdisplaced]
  refine h.still hcables hslot hsilent ?_ ?_
  · rw [hmade]
    exact hlink
  · rw [hmade]
    exact hengine

/-! ## Links that are opened and given up -/

/-- An owner that disconnects in its turn gives up the link, whether that was
alive or not. -/
theorem Wired.unlinked (h : b.Wired) (hgives : b.gives o) :
    b.client.activity? o = some .disconnecting ∧ (b.client.proceed o).channel.link? = none := by
  have hboth : b.client.activity? o = some .disconnecting ∧ b.client.channel.hasTurn o := by
    simpa [Cabling.gives] using hgives
  obtain ⟨hdisconnecting, hturn⟩ := hboth
  refine ⟨hdisconnecting, ?_⟩
  cases h.standing.turns.proceeds hdisconnecting Bool.false_ne_true with
  | stays _ hlink hkeeps => exact hlink.trans (hkeeps hdisconnecting hturn)
  | opens _ _ _ _ hdials => exact absurd hdisconnecting hdials
  | severs _ _ _ hlink => exact hlink

/-- **An owner disconnects in its turn**: the link in use has come to its end,
which is not told, and no other takes its place.  All who waited on it have
been told. -/
theorem Wired.give (h : b.Wired) (o : Owner) (hgives : b.gives o) :
    b.Holds (.incident (.proceed o)) := by
  obtain ⟨hdisconnecting, hunlinked⟩ := h.unlinked hgives
  have hfree := (h.standing.free hdisconnecting Bool.false_ne_true).1
  obtain ⟨-, hsevered⟩ := h.standing.proceed o
  have hslot : (b.happen (.incident (.proceed o))).slot? = none := by
    simp [happen, slotAfter, hgives]
  have hcables : b.rewired (.proceed o) =
      b.cables.map (Cable.turn b.inSlot (·.finish .closed)) ++ [] := by
    rw [List.append_nil]
    simp [rewired, hdisconnecting, hgives, change, Cable.turn]
  have hnumber := Cable.number_turn (P := b.inSlot) (f := (·.finish .closed)) fun _ => rfl
  have hhere : ∀ x, b.inSlot x → x.turn b.inSlot (·.finish .closed) = x.finish .closed :=
    fun _ hslot => Cable.turn_of hslot
  have helsewhere : ∀ x, ¬ b.inSlot x → x.turn b.inSlot (·.finish .closed) = x :=
    fun _ hother => Cable.turn_of_not hother
  generalize Cable.turn b.inSlot (·.finish .closed) = g at hcables hnumber hhere helsewhere
  have hended : ∀ x ∈ b.cables, (g x).alive = false := by
    intro x hx
    by_cases hused : b.inSlot x
    · rw [hhere x hused]
      rfl
    · rw [helsewhere x hused]
      exact h.dead_of_slot hx hused
  refine ⟨h.renew hcables ?_ ?_ hnumber rfl ?_ (List.forall_mem_nil _) ?_
    (List.forall_mem_nil _) ?_,
    g, hnumber, ⟨[], hcables⟩, ?_,
    .inr ⟨⟨.closed, ⟨o, rfl, hdisconnecting⟩, ?_⟩, fun o' => ?_, fun p hp => ?_⟩⟩
  · rw [List.find?_eq_none.mpr fun x _ => by simp [inSlot, hslot]]
    exact hunlinked
  · intro y hy halive
    rw [hcables, List.append_nil] at hy
    obtain ⟨x, hx, rfl⟩ := List.mem_map.mp hy
    cases (hended x hx).symm.trans halive
  · intro x hx
    by_cases hused : b.inSlot x
    · rw [hhere x hused]
      exact x.sound_finish .closed
    · rw [helsewhere x hused]
      exact h.sound x hx
  · intro x hx
    have hsame : (g x).ending? = some .lapsed ↔ x.ending? = some .lapsed := by
      by_cases hused : b.inSlot x
      · rw [hhere x hused]
        exact x.lapsed_finish_closed
      · rw [helsewhere x hused]
    exact (congrArg (List.count _) (List.append_nil _)).trans
      ((h.told x hx).trans (if_congr hsame.symm rfl rfl))
  · exact engine_of_core (core_proceed _ _)
  · intro x hx hdead
    by_cases hused : b.inSlot x
    · rw [hhere x hused]
      exact (h.sound x hx).finish_dead hdead .closed
    · rw [helsewhere x hused]
      exact ⟨rfl, rfl, fun _ => id⟩
  · intro x hx halive
    rw [hhere x (h.kept x hx halive), x.ending?_finish ((h.sound x hx).ended.mpr halive)]
  · have hnobody : (b.client.proceed o).awaited = [] := by
      rw [ClientRun.awaited, hunlinked]
      rfl
    show (b.client.proceed o).waits o' = []
    rw [waits, hnobody]
    rfl
  · refine hsevered p.owner ?_
    rintro rfl
    rw [h.standing.calls_eq hp] at hfree
    cases hfree

/-- **A connection comes about**: a new link takes the place of the last one,
which was not alive any more.  Nobody waits on the new link, and nobody reads
from the last one. -/
theorem Wired.dial (h : b.Wired) (o : Owner) {c : ConnectionId}
    (hunconnected : b.client.channel.isConnected = false)
    (hlink : (b.client.proceed o).channel.link? = some { connection := c })
    (hcables : b.rewired (.proceed o) =
      b.change b.inSlot Cable.silence ++ [{ connection := c, number := b.cables.length }])
    (hslot : b.slotAfter (.proceed o) = some b.cables.length) :
    b.Holds (.incident (.proceed o)) := by
  have hended : ∀ x ∈ b.cables, x.alive = false := by
    intro x hx
    by_contra halive
    have halive : x.alive := by simpa using halive
    rw [h.connected hx (h.kept x hx halive), halive] at hunconnected
    cases hunconnected
  have hopened : b.rewired (.proceed o) = b.cables.map (Cable.turn b.inSlot Cable.silence) ++
      [{ connection := c, number := b.cables.length }] := hcables
  have hsame : ∀ x : Cable, (x.turn b.inSlot Cable.silence).toLink = x.toLink ∧
      (x.turn b.inSlot Cable.silence).number = x.number ∧
      (x.turn b.inSlot Cable.silence).ending? = x.ending? ∧
      (x.turn b.inSlot Cable.silence).users = x.users := by
    intro x
    unfold Cable.turn
    split <;> exact ⟨rfl, rfl, rfl, rfl⟩
  have hslot : (b.happen (.incident (.proceed o))).slot? = some b.cables.length := hslot
  refine ⟨h.renew hopened ?_ ?_ (fun x => (hsame x).2.1) (by simp) ?_ ?_ ?_
    (List.forall_mem_nil _) ?_, _, fun x => (hsame x).2.1, ⟨_, hopened⟩,
    fun x _ _ => ⟨(hsame x).1, (hsame x).2.2.1, fun o huser => (hsame x).2.2.2 ▸ huser⟩,
    .inl fun x hx halive => by rw [hended x hx] at halive; cases halive⟩
  · have hothers : (b.cables.map (Cable.turn b.inSlot Cable.silence)).find?
        (b.happen (.incident (.proceed o))).inSlot = none := by
      refine List.find?_eq_none.mpr fun y hy => ?_
      obtain ⟨x, hx, rfl⟩ := List.mem_map.mp hy
      have hearly := h.number_lt hx
      rw [inSlot, hslot, (hsame x).2.1, decide_eq_true_eq, Option.some.injEq]
      omega
    have hlinked : (b.happen (.incident (.proceed o))).client.channel.link? =
        some { connection := c } := hlink
    rw [hlinked, hopened, List.find?_append, hothers]
    simp [inSlot, hslot]
  · intro y hy halive
    rw [hopened] at hy
    rcases List.mem_append.mp hy with hy | hy
    · obtain ⟨x, hx, rfl⟩ := List.mem_map.mp hy
      rw [(hsame x).1, hended x hx] at halive
      cases halive
    · rw [List.mem_singleton.mp hy, inSlot, hslot]
      simp
  · intro x hx
    by_cases hused : b.inSlot x
    · rw [Cable.turn_of hused]
      exact (h.sound x hx).silence (hended x hx)
    · rw [Cable.turn_of_not hused]
      exact h.sound x hx
  · intro x hx
    rw [List.mem_singleton.mp hx]
    exact ⟨⟨by simp, rfl, by simp, by simp⟩, rfl⟩
  · intro x hx
    rw [(hsame x).2.2.1]
    exact (congrArg (List.count _) (List.append_nil _)).trans (h.told x hx)
  · exact engine_of_core (core_proceed _ _)

/-- An owner that leaves the channel connected, or not, as it was, opens no
link; so only dialing opens one. -/
theorem opened?_none (hsame : (b.client.proceed o).channel.isConnected =
    b.client.channel.isConnected) : b.opened? o = none := by
  unfold opened?
  split
  · rfl
  · rename_i hunconnected
    rw [← hsame] at hunconnected
    rw [Option.map_eq_none_iff]
    simpa [Channel.isConnected] using hunconnected

/-- **A response does not come in time**: nobody waits for it any more on the
link that its owner holds, which is the link in use as long as that is
alive. -/
theorem Wired.expire (h : b.Wired) {handle : UInt32} {service : String} {deadline : Duration}
    (hdoing : b.client.activity? o = some (.exchanging handle service deadline))
    (hlate : deadline ≤ b.client.elapsed) : b.Holds (.incident (.proceed o)) := by
  have hclient : b.client.proceed o = ({ b.client with
      channel := b.client.channel.withdraw handle } : ClientRun).conclude o (.failed .timeout) := by
    rw [ClientRun.proceed, hdoing]
    exact if_pos hlate
  have hcables : b.rewired (.proceed o) = b.change (fun x => o ∈ x.users) (·.remove handle) := by
    simp [rewired, hdoing, hlate]
  have hslot : b.slotAfter (.proceed o) = b.slot? := by
    have hnone := opened?_none (b := b) (o := o) (by rw [hclient]; exact isConnected_withdraw _ _)
    simp [slotAfter, gives, hdoing, hnone]
  refine h.forget (Q := True) handle hcables hslot ?_ ?_ (List.forall_mem_nil _)
    (engine_of_core (core_proceed _ _))
  · rw [if_pos trivial]
    exact congrArg (·.channel.link?) hclient
  · intro x hx hhere
    obtain ⟨p, rfl, hown⟩ := h.standing.exchanging hdoing
    have hwaits : p.handle ∈ b.client.waits o := by
      rw [show b.client.waits o = [p.handle] from congrArg Station.waits hown]
      exact List.mem_cons_self
    rw [mem_waits, h.awaited hx hhere] at hwaits
    simpa using (h.sound x hx).users _ hwaits

/-- **An owner goes on as far as it can**: it gives up the link, or dials a
new one, or its request runs out of time; or it waits, and then so do the
links. -/
theorem Wired.proceed (h : b.Wired) (o : Owner) : b.Holds (.incident (.proceed o)) := by
  by_cases hgives : b.gives o
  · exact h.give o hgives
  by_cases hexpires : ∃ handle service deadline,
      b.client.activity? o = some (.exchanging handle service deadline) ∧
        deadline ≤ b.client.elapsed
  · obtain ⟨handle, service, deadline, hdoing, hlate⟩ := hexpires
    exact h.expire hdoing hlate
  have hrewired : b.rewired (.proceed o) = (b.opened? o).elim b.cables fun c =>
      b.change b.inSlot Cable.silence ++ [{ connection := c, number := b.cables.length }] := by
    unfold Cabling.rewired
    dsimp only
    split
    · rename_i hdoing
      have hearly := fun hlate => hexpires ⟨_, _, _, hdoing, hlate⟩
      rw [if_neg hearly, opened?_none (by rw [proceed_early hdoing hearly]), Option.elim_none]
    · refine (if_neg hgives).trans ?_
      cases b.opened? o <;> rfl
  have hstays : (b.client.proceed o).channel.link? = b.client.channel.link? →
      b.Holds (.incident (.proceed o)) := by
    intro hlink
    have hnone := opened?_none (isConnected_of_line (line?_of_link hlink))
    refine h.apart ?_ ?_ rfl rfl hlink (engine_of_core (core_proceed _ _))
    · rw [hrewired, hnone, Option.elim_none]
    · simp [slotAfter, hgives, hnone]
  cases hdoing : b.client.activity? o with
  | none =>
      refine hstays ?_
      rw [ClientRun.proceed, hdoing]
  | some a =>
      by_cases hexchange : a.isExchange
      · cases a with
        | exchanging handle service deadline =>
            refine hstays ?_
            rw [proceed_early hdoing fun hlate => hexpires ⟨_, _, _, hdoing, hlate⟩]
        | _ => cases hexchange
      · cases h.standing.turns.proceeds hdoing hexchange with
        | stays _ hlink => exact hstays hlink
        | severs hdisconnecting hturn =>
            exact absurd (by simp [Cabling.gives, hdisconnecting, hturn]) hgives
        | opens _ hunconnected c hlink =>
            have hopened : b.opened? o = some c := by
              simp [opened?, hunconnected, Channel.current?, hlink]
            refine h.dial o hunconnected hlink ?_ ?_
            · rw [hrewired, hopened, Option.elim_some]
            · simp [slotAfter, hgives, hopened]

/-! ## All that may happen -/

/-- **Whatever happens, the links of a client stay wired as they should be.**
Each occasion is one of the lemmas above; what they share is said by
`Holds`. -/
theorem Wired.happen (h : b.Wired) (s : Occasion) : b.Holds s := by
  cases s with
  | subscribed epoch => exact h.subscribe epoch
  | incident i =>
      cases i with
      | request o q => exact h.request o q
      | handed o error => exact h.handOver o error
      | proceed o => exact h.proceed o
      | frame c text => exact h.hear c text
      | ended c => exact h.cut c
      | returned o => exact h.leave o
      | connect o | disconnect o =>
          refine h.apart rfl rfl rfl rfl ?_ ?_
          · rw [Traffic.step]
            split <;> rfl
          · rw [Traffic.step]
            split <;> rfl
      | elapse d | peer p => exact h.apart rfl rfl rfl rfl rfl rfl

/-- However many occasions there were, the links are wired as they should be;
by induction on the occasions. -/
theorem Wired.after (h : b.Wired) (os : List Occasion) : (b.after os).Wired := by
  induction os generalizing b with
  | nil => exact h
  | cons s os ih => exact ih (h.happen s).1

end Cabling

end OpcSession.Simulation
