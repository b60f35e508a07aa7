import OpcSession.Proofs.Client.Rewiring

/-!
# Requests never hang on a dead link

Callers go on to use a link that others have taken out of use, and its reader, whoever disconnects,
and callers whose requests fail all remove requests from it.  Still nobody is ever left waiting on
it: what is lost with the link is lost for good, and its call fails without another thing happening,
but that its frame is handed over if it is still on its way.

* `Cabling.Fails` — what it is for a call to be lost;
* `Cabling.Wired.lost_after`, `Cabling.Wired.fails` — a lost call stays lost, and fails;
* `Cabling.Wired.stays_dead`, `Cabling.Wired.lost_of_end` — what is so of a link after its end, and
  what becomes of the calls by it;
* `Cabling.requests_never_hang` — all of it, for whatever happens to a client.
-/

namespace OpcSession.Simulation

open Session Client

namespace Cabling

open ClientRun Traffic

variable {b : Cabling} {x y : Cable} {o : Owner} {p : OpenCall}

/-! ## Calls that are lost -/

/-- The request of a call is lost: the call has failed; or its frame is still
on its way, and the call fails as soon as it is not, whether it could be sent
or not. -/
def Fails (b : Cabling) (p : OpenCall) : Prop :=
  ((∃ text, b.client.outcome? p.owner = some (.failed (.transport text))) ∧
      { p with handed := true } ∈ b.calls ∧ b.client.activity? p.owner = none) ∨
  (b.client.outcome? p.owner = none ∧ p ∈ b.calls ∧ p.handed = false ∧
    ∀ error, ∃ text, (b.happen (.incident (.handed p.owner error))).client.outcome? p.owner =
      some (.failed (.transport text)))

/-- A lost call stays lost until it returns.  Nobody else's doing brings it
back: neither a new connection, nor a response that comes in late. -/
theorem Wired.lost_happen (h : b.Wired) (hlost : (b.station o).Lost p) (s : Occasion)
    (hstays : s ≠ .incident (.returned o)) : ((b.happen s).station o).Lost p := by
  cases s with
  | subscribed epoch => exact hlost
  | incident i =>
      obtain ⟨hstanding, hfresh, hsevered⟩ := displaced_stands h.standing i
      have hstill : ((b.displaced i).station o).Lost p := (hlost.severed (hsevered o)).symm ▸ hlost
      exact (hstanding.step i hfresh).2 p o hstill fun hsame =>
        hstays (congrArg Occasion.incident hsame)

/-- However much happens, a lost call stays lost until it returns; by
induction on what happens. -/
theorem Wired.lost_after (h : b.Wired) (hlost : (b.station o).Lost p) (os : List Occasion)
    (hstays : .incident (.returned o) ∉ os) : ((b.after os).station o).Lost p := by
  induction os generalizing b with
  | nil => exact hlost
  | cons s os ih =>
      obtain ⟨hother, hrest⟩ := not_or.mp fun hnow => hstays (List.mem_cons.mpr hnow)
      exact ih (h.happen s).1 (h.lost_happen hlost s (Ne.symm hother)) hrest

/-- **A lost call fails.**  Its owner only has to have its frame handed over,
if that is still on its way, to be told that the request is lost. -/
theorem Wired.fails (h : b.Wired) (hlost : (b.station p.owner).Lost p) : b.Fails p := by
  have hcalls : ∀ {q : OpenCall}, (b.station p.owner).calls = [q] → q ∈ b.calls := by
    intro q hcalls
    have hlisted : q ∈ b.calls.filter (·.owner = p.owner) := by
      rw [show b.calls.filter (·.owner = p.owner) = [q] from hcalls]
      exact List.mem_cons_self
    exact (List.mem_filter.mp hlisted).1
  generalize hs : b.station p.owner = s at hlost
  cases hlost with
  | failed text =>
      exact .inl ⟨⟨text, congrArg Station.outcome? hs⟩, hcalls (congrArg Station.calls hs),
        congrArg Station.activity? hs⟩
  | sending hunhanded =>
      refine .inr ⟨congrArg Station.outcome? hs, hcalls (congrArg Station.calls hs), hunhanded, ?_⟩
      intro error
      obtain ⟨hstanding, -, hsevered⟩ := displaced_stands h.standing (.handed p.owner error)
      have hstill :
          (b.displaced (.handed p.owner error)).station p.owner = ⟨[p], none, none, []⟩ := by
        have hlost : (b.station p.owner).Lost p := hs ▸ .sending hunhanded
        exact (hlost.severed (hsevered p.owner)).trans hs
      obtain ⟨text, hfailed⟩ := (hstanding.handOver p.owner error).2.2 p hunhanded hstill
      exact ⟨text, congrArg Station.outcome? hfailed⟩

/-! ## Links that come to their end -/

/-- **A link that is not alive stays as it is**, except that the calls that
hold it return one by one. -/
theorem Wired.stays_dead (h : b.Wired) (os : List Occasion) (hx : x ∈ b.cables)
    (hdead : x.alive = false) : ∃ y ∈ (b.after os).cables, y.number = x.number ∧
      y.toLink = x.toLink ∧ y.ending? = x.ending? ∧ y.users ⊆ x.users := by
  induction os generalizing b x with
  | nil => exact ⟨x, hx, rfl, rfl, rfl, fun _ => id⟩
  | cons s os ih =>
      obtain ⟨hwired, g, hrewires⟩ := h.happen s
      obtain ⟨hlink, hending, husers⟩ := hrewires.dead x hx hdead
      obtain ⟨new, hcables⟩ := hrewires.cables
      have hgx : g x ∈ (b.happen s).cables :=
        hcables ▸ List.mem_append_left _ (List.mem_map_of_mem hx)
      obtain ⟨y, hy, hnumber, hlink', hending', husers'⟩ := ih hwired hgx (by rw [hlink, hdead])
      exact ⟨y, hy, hnumber.trans (hrewires.number x), hlink'.trans hlink, hending'.trans hending,
        List.Subset.trans husers' husers⟩

/-- **When a link comes to its end**, it is for one of two reasons, and every
call of which nothing has come yet is lost. -/
theorem Wired.lost_of_end (h : b.Wired) {s : Occasion} (hx : x ∈ b.cables) (halive : x.alive)
    (hy : y ∈ (b.happen s).cables) (hsame : y.number = x.number) (hended : y.alive = false) :
    (∃ e, b.Ends s e ∧ y.ending? = some e) ∧
      ∀ p ∈ b.calls, b.client.outcome? p.owner = none → ((b.happen s).station p.owner).Lost p := by
  obtain ⟨hwired, g, hrewires⟩ := h.happen s
  obtain ⟨new, hcables⟩ := hrewires.cables
  have hgx : g x ∈ (b.happen s).cables :=
    hcables ▸ List.mem_append_left _ (List.mem_map_of_mem hx)
  obtain rfl : y = g x := hwired.eq_of_number hy hgx (hsame.trans (hrewires.number x).symm)
  rcases hrewires.fate with hlives | ⟨⟨e, hends, hending⟩, hnobody, hsevered⟩
  · rw [hlives x hx halive] at hended
    cases hended
  · refine ⟨⟨e, hends, hending x hx halive⟩, fun p hp hnothing => ?_⟩
    exact (hsevered p hp).lost (h.standing.stands p.owner) (h.standing.calls_eq hp) hnothing
      (hnobody p.owner)

/-- Whoever waits on a link has an open call of which nothing has come yet. -/
theorem Wired.call_of_pending (h : b.Wired) (hx : x ∈ b.cables) {e : UInt32 × Owner}
    (hwaits : e ∈ x.pending) : ∃ p ∈ b.calls, p.handle = e.1 ∧ p.owner = e.2 ∧ p.owner ∈ x.users ∧
      b.client.outcome? p.owner = none := by
  obtain ⟨p, a?, hhandle, -, hown⟩ := h.standing.waiting (h.awaited_of_pending hx hwaits).2
  obtain ⟨hp, howner, -⟩ := sending_of_station hown
  refine ⟨p, hp, hhandle, howner, ?_, ?_⟩
  · rw [howner]
    exact (h.sound x hx).users e hwaits
  · rw [howner]
    exact congrArg Station.outcome? hown

/-- **Requests never hang on a dead link**, whatever happens in whichever
order.  Nobody waits on a link that is not alive, and nobody will.  When a
link comes to its end, every call of which nothing has come yet fails with an
error of the transport, at once or as soon as its frame is not on its way any
more.  At most the link in use is alive; and the end of a link is told once if
its stream ends, and never if the channel disconnects. -/
theorem requests_never_hang (url : String) (settings : ClientSettings)
    (endpoint : EndpointDescription) (credentials : Credentials) (before : List Occasion) :
    let b := (start url settings endpoint credentials).after before
    -- The links are those of the client, and whoever waits on one has a call that waits.
    (b.cables.map (·.number) = List.range b.cables.length ∧
      b.client.channel.link? = (b.cables.find? b.inSlot).map Cable.toLink ∧
      ∀ x ∈ b.cables, ∀ e ∈ x.pending, ∃ p ∈ b.calls, p.handle = e.1 ∧ p.owner = e.2 ∧
        p.owner ∈ x.users ∧ b.client.outcome? p.owner = none) ∧
    -- Nobody waits on a link that is not alive, and nobody will.
    (∀ x ∈ b.cables, x.alive = false → x.pending = [] ∧ ∀ later, ∃ y ∈ (b.after later).cables,
      y.number = x.number ∧ y.toLink = x.toLink ∧ y.ending? = x.ending? ∧ y.users ⊆ x.users) ∧
    -- A link comes to its end for one of two reasons, and then whoever waits fails.
    (∀ x ∈ b.cables, x.alive → ∀ s, ∀ y ∈ (b.happen s).cables, y.number = x.number →
      y.alive = false →
        (∃ e, b.Ends s e ∧ y.ending? = some e) ∧
        ∀ p ∈ b.calls, b.client.outcome? p.owner = none →
          ∀ later, .incident (.returned p.owner) ∉ later → ((b.happen s).after later).Fails p) ∧
    -- At most one link is alive.
    (b.cables.filter (·.alive)).length ≤ 1 ∧
    -- The end of a link is told once if its stream ended, and else never.
    (∀ x ∈ b.cables, (x.ending? = none ↔ x.alive) ∧
      b.notices.count (x.number, .inactive) = if x.ending? = some .lapsed then 1 else 0) ∧
    ∀ w, b.client.engine.watcher? = some w →
      w.unread = Engine.newest Channel.mailbox ((b.notices.drop b.since).map (·.2)) := by
  intro b
  have h : b.Wired := (wired_start url settings endpoint credentials).after before
  refine ⟨⟨h.numbers, h.link, fun x hx e hwaits => h.call_of_pending hx hwaits⟩, ?_, ?_,
    h.length_filter_le h.kept,
    fun x hx => ⟨(h.sound x hx).ended, h.told x hx⟩, h.mailbox⟩
  · intro x hx hdead
    exact ⟨(h.sound x hx).dead hdead, fun later => h.stays_dead later hx hdead⟩
  · intro x hx halive s y hy hsame hended
    obtain ⟨hreason, hlost⟩ := h.lost_of_end hx halive hy hsame hended
    refine ⟨hreason, fun p hp hnothing later hstays => ?_⟩
    have hwired := (h.happen s).1
    exact (hwired.after later).fails (hwired.lost_after (hlost p hp hnothing) later hstays)

/-- A stream ends while one request is waited for and another is on its way;
then the channel connects anew, and disconnects. -/
example :
    let b := (start "plant" { session := { sessionName := "plant" } } (.unsecured "plant")
      .anonymous).after (([.connect .machine, .proceed .machine, .returned .machine,
        .request (.caller 0) default, .request (.caller 1) default, .handed (.caller 1) none,
        .ended ⟨1⟩, .connect .machine, .proceed .machine, .returned .machine,
        .handed (.caller 0) none, .disconnect .machine, .proceed .machine] :
          List Incident).map .incident)
    b.cables.map (·.ending?) = [some .lapsed, some .closed] ∧ b.notices = [(0, .inactive)] ∧
      b.client.outcomes.filter (·.1 ≠ .machine) =
        [(.caller 1, .failed (Channel.abandoned "CreateSession")),
          (.caller 0, .failed (Channel.abandoned "CreateSession"))] := by
  decide +kernel

end Cabling

end OpcSession.Simulation
