import OpcSession.Proofs.Client.Cables
import OpcSession.Proofs.Client.Overflow

/-!
# How the links of a client are wired

The ledger of links agrees with the client: the link in use is the client's, and no other is alive.
A link that is not alive has come to its end and is waited on no more; whoever waits on a link holds
it; and the notices that were given are those in the mailbox of whoever listens.  To show that this
stays so it is enough to say what an incident makes of each link, and of the link of the client.

* `Cabling.after_traffic` — while no call stays open for too long, no request displaces another, and
  the client is what the incidents make of it;
* `Cable.Sound`, `Cabling.Wired` — one link, and all links, as they should be;
* `Cabling.Rewires`, `Cabling.Holds` — what may become of the links by what happens;
* `Cabling.Wired.renew`, `Cabling.Wired.rewire`, `Cabling.Wired.lasts`, `Cabling.Wired.forget` —
  from what becomes of each link to what becomes of all: others are opened; the one in use stays
  in use; none comes to its end; somebody stops waiting.
-/

namespace OpcSession.Simulation

open Session Client

namespace ClientRun

variable {r : ClientRun} {o : Owner} {handle : UInt32}

/-! ## What becomes of the link in use -/

/-- To displace whoever waits under a handle is to take the handle off the
link, unless it is the owner's own. -/
theorem link?_displace : (r.displace handle o).channel.link? =
    if r.channel.awaits handle o then r.channel.link?
    else r.channel.link?.map (·.remove handle) := by
  unfold displace
  split
  · rfl
  · rw [channel_abandon]
    rfl

/-- What is to be sent for a request: its frame under the next handle, as long
as there is a connection and the request can be encoded. -/
theorem post_sent (r : ClientRun) (o : Owner) (q : Request) : (r.post o q).1 =
    if r.channel.isConnected ∧ r.peer.encodingFailure? = none then
      some { handle := r.channel.allocate.1, body := q.withHandle r.channel.allocate.1 }
    else none := by
  unfold post Channel.isConnected
  cases r.channel.current? with
  | none => rfl
  | some l => cases h : r.peer.encodingFailure? <;> simp [h]

/-- Whoever is told that its request is lost is told by the client itself; the
other side has no part in it. -/
theorem peer_abandon (r : ClientRun) (pending : List (UInt32 × Owner)) :
    (r.abandon pending).peer = r.peer := by
  apply foldl_eq_of_step ClientRun.peer
  intro r p
  dsimp only
  split
  · unfold wake
    split <;> rfl
  · rfl

/-- The session machine hears nothing of a displaced request until its owner
goes on. -/
theorem engine_displace (r : ClientRun) (handle : UInt32) (o : Owner) :
    (r.displace handle o).engine = r.engine := by
  unfold displace
  split
  · rfl
  · exact engine_of_core (core_abandon _ _)

/-- What is to be sent goes under the next handle, and there is a connection
to send it on. -/
theorem handle_of_post {q : Request} {e : RequestEnvelope} (hposted : (r.post o q).1 = some e) :
    r.channel.isConnected ∧ e.handle = r.channel.allocate.1 := by
  rw [post_sent] at hposted
  split at hposted
  · rename_i hconnected
    cases hposted
    exact ⟨hconnected.1, rfl⟩
  · cases hposted

/-- The same is to be sent for a request whoever waits under its handle. -/
theorem post_displace (r : ClientRun) (o o' : Owner) (handle : UInt32) (q : Request) :
    ((r.displace handle o).post o' q).1 = (r.post o' q).1 := by
  unfold displace
  split
  · rfl
  · have hallocated : (r.channel.withdraw handle).allocate.1 = r.channel.allocate.1 :=
      allocate_congr rfl
    rw [post_sent, post_sent, channel_abandon, peer_abandon, isConnected_withdraw, hallocated]

/-- A request that is to be sent is waited for on the link, and one that is
not leaves the link as it is. -/
theorem link?_post (r : ClientRun) (o : Owner) (q : Request) :
    (r.post o q).2.channel.link? = (r.post o q).1.elim r.channel.link? fun e =>
      r.channel.link?.map fun l => { l with pending := l.pending ++ [(e.handle, o)] } := by
  rcases post_cases r o q with
    ⟨-, hposted⟩ | ⟨l, -, ⟨peer, text, hposted⟩ | ⟨e, rfl, hposted⟩⟩
  · rw [hposted]
    rfl
  · rw [hposted]
    exact link?_allocate _
  · rw [hposted]
    simp only [channel_observe, Channel.register, link?_allocate]
    rfl

/-- A frame that was handed over is waited for as before.  One that was
refused, or has no time, is not, if its owner still had the handle. -/
theorem link?_handOver (r : ClientRun) (o : Owner) (e : RequestEnvelope)
    (error : Option TransportError) : (r.handOver o e error).channel.link? =
      if r.channel.awaits e.handle o ∧
        (error.isSome ∨ r.settings.transport.requestDuration = .zero) then
        r.channel.link?.map (·.remove e.handle)
      else r.channel.link? := by
  cases error with
  | some _ =>
      simp only [handOver, channel_conclude]
      split <;> simp_all [Channel.withdraw, Link.remove]
  | none =>
      simp only [handOver]
      split
      · split
        · simp_all [Channel.withdraw, Link.remove]
        · simp_all
      · split <;> simp_all

end ClientRun

/-! ## One link -/

namespace Cable

/-- Something becomes of a link if it is one of some, and else nothing. -/
def turn (P : Cable → Bool) (f : Cable → Cable) (x : Cable) : Cable := if P x then f x else x

/-- A link that is among those that change changes as they do. -/
theorem turn_of {P : Cable → Bool} {f : Cable → Cable} {x : Cable} (h : P x) : x.turn P f = f x :=
  if_pos h

/-- A link that is not among those that change stays as it is. -/
theorem turn_of_not {P : Cable → Bool} {f : Cable → Cable} {x : Cable} (h : ¬ P x) :
    x.turn P f = x :=
  if_neg h

/-- What keeps the numbers of some links keeps those of all, so links can be
told apart by their numbers through any change. -/
theorem number_turn {P : Cable → Bool} {f : Cable → Cable} (hsame : ∀ x, (f x).number = x.number)
    (x : Cable) : (x.turn P f).number = x.number := by
  by_cases hP : P x
  · rw [turn_of hP, hsame]
  · rw [turn_of_not hP]

/-- A link that is not alive is read no more and waited on no more, and is the
one that has come to its end; whoever waits on a link holds it. -/
structure Sound (x : Cable) : Prop where
  /-- Nobody waits on a link that is not alive. -/
  dead : x.alive = false → x.pending = []
  /-- A link is read as long as it is alive: its reader ends with it. -/
  reading : x.reading = x.alive
  /-- It has come to its end exactly when it is not alive any more. -/
  ended : x.ending? = none ↔ x.alive
  /-- Whoever waits on the link has an open call that holds it. -/
  users : ∀ e ∈ x.pending, e.2 ∈ x.users

variable {x : Cable} {handle : UInt32} {o : Owner} {e : Ending}

/-- Nobody waits the less on a link that is not alive, for nobody waits on it
at all. -/
theorem Sound.remove_dead (h : x.Sound) (hdead : x.alive = false) :
    x.toLink.remove handle = x.toLink := by
  rw [Link.remove, h.dead hdead]
  obtain ⟨⟨_, _, pending⟩, _, _, _, _⟩ := x
  cases h.dead hdead
  rfl

/-- Who waits no longer may still hold the link, so nothing is lost of what
makes it sound. -/
theorem Sound.remove (h : x.Sound) (handle : UInt32) : (x.remove handle).Sound where
  dead := by
    intro hdead
    have hnone := h.dead hdead
    simp only [Cable.remove, Link.remove, hnone, List.filter_nil]
  reading := h.reading
  ended := h.ended
  users := fun e hwaits => h.users e (List.mem_filter.mp hwaits).1

/-- A link that has come to its end is sound, whatever it was before: it is
dead, unread, and waited on by nobody. -/
theorem sound_finish (x : Cable) (e : Ending) : (x.finish e).Sound where
  dead := fun _ => rfl
  reading := rfl
  ended := by
    cases hx : x.ending? <;> simp [Cable.finish, Link.finish, hx]
  users := by simp [Cable.finish, Link.finish]

/-- A link that had not ended before has ended in the way it is now given
up. -/
theorem ending?_finish (x : Cable) (hunended : x.ending? = none) (e : Ending) :
    (x.finish e).ending? = some e := by
  rw [finish, hunended]
  rfl

/-- A link comes to its end once: what is dead already stays as it is, with
the ending that it had. -/
theorem Sound.finish_dead (h : x.Sound) (hdead : x.alive = false) (e : Ending) :
    (x.finish e).toLink = x.toLink ∧ (x.finish e).ending? = x.ending? ∧
      (x.finish e).users ⊆ x.users := by
  obtain ⟨e', hended⟩ : ∃ e', x.ending? = some e' := by
    refine Option.ne_none_iff_exists'.mp fun hunended => ?_
    cases hdead.symm.trans (h.ended.mp hunended)
  have hnobody := h.dead hdead
  obtain ⟨⟨_, _, _⟩, _, _, _, _⟩ := x
  cases hdead
  cases hnobody
  cases hended
  exact ⟨rfl, rfl, fun _ => id⟩

/-- A link that is given up has not come to its end by itself, unless it had
before.  So giving one up is never told as the end of a stream. -/
theorem lapsed_finish_closed (x : Cable) :
    (x.finish .closed).ending? = some .lapsed ↔ x.ending? = some .lapsed := by
  cases hx : x.ending? <;> simp [Cable.finish, hx]

/-- Reading may stop on a link that is dead, where it has stopped already. -/
theorem Sound.silence (h : x.Sound) (hdead : x.alive = false) : x.silence.Sound where
  dead := h.dead
  reading := hdead.symm
  ended := h.ended
  users := h.users

/-- A link may be held by calls that do not wait on it. -/
theorem Sound.hold (h : x.Sound) (o : Owner) : (x.hold o).Sound where
  dead := h.dead
  reading := h.reading
  ended := h.ended
  users := fun e hwaits => List.mem_append_left _ (h.users e hwaits)

/-- An owner may wait on a link that is alive, if its call holds the link from
then on. -/
theorem Sound.insert (h : x.Sound) (halive : x.alive) (handle : UInt32) (o : Owner) :
    ((x.insert handle o).hold o).Sound where
  dead := by
    intro hdead
    cases halive.symm.trans hdead
  reading := h.reading
  ended := h.ended
  users := by
    intro e hwaits
    rcases List.mem_append.mp hwaits with hwaits | hnew
    · exact List.mem_append_left _ (h.users e (List.mem_filter.mp hwaits).1)
    · cases List.mem_singleton.mp hnew
      exact List.mem_append_right _ List.mem_cons_self

/-- A call that waits for nothing may let go of the link. -/
theorem Sound.release (h : x.Sound) (halone : ∀ handle, (handle, o) ∉ x.pending) :
    (x.release o).Sound where
  dead := h.dead
  reading := h.reading
  ended := h.ended
  users := by
    intro e hwaits
    have hother : e.2 ≠ o := by
      rintro rfl
      exact halone e.1 hwaits
    exact List.mem_filter.mpr ⟨h.users e hwaits, by simpa using hother⟩

end Cable

namespace Cabling

open ClientRun Traffic

variable {b : Cabling} {x y : Cable} {o : Owner} {i : Incident}

/-! ## Requests that are displaced -/

/-- Whoever waits under a handle that is given out anew, or given up by
another, does not wait any more; nothing becomes of the others. -/
theorem displaced_stands (h : b.Standing) (i : Incident) :
    (b.displaced i).Standing ∧ (b.displaced i).Fresh i ∧
      ∀ o, (b.station o).Severed ((b.displaced i).station o) := by
  cases i with
  | request o q =>
      rw [displaced]
      split
      · rename_i hidle
        cases hposted : (b.client.post o q).1 with
        | none => exact ⟨h, fun _ hsent => by simp [hposted] at hsent, fun _ => .spared⟩
        | some e =>
            obtain ⟨hsevered, -, hstanding, hfree⟩ := h.displace e.handle o
            refine ⟨hstanding, fun _ _ => ?_, hsevered⟩
            have hsent := (post_displace b.client o o e.handle q).trans hposted
            have hnext := (handle_of_post hsent).2
            exact hnext ▸ hfree (h.unawaited hidle e.handle)
      · rename_i hbusy
        exact ⟨h, fun hidle => absurd hidle hbusy, fun _ => .spared⟩
  | handed o error =>
      have hstill : b.Standing ∧ True ∧ ∀ o, (b.station o).Severed (b.station o) :=
        ⟨h, trivial, fun _ => .spared⟩
      cases error with
      | none => exact hstill
      | some error =>
          rw [displaced]
          split
          · cases b.sending? o with
            | none => exact hstill
            | some e =>
                obtain ⟨hsevered, -, hstanding, -⟩ := h.displace e.handle o
                exact ⟨hstanding, trivial, hsevered⟩
          · exact hstill
  | _ => exact ⟨h, trivial, fun _ => .spared⟩

/-- Whatever happens, every owner stands.  The handle that a request gets is
free once whoever had it was displaced, so the step is one of those after
which owners stand. -/
theorem stands_happen (h : b.Standing) (i : Incident) : (b.happen (.incident i)).Standing := by
  obtain ⟨hstanding, hfresh, -⟩ := displaced_stands h i
  exact (hstanding.step i hfresh).1

/-- While no call stays open for too long, no other request waits under a
handle. -/
theorem displaced_spared (h : b.Standing) (hspare : b.Sparing) (i : Incident)
    (hspare' : (b.toTraffic.step i).Sparing) : b.displaced i = b.toTraffic := by
  cases i with
  | request o q =>
      rw [displaced]
      split
      · rename_i hidle
        cases hposted : (b.client.post o q).1 with
        | none => rfl
        | some e =>
            obtain ⟨hconnected, hnext⟩ := handle_of_post hposted
            refine congrArg b.beside (h.displace_alone fun x hwaits hsame => ?_)
            obtain ⟨p, a?, hhandle, -, hown⟩ := h.waiting hwaits
            have hp := (sending_of_station hown).1
            have hgiven := h.booked.given p hp
            obtain ⟨l, hcurrent⟩ := Option.isSome_iff_exists.mp hconnected
            have hfurther : b.allocated + 1 - (p.index + 1) < 2 ^ 32 - 1 := by
              rw [Traffic.step, if_pos hidle, Traffic.post, hcurrent] at hspare'
              exact hspare' p (List.mem_append_left _ hp)
            refine absurd ?_ (handleAt_ne hgiven (by omega))
            rw [← h.booked.handle p hp, ← h.booked.next, ← hnext, hhandle, hsame]
      · rfl
  | handed o error =>
      cases error with
      | none => rfl
      | some error =>
          rw [displaced]
          split
          · cases hsent : b.sending? o with
            | none => rfl
            | some e =>
                rcases h.booked.handOver_cases o (some error) with
                  ⟨hnothing, -⟩ | ⟨p, hp, rfl, -, hsending, -⟩
                · cases hnothing.symm.trans hsent
                · obtain rfl : p.envelope = e := Option.some.inj (hsending.symm.trans hsent)
                  refine congrArg b.beside (h.displace_alone fun x hwaits hsame => ?_)
                  obtain ⟨q, a?, hhandle, -, hown⟩ := h.waiting hwaits
                  obtain ⟨hq, howner, -⟩ := sending_of_station hown
                  rw [← howner, h.booked.alone hspare hq hp (hhandle.trans hsame)]
          · rfl
  | _ => rfl

/-- **While no call stays open for too long, the client is what the incidents
make of it.** -/
theorem after_traffic (h : b.Standing) (is : List Incident) (hspare : b.toTraffic.Spares is) :
    (b.after (is.map .incident)).toTraffic = b.toTraffic.after is := by
  induction is generalizing b with
  | nil => rfl
  | cons i rest ih =>
      obtain ⟨hnow, hlater⟩ := hspare
      have hnext : (b.toTraffic.step i).Sparing := by
        cases rest with
        | nil => exact hlater
        | cons => exact hlater.1
      have hmade : (b.happen (.incident i)).toTraffic = b.toTraffic.step i := by
        rw [happen, displaced_spared h hnow i hnext]
      rw [← hmade] at hlater
      exact (ih (stands_happen h i) hlater).trans (congrArg (Traffic.after rest) hmade)

/-! ## All links -/

/-- The ledger of links agrees with the client.  The clauses about notices say
of each link how often its end was told, and of whoever listens that nothing
but the mailbox's size keeps it from what was told since it began. -/
structure Wired (b : Cabling) : Prop where
  /-- Every owner stands, as `Traffic` has it. -/
  standing : b.Standing
  /-- The link in use is the client's. -/
  link : b.client.channel.link? = (b.cables.find? b.inSlot).map Cable.toLink
  /-- Only the link in use may be alive, so at most one link ever is. -/
  kept : ∀ x ∈ b.cables, x.alive → b.inSlot x
  /-- Each link is as it should be by itself. -/
  sound : ∀ x ∈ b.cables, x.Sound
  /-- Links are numbered in the order in which they were opened. -/
  numbers : b.cables.map (·.number) = List.range b.cables.length
  /-- The end of a stream was told once for each link that ended that way, and
  for no other. -/
  told : ∀ x ∈ b.cables,
    b.notices.count (x.number, .inactive) = if x.ending? = some .lapsed then 1 else 0
  /-- Notices came of links that were opened. -/
  known : ∀ n ∈ b.notices, n.1 < b.cables.length
  /-- Whoever listens began to after some of the notices, and before the
  rest. -/
  since : b.since ≤ b.notices.length
  /-- Whoever listens has the newest notices since it began, as many as
  fit. -/
  mailbox : ∀ w, b.client.engine.watcher? = some w →
    w.unread = Engine.newest Channel.mailbox ((b.notices.drop b.since).map (·.2))

/-- A client that was just made has no links, and so none that could be
wrong. -/
theorem wired_start (url : String) (settings : ClientSettings) (endpoint : EndpointDescription)
    (credentials : Credentials) : (start url settings endpoint credentials).Wired where
  standing := standing_start url settings endpoint credentials
  link := rfl
  kept := by simp [start]
  sound := by simp [start]
  numbers := rfl
  told := by simp [start]
  known := by simp [start]
  since := Nat.le_refl _
  mailbox := nofun

/-- No two links have the same number, for they are numbered one after the
other. -/
theorem Wired.nodup (h : b.Wired) : (b.cables.map (·.number)).Nodup := by
  rw [h.numbers]
  exact List.nodup_range

/-- The number of a link is less than the number that the next one will
have. -/
theorem Wired.number_lt (h : b.Wired) (hx : x ∈ b.cables) : x.number < b.cables.length := by
  have hlisted : x.number ∈ b.cables.map (·.number) := List.mem_map_of_mem hx
  rw [h.numbers] at hlisted
  exact List.mem_range.mp hlisted

/-- A link has its number alone, and is found again by it. -/
theorem Wired.eq_of_number (h : b.Wired) (hx : x ∈ b.cables) (hy : y ∈ b.cables)
    (hsame : x.number = y.number) : x = y :=
  List.inj_on_of_nodup_map h.nodup hx hy hsame

/-- One link is in use: two that have the number of the slot are the same. -/
theorem Wired.eq_of_slot (h : b.Wired) (hx : x ∈ b.cables) (hy : y ∈ b.cables) (hslot : b.inSlot x)
    (hslot' : b.inSlot y) : x = y := by
  simp only [inSlot, decide_eq_true_eq] at hslot hslot'
  exact h.eq_of_number hx hy (Option.some.inj (hslot.symm.trans hslot'))

/-- Of links that have to be in use there is at most one.  It bounds the links
that are alive, and those that are read. -/
theorem Wired.length_filter_le (h : b.Wired) {P : Cable → Bool}
    (hslot : ∀ x ∈ b.cables, P x → b.inSlot x) : (b.cables.filter P).length ≤ 1 := by
  have hnodup : (b.cables.filter P).Nodup := (h.nodup.of_map _).filter _
  have hsame : ∀ x ∈ b.cables.filter P, ∀ y ∈ b.cables.filter P, y = x := by
    intro x hx y hy
    obtain ⟨hx, hPx⟩ := List.mem_filter.mp hx
    obtain ⟨hy, hPy⟩ := List.mem_filter.mp hy
    exact h.eq_of_slot hy hx (hslot y hy hPy) (hslot x hx hPx)
  generalize b.cables.filter P = xs at hnodup hsame
  cases xs with
  | nil => exact Nat.zero_le 1
  | cons x rest =>
      rw [List.eq_replicate_of_mem (hsame x List.mem_cons_self)] at hnodup ⊢
      rw [List.length_replicate]
      exact List.nodup_replicate.mp hnodup

/-- The link in use is that of the client; the ledger and the channel do not
drift apart. -/
theorem Wired.slotted (h : b.Wired) (hx : x ∈ b.cables) (hslot : b.inSlot x) :
    b.cables.find? b.inSlot = some x ∧ b.client.channel.link? = some x.toLink := by
  obtain ⟨y, hfound⟩ := Option.isSome_iff_exists.mp (List.find?_isSome.mpr ⟨x, hx, hslot⟩)
  obtain rfl := h.eq_of_slot (List.mem_of_find?_eq_some hfound) hx (List.find?_some hfound) hslot
  refine ⟨hfound, ?_⟩
  rw [h.link, hfound]
  rfl

/-- The client is connected while the link in use is alive, and a dead link
does not count as a connection. -/
theorem Wired.connected (h : b.Wired) (hx : x ∈ b.cables) (hslot : b.inSlot x) :
    b.client.channel.isConnected = x.alive := by
  rw [Channel.isConnected, Channel.current?, (h.slotted hx hslot).2]
  cases hl : x.alive <;> simp [Option.filter, hl]

/-- Those who wait in the client are those who wait on the link in use. -/
theorem Wired.awaited (h : b.Wired) (hx : x ∈ b.cables) (hslot : b.inSlot x) :
    b.client.awaited = x.pending := by
  rw [ClientRun.awaited, (h.slotted hx hslot).2]
  rfl

/-- The client reads from the link in use what comes in on its connection. -/
theorem Wired.reads (h : b.Wired) (hx : x ∈ b.cables) (hslot : b.inSlot x) (c : ConnectionId) :
    b.client.channel.reads c = x.reads c := by
  rw [Channel.reads, Channel.current?, (h.slotted hx hslot).2, Cable.reads, (h.sound x hx).reading]
  cases hl : x.alive <;> simp [Option.filter, hl]

/-- Nobody reads from any other link than the one in use. -/
theorem Wired.inSlot_of_reads (h : b.Wired) (hx : x ∈ b.cables) {c : ConnectionId}
    (hreads : x.reads c) : b.inSlot x := by
  have hreading : x.reading := by
    have hboth : x.reading ∧ x.connection = c := by simpa [Cable.reads] using hreads
    exact hboth.1
  exact h.kept x hx ((h.sound x hx).reading ▸ hreading)

/-- No other link may be alive: before a new one takes its place, a link has
come to its end. -/
theorem Wired.dead_of_slot (h : b.Wired) (hx : x ∈ b.cables) (hother : ¬ b.inSlot x) :
    x.alive = false := by
  by_contra halive
  exact hother (h.kept x hx (by simpa using halive))

/-- Whoever waits on a link waits on that of the client.  A request on a
replaced link would wait for ever; there is none. -/
theorem Wired.awaited_of_pending (h : b.Wired) (hx : x ∈ b.cables) {e : UInt32 × Owner}
    (hwaits : e ∈ x.pending) : b.inSlot x ∧ e ∈ b.client.awaited := by
  have halive : x.alive := by
    by_contra hdead
    rw [(h.sound x hx).dead (by simpa using hdead)] at hwaits
    cases hwaits
  have hslot := h.kept x hx halive
  exact ⟨hslot, (h.awaited hx hslot).symm ▸ hwaits⟩

/-- Whoever waits on the link of the client holds the link in use. -/
theorem Wired.holds_of_awaited (h : b.Wired) {e : UInt32 × Owner} (hwaits : e ∈ b.client.awaited) :
    ∃ x ∈ b.cables, b.inSlot x ∧ e ∈ x.pending ∧ e.2 ∈ x.users := by
  cases hfound : b.cables.find? b.inSlot with
  | none =>
      rw [ClientRun.awaited, h.link, hfound] at hwaits
      cases hwaits
  | some x =>
      have hx := List.mem_of_find?_eq_some hfound
      have hslot := List.find?_some hfound
      rw [h.awaited hx hslot] at hwaits
      exact ⟨x, hx, hslot, hwaits, (h.sound x hx).users e hwaits⟩

/-! ## What becomes of the links -/

/-- What lets a link come to its end: its stream ends, or an owner
disconnects. -/
def Ends (b : Cabling) (s : Occasion) : Ending → Prop
  | .lapsed => ∃ c, s = .incident (.ended c)
  | .closed => ∃ o, s = .incident (.proceed o) ∧ b.client.activity? o = some .disconnecting

/-- What becomes of the links by what happens.  One that is not alive stays as
it is, and is held by no other calls; one that is stays alive, or it comes to
its end and whoever waits does not any more. -/
structure Rewires (b : Cabling) (s : Occasion) (g : Cable → Cable) : Prop where
  number : ∀ x, (g x).number = x.number
  /-- The links there were are changed in place, and new ones come after
  them. -/
  cables : ∃ new, (b.happen s).cables = b.cables.map g ++ new
  /-- Nothing becomes of a link that is not alive, except that calls may let
  go of it. -/
  dead : ∀ x ∈ b.cables, x.alive = false →
    (g x).toLink = x.toLink ∧ (g x).ending? = x.ending? ∧ (g x).users ⊆ x.users
  /-- The links that are alive stay so, or what happens is the end of a link:
  then they have all ended in the same way, nobody waits any more, and every
  open call has been told that its request is lost. -/
  fate : (∀ x ∈ b.cables, x.alive → (g x).alive) ∨
    ((∃ e, b.Ends s e ∧ ∀ x ∈ b.cables, x.alive → (g x).ending? = some e) ∧
      (∀ o, (b.happen s).client.waits o = []) ∧
      ∀ p ∈ b.calls, (b.station p.owner).Severed ((b.happen s).station p.owner))

/-- After something has happened, the links are wired as they should be, and
each has become of what it was before. -/
def Holds (b : Cabling) (s : Occasion) : Prop := (b.happen s).Wired ∧ ∃ g, b.Rewires s g

/-- Whoever listens has the newest notices also after further ones: to drop
the oldest and then to add is to add and then to drop the oldest. -/
theorem unread_notify {ns : List (Nat × Notice)} {e : Engine} {old : List Notice}
    (hbefore : ∀ w, e.watcher? = some w → w.unread = Engine.newest Channel.mailbox old) :
    ∀ w, (ns.foldl (fun e n => e.notify Channel.mailbox n.2) e).watcher? = some w →
      w.unread = Engine.newest Channel.mailbox (old ++ ns.map (·.2)) := by
  induction ns generalizing e old with
  | nil =>
      rw [List.map_nil, List.append_nil]
      exact hbefore
  | cons n ns ih =>
      intro w hwatching
      have hone : ∀ w, (e.notify Channel.mailbox n.2).watcher? = some w →
          w.unread = Engine.newest Channel.mailbox (old ++ [n.2]) := by
        intro w hwatching
        obtain ⟨w₀, hwatched, rfl⟩ := Option.map_eq_some_iff.mp hwatching
        rw [hbefore w₀ hwatched, Engine.newest_append]
      rw [ih hone w hwatching, List.append_assoc]
      rfl

/-- The engine after an incident has got its notices, and nothing else has
become of it. -/
def Told (b : Cabling) (i : Incident) : Prop := (b.happen (.incident i)).client.engine =
  (b.news i).foldl (fun e n => e.notify Channel.mailbox n.2) b.client.engine

variable {g : Cable → Cable}

/-- Something becomes of links that were opened before, and others are opened.
This is the general form; the lemmas after it are for incidents that do
less. -/
theorem Wired.renew (h : b.Wired) {new : List Cable} (hcables : b.rewired i = b.cables.map g ++ new)
    (hlink : (b.happen (.incident i)).client.channel.link? =
      ((b.rewired i).find? (b.happen (.incident i)).inSlot).map Cable.toLink)
    (hkept : ∀ x ∈ b.rewired i, x.alive → (b.happen (.incident i)).inSlot x)
    (hnumber : ∀ x, (g x).number = x.number)
    (hnext : new.map (·.number) = (List.range new.length).map (b.cables.length + ·))
    (hsound : ∀ x ∈ b.cables, (g x).Sound) (hbegun : ∀ x ∈ new, x.Sound ∧ x.ending? = none)
    (htold : ∀ x ∈ b.cables, (b.notices ++ b.news i).count (x.number, .inactive) =
      if (g x).ending? = some .lapsed then 1 else 0)
    (hknown : ∀ n ∈ b.news i, n.1 < b.cables.length) (hengine : b.Told i) :
    (b.happen (.incident i)).Wired where
  standing := stands_happen h.standing i
  link := hlink
  kept := hkept
  sound := by
    rw [show (b.happen (.incident i)).cables = _ from hcables]
    intro y hy
    rcases List.mem_append.mp hy with hy | hy
    · obtain ⟨x, hx, rfl⟩ := List.mem_map.mp hy
      exact hsound x hx
    · exact (hbegun y hy).1
  numbers := by
    have hsame : (b.cables.map g).map (·.number) = b.cables.map (·.number) := by
      rw [List.map_map]
      exact List.map_congr_left fun x _ => hnumber x
    rw [show (b.happen (.incident i)).cables = _ from hcables, List.map_append, hsame, h.numbers,
      hnext,
      List.length_append, List.length_map, List.range_add]
  told := by
    rw [show (b.happen (.incident i)).cables = _ from hcables]
    intro y hy
    rcases List.mem_append.mp hy with hy | hy
    · obtain ⟨x, hx, rfl⟩ := List.mem_map.mp hy
      rw [hnumber]
      exact htold x hx
    · have hlate : b.cables.length ≤ y.number := by
        have hlisted : y.number ∈ new.map (·.number) := List.mem_map_of_mem hy
        rw [hnext] at hlisted
        obtain ⟨n, -, hsame⟩ := List.mem_map.mp hlisted
        omega
      rw [(hbegun y hy).2, if_neg nofun, List.count_eq_zero]
      intro hheard
      have hearly := (List.mem_append.mp hheard).elim (h.known _) (hknown _)
      exact absurd hlate (Nat.not_le.mpr hearly)
  known := by
    rw [show (b.happen (.incident i)).cables = _ from hcables, List.length_append, List.length_map]
    intro n hn
    exact Nat.lt_add_right _ ((List.mem_append.mp hn).elim (h.known n) (hknown n))
  since := by
    have hlonger : b.notices.length ≤ (b.notices ++ b.news i).length := by simp
    exact Nat.le_trans h.since hlonger
  mailbox := by
    intro w hwatching
    rw [hengine] at hwatching
    have hunread := unread_notify h.mailbox w hwatching
    rw [← List.map_append, ← List.drop_append_of_le_length h.since] at hunread
    exact hunread

/-- Something becomes of links that were opened before, and the one in use
stays in use. -/
theorem Wired.rewire (h : b.Wired) (f : Link → Link) (hcables : b.rewired i = b.cables.map g)
    (hslot : b.slotAfter i = b.slot?)
    (hlink : (b.happen (.incident i)).client.channel.link? = b.client.channel.link?.map f)
    (hnumber : ∀ x, (g x).number = x.number)
    (hslotted : ∀ x ∈ b.cables, b.inSlot x → (g x).toLink = f x.toLink)
    (hdead : ∀ x ∈ b.cables, x.alive = false → (g x).toLink = x.toLink)
    (hsound : ∀ x ∈ b.cables, (g x).Sound)
    (htold : ∀ x ∈ b.cables, (b.notices ++ b.news i).count (x.number, .inactive) =
      if (g x).ending? = some .lapsed then 1 else 0)
    (hknown : ∀ n ∈ b.news i, n.1 < b.cables.length) (hengine : b.Told i) :
    (b.happen (.incident i)).Wired := by
  have hsame : ∀ x, (b.happen (.incident i)).inSlot (g x) = b.inSlot x := by
    intro x
    rw [inSlot, inSlot, hnumber, ← hslot]
    rfl
  refine h.renew (hcables.trans (List.append_nil _).symm) ?_ ?_ hnumber rfl hsound nofun
    htold hknown
    hengine
  · have hfound : (b.rewired i).find? (b.happen (.incident i)).inSlot =
        (b.cables.find? b.inSlot).map g := by
      rw [hcables, List.find?_map]
      congr 2
      exact funext hsame
    rw [hfound, hlink, h.link]
    cases hx : b.cables.find? b.inSlot with
    | none => rfl
    | some x =>
        have hmade := hslotted x (List.mem_of_find?_eq_some hx) (List.find?_some hx)
        exact congrArg some hmade.symm
  · intro y hy halive
    obtain ⟨x, hx, rfl⟩ := List.mem_map.mp (hcables ▸ hy)
    rw [hsame]
    refine h.kept x hx ?_
    by_contra hended
    have hended : x.alive = false := by simpa using hended
    rw [hdead x hx hended, hended] at halive
    cases halive

/-- Something becomes of some links, and none comes to its end.  It is enough
to see that the link in use changes as the client's link does. -/
theorem Wired.lasts (h : b.Wired) {P : Cable → Bool} {g : Cable → Cable} (f : Link → Link)
    (hcables : b.rewired i = b.change P g) (hslot : b.slotAfter i = b.slot?)
    (hlink : (b.happen (.incident i)).client.channel.link? = b.client.channel.link?.map f)
    (hsame : ∀ x, (g x).number = x.number ∧ (g x).alive = x.alive ∧ (g x).ending? = x.ending?)
    (hslotted : ∀ x ∈ b.cables, b.inSlot x →
      if P x then (g x).toLink = f x.toLink else x.toLink = f x.toLink)
    (hdead : ∀ x ∈ b.cables, P x → x.alive = false →
      (g x).toLink = x.toLink ∧ (g x).users ⊆ x.users)
    (hsound : ∀ x ∈ b.cables, P x → (g x).Sound)
    (hknown : ∀ n ∈ b.news i, n.1 < b.cables.length ∧ n.2 ≠ .inactive) (hengine : b.Told i) :
    b.Holds (.incident i) := by
  have hsame' : ∀ x : Cable, (x.turn P g).alive = x.alive ∧ (x.turn P g).ending? = x.ending? := by
    intro x
    by_cases hP : P x
    · rw [Cable.turn_of hP]
      exact (hsame x).2
    · rw [Cable.turn_of_not hP]
      exact ⟨rfl, rfl⟩
  have hdead' : ∀ x ∈ b.cables, x.alive = false →
      (x.turn P g).toLink = x.toLink ∧ (x.turn P g).users ⊆ x.users := by
    intro x hx hended
    by_cases hP : P x
    · rw [Cable.turn_of hP]
      exact hdead x hx hP hended
    · rw [Cable.turn_of_not hP]
      exact ⟨rfl, fun _ => id⟩
  have hnumber := Cable.number_turn (P := P) fun x => (hsame x).1
  have hturned : b.rewired i = b.cables.map (Cable.turn P g) := hcables
  refine ⟨h.rewire f hturned hslot hlink hnumber ?_
    (fun x hx hended => (hdead' x hx hended).1) ?_ ?_
    (fun n hn => (hknown n hn).1) hengine, _, hnumber, ⟨[], hturned.trans (List.append_nil _).symm⟩,
    fun x hx hended => ⟨(hdead' x hx hended).1, (hsame' x).2, (hdead' x hx hended).2⟩,
    .inl fun x _ halive => (hsame' x).1.trans halive⟩
  · intro x hx hhere
    have hmade := hslotted x hx hhere
    by_cases hP : P x
    · rw [Cable.turn_of hP]
      rwa [if_pos hP] at hmade
    · rw [Cable.turn_of_not hP]
      rwa [if_neg hP] at hmade
  · intro x hx
    by_cases hP : P x
    · rw [Cable.turn_of hP]
      exact hsound x hx hP
    · rw [Cable.turn_of_not hP]
      exact h.sound x hx
  · intro x hx
    have hnone : (b.news i).count (x.number, .inactive) = 0 :=
      List.count_eq_zero.mpr fun htold => (hknown _ htold).2 rfl
    rw [List.count_append, hnone, Nat.add_zero, h.told x hx, (hsame' x).2]

/-- Nothing becomes of the links, and nothing is told. -/
theorem Wired.still (h : b.Wired) (hcables : b.rewired i = b.cables)
    (hslot : b.slotAfter i = b.slot?)
    (hsilent : b.news i = [])
    (hlink : (b.happen (.incident i)).client.channel.link? = b.client.channel.link?)
    (hengine : (b.happen (.incident i)).client.engine = b.client.engine) :
    b.Holds (.incident i) := by
  refine h.lasts (P := fun _ => false) (g := id) (f := id) ?_ hslot ?_
    (fun _ => ⟨rfl, rfl, rfl⟩) (fun _ _ _ => rfl) (fun _ _ _ _ => ⟨rfl, fun _ => id⟩)
    (fun x hx _ => h.sound x hx) ?_ ?_
  · simp [hcables, change]
  · rw [hlink, Option.map_id_fun]
    rfl
  · simp [hsilent]
  · rw [Told, hsilent]
    exact hengine

/-- Nobody waits under a handle any more on some links, which may be the one
in use. -/
theorem Wired.forget (h : b.Wired) {P : Cable → Bool} {Q : Prop} [Decidable Q] (handle : UInt32)
    (hcables : b.rewired i = b.change P (·.remove handle)) (hslot : b.slotAfter i = b.slot?)
    (hlink : (b.happen (.incident i)).client.channel.link? =
      if Q then b.client.channel.link?.map (·.remove handle) else b.client.channel.link?)
    (hslotted : ∀ x ∈ b.cables, b.inSlot x → (P x ↔ Q))
    (hknown : ∀ n ∈ b.news i, n.1 < b.cables.length ∧ n.2 ≠ .inactive) (hengine : b.Told i) :
    b.Holds (.incident i) := by
  refine h.lasts (if Q then (·.remove handle) else id) hcables hslot ?_
    (fun _ => ⟨rfl, rfl, rfl⟩) (fun x hx hhere => ?_)
    (fun x hx _ hended => ⟨(h.sound x hx).remove_dead hended, fun _ => id⟩)
    (fun x hx _ => (h.sound x hx).remove handle) hknown hengine
  · rw [hlink]
    split
    · rfl
    · rw [Option.map_id_fun]
      rfl
  · by_cases hQ : Q
    · rw [if_pos ((hslotted x hx hhere).mpr hQ), if_pos hQ]
      rfl
    · rw [if_neg fun hP => hQ ((hslotted x hx hhere).mp hP), if_neg hQ]
      rfl

end Cabling

end OpcSession.Simulation
