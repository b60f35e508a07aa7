import Mathlib.Data.List.Nodup
import OpcSession.Proofs.Client.Bystanders
import OpcSession.Proofs.Client.Incidents

/-!
# What becomes of each owner, whatever handles others have

A handle may be given out again while a request with it is still waited for.  Then its next owner
takes the place of the last one, whose request is lost.  What is so of each owner for all that is
said of its *station*: its open call, what it does, what has come of it, and the handles under
which it waits.  What one owner does leaves the stations of the others as they are, and when the
link is lost whoever waits on it does not any more.

* `Station`, `Station.Stands` — what there is to see of an owner, and how it stands;
* `Station.Severed`, `Traffic.Standing.abandon` — what becomes of it when requests are lost;
* `ClientRun.displace`, `Traffic.Standing.displace` — a handle that is given out anew;
* `Traffic.Standing.proceed` — an owner goes on as far as it can.
-/

namespace OpcSession.Simulation

open Session Client

namespace ClientRun

/-! ## Handles -/

/-- The handles under which an owner waits on the link.  There is at most one
while handles are waited for by one owner each. -/
def waits (r : ClientRun) (o : Owner) : List UInt32 := (r.awaited.filter (·.2 = o)).map (·.1)

/-- Whoever else waits under a handle does not wait any more: its request is
lost, and it is told so as it would be at the end of the link. -/
def displace (r : ClientRun) (handle : UInt32) (o : Owner) : ClientRun :=
  if r.channel.awaits handle o then r
  else ({ r with channel := r.channel.withdraw handle } : ClientRun).abandon
    (r.channel.pending.filter (·.1 = handle))

variable {r r' : ClientRun} {o o' : Owner} {handle : UInt32}

/-- To be among the handles of an owner is to be waited for by it. -/
theorem mem_waits : handle ∈ r.waits o ↔ (handle, o) ∈ r.awaited := by
  simp [waits]

theorem waits_of_link (h : r'.channel.link? = r.channel.link?) : r'.waits o = r.waits o := by
  rw [waits, awaited_of_link h, ← waits]

/-- Without a handle, those are left who wait under another. -/
theorem awaited_withdraw : ({ r with channel := r.channel.withdraw handle } : ClientRun).awaited =
    r.awaited.filter (·.1 ≠ handle) := by
  simp only [awaited, Channel.withdraw]
  cases r.channel.link? <;> rfl

/-- Without a handle, an owner still waits under all its others. -/
theorem waits_withdraw : ({ r with channel := r.channel.withdraw handle } : ClientRun).waits o =
    (r.waits o).filter (· ≠ handle) := by
  rw [waits, waits, awaited_withdraw, List.filter_filter, List.filter_map, List.filter_filter]
  congr 2
  funext x
  exact Bool.and_comm _ _

/-- Where each handle is waited for by one owner only, another one does not
wait the less when it is withdrawn. -/
theorem waits_withdraw_other (hdistinct : (r.awaited.map (·.1)).Nodup)
    (hwaits : (handle, o) ∈ r.awaited) (hother : o' ≠ o) :
    ({ r with channel := r.channel.withdraw handle } : ClientRun).waits o' = r.waits o' := by
  rw [waits_withdraw]
  refine List.filter_eq_self.mpr fun handle' hwaits' => ?_
  have hsame : handle' ≠ handle := by
    rintro rfl
    have hone := List.inj_on_of_nodup_map hdistinct (mem_waits.mp hwaits') hwaits rfl
    exact hother (congrArg Prod.snd hone)
  simpa using hsame

/-- What comes of what an owner does comes of it first, if nothing has come of
it before. -/
theorem outcome?_conclude_first (hnothing : r.outcome? o = none) (x : Outcome) (o' : Owner) :
    (r.conclude o x).outcome? o' = if o' = o then some x else r.outcome? o' := by
  rw [outcome?_conclude]
  by_cases hsame : o' = o
  · rw [hsame, hnothing, if_pos rfl]
    rfl
  · rw [if_neg hsame, if_neg hsame, Option.or_none]

/-! ## Requests that are lost -/

/-- Who is not among those whose requests are lost, or waits for no response,
is spared. -/
theorem abandon_spared {pending : List (UInt32 × Owner)}
    (hspared : (∀ handle, (handle, o) ∉ pending) ∨ ∀ a ∈ r.activity? o, ¬ a.isExchange) :
    (r.abandon pending).activity? o = r.activity? o ∧
      (r.abandon pending).outcome? o = r.outcome? o := by
  induction pending generalizing r with
  | nil => exact ⟨rfl, rfl⟩
  | cons p rest ih =>
      obtain ⟨handle, o'⟩ := p
      have hrest_spared : ∀ r₁ : ClientRun, r₁.activity? o = r.activity? o →
          (∀ handle, (handle, o) ∉ rest) ∨ ∀ a ∈ r₁.activity? o, ¬ a.isExchange := by
        intro r₁ hsame
        rw [hsame]
        exact hspared.imp_left fun habsent handle hwaits =>
          habsent handle (List.mem_cons_of_mem _ hwaits)
      simp only [abandon, List.foldl_cons]
      split
      · rename_i _ service _ hexchanging
        have hother : o ≠ o' := by
          rintro rfl
          rcases hspared with habsent | hidle
          · exact habsent handle List.mem_cons_self
          · exact hidle _ hexchanging rfl
        obtain ⟨hactivity, houtcome⟩ := ih (hrest_spared
          ((r.conclude o' (.failed (Channel.abandoned service))).wake (taskOf o'))
          (by rw [activity?_wake, activity?_conclude, if_neg hother]))
        rw [activity?_wake, activity?_conclude, if_neg hother] at hactivity
        rw [outcome?_wake, outcome?_conclude, if_neg hother, Option.or_none] at houtcome
        exact ⟨hactivity, houtcome⟩
      · exact ih (hrest_spared r rfl)

/-- Who waits for a response and is among those whose requests are lost has
failed. -/
theorem abandon_failed {pending : List (UInt32 × Owner)} {a : Activity}
    (hwaits : (handle, o) ∈ pending) (hexchanging : r.activity? o = some a)
    (hexchange : a.isExchange) :
    (r.abandon pending).activity? o = none ∧ ∃ service, (r.abandon pending).outcome? o =
      (r.outcome? o).or (some (.failed (Channel.abandoned service))) := by
  rcases r.abandon_cases o pending with ⟨-, -, hothers⟩ | ⟨service, -, hidle, hfailed⟩
  · exact absurd hexchange (hothers handle hwaits a hexchanging)
  · exact ⟨hidle, service, hfailed⟩

end ClientRun

/-! ## Stations -/

/-- What there is to see of an owner: its open calls, what it does, what has
come of it, and the handles under which it waits. -/
structure Station where
  /-- Its open calls: none or one, where it stands. -/
  calls : List OpenCall
  /-- What it does on the channel. -/
  activity? : Option Activity
  /-- What has come of its call and was not taken yet. -/
  outcome? : Option Outcome
  /-- The handles under which it waits on the link. -/
  waits : List UInt32

/-- How an owner stands.  It has no open call, and exchanges no request; or it
has one, and waits for the response with its handle; or its request was lost
while it was on its way; or something has come of it. -/
inductive Station.Stands : Station → Prop
  /-- It has no open call.  It may connect or disconnect meanwhile, since that
  is no exchange. -/
  | free {a? : Option Activity} {x? : Option Outcome} (hother : ∀ a ∈ a?, ¬ a.isExchange) :
      Stands ⟨[], a?, x?, []⟩
  /-- It waits for the response to its open call, and for that alone. -/
  | waits {p : OpenCall} {a? : Option Activity} (hdoes : p.Does a?) :
      Stands ⟨[p], a?, none, [p.handle]⟩
  /-- Its request was lost before the frame was handed over; it hears of that
  when it goes on. -/
  | lost {p : OpenCall} (hsending : p.handed = false) : Stands ⟨[p], none, none, []⟩
  /-- Something has come of its call, and it has yet to take it. -/
  | done {p : OpenCall} {x : Outcome} : Stands ⟨[p], none, some x, []⟩

/-- An owner whose request is on its way does nothing else: it waits, or does
not any more, because the request was lost or a response has come already. -/
theorem Station.Stands.unhanded {s : Station} (h : s.Stands) {p : OpenCall} (hcalls : s.calls = [p])
    (hunhanded : p.handed = false) :
    s = ⟨[p], none, none, [p.handle]⟩ ∨ ∃ x?, s = ⟨[p], none, x?, []⟩ := by
  cases h with
  | free => cases hcalls
  | waits hdoes =>
      cases hcalls
      rcases hdoes with ⟨-, rfl⟩ | ⟨hhanded, -⟩
      · exact .inl rfl
      · rw [hunhanded] at hhanded
        cases hhanded
  | lost | done =>
      cases hcalls
      exact .inr ⟨_, rfl⟩

/-- Whoever has no open call waits for nothing, so nothing that comes in can
be for it. -/
theorem Station.Stands.alone {s : Station} (h : s.Stands) (hfree : s.calls = []) :
    s.waits = [] := by
  cases h with
  | free => rfl
  | waits | lost | done => cases hfree

/-- What becomes of an owner when requests are lost: nothing, if its own is
not; it does not wait any more, if its request is still on its way; and else
its request has failed. -/
inductive Station.Severed : Station → Station → Prop
  /-- It was not among those that waited, and stays as it is. -/
  | spared {s : Station} : Severed s s
  /-- Its frame was still on its way: it waits no longer, and nothing has come
  of the call yet. -/
  | sending {p : OpenCall} (hunhanded : p.handed = false) :
      Severed ⟨[p], none, none, [p.handle]⟩ ⟨[p], none, none, []⟩
  /-- It waited for the response, and has failed now. -/
  | waiting {p : OpenCall} {a : Activity} (hhanded : p.handed) (text : String) :
      Severed ⟨[p], some a, none, [p.handle]⟩ ⟨[p], none, some (.failed (.transport text)), []⟩

/-- Whoever loses its request stands as one that has lost it, or has
failed. -/
theorem Station.Severed.stands {s s' : Station} (h : Severed s s') (hstands : s.Stands) :
    s'.Stands := by
  cases h with
  | spared => exact hstands
  | sending hunhanded => exact .lost hunhanded
  | waiting => exact .done

/-- A call stays open when its request is lost, until its owner returns. -/
theorem Station.Severed.calls {s s' : Station} (h : Severed s s') : s'.calls = s.calls := by
  cases h <;> rfl

theorem Station.Severed.waits {s s' : Station} (h : Severed s s') (halone : s.waits = []) :
    s'.waits = [] := by
  cases h with
  | spared => exact halone
  | sending | waiting => rfl

/-- The request of a call is lost: the call fails as soon as the request is
not on its way any more. -/
inductive Station.Lost (p : OpenCall) : Station → Prop
  /-- The frame is still on its way, and nobody will wait for an answer. -/
  | sending (hunhanded : p.handed = false) : Lost p ⟨[p], none, none, []⟩
  /-- The frame was handed over, or refused, and the call has failed with the
  loss. -/
  | failed (text : String) :
      Lost p ⟨[{ p with handed := true }], none, some (.failed (.transport text)), []⟩

/-- **A call of which nothing has come is lost** when it does not wait any
more. -/
theorem Station.Severed.lost {s s' : Station} (h : Severed s s') (hstands : s.Stands)
    {p : OpenCall} (hcalls : s.calls = [p]) (hnothing : s.outcome? = none)
    (halone : s'.waits = []) :
    s'.Lost p := by
  cases h with
  | spared =>
      cases hstands with
      | free => cases hcalls
      | waits => cases halone
      | lost hsending =>
          cases hcalls
          exact .sending hsending
      | done => cases hnothing
  | sending hunhanded =>
      cases hcalls
      exact .sending hunhanded
  | @waiting q a hhanded text =>
      cases hcalls
      have hsame : { p with handed := true } = p := by
        cases p
        simpa using hhanded.symm
      exact hsame ▸ .failed text

/-- Nothing becomes of a lost call when requests are lost: it was told once,
or will be when its frame is handed over. -/
theorem Station.Lost.severed {s s' : Station} {p : OpenCall} (h : s.Lost p)
    (hsevered : Severed s s') :
    s' = s := by
  cases h with
  | sending | failed =>
      cases hsevered
      rfl

theorem Station.Lost.waits {s : Station} {p : OpenCall} (h : s.Lost p) : s.waits = [] := by
  cases h <;> rfl

theorem Station.Lost.activity? {s : Station} {p : OpenCall} (h : s.Lost p) :
    s.activity? = none := by
  cases h <;> rfl

/-- A lost call is still open, so its owner cannot have begun another. -/
theorem Station.Lost.calls {s : Station} {p : OpenCall} (h : s.Lost p) : s.calls ≠ [] := by
  cases h <;> nofun

namespace Traffic

open ClientRun

/-- What there is to see of an owner.  Whatever leaves the four parts alone is
nothing to the owner, which is how the lemmas below leave it out. -/
def station (w : Traffic) (o : Owner) : Station where
  calls := w.calls.filter (·.owner = o)
  activity? := w.client.activity? o
  outcome? := w.client.outcome? o
  waits := w.client.waits o

/-- Every owner stands in one of the four ways, the ledger is in order,
whoever connects or disconnects has the turn, each handle is waited for by one
owner only, and nobody waits while there is no connection. -/
structure Standing (w : Traffic) : Prop where
  /-- Every owner's station is one of the four ways to stand. -/
  stands : ∀ o, (w.station o).Stands
  /-- The ledger of calls has their handles as they were given out. -/
  booked : w.Booked
  /-- Those who connect or disconnect take turns. -/
  turns : w.client.InTurn
  /-- No handle is waited for by two owners. -/
  distinct : (w.client.awaited.map (·.1)).Nodup
  alive : w.client.channel.isConnected = false → w.client.awaited = []
  /-- What is on its way has been written down as sent. -/
  sending : ∀ p ∈ w.calls, p.handed = false → p.sent?.isSome

variable {w w' : Traffic} {r' : ClientRun} {o o' : Owner} {handle : UInt32}

/-- In a client that was just made nobody has begun anything. -/
theorem standing_start (url : String) (settings : ClientSettings) (endpoint : EndpointDescription)
    (credentials : Credentials) : (start url settings endpoint credentials).Standing where
  stands := fun _ => .free nofun
  booked := booked_start url settings endpoint credentials
  turns := ⟨fun _ _ => nofun, fun _ => nofun⟩
  distinct := .nil
  alive := fun _ => rfl
  sending := by simp

/-- One owner does something, and the others stand as before.  Most of what
happens is of this kind, and then only the station of that owner has to be
looked at. -/
theorem Standing.around (h : w.Standing) (o : Owner) (hbooked : w'.Booked)
    (hothers : ∀ o', o' ≠ o → w'.station o' = w.station o') (hown : (w'.station o).Stands)
    (hturns : w'.client.InTurn) (hdistinct : (w'.client.awaited.map (·.1)).Nodup)
    (halive : w'.client.channel.isConnected = false → w'.client.awaited = [])
    (hsending : ∀ p ∈ w'.calls, p.handed = false → p.sent?.isSome) : w'.Standing where
  stands := by
    intro o'
    by_cases hsame : o' = o
    · exact hsame ▸ hown
    · exact hothers o' hsame ▸ h.stands o'
  booked := hbooked
  turns := hturns
  distinct := hdistinct
  alive := halive
  sending := hsending

/-- An owner with an open call has no other, so its call is found by its
owner. -/
theorem Standing.calls_eq (h : w.Standing) {p : OpenCall} (hp : p ∈ w.calls) :
    (w.station p.owner).calls = [p] := by
  have hmem : p ∈ (w.station p.owner).calls := List.mem_filter.mpr ⟨hp, by simp⟩
  have hstands := h.stands p.owner
  generalize w.station p.owner = s at hmem hstands
  cases hstands with
  | free => cases hmem
  | waits | lost | done => rw [List.mem_singleton.mp hmem]

/-- Whoever does something else than to exchange a request has no open call,
and waits for nothing. -/
theorem Standing.free (h : w.Standing) {a : Activity} (hdoing : w.client.activity? o = some a)
    (hother : ¬ a.isExchange) : (w.station o).calls = [] ∧ w.client.waits o = [] := by
  have hstands := h.stands o
  generalize hs : w.station o = s at hstands
  have hactivity : s.activity? = some a := hs ▸ hdoing
  have hwaits : s.waits = w.client.waits o := hs ▸ rfl
  cases hstands with
  | free => exact ⟨rfl, hwaits.symm⟩
  | waits hdoes =>
      rcases hdoes with ⟨-, hidle⟩ | ⟨-, _, _, hexchanging⟩
      · cases hidle.symm.trans hactivity
      · cases hexchanging.symm.trans hactivity
        exact absurd rfl hother
  | lost | done => cases hactivity

/-- Whoever is idle has no open call, does nothing, has nothing to take, and
waits for nothing. -/
theorem Standing.idle (h : w.Standing) (hidle : w.Idle o) :
    w.station o = ⟨[], none, none, []⟩ := by
  obtain ⟨hresting, hnothing, hnone⟩ := hidle
  have hstands := h.stands o
  have hcalls : (w.station o).calls = [] := List.filter_eq_nil_iff.mpr (by simpa using hnone)
  have hactivity : (w.station o).activity? = Option.none := hresting
  have houtcome : (w.station o).outcome? = Option.none := hnothing
  generalize w.station o = s at hstands hcalls hactivity houtcome
  cases hstands with
  | free => simp_all
  | waits | lost | done => cases hcalls

/-- Nothing that comes in can be for an owner that is idle. -/
theorem Standing.unawaited (h : w.Standing) (hidle : w.Idle o) (handle : UInt32) :
    (handle, o) ∉ w.client.awaited := by
  intro hwaits
  have hlisted := mem_waits.mpr hwaits
  rw [show w.client.waits o = [] from congrArg Station.waits (h.idle hidle)] at hlisted
  cases hlisted

/-! ## One incident -/

/-- An owner without an open call does something, and whoever waits still
does. -/
theorem Standing.tends (h : w.Standing) (hcalls : (w.station o).calls = [])
    (hwaits : w.client.waits o = []) (htends : Tends o w.client r')
    (hawaited : r'.awaited = w.client.awaited)
    (halive : r'.channel.isConnected = false → r'.awaited = []) :
    (w.beside r').Standing ∧ ∀ o', o' ≠ o → (w.beside r').station o' = w.station o' := by
  have hsame : ∀ o', r'.waits o' = w.client.waits o' := by
    intro o'
    rw [ClientRun.waits, ClientRun.waits, hawaited]
  have hothers : ∀ o', o' ≠ o → (w.beside r').station o' = w.station o' := by
    intro o' hother
    simp only [station, client_beside, (htends.others o' hother).1, (htends.others o' hother).2,
      hsame]
    rfl
  have hfree : (w.beside r').station o = ⟨[], r'.activity? o, r'.outcome? o, []⟩ := by
    rw [← hcalls, ← hwaits, ← hsame]
    rfl
  refine ⟨h.around o (h.booked.beside htends.next) hothers ?_ htends.turns ?_ halive h.sending,
    hothers⟩
  · rw [hfree]
    exact .free htends.own
  · rw [client_beside, hawaited]
    exact h.distinct

/-- What leaves the link as it is leaves nobody waiting on one that is not
alive. -/
theorem Standing.alive_of_link (h : w.Standing)
    (hlink : r'.channel.link? = w.client.channel.link?) :
    r'.channel.isConnected = false → r'.awaited = [] := by
  rw [awaited_of_link hlink, isConnected_of_line (line?_of_link hlink)]
  exact h.alive

/-- Whoever waits has an open call with the handle under which it waits, and
nothing has come of it yet. -/
theorem Standing.waiting (h : w.Standing) (hwaits : (handle, o) ∈ w.client.awaited) :
    ∃ p a?, p.handle = handle ∧ p.Does a? ∧ w.station o = ⟨[p], a?, none, [p.handle]⟩ := by
  have hmem : handle ∈ (w.station o).waits := mem_waits.mpr hwaits
  have hstands := h.stands o
  generalize w.station o = s at hmem hstands
  cases hstands with
  | waits hdoes => exact ⟨_, _, (List.mem_singleton.mp hmem).symm, hdoes, rfl⟩
  | free | lost | done => cases hmem

/-- Whoever exchanges a request waits for the response with its handle, which
is the handle of its only open call. -/
theorem Standing.exchanging (h : w.Standing) {service : String} {deadline : Duration}
    (hdoing : w.client.activity? o = some (.exchanging handle service deadline)) :
    ∃ p, p.handle = handle ∧
      w.station o = ⟨[p], some (.exchanging handle service deadline), none, [p.handle]⟩ := by
  have hactivity : (w.station o).activity? = some (.exchanging handle service deadline) := hdoing
  have hstands := h.stands o
  generalize w.station o = s at hactivity hstands
  cases hstands with
  | free hother => exact absurd rfl (hother _ hactivity)
  | waits hdoes =>
      rcases hdoes with ⟨-, hidle⟩ | ⟨-, _, _, hexchanging⟩
      · cases hidle.symm.trans hactivity
      · cases hexchanging.symm.trans hactivity
        exact ⟨_, rfl, by rw [hexchanging]⟩
  | lost | done => cases hactivity

/-- An owner that waits and is among those whose requests are lost: if it was
exchanging, it has failed; if its frame was on its way, it waits no longer. -/
theorem Standing.sever (h : w.Standing) {r : ClientRun} {pending : List (UInt32 × Owner)}
    (hactivity : r.activity? o = w.client.activity? o)
    (houtcome : r.outcome? o = w.client.outcome? o)
    (hwaits : (handle, o) ∈ w.client.awaited) (hlost : (handle, o) ∈ pending)
    (hgone : r.waits o = []) :
    (w.station o).Severed ((w.beside (r.abandon pending)).station o) := by
  obtain ⟨p, a?, -, hdoes, hown⟩ := h.waiting hwaits
  have hcalls : w.calls.filter (·.owner = o) = [p] := congrArg Station.calls hown
  have hdoing : r.activity? o = a? := hactivity.trans (congrArg Station.activity? hown)
  have hnothing : r.outcome? o = none := houtcome.trans (congrArg Station.outcome? hown)
  have hgone : (r.abandon pending).waits o = [] := by
    rw [waits_of_link (congrArg Channel.link? (channel_abandon r pending)), hgone]
  rw [hown]
  rcases hdoes with ⟨hunhanded, rfl⟩ | ⟨hhanded, service, deadline, rfl⟩
  · have hresting : ∀ a ∈ r.activity? o, ¬ a.isExchange := by simp [hdoing]
    obtain ⟨hidle, hsame⟩ := abandon_spared (.inr hresting : (∀ handle, (handle, o) ∉ pending) ∨ _)
    have hstation : (w.beside (r.abandon pending)).station o = ⟨[p], none, none, []⟩ := by
      simp only [station, client_beside, hidle.trans hdoing, hsame.trans hnothing, hgone]
      rw [← hcalls]
      rfl
    rw [hstation]
    exact .sending hunhanded
  · obtain ⟨hidle, service, hfailed⟩ := abandon_failed hlost hdoing rfl
    rw [hnothing] at hfailed
    have hstation : (w.beside (r.abandon pending)).station o =
        ⟨[p], none, some (.failed (Channel.abandoned service)), []⟩ := by
      simp only [station, client_beside, hidle, hfailed, hgone]
      rw [← hcalls]
      rfl
    rw [hstation]
    exact .waiting hhanded _

/-- An owner whose request is not among those that are lost is left alone. -/
theorem station_spared {r : ClientRun} {pending : List (UInt32 × Owner)}
    (hactivity : r.activity? o = w.client.activity? o)
    (houtcome : r.outcome? o = w.client.outcome? o)
    (hwaits : r.waits o = w.client.waits o) (hspared : ∀ handle, (handle, o) ∉ pending) :
    (w.beside (r.abandon pending)).station o = w.station o := by
  obtain ⟨hactivity', houtcome'⟩ := abandon_spared (r := r) (.inl hspared)
  have hwaits' : (r.abandon pending).waits o = r.waits o :=
    waits_of_link (congrArg Channel.link? (channel_abandon r pending))
  simp only [station, client_beside, hactivity'.trans hactivity, houtcome'.trans houtcome,
    hwaits'.trans hwaits]
  rfl

/-- **The link is lost**, and all requests on it.  Every owner is severed from
what it waited for, and all stand again. -/
theorem Standing.abandon (h : w.Standing) (channel : Channel)
    (hnext : channel.nextHandle = w.client.channel.nextHandle)
    (hturns : channel.turns = w.client.channel.turns) (hended : channel.isConnected = false)
    (hgone : ({ w.client with channel := channel } : ClientRun).awaited = []) :
    (∀ o, (w.station o).Severed ((w.beside (({ w.client with channel := channel } :
      ClientRun).abandon w.client.awaited)).station o)) ∧
    (w.beside (({ w.client with channel := channel } : ClientRun).abandon
      w.client.awaited)).Standing := by
  have hstays := h.turns.abandon channel w.client.awaited hturns fun _ => hended
  generalize hr : ({ w.client with channel := channel } : ClientRun) = r at hgone hstays
  have hnobody : ∀ o, r.waits o = [] := by
    intro o
    rw [waits, hgone]
    rfl
  have hactivity : ∀ o, r.activity? o = w.client.activity? o := fun _ => hr ▸ rfl
  have houtcome : ∀ o, r.outcome? o = w.client.outcome? o := fun _ => hr ▸ rfl
  have hsevered : ∀ o, (w.station o).Severed
      ((w.beside (r.abandon w.client.awaited)).station o) := by
    intro o
    by_cases hwaiting : ∃ handle, (handle, o) ∈ w.client.awaited
    · obtain ⟨handle, hwaits⟩ := hwaiting
      exact h.sever (hactivity o) (houtcome o) hwaits hwaits (hnobody o)
    · have hspared : ∀ handle, (handle, o) ∉ w.client.awaited := fun handle hwaits =>
        hwaiting ⟨handle, hwaits⟩
      have halone : w.client.waits o = [] :=
        List.eq_nil_iff_forall_not_mem.mpr fun handle hwaits => hspared handle (mem_waits.mp hwaits)
      rw [station_spared (hactivity o) (houtcome o) ((hnobody o).trans halone.symm) hspared]
      exact .spared
  have hawaited : (r.abandon w.client.awaited).awaited = [] := by
    rw [awaited_of_link (congrArg Channel.link? (channel_abandon _ _)), hgone]
  exact ⟨hsevered, {
    stands := fun o => (hsevered o).stands (h.stands o)
    booked := h.booked.beside (by
      rw [channel_abandon, ← hr]
      exact hnext)
    turns := hstays
    distinct := by simp [hawaited]
    alive := fun _ => hawaited
    sending := h.sending }⟩

/-- Whoever waits does so on a connection that is alive, so those who are
pending are those who wait. -/
theorem Standing.pending_eq (h : w.Standing) : w.client.channel.pending = w.client.awaited := by
  by_cases hconnected : w.client.channel.isConnected
  · obtain ⟨link, hcurrent⟩ := Option.isSome_iff_exists.mp hconnected
    rw [awaited, (Option.filter_eq_some_iff.mp hcurrent).1, Channel.pending, hcurrent]
  · have hunconnected : w.client.channel.isConnected = false := by simpa using hconnected
    rw [h.alive hunconnected]
    exact List.eq_nil_iff_forall_not_mem.mpr fun x hwaits =>
      hconnected (isConnected_of_pending hwaits)

/-- To be looked up by the channel as one who waits is to wait. -/
theorem Standing.awaits_iff (h : w.Standing) :
    w.client.channel.awaits handle o ↔ (handle, o) ∈ w.client.awaited := by
  rw [Channel.awaits, h.pending_eq, List.contains_iff_mem]

/-- **A handle is given out anew**: whoever else waits under it does not any
more. -/
theorem Standing.displace (h : w.Standing) (handle : UInt32) (o : Owner) :
    (∀ o', (w.station o').Severed ((w.beside (w.client.displace handle o)).station o')) ∧
    (w.beside (w.client.displace handle o)).station o = w.station o ∧
    (w.beside (w.client.displace handle o)).Standing ∧
    ((handle, o) ∉ w.client.awaited →
      ∀ x ∈ (w.client.displace handle o).awaited, x.1 ≠ handle) := by
  unfold ClientRun.displace
  split
  · rename_i hawaits
    exact ⟨fun _ => .spared, rfl, h, fun halone => absurd (h.awaits_iff.mp hawaits) halone⟩
  · rename_i hother
    have halone : (handle, o) ∉ w.client.awaited := fun hwaits => hother (h.awaits_iff.mpr hwaits)
    generalize hp : w.client.channel.pending.filter (·.1 = handle) = pending
    have hlost : ∀ x, x ∈ pending ↔ x ∈ w.client.awaited ∧ x.1 = handle := by
      intro x
      rw [← hp, List.mem_filter, h.pending_eq]
      simp
    generalize hr : ({ w.client with channel := w.client.channel.withdraw handle } : ClientRun) = r
    have hwaits : ∀ o', r.waits o' = (w.client.waits o').filter (· ≠ handle) := by
      intro o'
      rw [← hr]
      exact waits_withdraw
    have hactivity : ∀ o', r.activity? o' = w.client.activity? o' := fun _ => hr ▸ rfl
    have houtcome : ∀ o', r.outcome? o' = w.client.outcome? o' := fun _ => hr ▸ rfl
    have hawaited : (r.abandon pending).awaited = w.client.awaited.filter (·.1 ≠ handle) := by
      rw [awaited_of_link (congrArg Channel.link? (channel_abandon r pending)), ← hr]
      exact awaited_withdraw
    have hspared : ∀ o', (handle, o') ∉ w.client.awaited →
        (w.beside (r.abandon pending)).station o' = w.station o' := by
      intro o' habsent
      refine station_spared (hactivity o') (houtcome o') ?_ ?_
      · rw [hwaits]
        refine List.filter_eq_self.mpr fun handle' hwaits' => ?_
        have hdiffers : handle' ≠ handle := fun hsame => habsent (hsame ▸ mem_waits.mp hwaits')
        simpa using hdiffers
      · intro handle' hwaits'
        obtain ⟨hwaits', hsame⟩ := (hlost _).mp hwaits'
        exact habsent (hsame ▸ hwaits')
    have hsevered : ∀ o', (w.station o').Severed ((w.beside (r.abandon pending)).station o') := by
      intro o'
      by_cases hwaiting : (handle, o') ∈ w.client.awaited
      · obtain ⟨p, a?, rfl, -, hown⟩ := h.waiting hwaiting
        have hgone : r.waits o' = [] := by
          rw [hwaits, show w.client.waits o' = [p.handle] from congrArg Station.waits hown]
          simp
        exact h.sever (hactivity o') (houtcome o') hwaiting ((hlost _).mpr ⟨hwaiting, rfl⟩) hgone
      · rw [hspared o' hwaiting]
        exact .spared
    refine ⟨hsevered, hspared o halone, ?_, ?_⟩
    · exact {
        stands := fun o' => (hsevered o').stands (h.stands o')
        booked := h.booked.beside (by
          rw [channel_abandon, ← hr]
          rfl)
        turns := by
          rw [← hr]
          refine h.turns.abandon _ _ rfl fun hunconnected => ?_
          rw [isConnected_withdraw, hunconnected]
        distinct := by
          rw [client_beside, hawaited]
          exact h.distinct.sublist (List.filter_sublist.map _)
        alive := by
          rw [client_beside, channel_abandon, hawaited, ← hr, isConnected_withdraw]
          intro hunconnected
          rw [h.alive hunconnected]
          rfl
        sending := h.sending }
    · intro _ x hwaits'
      rw [hawaited] at hwaits'
      simpa using (List.mem_filter.mp hwaits').2

/-- A handle that nobody else waits under displaces nobody, and then the
client is the same. -/
theorem Standing.displace_alone (h : w.Standing)
    (halone : ∀ x ∈ w.client.awaited, x.1 = handle → x.2 = o) :
    w.client.displace handle o = w.client := by
  unfold ClientRun.displace
  split
  · rfl
  · rename_i hunawaited
    have hfree : ∀ x ∈ w.client.awaited, x.1 ≠ handle := by
      rintro ⟨handle', o'⟩ hwaits rfl
      obtain rfl : o' = o := halone _ hwaits rfl
      exact hunawaited (h.awaits_iff.mpr hwaits)
    have hnobody : w.client.channel.pending.filter (·.1 = handle) = [] := by
      rw [h.pending_eq]
      exact List.filter_eq_nil_iff.mpr fun x hwaits => by simpa using hfree x hwaits
    have hsame : w.client.channel.withdraw handle = w.client.channel := by
      unfold Channel.withdraw
      cases hlink : w.client.channel.link? with
      | none => rw [Option.map_none, ← hlink]
      | some l =>
          have hkept : l.pending.filter (·.1 ≠ handle) = l.pending :=
            List.filter_eq_self.mpr fun x hwaits => by
              simpa using hfree x (by rw [awaited, hlink]; exact hwaits)
          rw [Option.map_some, hkept, ← hlink]
    rw [hnobody, hsame]
    rfl

/-- **Something comes of a call that waits**, and it does not wait any
more. -/
theorem Standing.settles (h : w.Standing) {p : OpenCall} {a? : Option Activity} {x : Outcome}
    (hown : w.station o = ⟨[p], a?, none, [p.handle]⟩)
    (hnext : r'.channel.nextHandle = w.client.channel.nextHandle)
    (hturns : r'.channel.turns = w.client.channel.turns)
    (hlink : r'.channel.link? = (w.client.channel.withdraw p.handle).link?)
    (hactivity : ∀ o', r'.activity? o' = if o' = o then none else w.client.activity? o')
    (houtcome : ∀ o', r'.outcome? o' = if o' = o then some x else w.client.outcome? o') :
    (w.beside r').Standing ∧ (∀ o', o' ≠ o → (w.beside r').station o' = w.station o') ∧
      (w.beside r').station o = ⟨[p], none, some x, []⟩ := by
  have hwaiting : (p.handle, o) ∈ w.client.awaited := by
    rw [← mem_waits, show w.client.waits o = [p.handle] from congrArg Station.waits hown]
    exact List.mem_cons_self
  have hwaits : ∀ o', r'.waits o' =
      ({ w.client with channel := w.client.channel.withdraw p.handle } : ClientRun).waits o' :=
    fun _ => waits_of_link hlink
  have hawaited : r'.awaited = w.client.awaited.filter (·.1 ≠ p.handle) :=
    (awaited_of_link hlink).trans awaited_withdraw
  have hconnected : r'.channel.isConnected = w.client.channel.isConnected := by
    rw [← isConnected_withdraw w.client.channel p.handle]
    unfold Channel.isConnected Channel.current?
    rw [hlink]
  have hothers : ∀ o', o' ≠ o → (w.beside r').station o' = w.station o' := by
    intro o' hother
    simp only [station, client_beside, hactivity o', houtcome o', if_neg hother, hwaits o',
      waits_withdraw_other h.distinct hwaiting hother]
    rfl
  have hsettled : (w.beside r').station o = ⟨[p], none, some x, []⟩ := by
    have hcalls : w.calls.filter (·.owner = o) = [p] := congrArg Station.calls hown
    have halone : r'.waits o = [] := by
      rw [hwaits, waits_withdraw,
        show w.client.waits o = [p.handle] from congrArg Station.waits hown]
      simp
    simp only [station, client_beside, hactivity o, houtcome o, if_true, halone]
    rw [← hcalls]
    rfl
  refine ⟨h.around o (h.booked.beside hnext) hothers (hsettled ▸ .done) ?_ ?_ ?_
    h.sending, hothers, hsettled⟩
  · refine h.turns.keep ?_ (fun hunconnected => hconnected.trans hunconnected) ?_
    · intro o' hturn
      simpa [Channel.hasTurn, hturns] using hturn
    · intro o' a hdoing _
      rw [client_beside, hactivity] at hdoing
      split at hdoing
      · cases hdoing
      · exact hdoing
  · rw [client_beside, hawaited]
    exact h.distinct.sublist (List.filter_sublist.map _)
  · rw [client_beside, hconnected, hawaited]
    intro hunconnected
    rw [h.alive hunconnected]
    rfl

/-- A call that waits comes to its end without a response: its handle is
withdrawn, and the others stand as before. -/
theorem Standing.concludes (h : w.Standing) {p : OpenCall} {a? : Option Activity} {r : ClientRun}
    (hown : w.station o = ⟨[p], a?, none, [p.handle]⟩)
    (hchannel : r.channel = w.client.channel.withdraw p.handle)
    (hactivity : ∀ o', r.activity? o' = w.client.activity? o')
    (houtcome : ∀ o', r.outcome? o' = w.client.outcome? o') (x : Outcome) :
    (w.beside (r.conclude o x)).Standing ∧
      (∀ o', o' ≠ o → (w.beside (r.conclude o x)).station o' = w.station o') ∧
      (w.beside (r.conclude o x)).station o = ⟨[p], none, some x, []⟩ := by
  have hnothing : w.client.outcome? o = none := congrArg Station.outcome? hown
  refine h.settles hown ?_ ?_ ?_ (fun o' => ?_) (fun o' => ?_)
  · rw [channel_conclude, hchannel]
    rfl
  · rw [channel_conclude, hchannel]
    rfl
  · rw [channel_conclude, hchannel]
  · rw [activity?_conclude, hactivity]
  · rw [outcome?_conclude_first ((houtcome o).trans hnothing), houtcome]

/-- **An owner goes on as far as it can.**  If it gives up the link, the
requests on it are lost; else the others stand as before. -/
theorem Standing.proceed (h : w.Standing) (o : Owner) :
    (w.beside (w.client.proceed o)).Standing ∧ ∀ o', o' ≠ o →
      (w.station o').Severed ((w.beside (w.client.proceed o)).station o') := by
  cases hdoing : w.client.activity? o with
  | none =>
      rw [ClientRun.proceed, hdoing]
      exact ⟨h, fun _ _ => .spared⟩
  | some activity =>
      by_cases hexchange : activity.isExchange
      · cases activity with
        | exchanging handle service deadline =>
            rw [ClientRun.proceed, hdoing]
            dsimp only
            split
            · obtain ⟨p, rfl, hown⟩ := h.exchanging hdoing
              obtain ⟨hstanding, hothers, -⟩ := h.concludes (r := { w.client with
                channel := w.client.channel.withdraw p.handle }) hown rfl (fun _ => rfl)
                (fun _ => rfl) (.failed .timeout)
              exact ⟨hstanding, fun o' hother => hothers o' hother ▸ .spared⟩
            · exact ⟨h, fun _ _ => .spared⟩
        | _ => cases hexchange
      · obtain ⟨hcalls, hwaits⟩ := h.free hdoing hexchange
        cases h.turns.proceeds hdoing hexchange with
        | stays htends hlink =>
            obtain ⟨hstanding, hothers⟩ :=
              h.tends hcalls hwaits htends (awaited_of_link hlink) (h.alive_of_link hlink)
            exact ⟨hstanding, fun o' hother => hothers o' hother ▸ .spared⟩
        | opens htends hunconnected c hlink =>
            have hafter : (w.client.proceed o).awaited = [] := by simp [awaited, hlink]
            obtain ⟨hstanding, hothers⟩ :=
              h.tends hcalls hwaits htends (hafter.trans (h.alive hunconnected).symm)
                fun _ => hafter
            exact ⟨hstanding, fun o' hother => hothers o' hother ▸ .spared⟩
        | severs hdisconnecting hturn htends hlink =>
            obtain ⟨hsevered, hlost⟩ :=
              h.abandon { w.client.channel with link? := none } rfl rfl rfl rfl
            have hafter : (w.client.proceed o).awaited = [] := by simp [awaited, hlink]
            obtain ⟨hstanding, hothers⟩ := hlost.tends ((hsevered o).calls.trans hcalls)
              ((hsevered o).waits hwaits) htends (hafter.trans (hlost.alive (by simp; rfl)).symm)
              fun _ => hafter
            exact ⟨hstanding, fun o' hother => hothers o' hother ▸ hsevered o'⟩

end Traffic

end OpcSession.Simulation
