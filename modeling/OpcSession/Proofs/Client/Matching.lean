import OpcSession.Proofs.Client.Traffic

/-!
# Each call waits for its own response

A call that is open waits for the response with its handle on its connection,
and none such was heard since it was posted; or something has come of it, which
is the first such response or a mishap; or its request was lost with the
connection while it was still on its way.  Whoever waits is an open call.

* `OpenCall.Stands`, `Traffic.Matched` — how open calls stand;
* `Traffic.Matched.around` — what others do leaves the calls as they stand;
* `Traffic.Matched.conclude`, `Traffic.Matched.abandon` — how something comes of a
  call, and of all calls at once.
-/

namespace OpcSession.Simulation

open Session Client

namespace ClientRun

variable (r : ClientRun) (o o' : Owner)

/-! ## What an owner does and has done -/

@[simp] theorem activity?_wake (t : Task) : (r.wake t).activity? o = r.activity? o :=
  activity?_of_affairs (affairs_wake r t) o

@[simp] theorem activity?_passTurn : r.passTurn.activity? o = r.activity? o :=
  activity?_of_affairs (affairs_passTurn r) o

@[simp] theorem activity?_notify (n : Notice) : (r.notify n).activity? o = r.activity? o :=
  activity?_of_affairs (affairs_notify r n) o

@[simp] theorem activity?_observe (x : Observation) : (r.observe x).activity? o = r.activity? o :=
  rfl

@[simp] theorem outcome?_wake (t : Task) : (r.wake t).outcome? o = r.outcome? o :=
  outcome?_of_affairs (affairs_wake r t) o

@[simp] theorem outcome?_passTurn : r.passTurn.outcome? o = r.outcome? o :=
  outcome?_of_affairs (affairs_passTurn r) o

@[simp] theorem outcome?_notify (n : Notice) : (r.notify n).outcome? o = r.outcome? o :=
  outcome?_of_affairs (affairs_notify r n) o

@[simp] theorem outcome?_observe (x : Observation) : (r.observe x).outcome? o = r.outcome? o :=
  rfl

@[simp] theorem outcome?_setActivity (a : Activity) :
    (r.setActivity o a).outcome? o' = r.outcome? o' := rfl

@[simp] theorem channel_observe (x : Observation) : (r.observe x).channel = r.channel := rfl

@[simp] theorem channel_setActivity (a : Activity) : (r.setActivity o a).channel = r.channel := rfl

@[simp] theorem channel_conclude (outcome : Outcome) :
    (r.conclude o outcome).channel = r.channel := rfl

@[simp] theorem channel_passTurn : r.passTurn.channel = r.channel.passTurn := by
  unfold passTurn
  dsimp only
  split
  · exact channel_wake _ _
  · rfl

@[simp] theorem channel_abandon (pending : List (UInt32 × Owner)) :
    (r.abandon pending).channel = r.channel := by
  apply foldl_eq_of_step ClientRun.channel
  intro r p
  dsimp only
  split
  · rw [channel_wake, channel_conclude]
  · rfl

/-- The first of the requests that are lost fails, if its owner waits for a
response. -/
theorem abandon_cons (handle : UInt32) (rest : List (UInt32 × Owner)) :
    ∃ r₁ : ClientRun, r.abandon ((handle, o) :: rest) = r₁.abandon rest ∧
      ((r₁ = r ∧ ∀ a ∈ r.activity? o, ¬ a.isExchange) ∨
        ∃ service, r.activity? o ≠ none ∧
          r₁ = (r.conclude o (.failed (Channel.abandoned service))).wake (taskOf o)) := by
  simp only [abandon, List.foldl_cons]
  split
  · rename_i hexchanging
    exact ⟨_, rfl, .inr ⟨_, by simp [hexchanging], rfl⟩⟩
  · rename_i hother
    refine ⟨r, rfl, .inl ⟨rfl, fun a hdoing hexchanges => ?_⟩⟩
    cases a with
    | exchanging handle service deadline => exact hother _ _ _ hdoing
    | _ => cases hexchanges

/-- **Of requests that are lost**, those that are waited for fail; nothing
else comes of anything. -/
theorem abandon_cases (pending : List (UInt32 × Owner)) :
    ((r.abandon pending).activity? o = r.activity? o ∧
        (r.abandon pending).outcome? o = r.outcome? o ∧
        ∀ handle, (handle, o) ∈ pending → ∀ a ∈ r.activity? o, ¬ a.isExchange) ∨
      ∃ service, r.activity? o ≠ none ∧ (r.abandon pending).activity? o = none ∧
        (r.abandon pending).outcome? o =
          (r.outcome? o).or (some (.failed (Channel.abandoned service))) := by
  induction pending generalizing r with
  | nil => exact .inl ⟨rfl, rfl, by simp⟩
  | cons p rest ih =>
      obtain ⟨handle, o'⟩ := p
      obtain ⟨r₁, hfirst, ⟨rfl, hidle⟩ | ⟨service, hdoing, rfl⟩⟩ := r.abandon_cons o' handle rest
      · rw [hfirst]
        refine (ih r₁).imp_left fun ⟨hactivity, houtcome, hothers⟩ => ⟨hactivity, houtcome, ?_⟩
        intro handle' hwaits
        rcases List.mem_cons.mp hwaits with hsame | hwaits
        · cases hsame
          exact hidle
        · exact hothers handle' hwaits
      · rw [hfirst]
        have hlater := ih ((r.conclude o' (.failed (Channel.abandoned service))).wake (taskOf o'))
        simp only [activity?_wake, outcome?_wake, activity?_conclude, outcome?_conclude] at hlater
        by_cases hsame : o = o'
        · subst hsame
          simp only [if_true] at hlater
          rcases hlater with ⟨hactivity, houtcome, -⟩ | ⟨service', -, hactivity, houtcome⟩
          · exact .inr ⟨service, hdoing, hactivity, houtcome⟩
          · refine .inr ⟨service, hdoing, hactivity, houtcome.trans ?_⟩
            cases r.outcome? o <;> rfl
        · simp only [if_neg hsame, Option.or_none] at hlater
          refine hlater.imp_left fun ⟨hactivity, houtcome, hothers⟩ => ⟨hactivity, houtcome, ?_⟩
          intro handle' hwaits
          rcases List.mem_cons.mp hwaits with hsame' | hwaits
          · cases hsame'
            exact absurd rfl hsame
          · exact hothers handle' hwaits

/-! ## What depends on the link alone -/

variable {r} {r' : ClientRun}

theorem line?_of_link (h : r'.channel.link? = r.channel.link?) : r'.line? = r.line? := by
  rw [line?, h, ← line?]

theorem awaited_of_link (h : r'.channel.link? = r.channel.link?) : r'.awaited = r.awaited := by
  rw [awaited, h, ← awaited]

/-- To be connected is to have a line that is alive. -/
theorem isConnected_of_line (h : r'.line? = r.line?) :
    r'.channel.isConnected = r.channel.isConnected := by
  rw [Bool.eq_iff_iff, isConnected_iff, isConnected_iff, h]

end ClientRun

/-! ## How open calls stand -/

namespace OpenCall

variable (p : OpenCall)

/-- What may come of a call: the first response with its handle on its
connection, or a mishap. -/
def Explains (heard : List (ConnectionId × ResponseEnvelope)) (outcome : Outcome) : Prop :=
  (∃ e, p.answer? heard = some e ∧ outcome = Channel.outcome e.body) ∨ ClientRun.Mishap outcome

/-- What an owner does that waits for a response: nothing as long as the
request is on its way. -/
def Does (a : Option Activity) : Prop :=
  (p.handed = false ∧ a = none) ∨
    (p.handed ∧ ∃ service deadline, a = some (.exchanging p.handle service deadline))

/-- How an open call stands.  The three ways are all there are, and each says
what the owner does, what has come of it, and under which handles it waits. -/
inductive Stands (r : ClientRun) (heard : List (ConnectionId × ResponseEnvelope)) : Prop
  /-- It waits for the response with its handle, on the connection that it was
  posted on, and none such was heard. -/
  | waits (hdoes : p.Does (r.activity? p.owner)) (hnothing : r.outcome? p.owner = none)
      (hwaits : (p.handle, p.owner) ∈ r.awaited)
      (hline : ∃ alive, r.line? = some (p.connection, alive)) (hunheard : p.answer? heard = none)
  /-- Its request was lost with the connection before the frame was handed
  over; nothing has come of it so far. -/
  | lost (hsending : p.handed = false) (hidle : r.activity? p.owner = none)
      (hnothing : r.outcome? p.owner = none) (hgone : ∀ handle, (handle, p.owner) ∉ r.awaited)
  /-- Something has come of it, which what was heard explains. -/
  | done {outcome : Outcome} (hidle : r.activity? p.owner = none)
      (hcame : r.outcome? p.owner = some outcome) (hexplains : p.Explains heard outcome)
      (hgone : ∀ handle, (handle, p.owner) ∉ r.awaited)

variable {p} {r r' : ClientRun} {heard heard' : List (ConnectionId × ResponseEnvelope)}

/-- A response that is heard answers a call for which none was heard before,
if it has its handle and came on its connection. -/
theorem answer?_append (hsince : p.since ≤ heard.length) (x : ConnectionId × ResponseEnvelope) :
    p.answer? (heard ++ [x]) = (p.answer? heard).or
      (if x.1 = p.connection ∧ x.2.handle = p.handle then some x.2 else none) := by
  rw [answer?, List.drop_append_of_le_length hsince, List.find?_append, Option.map_or, ← answer?]
  congr 1
  by_cases hmatching : x.1 = p.connection ∧ x.2.handle = p.handle
  · simp [hmatching]
  · rw [if_neg hmatching]
    simp [hmatching]

/-- What comes of a call is not explained otherwise by what is heard later. -/
theorem Explains.later {outcome : Outcome} (h : p.Explains heard outcome)
    (hkept : ∀ e, p.answer? heard = some e → p.answer? heard' = some e) :
    p.Explains heard' outcome :=
  h.imp_left fun ⟨e, hanswered, hsame⟩ => ⟨e, hkept e hanswered, hsame⟩

/-- A call stands as before when nothing that concerns it has changed.  This
is what keeps the incidents of one owner from disturbing the calls of the
others. -/
theorem Stands.like (h : p.Stands r heard)
    (hactivity : r'.activity? p.owner = r.activity? p.owner)
    (houtcome : r'.outcome? p.owner = r.outcome? p.owner) (hline : r'.line? = r.line?)
    (hawaited : ∀ handle, (handle, p.owner) ∈ r'.awaited ↔ (handle, p.owner) ∈ r.awaited)
    (hkept : ∀ e, p.answer? heard = some e → p.answer? heard' = some e)
    (hunheard : (p.handle, p.owner) ∈ r.awaited → p.answer? heard = none →
      p.answer? heard' = none) : p.Stands r' heard' := by
  cases h with
  | waits hdoes hnothing hwaits hover hnone =>
      exact .waits (hactivity ▸ hdoes) (houtcome.trans hnothing) ((hawaited _).mpr hwaits)
        (by rwa [hline]) (hunheard hwaits hnone)
  | lost hsending hidle hnothing hgone =>
      exact .lost hsending (hactivity.trans hidle) (houtcome.trans hnothing)
        fun handle hwaits => hgone handle ((hawaited handle).mp hwaits)
  | done hidle hcame hexplains hgone =>
      exact .done (hactivity.trans hidle) (houtcome.trans hcame) (hexplains.later hkept)
        fun handle hwaits => hgone handle ((hawaited handle).mp hwaits)

end OpenCall

namespace Traffic

open ClientRun

/-- Each open call stands in one of three ways, whoever waits for a response
is an open call, and all of them wait on a connection that is alive. -/
structure Matched (w : Traffic) : Prop where
  /-- Every open call stands in one of the ways there are. -/
  stands : ∀ p ∈ w.calls, p.Stands w.client w.heard
  /-- Whoever waits is an open call, under its own handle. -/
  owned : ∀ x ∈ w.client.awaited, ∃ p ∈ w.calls, p.handle = x.1 ∧ p.owner = x.2
  alive : ∀ x ∈ w.client.awaited, w.client.channel.isConnected
  /-- An owner without an open call exchanges no request. -/
  others : ∀ o, (∀ p ∈ w.calls, p.owner ≠ o) → ∀ a ∈ w.client.activity? o, ¬ a.isExchange

variable {w : Traffic} {r' : ClientRun} {o : Owner}

/-- In the beginning no call is open, and nobody waits. -/
theorem matched_start (url : String) (settings : ClientSettings) (endpoint : EndpointDescription)
    (credentials : Credentials) : (start url settings endpoint credentials).Matched where
  stands := by simp
  owned := by simp [start, awaited, ClientRun.start]
  alive := by simp [start, awaited, ClientRun.start]
  others := by simp [start, activity?, ClientRun.start]

/-- An owner that does anything but wait for a response has no open call. -/
theorem Matched.free (h : w.Matched) {a : Activity} (hdoing : w.client.activity? o = some a)
    (hother : ¬ a.isExchange) : ∀ p ∈ w.calls, p.owner ≠ o := by
  rintro p hp rfl
  cases h.stands p hp with
  | lost _ hidle => cases hidle.symm.trans hdoing
  | done hidle => cases hidle.symm.trans hdoing
  | waits hdoes =>
      rcases hdoes with ⟨-, hidle⟩ | ⟨-, _, _, hexchanging⟩
      · cases hidle.symm.trans hdoing
      · cases hexchanging.symm.trans hdoing
        exact hother rfl

/-- Whoever waits for a response with any handle waits for that of its own
call. -/
theorem Matched.handle_of_awaited (h : w.Matched) (hbooked : w.Booked) {p : OpenCall}
    (hp : p ∈ w.calls) {handle : UInt32} (hwaits : (handle, p.owner) ∈ w.client.awaited) :
    handle = p.handle := by
  obtain ⟨q, hq, rfl, howner⟩ := h.owned _ hwaits
  rw [hbooked.eq_of_owner hq hp howner]

/-- **What others do leaves the calls as they stand**, if it leaves the
link. -/
theorem Matched.around (h : w.Matched) (hfree : ∀ p ∈ w.calls, p.owner ≠ o)
    (hlink : r'.channel.link? = w.client.channel.link?)
    (hactivity : ∀ o', o' ≠ o → r'.activity? o' = w.client.activity? o')
    (houtcome : ∀ o', o' ≠ o → r'.outcome? o' = w.client.outcome? o')
    (hown : ∀ a ∈ r'.activity? o, ¬ a.isExchange) : (w.beside r').Matched where
  stands := by
    intro p hp
    refine (h.stands p hp).like (hactivity _ (hfree p hp)) (houtcome _ (hfree p hp))
      (line?_of_link hlink) ?_ (fun _ => id) fun _ => id
    intro handle
    rw [show (w.beside r').client.awaited = w.client.awaited from awaited_of_link hlink]
  owned := by
    intro x hwaits
    rw [Traffic.beside, awaited_of_link hlink] at hwaits
    exact h.owned x hwaits
  alive := by
    intro x hwaits
    rw [Traffic.beside, awaited_of_link hlink] at hwaits
    exact (isConnected_of_line (line?_of_link hlink)).trans (h.alive x hwaits)
  others := by
    intro o' hidle
    by_cases hsame : o' = o
    · subst hsame
      exact hown
    · intro a hdoing
      exact h.others o' hidle a ((hactivity o' hsame) ▸ hdoing)

/-- What leaves the link, and what all owners do and have done, leaves the
calls as they stand. -/
theorem Matched.congr (h : w.Matched) (haffairs : r'.affairs = w.client.affairs) :
    (w.beside r').Matched where
  stands := fun p hp => (h.stands p hp).like (activity?_of_affairs haffairs _)
    (outcome?_of_affairs haffairs _) (line?_of_affairs haffairs)
    (fun _ => by rw [show (w.beside r').client.awaited = _ from awaited_of_affairs haffairs])
    (fun _ => id) fun _ => id
  owned := fun x hwaits => h.owned x (awaited_of_affairs haffairs ▸ hwaits)
  alive := fun x hwaits =>
    (isConnected_of_line (line?_of_affairs haffairs)).trans
      (h.alive x (awaited_of_affairs haffairs ▸ hwaits))
  others := fun o hidle a hdoing =>
    h.others o hidle a (activity?_of_affairs haffairs o ▸ hdoing)

/-- A new connection comes about while nobody waits for a response.  Calls
that were lost, or are over, do not ask which connection it is. -/
theorem Matched.relink (h : w.Matched) (hfree : ∀ p ∈ w.calls, p.owner ≠ o)
    (hbefore : w.client.awaited = []) (hafter : r'.awaited = [])
    (hactivity : ∀ o', o' ≠ o → r'.activity? o' = w.client.activity? o')
    (houtcome : ∀ o', o' ≠ o → r'.outcome? o' = w.client.outcome? o')
    (hown : ∀ a ∈ r'.activity? o, ¬ a.isExchange) : (w.beside r').Matched where
  stands := by
    intro p hp
    have hgone : ∀ handle, (handle, p.owner) ∉ r'.awaited := by simp [hafter]
    cases h.stands p hp with
    | waits _ _ hwaits => simp [hbefore] at hwaits
    | lost hsending hidle hnothing =>
        exact .lost hsending ((hactivity _ (hfree p hp)).trans hidle)
          ((houtcome _ (hfree p hp)).trans hnothing) hgone
    | done hidle hcame hexplains =>
        exact .done ((hactivity _ (hfree p hp)).trans hidle)
          ((houtcome _ (hfree p hp)).trans hcame) hexplains hgone
  owned := by simp [Traffic.beside, hafter]
  alive := by simp [Traffic.beside, hafter]
  others := by
    intro o' hidle
    by_cases hsame : o' = o
    · subst hsame
      exact hown
    · intro a hdoing
      exact h.others o' hidle a ((hactivity o' hsame) ▸ hdoing)

/-- **Something comes of one call.**  No other has its handle, so that no
other waits the less for it. -/
theorem Matched.conclude (h : w.Matched) (hbooked : w.Booked) (hspare : w.Sparing)
    {heard : List (ConnectionId × ResponseEnvelope)} {p : OpenCall} (hp : p ∈ w.calls)
    {outcome : Outcome} (hidle : r'.activity? p.owner = none)
    (hcame : r'.outcome? p.owner = some outcome) (hexplains : p.Explains heard outcome)
    (hothers : ∀ o, o ≠ p.owner →
      r'.activity? o = w.client.activity? o ∧ r'.outcome? o = w.client.outcome? o)
    (hline : r'.line? = w.client.line?)
    (hawaited : ∀ x, x ∈ r'.awaited ↔ x ∈ w.client.awaited ∧ x.1 ≠ p.handle)
    (hsame : ∀ q ∈ w.calls, q.handle ≠ p.handle → q.answer? heard = q.answer? w.heard) :
    ({ w with client := r', heard := heard } : Traffic).Matched where
  stands := by
    intro q hq
    by_cases hother : q = p
    · subst hother
      refine .done hidle hcame hexplains fun handle hwaits => ?_
      obtain ⟨hwaits, hdiffers⟩ := (hawaited _).mp hwaits
      exact hdiffers (h.handle_of_awaited hbooked hp hwaits)
    · have howner : q.owner ≠ p.owner := fun howner => hother (hbooked.eq_of_owner hq hp howner)
      have hhandle : q.handle ≠ p.handle :=
        fun hhandle => hother (hbooked.alone hspare hq hp hhandle)
      have hanswer := hsame q hq hhandle
      refine (h.stands q hq).like (hothers _ howner).1 (hothers _ howner).2 hline ?_ ?_ ?_
      · intro handle'
        rw [hawaited, and_iff_left_of_imp]
        intro hwaits
        rw [h.handle_of_awaited hbooked hq hwaits]
        exact hhandle
      · exact fun e hanswered => hanswer.trans hanswered
      · exact fun _ hnone => hanswer.trans hnone
  owned := fun x hwaits => h.owned x ((hawaited x).mp hwaits).1
  alive := fun x hwaits => (isConnected_of_line hline).trans (h.alive x ((hawaited x).mp hwaits).1)
  others := by
    intro o hidle' a hdoing
    by_cases hsame : o = p.owner
    · exact absurd hsame.symm (hidle' p hp)
    · exact h.others o hidle' a ((hothers o hsame).1 ▸ hdoing)

/-- **The connection is lost**: nobody waits any more, and the calls that
waited have failed. -/
theorem Matched.abandon (h : w.Matched) {r : ClientRun} {pending : List (UInt32 × Owner)}
    (hactivities : r.activities = w.client.activities) (houtcomes : r.outcomes = w.client.outcomes)
    (hgone : r.awaited = []) (hall : ∀ x ∈ w.client.awaited, x ∈ pending) :
    (w.beside (r.abandon pending)).Matched := by
  have hactivity : ∀ o, r.activity? o = w.client.activity? o := by
    intro o
    rw [activity?, hactivities, ← activity?]
  have houtcome : ∀ o, r.outcome? o = w.client.outcome? o := by
    intro o
    rw [outcome?, houtcomes, ← outcome?]
  have halone : (r.abandon pending).awaited = [] := by
    rw [awaited_of_link (congrArg Channel.link? (channel_abandon r pending)), hgone]
  refine ⟨?_, by simp [Traffic.beside, halone], by simp [Traffic.beside, halone], ?_⟩
  · intro p hp
    have hnone : ∀ handle, (handle, p.owner) ∉ (r.abandon pending).awaited := by simp [halone]
    rcases r.abandon_cases p.owner pending with
      ⟨hdoing, hdid, hothers⟩ | ⟨service, -, hidle, hfailed⟩
    · rw [hactivity] at hdoing hothers
      rw [houtcome] at hdid
      cases h.stands p hp with
      | waits hdoes hnothing hwaits =>
          rcases hdoes with ⟨hsending, hidle⟩ | ⟨-, _, _, hexchanging⟩
          · exact .lost hsending (hdoing.trans hidle) (hdid.trans hnothing) hnone
          · exact absurd rfl (hothers p.handle (hall _ hwaits) _ hexchanging)
      | lost hsending hidle hnothing =>
          exact .lost hsending (hdoing.trans hidle) (hdid.trans hnothing) hnone
      | done hidle hcame hexplains =>
          exact .done (hdoing.trans hidle) (hdid.trans hcame) hexplains hnone
    · rw [houtcome] at hfailed
      have hlost : p.Explains w.heard (.failed (Channel.abandoned service)) := .inr (.inr ⟨_, rfl⟩)
      cases h.stands p hp with
      | waits _ hnothing =>
          exact .done hidle (by rw [hnothing] at hfailed; exact hfailed) hlost hnone
      | lost _ _ hnothing =>
          exact .done hidle (by rw [hnothing] at hfailed; exact hfailed) hlost hnone
      | done _ hcame hexplains =>
          exact .done hidle (by rw [hcame] at hfailed; exact hfailed) hexplains hnone
  · intro o hidle a hdoing
    rcases r.abandon_cases o pending with ⟨hsame, -⟩ | ⟨_, -, hnone, -⟩
    · exact h.others o hidle a (by rw [← hactivity, ← hsame]; exact hdoing)
    · cases hnone.symm.trans hdoing

/-- A call is opened, and stands; the others do as before, since what they
wait for has not changed. -/
theorem Matched.open (h : w.Matched) {p : OpenCall} (hfree : ∀ q ∈ w.calls, q.owner ≠ p.owner)
    (hconnected : w.client.channel.isConnected) (hstands : p.Stands r' w.heard)
    (hothers : ∀ o, o ≠ p.owner →
      r'.activity? o = w.client.activity? o ∧ r'.outcome? o = w.client.outcome? o)
    (hline : r'.line? = w.client.line?)
    (hawaited : ∀ x, x.2 ≠ p.owner → (x ∈ r'.awaited ↔ x ∈ w.client.awaited))
    (hown : ∀ handle, (handle, p.owner) ∈ r'.awaited → handle = p.handle) :
    ({ w with
      client := r'
      calls := w.calls ++ [p]
      allocated := w.allocated + 1 } : Traffic).Matched where
  stands := by
    intro q hq
    rcases List.mem_append.mp hq with hq | hq
    · exact (h.stands q hq).like (hothers _ (hfree q hq)).1 (hothers _ (hfree q hq)).2 hline
        (fun handle => hawaited _ (hfree q hq)) (fun _ => id) fun _ => id
    · rw [List.mem_singleton.mp hq]
      exact hstands
  owned := by
    rintro ⟨handle, o⟩ hwaits
    by_cases hsame : o = p.owner
    · subst hsame
      exact ⟨p, by simp, (hown handle hwaits).symm, rfl⟩
    · obtain ⟨q, hq, howns⟩ := h.owned _ ((hawaited _ hsame).mp hwaits)
      exact ⟨q, List.mem_append_left _ hq, howns⟩
  alive := fun _ _ => (isConnected_of_line hline).trans hconnected
  others := by
    intro o hidle a hdoing
    have hother : o ≠ p.owner := fun hsame => hidle p (by simp) hsame.symm
    exact h.others o (fun q hq => hidle q (List.mem_append_left _ hq)) a
      ((hothers o hother).1 ▸ hdoing)

/-- The request of a call is not on its way any more, which only the call
itself has to be shown to survive. -/
theorem Matched.hand (h : w.Matched) (hbooked : w.Booked) {p : OpenCall} (hp : p ∈ w.calls)
    (hstands : ({ p with handed := true } : OpenCall).Stands r' w.heard)
    (hothers : ∀ o, o ≠ p.owner →
      r'.activity? o = w.client.activity? o ∧ r'.outcome? o = w.client.outcome? o)
    (hlink : r'.channel.link? = w.client.channel.link?) :
    ((w.beside r').settle p.owner).Matched where
  stands := by
    intro q' hq'
    obtain ⟨q, hq, rfl⟩ := List.mem_map.mp hq'
    split
    · rename_i hsame
      rw [hbooked.eq_of_owner hq hp hsame]
      exact hstands
    · rename_i hother
      refine (h.stands q hq).like (hothers _ hother).1 (hothers _ hother).2 (line?_of_link hlink) ?_
        (fun _ => id) fun _ => id
      intro handle
      rw [show ((w.beside r').settle p.owner).client.awaited = _ from awaited_of_link hlink]
  owned := by
    intro x hwaits
    obtain ⟨q, hq, hhandle, howner⟩ := h.owned x ((awaited_of_link hlink) ▸ hwaits)
    refine ⟨_, List.mem_map.mpr ⟨q, hq, rfl⟩, ?_⟩
    split
    · exact ⟨hhandle, howner⟩
    · exact ⟨hhandle, howner⟩
  alive := fun x hwaits =>
    (isConnected_of_line (line?_of_link hlink)).trans (h.alive x ((awaited_of_link hlink) ▸ hwaits))
  others := by
    intro o hidle a hdoing
    have hidle' : ∀ q ∈ w.calls, q.owner ≠ o := by
      intro q hq hsame
      refine hidle _ (List.mem_map.mpr ⟨q, hq, rfl⟩) ?_
      split <;> exact hsame
    have hother : o ≠ p.owner := fun hsame => hidle' p hp hsame.symm
    exact h.others o hidle' a ((hothers o hother).1 ▸ hdoing)

/-- An owner returns whose call is over, and takes its outcome with it; nobody
waits for what it asked. -/
theorem Matched.leave (h : w.Matched) {outcome : Outcome}
    (htaken : w.client.takeOutcome? o = some (outcome, r')) :
    ({ w with client := r', calls := w.calls.filter (·.owner ≠ o) } : Traffic).Matched := by
  have hcame := (takeOutcome?_cases w.client o htaken).1
  have houtcomes : ∀ o', r'.outcome? o' = if o' = o then none else w.client.outcome? o' :=
    fun o' => outcome?_of_takeOutcome? w.client o o' htaken
  obtain ⟨-, rfl⟩ := takeOutcome?_cases w.client o htaken
  -- Whoever has something to return with does not wait.
  have hended : ∀ p ∈ w.calls, p.owner = o →
      w.client.activity? o = none ∧ ∀ handle, (handle, o) ∉ w.client.awaited := by
    rintro p hp rfl
    cases h.stands p hp with
    | waits _ hnothing => cases hnothing.symm.trans hcame
    | lost _ _ hnothing => cases hnothing.symm.trans hcame
    | done hidle _ _ hgone => exact ⟨hidle, hgone⟩
  refine ⟨?_, ?_, h.alive, ?_⟩
  · intro p hp
    obtain ⟨hp, hother⟩ := List.mem_filter.mp hp
    have hother : p.owner ≠ o := by simpa using hother
    exact (h.stands p hp).like rfl (by rw [houtcomes, if_neg hother]) rfl (fun _ => .rfl)
      (fun _ => id) fun _ => id
  · rintro ⟨handle, o'⟩ hwaits
    obtain ⟨p, hp, hhandle, rfl⟩ := h.owned _ hwaits
    refine ⟨p, List.mem_filter.mpr ⟨hp, ?_⟩, hhandle, rfl⟩
    by_cases hsame : p.owner = o
    · exact absurd (hsame ▸ hwaits) ((hended p hp hsame).2 handle)
    · simpa using hsame
  · intro o' hidle a hdoing
    by_cases hcalled : ∃ p ∈ w.calls, p.owner = o'
    · obtain ⟨p, hp, rfl⟩ := hcalled
      by_cases hsame : p.owner = o
      · have hnone := (hended p hp hsame).1
        rw [← hsame] at hnone
        cases hnone.symm.trans hdoing
      · exact absurd rfl (hidle p (List.mem_filter.mpr ⟨hp, by simpa using hsame⟩))
    · exact h.others o' (fun p hp hsame => hcalled ⟨p, hp, hsame⟩) a hdoing

/-- Who waits on a connection that is alive.  The channel looks for responses
among those who are pending, the ledger among those who wait; they are the
same. -/
theorem Matched.pending_iff (h : w.Matched) (x : UInt32 × Owner) :
    x ∈ w.client.channel.pending ↔ x ∈ w.client.awaited := by
  refine ⟨mem_awaited_of_pending, fun hwaits => ?_⟩
  obtain ⟨link, hconnected⟩ := Option.isSome_iff_exists.mp (h.alive x hwaits)
  have hlink := (Option.filter_eq_some_iff.mp hconnected).1
  rw [awaited, hlink] at hwaits
  rw [Channel.pending, hconnected]
  exact hwaits

/-- **A response comes in** that somebody waits for: it is the answer to the
call with its handle, and to no other. -/
theorem Matched.answered (h : w.Matched) (hbooked : w.Booked) {c : ConnectionId}
    (hreads : w.client.channel.reads c) {e : ResponseEnvelope}
    (hwaits : (e.handle, o) ∈ w.client.awaited) :
    ∃ p ∈ w.calls, p.owner = o ∧ p.handle = e.handle ∧ p.connection = c ∧
      w.client.outcome? o = none ∧ p.answer? (w.heard ++ [(c, e)]) = some e := by
  obtain ⟨p, hp, hhandle, howner⟩ := h.owned _ hwaits
  dsimp only at hhandle howner
  subst howner
  rw [← hhandle] at hwaits
  obtain ⟨link, hconnected, hconnection⟩ := (Option.any_eq_true _ _).mp hreads
  have hconnection : link.connection = c := by simpa using hconnection
  have hlink := (Option.filter_eq_some_iff.mp hconnected).1
  cases h.stands p hp with
  | lost _ _ _ hgone => exact absurd hwaits (hgone _)
  | done _ _ _ hgone => exact absurd hwaits (hgone _)
  | waits _ hnothing _ hline hunheard =>
      obtain ⟨alive, hline⟩ := hline
      rw [line?, hlink] at hline
      have hown : p.connection = c := by
        rw [← hconnection]
        exact (congrArg Prod.fst (Option.some.inj hline)).symm
      refine ⟨p, hp, rfl, hhandle, hown, hnothing, ?_⟩
      rw [OpenCall.answer?_append (hbooked.heard p hp), hunheard, if_pos ⟨hown.symm, hhandle.symm⟩]
      rfl

/-- A response with the handle of another call does not answer a call. -/
theorem Booked.answer?_other (hbooked : w.Booked) {p : OpenCall} (hp : p ∈ w.calls)
    {c : ConnectionId} {e : ResponseEnvelope} (hother : p.handle ≠ e.handle) :
    p.answer? (w.heard ++ [(c, e)]) = p.answer? w.heard := by
  rw [OpenCall.answer?_append (hbooked.heard p hp), if_neg fun hsame => hother hsame.2.symm,
    Option.or_none]

/-- A response comes in that nobody waits for: it was heard, and no call takes
it as its answer. -/
theorem Matched.unasked (h : w.Matched) (hbooked : w.Booked) {c : ConnectionId}
    {e : ResponseEnvelope} (hnobody : ∀ o, (e.handle, o) ∉ w.client.awaited)
    (hactivity : ∀ o, r'.activity? o = w.client.activity? o)
    (houtcome : ∀ o, r'.outcome? o = w.client.outcome? o) (hline : r'.line? = w.client.line?)
    (hawaited : ∀ x, x ∈ r'.awaited ↔ x ∈ w.client.awaited) :
    ({ w with client := r', heard := w.heard ++ [(c, e)] } : Traffic).Matched where
  stands := by
    intro p hp
    refine (h.stands p hp).like (hactivity _) (houtcome _) hline (fun _ => hawaited _) ?_ ?_
    · intro e' hanswered
      rw [OpenCall.answer?_append (hbooked.heard p hp), hanswered]
      rfl
    · intro hwaits hnone
      rw [hbooked.answer?_other hp, hnone]
      rintro hsame
      exact hnobody p.owner (hsame ▸ hwaits)
  owned := fun x hwaits => h.owned x ((hawaited x).mp hwaits)
  alive := fun x hwaits => (isConnected_of_line hline).trans (h.alive x ((hawaited x).mp hwaits))
  others := fun o hidle a hdoing => h.others o hidle a (hactivity o ▸ hdoing)

end Traffic

end OpcSession.Simulation
