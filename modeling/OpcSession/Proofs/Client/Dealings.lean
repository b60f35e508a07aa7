import OpcSession.Proofs.Client.Inquiry
import OpcSession.Proofs.Client.Sharing

/-!
# Dealings with a shared value

Whatever the client and the server do next, every deed is justified by those before
it, and whatever the cache holds of the value a read has brought.  For this calls are
told apart by their tickets; what the channel brings a call that reads or writes the
value is what the server has answered to it; and what the machine answers it is
whether there is a session.

* `SharedValue.Minded`, `SharedValue.Sound` — what is kept;
* `SharedValue.Sound.received`, `SharedValue.Sound.goOn`, `SharedValue.Sound.call`,
  `SharedValue.Sound.answer` — how a response, a call and an answer keep it;
* `SharedValue.Sound.deals` — every run of dealings keeps it.
-/

namespace OpcSession.Simulation

open Session Client

namespace SharedValue

open ClientRun

variable {s : SharedValue} {v : DataValue}

/-! ## The calls -/

/-- Calls are told apart by their tickets, and those about the value get from
the channel what the server has answered to them, and from the machine a
session. -/
structure Minded (s : SharedValue) : Prop where
  /-- Its machine has come about as session machines do. -/
  driven : s.client.Driven
  /-- Callers are told apart by their tickets. -/
  distinct : s.client.callers.Pairwise (·.ticket ≠ ·.ticket)
  /-- Every ticket was given out before. -/
  known : ∀ c ∈ s.client.callers, c.ticket < s.client.nextTicket
  /-- Nothing is on the channel under a ticket that was not given out yet. -/
  fresh : ∀ t, s.client.nextTicket ≤ t → Absent (.caller t) s.client
  /-- The machine owes nothing to anybody who has not called. -/
  owed : ∀ d ∈ s.client.promises, d.ticket < s.client.nextTicket
  /-- What the machine owes a call about the value is a session, or the reason
  why there is none. -/
  sessions : ∀ c ∈ s.client.callers, s.About c.goal → ∀ d ∈ s.client.promises,
    d.ticket = c.ticket → d = .session c.ticket
  /-- What the channel brings a call about the value is an answer of the
  server to it. -/
  exchanges : ∀ c ∈ s.client.callers, s.About c.goal →
    Exchanges (fun b => (c.ticket, b) ∈ s.answers) (.caller c.ticket) s.client
  /-- The past tells of calls that were made. -/
  tickets : ∀ d ∈ s.past, d.ticket < s.client.nextTicket
  /-- The past tells of each call by the goal that it has. -/
  goals : ∀ c ∈ s.client.callers, ∀ d ∈ s.past, d.ticket = c.ticket → d.goal = c.goal

/-- Along with the calls the past is as it should be, and whatever value the
cache holds was brought by a read. -/
structure Sound (s : SharedValue) : Prop extends Minded s where
  held : s.versions ≠ []
  /-- Every deed of the past is justified by those before it. -/
  told : s.Told s.past
  /-- Whatever the cache holds of the value a read has brought, and nothing
  was written since that would have dropped it. -/
  sourced : ∀ v, s.client.cache.Holds s.key v → s.Sourced s.past v

/-- In the beginning the cache is empty, nobody has called, and the server
holds its first value. -/
theorem sound_start (url : String) (settings : ClientSettings) (endpoint : EndpointDescription)
    (credentials : Credentials) (key : Cache.Key) (v : DataValue) :
    (start url settings endpoint credentials key v).Sound where
  driven := ⟨{}, .refl, rfl⟩
  distinct := .nil
  known := by simp [start, ClientRun.start]
  fresh := fun t _ => ⟨rfl, rfl, by simp [start, ClientRun.start, awaited]⟩
  owed := by simp [start, ClientRun.start, promises, Machine.prospects, Machine.dues, State.dues,
    State.waiters, State.completions]
  sessions := by simp [start, ClientRun.start]
  exchanges := by simp [start, ClientRun.start]
  tickets := by simp [start]
  goals := by simp [start]
  held := by simp [start]
  told := told_nil
  sourced := fun v hheld => absurd hheld (AttributeCache.holds_ofSettings _)

/-- A caller is found by its ticket, and is the only one that has it. -/
theorem Minded.eq_of_ticket (h : s.Minded) {c c' : Caller} (hc : c ∈ s.client.callers)
    (hc' : c' ∈ s.client.callers) (hsame : c.ticket = c'.ticket) : c = c' := by
  by_contra hother
  have hsymm : Std.Symm fun c c' : Caller => c.ticket ≠ c'.ticket := ⟨fun _ _ => Ne.symm⟩
  exact h.distinct.forall hc hc' hother hsame

/-- Calls that were there go on, or are over.  What is asked of them is asked
of those that are left, and no more is promised. -/
theorem Minded.goes (h : s.Minded) {r : ClientRun} (deeds : List Deed) (hdriven : r.Driven)
    (hcallers : r.callers.Sublist s.client.callers) (htickets : r.nextTicket = s.client.nextTicket)
    (hpromised : ∀ d ∈ r.promises, d ∈ s.client.promises ∨ (d.ticket < s.client.nextTicket ∧
      ∀ c ∈ r.callers, s.About c.goal → d.ticket = c.ticket → d = .session c.ticket))
    (hfresh : ∀ t, s.client.nextTicket ≤ t → Leaves (.caller t) s.client r)
    (hexchanges : ∀ c ∈ r.callers, s.About c.goal →
      Exchanges (fun b => (c.ticket, b) ∈ s.answers) (.caller c.ticket) r)
    (hown : ∀ d ∈ deeds, d.ticket < s.client.nextTicket ∧
      ∀ c ∈ r.callers, d.ticket = c.ticket → d.goal = c.goal) :
    ({ s with client := r, past := s.past ++ deeds } : SharedValue).Minded where
  driven := hdriven
  distinct := h.distinct.sublist hcallers
  known := fun c hc => htickets ▸ h.known c (hcallers.subset hc)
  fresh := fun t ht => (h.fresh t (htickets ▸ ht)).leaves (hfresh t (htickets ▸ ht))
  owed := by
    intro d hd
    rcases hpromised d hd with hold | ⟨hknown, -⟩
    · exact htickets ▸ h.owed d hold
    · exact htickets ▸ hknown
  sessions := by
    intro c hc habout d hd hsame
    rcases hpromised d hd with hold | ⟨-, hsession⟩
    · exact h.sessions c (hcallers.subset hc) habout d hold hsame
    · exact hsession c hc habout hsame
  exchanges := by
    intro c hc habout
    refine (hexchanges c hc habout).mono fun b hanswered => ?_
    rw [answers, List.filterMap_append]
    exact List.mem_append_left _ hanswered
  tickets := by
    intro d hd
    rcases List.mem_append.mp hd with hd | hd
    · exact htickets ▸ h.tickets d hd
    · exact htickets ▸ (hown d hd).1
  goals := by
    intro c hc d hd hsame
    rcases List.mem_append.mp hd with hd | hd
    · exact h.goals c (hcallers.subset hc) d hd hsame
    · exact (hown d hd).2 c hc hsame

/-- Where no call goes on, calls get only what they may, and the cache comes
by nothing. -/
theorem Sound.quiet (h : s.Sound) {r : ClientRun} (hdriven : r.Driven)
    (hcallers : r.callers = s.client.callers) (htickets : r.nextTicket = s.client.nextTicket)
    (hcache : ∀ key v, r.cache.Holds key v → s.client.cache.Holds key v)
    (hpromised : ∀ d ∈ r.promises, d ∈ s.client.promises ∨ (d.ticket < s.client.nextTicket ∧
      ∀ c ∈ s.client.callers, s.About c.goal → d.ticket = c.ticket → d = .session c.ticket))
    (hfresh : ∀ t, s.client.nextTicket ≤ t → Leaves (.caller t) s.client r)
    (hexchanges : ∀ c ∈ s.client.callers, s.About c.goal →
      Exchanges (fun b => (c.ticket, b) ∈ s.answers) (.caller c.ticket) r) :
    ({ s with client := r } : SharedValue).Sound := by
  have hminded := h.toMinded.goes [] hdriven (hcallers ▸ .refl _) htickets (hcallers ▸ hpromised)
    hfresh (hcallers ▸ hexchanges) (by simp)
  rw [List.append_nil] at hminded
  exact { hminded with
    held := h.held
    told := h.told
    sourced := fun v hheld => h.sourced v (hcache _ v hheld) }

/-- What is done beside the calls adds nothing to the past, and fails requests
at most. -/
theorem Sound.aside (h : s.Sound) {r : ClientRun} (hdriven : r.Driven) (haside : Aside s.client r) :
    ({ s with client := r } : SharedValue).Sound :=
  h.quiet hdriven haside.callers haside.tickets haside.cache
    (fun _ howed => .inl (haside.promises.subset howed)) (fun t _ => haside.others t)
    fun c hc habout => (h.exchanges c hc habout).leaves (haside.others _)

/-- **A response comes in** that the server may have sent, and goes to whoever
waits for it; nothing is told of that until the call goes on. -/
theorem Sound.received (h : s.Sound) {e : ResponseEnvelope} (hadmits : s.Admits e)
    (hdriven : (s.client.takeIn e).Driven) :
    ({ s with client := s.client.takeIn e } : SharedValue).Sound := by
  have hstill := still_takeIn s.client e
  refine h.quiet hdriven hstill.callers hstill.tickets hstill.cache
    (fun _ howed => .inl (hstill.promises.subset howed))
    (fun t hunknown => leaves_takeIn fun hgets => ?_) fun c hc habout => ?_
  · exact (h.fresh t hunknown).alone _ (mem_awaited_of_pending (pending_of_receive hgets))
  · by_cases hgets : (s.client.channel.receive e).2.1 = some (.caller c.ticket)
    · have hadmitted := hadmits c hc habout (pending_of_receive hgets)
      exact (h.exchanges c hc habout).takeIn hgets
        ((outcome_cases e.body).imp_right fun hresponse => ⟨_, hresponse, hadmitted⟩)
    · exact (h.exchanges c hc habout).leaves (leaves_takeIn hgets)

/-! ## A call is over -/

/-- **A call is over.**  What it returns is justified by the answer it was
given, or by the cache; what it puts into the cache it has read, and what it
writes is dropped from there. -/
theorem Sound.finish (h : s.Sound) {c : Caller} (hc : c ∈ s.client.callers) {r : ClientRun}
    {cache : DataCache} {result : Result}
    (hdriven : (({ r with cache := cache } : ClientRun).finish c result).Driven)
    (hworks : Works (.caller c.ticket) s.client r)
    (hpromises : ∀ d ∈ r.promises, d ∈ s.client.promises)
    (hjustified : s.Justified s.past (.returned c.ticket c.goal result))
    (hsourced : ∀ v, cache.Holds s.key v →
      s.Sourced (s.past ++ [.returned c.ticket c.goal result]) v) :
    ({ s with
      client := ({ r with cache := cache } : ClientRun).finish c result
      past := s.past ++ [.returned c.ticket c.goal result] } : SharedValue).Sound := by
  have hcallers : r.callers = s.client.callers := congrArg (·.1) hworks.desk
  have htickets : r.nextTicket = s.client.nextTicket := congrArg (·.2.1) hworks.desk
  have hleft : ∀ c' ∈ (({ r with cache := cache } : ClientRun).finish c result).callers,
      c' ∈ s.client.callers ∧ c'.ticket ≠ c.ticket := by
    intro c' hc'
    rw [ClientRun.finish, hcallers] at hc'
    simpa using List.mem_filter.mp hc'
  have haffairs : (({ r with cache := cache } : ClientRun).finish c result).affairs = r.affairs :=
    rfl
  have hothers : ∀ t, t ≠ c.ticket →
      Leaves (.caller t) s.client (({ r with cache := cache } : ClientRun).finish c result) :=
    fun t hother => (hworks.others (.caller t) fun hsame => hother (Owner.caller.inj hsame)).trans
      (leaves_of_affairs haffairs _)
  have hminded := h.toMinded.goes [.returned c.ticket c.goal result] hdriven
    (hcallers ▸ List.filter_sublist) htickets (fun d howed => .inl (hpromises d howed))
    (fun t hunknown => hothers t (Nat.ne_of_gt (Nat.lt_of_lt_of_le (h.known c hc) hunknown)))
    (fun c' hc' habout => (h.exchanges c' (hleft c' hc').1 habout).leaves
      (hothers _ (hleft c' hc').2))
    (by
      intro d hd
      cases List.mem_singleton.mp hd
      exact ⟨h.known c hc, fun c' hc' hsame => absurd hsame.symm (hleft c' hc').2⟩)
  exact { hminded with
    held := h.held
    told := h.told.snoc hjustified
    sourced := hsourced }

/-- The server has answered a request once for each answer, and the past tells
of it. -/
theorem mem_answers {t : Ticket} {b : Response} (h : (t, b) ∈ s.answers) :
    ∃ g version, .answered t g b version ∈ s.past := by
  obtain ⟨d, hhappened, hanswer⟩ := List.mem_filterMap.mp h
  cases d with
  | answered t' g b' version =>
      cases hanswer
      exact ⟨g, version, hhappened⟩
  | _ => cases hanswer

/-- What the server has answered to a call about the value was justified
then. -/
theorem Sound.answered (h : s.Sound) {c : Caller} (hc : c ∈ s.client.callers) {b : Response}
    (hanswered : (c.ticket, b) ∈ s.answers) :
    ∃ version, .answered c.ticket c.goal b version ∈ s.past ∧
      (∀ v, c.goal = s.reads → readValue b = .ok v → s.versions[version]? = some v) ∧
      ∀ v, written? c.goal b = some v → s.versions[version]? = some v := by
  obtain ⟨g, version, hhappened⟩ := mem_answers hanswered
  obtain rfl : g = c.goal := h.goals c hc _ hhappened rfl
  obtain ⟨before, after, hsplit⟩ := List.append_of_mem hhappened
  obtain ⟨-, -, hread, hwritten⟩ := h.told before _ after hsplit
  exact ⟨version, hhappened, hread, hwritten⟩

/-! ## What a call returns -/

section Returned

variable {now : Duration} {cache : DataCache} {node : NodeId} {a : AttributeId} {b : Response}
  {g : Goal} {outcome : Outcome} {key : Cache.Key} {x : DataValue}

/-- A read that returns a value from a response returns the one that is in
it. -/
theorem readValue_of_returned
    (h : ((Goal.read node a).returned now cache (.response b)).1 = .ok (.data v)) :
    readValue b = .ok v := by
  unfold Goal.returned at h
  cases hbrought : readValue b with
  | error e =>
      simp only [hbrought] at h
      cases h
  | ok value =>
      simp only [hbrought] at h
      cases h
      rfl

/-- A write that returns with success was answered with success, and its
attribute is not in the cache. -/
theorem written_of_returned
    (h : ((Goal.write node a x).returned now cache (.response b)).1 = .ok .nothing) :
    written? (.write node a x) b = some x ∧
      ∀ v, ¬ ((Goal.write node a x).returned now cache (.response b)).2.Holds (node, a) v := by
  unfold Goal.returned at h ⊢
  unfold written?
  cases htold : writeStatus b with
  | error e =>
      simp only [htold] at h
      cases h
  | ok status =>
      simp only [htold] at h ⊢
      by_cases hgood : status.isGood = true
      · simp only [hgood, if_true] at h ⊢
        exact ⟨trivial, fun v hheld => (AttributeCache.holds_invalidateAttribute hheld).1 rfl⟩
      · simp only [hgood] at h
        cases h

/-- A call that is over adds at most what it has read to the cache. -/
theorem holds_returned (h : (g.returned now cache outcome).2.Holds key v) :
    cache.Holds key v ∨
      ∃ b, g = .read key.1 key.2 ∧ outcome = .response b ∧ readValue b = .ok v := by
  cases outcome with
  | failed e => exact .inl h
  | done => exact .inl h
  | response b =>
      cases g with
      | read node a =>
          unfold Goal.returned at h
          cases hbrought : readValue b with
          | error e =>
              simp only [hbrought] at h
              exact .inl h
          | ok value =>
              simp only [hbrought] at h
              split at h
              · rcases AttributeCache.holds_put h with ⟨rfl, rfl⟩ | hbefore
                · exact .inr ⟨b, rfl, rfl, hbrought⟩
                · exact .inl hbefore
              · exact .inl h
      | write node a x =>
          unfold Goal.returned at h
          cases htold : writeStatus b with
          | error e =>
              simp only [htold] at h
              exact .inl h
          | ok status =>
              simp only [htold] at h
              split at h
              · exact .inl (AttributeCache.holds_invalidateAttribute h).2
              · exact .inl h
      | _ => exact .inl h

end Returned

/-- A read that gives a value when something has come for it was answered with
that. -/
theorem Sound.read_answered (h : s.Sound) {c : Caller} (hc : c ∈ s.client.callers)
    {now : Duration} {cache : DataCache} {outcome : Outcome}
    (hfair : s.About c.goal → (∃ e, outcome = .failed e) ∨
      ∃ b, outcome = .response b ∧ (c.ticket, b) ∈ s.answers) (hreading : c.goal = s.reads)
    (hresult : (c.goal.returned now cache outcome).1 = .ok (.data v)) :
    ∃ r version, .answered c.ticket s.reads r version ∈ s.past ∧
      s.versions[version]? = some v := by
  rw [hreading] at hfair hresult
  obtain ⟨e, rfl⟩ | ⟨b, rfl, hgiven⟩ := hfair rfl
  · cases hresult
  · obtain ⟨version, hhappened, hheld, -⟩ := h.answered hc hgiven
    rw [hreading] at hhappened
    exact ⟨b, version, hhappened, hheld v hreading (readValue_of_returned hresult)⟩

/-- **What the channel brings a call** justifies what it returns, and what it
makes of the cache. -/
theorem Sound.returned (h : s.Sound) {c : Caller} (hc : c ∈ s.client.callers) (now : Duration)
    {outcome : Outcome}
    (hfair : s.About c.goal → (∃ e, outcome = .failed e) ∨
      ∃ b, outcome = .response b ∧ (c.ticket, b) ∈ s.answers) :
    s.Justified s.past
        (.returned c.ticket c.goal (c.goal.returned now s.client.cache outcome).1) ∧
      ∀ v, (c.goal.returned now s.client.cache outcome).2.Holds s.key v →
        s.Sourced (s.past ++
          [.returned c.ticket c.goal (c.goal.returned now s.client.cache outcome).1]) v := by
  have hwritten : ∀ x, c.goal = s.writes x →
      (c.goal.returned now s.client.cache outcome).1 = .ok .nothing →
      (∃ r version, .answered c.ticket c.goal r version ∈ s.past ∧
        s.versions[version]? = some x) ∧
      ∀ v, ¬ (c.goal.returned now s.client.cache outcome).2.Holds s.key v := by
    intro x hwriting hresult
    rw [hwriting] at hfair hresult ⊢
    obtain ⟨e, rfl⟩ | ⟨b, rfl, hgiven⟩ := hfair rfl
    · cases hresult
    · obtain ⟨hwritten, hdropped⟩ := written_of_returned hresult
      obtain ⟨version, hhappened, -, hheld⟩ := h.answered hc hgiven
      rw [hwriting] at hhappened hheld
      exact ⟨⟨b, version, hhappened, hheld x hwritten⟩, hdropped⟩
  refine ⟨⟨fun v hreading hresult => .inl (h.read_answered hc hfair hreading hresult),
    fun x hwriting hresult => (hwritten x hwriting hresult).1⟩, fun v hheld => ?_⟩
  rcases holds_returned hheld with hbefore | ⟨b, hreading, rfl, hbrought⟩
  · refine (h.sourced v hbefore).snoc fun w x hsame => ?_
    injection hsame with hticket hwriting hresult
    exact (hwritten x hwriting hresult).2 v hheld
  · have hresult : (c.goal.returned now s.client.cache (.response b)).1 = .ok (.data v) := by
      rw [hreading]
      simp [Goal.returned, hbrought]
    obtain ⟨r, version, hhappened, hheld⟩ := h.read_answered hc hfair hreading hresult
    rw [hresult, hreading]
    exact ⟨s.past, c.ticket, r, version, [], rfl, hhappened, hheld, by simp⟩

/-! ## A call goes on -/

/-- **A call uses the channel**, and is over with what has come of that if
something has. -/
theorem Sound.carriesOn (h : s.Sound) {c : Caller} (hc : c ∈ s.client.callers)
    {r₁ r' : ClientRun} (hdriven : r'.Driven) (hpromises : ∀ d ∈ r'.promises, d ∈ s.client.promises)
    (hworks : Works (.caller c.ticket) s.client r₁)
    (hexchanges : s.About c.goal →
      Exchanges (fun b => (c.ticket, b) ∈ s.answers) (.caller c.ticket) r₁)
    (hcollects : Collects r₁ c r') :
    ({ s with client := r', past := s.past ++ s.returns r' c.ticket c.goal } :
      SharedValue).Sound := by
  cases hcollects with
  | nothing =>
      have hdone : r₁.done = s.client.done := congrArg (·.2.2.2) hworks.desk
      rw [returns_same _ _ hdone, List.append_nil]
      refine h.quiet hdriven (congrArg (·.1) hworks.desk) (congrArg (·.2.1) hworks.desk)
        (fun key v hheld => cache_of_desk hworks.desk ▸ hheld)
        (fun d howed => .inl (hpromises d howed)) (fun t hunknown => ?_) fun c' hc' habout => ?_
      · refine hworks.others _ fun hsame => ?_
        cases hsame
        exact Nat.lt_irrefl _ (Nat.lt_of_lt_of_le (h.known c hc) hunknown)
      · by_cases hown : c'.ticket = c.ticket
        · obtain rfl := h.eq_of_ticket hc' hc hown
          exact hexchanges habout
        · exact (h.exchanges c' hc' habout).leaves
            (hworks.others _ fun hsame => hown (Owner.caller.inj hsame))
  | @ends outcome r₂ hcame hworks' =>
      rw [cache_of_desk hworks.desk] at hdriven hpromises ⊢
      have hall := hworks.trans hworks'
      have hdone : ({ r₂ with cache := (c.goal.returned r₁.now s.client.cache outcome).2 } :
          ClientRun).done = s.client.done := congrArg (·.2.2.2) hall.desk
      rw [returns_finish c _ _ _ hdone]
      obtain ⟨hjustified, hsourced⟩ := h.returned hc r₁.now fun habout =>
        (hexchanges habout).outcome _ hcame
      exact h.finish hc hdriven hall hpromises hjustified hsourced

/-- What the machine was not asked for but a session it answers with no
other. -/
theorem session_of_answer {r : ClientRun} {t : Ticket} {answer : Session.Answer}
    (hgiven : (t, answer) ∈ r.answers)
    (hsessions : ∀ d ∈ r.promises, d.ticket = t → d = .session t) : ∃ x, answer = .session x := by
  have hpromised : ∀ d, paidBy (t, answer) = some d → d ∈ r.promises := fun d hpaid =>
    List.mem_append_left _ (List.mem_filterMap.mpr ⟨_, hgiven, hpaid⟩)
  cases answer with
  | session x => exact ⟨x, rfl⟩
  | state k => cases hsessions _ (hpromised _ rfl) rfl
  | disconnected => cases hsessions _ (hpromised _ rfl) rfl

/-- A call about the value is over with an answer of the machine only where
there is no session. -/
theorem error_of_answered {g : Goal} (habout : s.About g) {hint : UInt32}
    {x : Except SessionError Session} {result : Result}
    (hlast : g.answered hint (.session x) = .over result) :
    ∃ e, x = .error e ∧ result = .error (.session e) := by
  cases x with
  | error e =>
      cases hlast
      exact ⟨_, rfl, rfl⟩
  | ok session =>
      cases g with
      | read node a => cases hlast
      | write node a x => cases hlast
      | _ => cases habout

/-- A call about the value that is over with an answer of the machine has
failed. -/
theorem Sound.fails (h : s.Sound) {c : Caller} (hc : c ∈ s.client.callers)
    (habout : s.About c.goal) {answer : Session.Answer} {hint : UInt32} {result : Result}
    (hgiven : s.client.answers.find? (·.1 = c.ticket) = some (c.ticket, answer))
    (hlast : c.goal.answered hint answer = .over result) : ∃ e, result = .error (.session e) := by
  obtain ⟨x, rfl⟩ :=
    session_of_answer (List.mem_of_find?_eq_some hgiven) (h.sessions c hc habout)
  obtain ⟨e, -, hsame⟩ := error_of_answered habout hlast
  exact ⟨e, hsame⟩

/-- **A call goes on** when its turn comes: with what the machine has
answered, or what has come in for it, or not at all. -/
theorem Sound.goOn (h : s.Sound) (t : Ticket) : (s.goOn t).Sound := by
  rcases s.goOn_cases t with ⟨-, hsame⟩ | ⟨c, -, hc, rfl, hran, hgoes⟩
  · rw [hsame]
    exact h
  have hdriven : (s.goOn c.ticket).client.Driven := hran ▸ h.driven.move (.caller c.ticket)
  have hpromises : ∀ d ∈ (s.goOn c.ticket).client.promises, d ∈ s.client.promises := fun d howed =>
    (promises_runCaller _ c.ticket).subset (hran ▸ howed)
  generalize s.goOn c.ticket = s' at hdriven hpromises hgoes
  cases hgoes with
  | @told answer result hgiven hlast =>
      have hworks : Works (.caller c.ticket) s.client
          { s.client with answers := s.client.answers.filter (·.1 ≠ c.ticket) } :=
        works_of_waiting _ rfl rfl rfl fun _ => id
      have hfailed := fun habout => h.fails hc habout hgiven hlast
      have hunread : ∀ v, c.goal = s.reads → result ≠ .ok (.data v) := by
        rintro v hreading rfl
        obtain ⟨e, hsame⟩ := hfailed (hreading ▸ rfl)
        cases hsame
      have hunwritten : ∀ x, c.goal = s.writes x → result ≠ .ok .nothing := by
        rintro x hwriting rfl
        obtain ⟨e, hsame⟩ := hfailed (hwriting ▸ rfl)
        cases hsame
      refine h.finish (r := { s.client with answers := s.client.answers.filter (·.1 ≠ c.ticket) })
        hc hdriven hworks hpromises ⟨fun v hreading hsame => absurd hsame (hunread v hreading),
          fun x hwriting hsame => absurd hsame (hunwritten x hwriting)⟩ fun v hheld => ?_
      refine (h.sourced v hheld).snoc fun w x hsame => ?_
      injection hsame with hticket hwriting hresult
      exact hunwritten x hwriting hresult
  | @carries r₁ r' hsends hcollects =>
      have hcontinues := hsends.continues.trans (continues_proceed r₁ c.ticket)
      exact h.carriesOn hc hdriven hpromises hcontinues.toWorks
        (fun habout => hcontinues.exchanges _ (h.exchanges c hc habout)) hcollects

/-! ## A call is made -/

/-- **A call begins**, under a ticket that nobody has had, so nothing that was
told before can be about it. -/
theorem Sound.begins (h : s.Sound) {c : Caller} {r : ClientRun} (hbegun : Begun s.client c r) :
    ({ s with client := r, past := s.past ++ [.began c.ticket c.goal] } : SharedValue).Sound where
  driven := h.driven.congr hbegun.engine
  distinct := by
    refine hbegun.callers ▸ List.pairwise_append.mpr ⟨h.distinct, List.pairwise_singleton _ _, ?_⟩
    intro c' hc' d hd
    cases List.mem_singleton.mp hd
    exact Nat.ne_of_lt (hbegun.new ▸ h.known c' hc')
  known := by
    intro c' hc'
    rw [hbegun.tickets]
    rcases List.mem_append.mp (hbegun.callers ▸ hc') with hold | hown
    · exact Nat.lt_succ_of_lt (h.known c' hold)
    · cases List.mem_singleton.mp hown
      exact hbegun.new ▸ Nat.lt_succ_self _
  fresh := by
    intro t hunknown
    rw [hbegun.tickets] at hunknown
    exact (h.fresh t (Nat.le_of_succ_le hunknown)).leaves (hbegun.leaves t)
  owed := fun d howed => hbegun.tickets ▸ Nat.lt_succ_of_lt (h.owed d (hbegun.promises ▸ howed))
  sessions := by
    intro c' hc' habout d howed hsame
    rcases List.mem_append.mp (hbegun.callers ▸ hc') with hold | hown
    · exact h.sessions c' hold habout d (hbegun.promises ▸ howed) hsame
    · cases List.mem_singleton.mp hown
      exact absurd (hsame.trans hbegun.new) (Nat.ne_of_lt (h.owed d (hbegun.promises ▸ howed)))
  exchanges := by
    intro c' hc' habout
    rcases List.mem_append.mp (hbegun.callers ▸ hc') with hold | hown
    · refine ((h.exchanges c' hold habout).mono fun b hgiven => ?_).leaves (hbegun.leaves _)
      rw [SharedValue.answers, List.filterMap_append]
      exact List.mem_append_left _ hgiven
    · cases List.mem_singleton.mp hown
      exact ((h.fresh c.ticket (Nat.le_of_eq hbegun.new.symm)).leaves (hbegun.leaves _)).exchanges
  tickets := by
    intro d hd
    rw [hbegun.tickets]
    rcases List.mem_append.mp hd with hold | hown
    · exact Nat.lt_succ_of_lt (h.tickets d hold)
    · cases List.mem_singleton.mp hown
      exact hbegun.new ▸ Nat.lt_succ_self _
  goals := by
    intro c' hc' d hd hsame
    have hunheard : ∀ d ∈ s.past, d.ticket ≠ c.ticket := fun d hold =>
      Nat.ne_of_lt (hbegun.new ▸ h.tickets d hold)
    rcases List.mem_append.mp hd with holdDeed | hownDeed <;>
      rcases List.mem_append.mp (hbegun.callers ▸ hc') with hold | hown
    · exact h.goals c' hold d holdDeed hsame
    · cases List.mem_singleton.mp hown
      exact absurd hsame (hunheard d holdDeed)
    · cases List.mem_singleton.mp hownDeed
      exact absurd (hsame.symm.trans hbegun.new) (Nat.ne_of_lt (h.known c' hold))
    · cases List.mem_singleton.mp hownDeed
      cases List.mem_singleton.mp hown
      rfl
  held := h.held
  told := h.told.snoc fun d hd => Nat.ne_of_lt (hbegun.new ▸ h.tickets d hd)
  sourced := fun v hheld => (h.sourced v (hbegun.cache _ v hheld)).snoc fun w x => nofun

/-- **A call is made**: it begins, and may be over at once where the cache
holds the value or where nothing can be asked. -/
theorem Sound.call (h : s.Sound) (id : String) (direct : Bool) (g : Goal) :
    (s.call id direct g).Sound := by
  have hdriven : (s.call id direct g).client.Driven := h.driven.move (.act (.call id direct g))
  obtain ⟨c, r, -, hbegun, hmade⟩ := s.call_cases id direct g
  generalize s.call id direct g = s' at hdriven hmade
  have hbegan := h.begins hbegun
  have hhere : c ∈ r.callers := by simp [hbegun.callers]
  cases hmade with
  | @found node a v hreading hfleeting hheld =>
      refine hbegan.finish hhere hdriven (.refl _ r) (fun _ howed => howed)
        ⟨fun v' hwanted hgot => ?_, ?_⟩ ?_
      · have hkey : (node, a) = s.key := by
          cases hreading.symm.trans hwanted
          rfl
        cases hgot
        exact .inr ⟨s.past, hwanted ▸ rfl, h.sourced v (hkey ▸ hheld)⟩
      · intro x hwriting
        cases hreading.symm.trans hwriting
      · refine fun v hheld => (hbegan.sourced v hheld).snoc fun w x hsame => ?_
        injection hsame with hticket hgoal hresult
        cases hresult
  | @asks command hdue =>
      have hworks := works_pushCommand r .machine command
      refine hbegan.quiet hdriven (congrArg (·.1) hworks.desk) (congrArg (·.2.1) hworks.desk)
        (fun key v hheld => cache_of_desk hworks.desk ▸ hheld) (fun d howed => ?_)
        (fun t _ => hworks.others _ (by simp)) fun c' hc' habout =>
          (hbegan.exchanges c' hc' habout).leaves (hworks.others _ (by simp))
      rw [promises_pushCommand] at howed
      refine (List.mem_append.mp howed).imp_right fun hnew => ?_
      obtain ⟨hown, hsession⟩ := hdue d (Option.mem_toList.mp hnew)
      refine ⟨hown ▸ hbegan.known c hhere, fun c' hc' habout hsame => ?_⟩
      obtain rfl := hbegan.eq_of_ticket hc' hhere (hsame.symm.trans hown)
      exact hsession habout
  | @uses call hother =>
      have hworks := (works_use r (.caller c.ticket) call).trans (works_proceed _ _)
      refine hbegan.carriesOn hhere hdriven (fun d howed => ?_) hworks
        (fun habout => absurd habout hother) (collects _ c)
      have hengine := engine_of_core ((core_collect _ c).trans (core_use r (.caller c.ticket) call))
      have hanswers := (answers_collect _ c).trans
        (answers_of_backdrop (backdrop_use r (.caller c.ticket) call))
      rwa [promises_congr (congrArg Engine.machine hengine) hanswers] at howed

/-! ## The server -/

/-- The server comes to hold more values.  What was held under a number still
is. -/
theorem Sound.grow (h : s.Sound) (more : List DataValue) :
    ({ s with versions := s.versions ++ more } : SharedValue).Sound :=
  have hgrows : Grows s { s with versions := s.versions ++ more } :=
    ⟨rfl, List.prefix_append _ _⟩
  { h.toMinded with
    held := by simp [h.held]
    told := h.told.grows hgrows
    sourced := fun v hheld => (h.sourced v hheld).grows hgrows }

/-- An answer to a read was held last, and what an answer to a write says is
written is held from then on; whatever was answered before was held before. -/
theorem Sound.answerable (h : s.Sound) {t : Ticket} (hunanswered : s.answers.all (·.1 ≠ t))
    {g : Goal} {b : Response} (htruthful : s.Truthful g b) :
    ({ s with versions := s.versions ++ (written? g b).toList } : SharedValue).Justified s.past
      (.answered t g b ((s.versions ++ (written? g b).toList).length - 1)) := by
  have hnonempty := List.length_pos_iff.mpr h.held
  have hmore : (s.versions ++ (written? g b).toList).length =
      s.versions.length + (written? g b).toList.length := List.length_append
  refine ⟨Nat.sub_one_lt (by omega), fun d hd earlier his => ?_, fun v hreading hbrought => ?_,
    fun v hwritten => ?_⟩
  · cases d with
    | answered t' g' b' version =>
        cases his
        obtain ⟨before, after, hsplit⟩ := List.append_of_mem hd
        have hheld := (h.told before _ after hsplit).1
        refine ⟨?_, by omega⟩
        have hanswered : (t', b') ∈ s.answers := List.mem_filterMap.mpr ⟨_, hd, rfl⟩
        have hother := List.all_eq_true.mp hunanswered _ hanswered
        simp only [decide_eq_true_eq] at hother
        exact hother
    | _ => cases his
  · have hreading : g = s.reads := hreading
    have hlast : s.versions.getLast? = some v := by
      simpa [Truthful, SharedValue.reads, hreading, hbrought] using htruthful
    have hunwritten : written? g b = none := hreading ▸ rfl
    rw [List.getLast?_eq_getElem?] at hlast
    simpa [hunwritten] using hlast
  · rw [hwritten]
    simp

/-- The server has answered a call about the value, and the past tells so;
nothing has come in for the call yet. -/
theorem Sound.tell (h : s.Sound) {c : Caller} (hc : c ∈ s.client.callers) {b : Response}
    {version : Nat} (hjustified : s.Justified s.past (.answered c.ticket c.goal b version)) :
    ({ s with past := s.past ++ [.answered c.ticket c.goal b version] } : SharedValue).Sound :=
  have hminded := h.toMinded.goes [.answered c.ticket c.goal b version] h.driven (.refl _) rfl
    (fun d howed => .inl howed) (fun t _ => .refl _ _) h.exchanges (by
      intro d hd
      cases List.mem_singleton.mp hd
      refine ⟨h.known c hc, fun c' hc' hsame => ?_⟩
      rw [h.eq_of_ticket hc' hc hsame.symm]
      rfl)
  { hminded with
    held := h.held
    told := h.told.snoc hjustified
    sourced := fun v hheld => (h.sourced v hheld).snoc fun w x => nofun }

/-- **The server answers** a request that it was sent and has not answered, a
read with what it holds then; or it does nothing. -/
theorem Sound.answer (h : s.Sound) (t : Ticket) (b : Response) : (s.answer t b).Sound := by
  rcases s.answer_cases t b with hsame | ⟨c, hc, rfl, -, htruthful, -, hunanswered, hanswered⟩
  · rw [hsame]
    exact h
  · rw [hanswered]
    exact (h.grow _).tell hc (h.answerable hunanswered htruthful)

/-- Whatever move the client makes, and each of several things told by
itself. -/
theorem Sound.move (h : s.Sound) (m : Move) : (s.move m).Sound := by
  have hdriven := h.driven.move m
  have hmoved := s.move_cases m
  generalize s.move m = s' at hmoved
  cases hmoved with
  | aside haside => exact h.aside hdriven (aside_move h.driven haside)
  | calls => exact h.call _ _ _
  | goesOn => exact h.goOn _
  | takesIn hadmits htaken => exact h.received hadmits (htaken ▸ hdriven)
  | nothing => exact h

/-- **Every dealing keeps the past as it should be**, and the cache filled
with what was brought. -/
theorem Sound.deal (h : s.Sound) (d : Dealing) : (s.deal d).Sound := by
  cases d with
  | move m => exact h.move m
  | answer t r => exact h.answer t r
  | change v => exact h.grow [v]

/-- Whatever dealings there are, one after the other, every deed is justified,
and what the cache holds was brought. -/
theorem Sound.deals (h : s.Sound) (ds : List Dealing) : (ds.foldl SharedValue.deal s).Sound := by
  induction ds generalizing s with
  | nil => exact h
  | cons d ds ih => exact ih (h.deal d)

end SharedValue

end OpcSession.Simulation
