import OpcSession.Proofs.Client.Dealings
import OpcSession.Proofs.Client.Faults

/-!
# A value that nobody else changes

A server whose value changes only by the writes of one client that it answers with
success.  What it makes of a value that is written is up to it, so what it holds at
a point of the past is what it has made of the last write before that.

Beside the past there are letters: what calls have sent, what has come in for them,
and why they could send nothing.  A call about the value asks for a session, sends one
request unless that is refused, and waits for the response; what it comes to is told by
its letters.

* `Cache.Care`, `AttributeCache.care` — what is done to a cache beside the calls;
* `OwnValue`, `Turn`, `OwnValue.turn` — the client with the server, and what may
  happen next;
* `OwnValue.Comes` — how a call is over;
* `OwnValue.Stage`, `OwnValue.Stage.sends`, `OwnValue.Stage.comes` — how far a call has
  come, and what comes of it.
-/

namespace OpcSession

/-! ## The cache -/

/-- What is done to a cache beside the calls that use it.  All of it may drop
entries; the calls have to do without them. -/
inductive Cache.Care
  /-- The cache may hold so many entries from now on. -/
  | setMaxEntries (n : Nat)
  /-- Entries expire after so long from now on. -/
  | setExpireAfter (d : Duration)
  | reconfigure (settings : CacheSettings)
  /-- One attribute of a node is dropped. -/
  | invalidateAttribute (node : NodeId) (a : AttributeId)
  | invalidateAll

namespace AttributeCache

variable {V : Type} {c : AttributeCache V} {now : Duration} {key : Cache.Key} {v : V}

/-- What becomes of a cache that is seen to at some time. -/
def care (c : AttributeCache V) (now : Duration) : Cache.Care → AttributeCache V
  | .setMaxEntries n => c.setMaxEntries now n
  | .setExpireAfter d => c.setExpireAfter now d
  | .reconfigure settings => c.reconfigure now settings
  | .invalidateAttribute node a => c.invalidateAttribute node a
  | .invalidateAll => c.invalidateAll

/-- None of it adds a value, so whatever the cache holds afterwards it held
before. -/
theorem holds_care {x : Cache.Care} (h : (c.care now x).Holds key v) : c.Holds key v := by
  cases x with
  | setMaxEntries n => exact holds_rebuild h
  | setExpireAfter d => exact holds_rebuild h
  | reconfigure settings => exact holds_rebuild h
  | invalidateAttribute node a => exact (holds_invalidateAttribute h).2
  | invalidateAll =>
      obtain ⟨e, hnone, -⟩ := h
      cases hnone

end AttributeCache

/-! ## What calls ask for -/

namespace Client.Goal

open Session

/-- What a call is about is what it asks the server for: it reads the one
attribute, or writes it. -/
def Requests (g : Goal) (q : Request) : Prop :=
  match g with
  | read node a => q.body = .read (.ofNat 0) [{ node := node, attributeId := a }]
  | write node a x => q.body = .write [{ node := node, attributeId := a, value := x }]
  | _ => False

/-- What a call comes to by the response to its request; the cache has no part
in it. -/
def reply (g : Goal) (b : Response) : Result :=
  match b.fault?, g with
  | some status, _ => .error (.session (.serviceFault status))
  | none, read _ _ => (readValue b).map .data
  | none, write _ _ _ => (writeStatus b).bind fun status =>
      if status.isGood then .ok .nothing else .error (.status status)
  | none, _ => .ok (.response b)

variable {now : Duration} {cache : DataCache} {key : Cache.Key} {v : DataValue}

/-- When a call has a session it sends what it asks for, under whatever handle
it is given. -/
theorem requests_of_answered {g : Goal} {hint : UInt32} {answer : Session.Answer} {call : Call}
    (h : g.answered hint answer = .use call) :
    ∃ q : Request, call = .send q ∧ ∀ handle, g.Requests (q.withHandle handle) := by
  cases answer with
  | session x =>
      cases x with
      | error e => cases h
      | ok session =>
          cases g with
          | read node a =>
              cases h
              exact ⟨_, rfl, fun _ => rfl⟩
          | write node a x =>
              cases h
              exact ⟨_, rfl, fun _ => rfl⟩
          | _ => cases h
  | _ => cases h

/-- What a call returns after a response is what that response says, whatever
the cache holds. -/
theorem returned_outcome (g : Goal) (now : Duration) (cache : DataCache) (b : Response) :
    (g.returned now cache (Channel.outcome b)).1 = g.reply b := by
  unfold Channel.outcome
  cases hfault : b.fault? with
  | some status => simp [returned, reply, hfault]
  | none =>
      cases g with
      | read node a =>
          simp only [returned, reply, hfault]
          cases readValue b <;> rfl
      | write node a x =>
          simp only [returned, reply, hfault]
          cases writeStatus b with
          | error e => rfl
          | ok status => cases hgood : status.isGood <;> simp [Except.bind, hgood]
      | _ => simp [returned, reply, hfault]

/-- Only good values are added to the cache when a call is over. -/
theorem good_of_returned {g : Goal} {outcome : Session.Outcome}
    (h : (g.returned now cache outcome).2.Holds key v) : cache.Holds key v ∨ v.status.isGood := by
  cases outcome with
  | response r =>
      cases g with
      | read node a =>
          simp only [returned] at h
          split at h
          · exact .inl h
          · dsimp only at h
            split at h
            · rename_i hgood
              rcases AttributeCache.holds_put h with ⟨-, rfl⟩ | hbefore
              · exact .inr hgood
              · exact .inl hbefore
            · exact .inl h
      | write node a x =>
          simp only [returned] at h
          split at h
          · exact .inl h
          · split at h
            · exact .inl (AttributeCache.holds_invalidateAttribute h).2
            · exact .inl h
      | _ => exact .inl h
  | _ => exact .inl h

end Client.Goal

namespace Simulation

open Session Client

/-- What passes between a call and the server, or why nothing does.  Letters
are told beside the past, since the server knows nothing of them until it
answers. -/
inductive Letter
  /-- A request of the call was sent on the connection in use. -/
  | sent (ticket : Ticket) (request : RequestEnvelope)
  /-- A response has come in for the call, whether or not it has gone on
  since. -/
  | came (ticket : Ticket) (response : Response)
  /-- The call was told that there is no session, or the channel has sent
  nothing. -/
  | refused (ticket : Ticket) (error : SessionError)
deriving DecidableEq, Repr, Inhabited

namespace Letter

/-- The call that a letter is about. -/
def ticket : Letter → Ticket
  | sent t _ | came t _ | refused t _ => t

/-- Whether a letter tells of a request. -/
def isSent : Letter → Bool
  | sent _ _ => true
  | _ => false

/-- Whether a letter tells of a response. -/
def isCame : Letter → Bool
  | came _ _ => true
  | _ => false

end Letter

namespace ClientRun

/-- The cache is seen to beside the calls: it comes by nothing, and no call
notices. -/
theorem aside_care (r : ClientRun) (x : Cache.Care) :
    Aside r { r with cache := r.cache.care r.now x } :=
  aside_of_affairs rfl rfl rfl rfl fun _ _ => AttributeCache.holds_care

/-- Why a call that goes on sends nothing: the machine has told it that there
is no session, or the channel sends nothing.  The cache has no part in it. -/
def refusal? (r : ClientRun) (t : Ticket) : Option SessionError :=
  match r.answers.find? (·.1 = t) with
  | some (_, .session (.error e)) => some e
  | some (_, .session (.ok _)) => r.obstacle?
  | _ => none

/-- The letters of a call that has gone on: why it was refused, if it was, and
what it has sent. -/
def lettersOf (r : ClientRun) (t : Ticket) (r' : ClientRun) : List Letter :=
  (r.refusal? t).toList.map (.refused t) ++
    ((r'.log.drop r.log.length).filterMap Observation.sent?).map (.sent t)

variable {r r' : ClientRun} {t : Ticket}

/-- A call that was refused has one letter that says so. -/
theorem lettersOf_of_refusal {e : SessionError} (hrefusal : r.refusal? t = some e)
    (hlog : r'.log = r.log) : r.lettersOf t r' = [.refused t e] := by
  simp [lettersOf, hrefusal, hlog]

/-- A call that has sent nothing and was not refused has no letter. -/
theorem lettersOf_of_silence (hrefusal : r.refusal? t = none) (hlog : r'.log = r.log) :
    r.lettersOf t r' = [] := by
  simp [lettersOf, hrefusal, hlog]

/-- A call that has sent its request has a letter for that. -/
theorem lettersOf_of_sent {e : RequestEnvelope} {connection : ConnectionId}
    (hrefusal : r.refusal? t = none) (hlog : r'.log = r.log ++ [.sent e connection]) :
    r.lettersOf t r' = [.sent t e] := by
  simp [lettersOf, hrefusal, hlog, Observation.sent?]

/-- Only what was seen from outside counts among the letters. -/
theorem lettersOf_congr {r'' : ClientRun} (hlog : r''.log = r'.log) (t : Ticket) :
    r.lettersOf t r'' = r.lettersOf t r' := by
  rw [lettersOf, hlog, ← lettersOf]

theorem ticket_of_lettersOf {x : Letter} (h : x ∈ r.lettersOf t r') : x.ticket = t := by
  rcases List.mem_append.mp h with hrefused | hsent
  · obtain ⟨e, -, rfl⟩ := List.mem_map.mp hrefused
    rfl
  · obtain ⟨e, -, rfl⟩ := List.mem_map.mp hsent
    rfl

end ClientRun

/-! ## The past -/

namespace Deed

/-- Whether a call begins. -/
def isBegin : Deed → Bool
  | began _ _ => true
  | _ => false

/-- Whether a call is over. -/
def isReturn : Deed → Bool
  | returned _ _ _ => true
  | _ => false

/-- What is written where the server answers with success, which a fault is
not. -/
def written? : Deed → Option DataValue
  | answered _ g b _ => if b.fault?.isSome then none else Simulation.written? g b
  | _ => none

end Deed

/-- A client, and a server whose value nobody else changes.  What the server
makes of a value that is written, for example by stamping it with the time,
may differ from write to write. -/
structure OwnValue extends SharedValue where
  /-- What the server held at first, before anything was written. -/
  initial : DataValue
  /-- What the server makes of a value that is written, after so many
  others. -/
  makes : Nat → DataValue → DataValue
  /-- What has passed between the calls and the server, in order. -/
  letters : List Letter := []

/-- What may happen next.  Other than in dealings at large nobody else changes
the value. -/
inductive Turn
  /-- The client makes a move.  Of several things that are done to it at once
  each is told by itself. -/
  | move (m : ClientRun.Move)
  /-- The server answers the request of a call, if it was sent one. -/
  | answer (t : Ticket) (b : Response)
  /-- The cache is seen to, which may be at any time. -/
  | care (x : Cache.Care)

namespace OwnValue

open ClientRun SharedValue

variable (w : OwnValue)

/-- A client that was just made, and the value that the server holds then. -/
def start (url : String) (settings : ClientSettings) (endpoint : EndpointDescription)
    (credentials : Credentials) (key : Cache.Key) (v : DataValue)
    (makes : Nat → DataValue → DataValue) : OwnValue where
  toSharedValue := SharedValue.start url settings endpoint credentials key v
  initial := v
  makes := makes

/-- What was written up to a point of the past, by requests that the server
has answered with success. -/
def writings (past : List Deed) : List DataValue := past.filterMap Deed.written?

/-- What the server holds at a point of the past: what it has made of the last
writing, or what it held at first. -/
def stored (past : List Deed) : DataValue :=
  ((writings past).getLast?.map (w.makes ((writings past).length - 1))).getD w.initial

/-- The letters of a move: those of a call that goes on, or a response for one
that is not over. -/
def post : Move → List Letter
  | .caller t =>
    match w.client.callers.find? (·.ticket = t) with
    | some _ => w.client.lettersOf t (w.client.runCaller t)
    | none => []
  | .received e =>
    match (w.client.channel.receive e).2.1 with
    | some (.caller t) =>
      if w.Admits e ∧ w.client.callers.any (·.ticket = t) then [.came t e.body] else []
    | _ => []
  | _ => []

/-- What comes of a turn, for the client, the server, the past and the
letters. -/
def turn : Turn → OwnValue
  | .move m =>
    { w with toSharedValue := w.toSharedValue.move m, letters := w.letters ++ w.post m }
  | .answer t b =>
    -- Then the server holds what it has made of all that was written.
    let s := w.toSharedValue.answer t b
    { w with toSharedValue := { s with versions := s.versions ++ [w.stored s.past] } }
  | .care x =>
    { w with client := { w.client with cache := w.client.cache.care w.client.now x } }

/-- A call has sent what it asks for, and not something else. -/
def Sent (letters : List Letter) (t : Ticket) (g : Goal) : Prop :=
  ∃ e, .sent t e ∈ letters ∧ g.Requests e.body

/-! ## The order of deeds -/

/-- How a call about the value is over.  Only a read may also find the value
in the cache. -/
inductive Comes (key : Cache.Key) (letters : List Letter) (before : List Deed) (t : Ticket)
    (g : Goal) : Result → Prop
  /-- It gives what the answer to its request says, be that a value, success,
  or an error. -/
  | answered {b : Response} {version : Nat} (hanswered : .answered t g b version ∈ before) :
      Comes key letters before t g (g.reply b)
  /-- It is a read and gives at once a good value that was in the cache. -/
  | cached {earlier : List Deed} {v : DataValue} (hreads : g = .read key.1 key.2)
      (hatOnce : before = earlier ++ [.began t g]) (hfleeting : key.2 ≠ .value)
      (hgood : v.status.isGood) : Comes key letters before t g (.ok (.data v))
  /-- No response to its request has come in, and it has failed for want of
  one. -/
  | unanswered {e : SessionError} (hsent : Sent letters t g) (hunheard : ∀ b, .came t b ∉ letters) :
      Comes key letters before t g (.error (.session e))
  /-- It could not send its request, and gives the reason. -/
  | refused {e : SessionError} (hrefused : .refused t e ∈ letters)
      (hunsent : ∀ q, .sent t q ∉ letters) : Comes key letters before t g (.error (.session e))

/-- A call has begun, and is not over, as far as the past tells. -/
def Open (past : List Deed) (t : Ticket) (g : Goal) : Prop :=
  .began t g ∈ past ∧ ∀ d ∈ past, d.ticket = t → ¬ d.isReturn

/-- When a deed may come after those before it: nothing is answered or over
that is not open, and what a call gives is one of the ways in which it may be
over. -/
def Timely (before : List Deed) : Deed → Prop
  | .began _ _ => True
  | .answered t g b _ => w.About g ∧ Open before t g ∧
      (g = w.reads → ∀ v, readValue b = .ok v → v = w.stored before)
  | .returned t g result =>
      Open before t g ∧ (w.About g → Comes w.key w.letters before t g result)

/-- The machine has promised a call nothing that it was not given, so no
answer for it is on its way. -/
def Settled (r : ClientRun) (t : Ticket) : Prop := ∀ d ∈ r.promises, d.ticket ≠ t

/-- How far a call about the value has come.  The stages follow one another,
and at each it is known which letters there are. -/
inductive Stage (letters : List Letter) (past : List Deed) (r : ClientRun) (c : Caller) : Prop
  /-- It has asked for a session, and has no letters. -/
  | asks (habsent : Absent (.caller c.ticket) r) (hsilent : ∀ x ∈ letters, x.ticket ≠ c.ticket)
  /-- Its request was refused, and it has that to return with. -/
  | refused {e : SessionError} (hsettled : Settled r c.ticket)
      (hgot : Got (.caller c.ticket) (.failed e) r) (hrefused : .refused c.ticket e ∈ letters)
      (hunsent : ∀ q, .sent c.ticket q ∉ letters)
  /-- It has sent its request, and has no response; it waits, or has
  failed. -/
  | waits (hsettled : Settled r c.ticket) (hunanswered : Unanswered (.caller c.ticket) r)
      (hsent : Sent letters c.ticket c.goal) (hunheard : ∀ b, .came c.ticket b ∉ letters)
  /-- The response has come in, which is what the server has answered. -/
  | answered {b : Response} {version : Nat} (hsettled : Settled r c.ticket)
      (hgot : Got (.caller c.ticket) (Channel.outcome b) r)
      (hanswered : .answered c.ticket c.goal b version ∈ past)

variable {w} {past : List Deed} {d : Deed} {t : Ticket} {g : Goal}
  {letters more : List Letter} {r r' : ClientRun} {c : Caller} {key : Cache.Key} {result : Result}

/-- Where nothing is written the server holds what it held. -/
theorem stored_append {more : List Deed} (hunwritten : ∀ d ∈ more, d.written? = none) :
    w.stored (past ++ more) = w.stored past := by
  rw [stored, writings, List.filterMap_append, List.filterMap_eq_nil_iff.mpr hunwritten,
    List.append_nil, ← writings, ← stored]

theorem Open.snoc (h : Open past t g) (hother : d.ticket = t → ¬ d.isReturn) :
    Open (past ++ [d]) t g := by
  refine ⟨List.mem_append_left _ h.1, fun d' hd hsame => ?_⟩
  rcases List.mem_append.mp hd with hold | hnew
  · exact h.2 d' hold hsame
  · cases List.mem_singleton.mp hnew
    exact hother hsame

theorem Sent.extend (h : Sent letters t g) (more : List Letter) : Sent (letters ++ more) t g := by
  obtain ⟨e, hsent, hrequests⟩ := h
  exact ⟨e, List.mem_append_left _ hsent, hrequests⟩

/-- What is written on behalf of others is not among the letters of a call. -/
theorem notMem_append {x : Letter} (hold : x ∉ letters) (hothers : ∀ x ∈ more, x.ticket ≠ t)
    (hown : x.ticket = t) : x ∉ letters ++ more := fun h =>
  (List.mem_append.mp h).elim hold fun hnew => hothers x hnew hown

/-- What differs from the only letter that the call has written is not among
the letters either. -/
theorem notMem_snoc {x y : Letter} (hsilent : ∀ x ∈ letters, x.ticket ≠ t) (hown : x.ticket = t)
    (hother : x ≠ y) : x ∉ letters ++ [y] := fun h =>
  (List.mem_append.mp h).elim (fun hold => hsilent x hold hown) fun hnew =>
    hother (List.mem_singleton.mp hnew)

/-- What a call gives does not depend on the letters of others. -/
theorem Comes.extend (h : Comes key letters past t g result)
    (hothers : ∀ x ∈ more, x.ticket ≠ t) : Comes key (letters ++ more) past t g result := by
  cases h with
  | answered hanswered => exact .answered hanswered
  | cached hreads hatOnce hfleeting hgood => exact .cached hreads hatOnce hfleeting hgood
  | unanswered hsent hunheard =>
      exact .unanswered (hsent.extend more) fun b => notMem_append (hunheard b) hothers rfl
  | refused hrefused hunsent =>
      exact .refused (List.mem_append_left _ hrefused) fun q =>
        notMem_append (hunsent q) hothers rfl

/-- A call that is settled stays so while nobody is promised anything on its
behalf. -/
theorem Settled.fewer (h : Settled r t)
    (hfewer : ∀ d ∈ r'.promises, d.ticket = t → d ∈ r.promises) : Settled r' t :=
  fun d howed hsame => h d (hfewer d howed hsame) hsame

/-- What is done by others leaves a call where it is, or fails its request;
and then it is still at its stage, as one that was sent and has no
response. -/
theorem Stage.others (h : Stage letters past r c) (hleaves : Leaves (.caller c.ticket) r r')
    (hfewer : ∀ d ∈ r'.promises, d.ticket = c.ticket → d ∈ r.promises)
    (more : List Letter) (hothers : ∀ x ∈ more, x.ticket ≠ c.ticket) (deeds : List Deed) :
    Stage (letters ++ more) (past ++ deeds) r' c := by
  cases h with
  | asks habsent hsilent =>
      refine .asks (habsent.leaves hleaves) fun x hx => ?_
      exact (List.mem_append.mp hx).elim (hsilent x) (hothers x)
  | refused hsettled hgot hrefused hunsent =>
      exact .refused (hsettled.fewer hfewer) (hgot.leaves hleaves) (List.mem_append_left _ hrefused)
        fun q => notMem_append (hunsent q) hothers rfl
  | waits hsettled hunanswered hsent hunheard =>
      exact .waits (hsettled.fewer hfewer) (hunanswered.leaves hleaves) (hsent.extend more)
        fun b => notMem_append (hunheard b) hothers rfl
  | answered hsettled hgot hanswered =>
      exact .answered (hsettled.fewer hfewer) (hgot.leaves hleaves)
        (List.mem_append_left _ hanswered)

/-! ## How a call goes on -/

/-- Who was given an answer by the machine has not sent anything yet. -/
theorem Stage.asks_of_given (h : Stage letters past r c) {answer : Session.Answer}
    (hgiven : (c.ticket, answer) ∈ r.answers) :
    Absent (.caller c.ticket) r ∧ ∀ x ∈ letters, x.ticket ≠ c.ticket := by
  obtain ⟨d, hpromised, hticket⟩ := promised_of_given hgiven
  have howed : d ∈ r.promises := List.mem_append_left _ hpromised
  cases h with
  | asks habsent hsilent => exact ⟨habsent, hsilent⟩
  | refused hsettled => exact absurd hticket (hsettled d howed)
  | waits hsettled => exact absurd hticket (hsettled d howed)
  | answered hsettled => exact absurd hticket (hsettled d howed)

/-- **A call sends its request**, unless it has before.  The machine has
answered it, so it is settled from then on. -/
theorem Stage.sends (h : Stage letters past r c) (hsingle : (r.promises.map Due.ticket).Nodup)
    (hsends : Sends r c r') : Stage (letters ++ r.lettersOf c.ticket r') past r' c := by
  cases hsends with
  | before hunanswered =>
      rw [lettersOf_of_silence (by simp [refusal?, hunanswered]) rfl, List.append_nil]
      exact h
  | @now answer q hanswered hnext =>
      have hgiven := List.mem_of_find?_eq_some hanswered
      obtain ⟨habsent, hsilent⟩ := h.asks_of_given hgiven
      obtain ⟨session, rfl⟩ : ∃ session, answer = .session (.ok session) := by
        cases answer with
        | session x =>
            cases x with
            | error e => cases hnext
            | ok session => exact ⟨session, rfl⟩
        | _ => cases hnext
      have hrefusal : r.refusal? c.ticket = r.obstacle? := by simp [refusal?, hanswered]
      have hleft : Absent (.caller c.ticket)
          { r with answers := r.answers.filter (·.1 ≠ c.ticket) } :=
        ⟨habsent.idle, habsent.nothing, habsent.alone⟩
      have hsettled := settled_of_given hsingle hgiven
      have hpromises := promises_of_backdrop (backdrop_send
        { r with answers := r.answers.filter (·.1 ≠ c.ticket) } (.caller c.ticket) q)
      rw [← hpromises] at hsettled
      rcases hleft.send q with
        ⟨e, hobstacle, hlog, hgot⟩ | ⟨handle, connection, hlog, hfree, hunanswered⟩
      · rw [lettersOf_of_refusal (hrefusal.trans hobstacle) hlog]
        exact .refused hsettled hgot (List.mem_append_right _ List.mem_cons_self)
          fun q => notMem_snoc hsilent rfl nofun
      · obtain ⟨q', hcalled, hrequests⟩ := Goal.requests_of_answered hnext
        cases hcalled
        rw [lettersOf_of_sent (hrefusal.trans hfree) hlog]
        exact .waits hsettled hunanswered
          ⟨_, List.mem_append_right _ List.mem_cons_self, hrequests handle⟩
          fun b => notMem_snoc hsilent rfl nofun

/-- **A call goes on waiting**, or its request times out; it sends nothing. -/
theorem Stage.proceeds (h : Stage letters past r c) :
    Stage letters past (r.proceed (.caller c.ticket)) c ∧
      (r.proceed (.caller c.ticket)).log = r.log := by
  cases h with
  | asks habsent hsilent =>
      rw [proceed_of_idle habsent.idle]
      exact ⟨.asks habsent hsilent, rfl⟩
  | refused hsettled hgot hrefused hunsent =>
      rw [proceed_of_idle hgot.idle]
      exact ⟨.refused hsettled hgot hrefused hunsent, rfl⟩
  | answered hsettled hgot hanswered =>
      rw [proceed_of_idle hgot.idle]
      exact ⟨.answered hsettled hgot hanswered, rfl⟩
  | waits hsettled hunanswered hsent hunheard =>
      obtain ⟨hunanswered, hlog⟩ := hunanswered.proceed
      have hpromises := promises_of_backdrop (backdrop_proceed r (.caller c.ticket))
      exact ⟨.waits (hsettled.fewer fun d howed _ => hpromises ▸ howed) hunanswered hsent hunheard,
        hlog⟩

/-- **What comes of a call** when something has come for it is one of the ways
in which a call may be over. -/
theorem Stage.comes (h : Stage letters past r c) {outcome : Outcome}
    (hcame : r.outcome? (.caller c.ticket) = some outcome) (key : Cache.Key) (now : Duration)
    (cache : DataCache) :
    Comes key letters past c.ticket c.goal (c.goal.returned now cache outcome).1 := by
  cases h with
  | asks habsent => cases habsent.nothing.symm.trans hcame
  | refused _ hgot hrefused hunsent =>
      cases hgot.came.symm.trans hcame
      exact .refused hrefused hunsent
  | waits _ hunanswered hsent hunheard =>
      obtain ⟨e, rfl⟩ := hunanswered.came hcame
      exact .unanswered hsent hunheard
  | answered _ hgot hanswered =>
      cases hgot.came.symm.trans hcame
      rw [Goal.returned_outcome]
      exact .answered hanswered

end OwnValue

end Simulation

end OpcSession
