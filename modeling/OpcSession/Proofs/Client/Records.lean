import OpcSession.Proofs.Client.OwnValue

/-!
# The past of a value that nobody else changes

A past is in order if no call does anything before it has begun or after it is over,
if the server answers only requests that were sent, a read with what it holds, and if
a call about the value gives what the answer to its request says, unless it fails for
want of an answer or could send nothing, or finds a good value in the cache.

* `OwnValue.Recorded` — the past is in order, and every call is at its stage;
* `OwnValue.Recorded.takeIn`, `OwnValue.Recorded.goOn`, `OwnValue.Recorded.call`,
  `OwnValue.Recorded.answer` — how a response, a call and an answer keep it so;
* `OwnValue.Recorded.turns` — every past is in order.
-/

namespace OpcSession.Simulation

open Session Client

namespace OwnValue

open ClientRun SharedValue

variable (w : OwnValue)

/-- The past is in order, and every call is at its stage.  This is what every
turn keeps, and what the law about reads is read off. -/
structure Recorded : Prop where
  /-- The server holds what the past says. -/
  held : w.versions.getLast? = some (w.stored w.past)
  /-- The cache holds good values only. -/
  good : ∀ key v, w.client.cache.Holds key v → v.status.isGood
  /-- The machine owes each call one answer at most. -/
  single : (w.client.promises.map Due.ticket).Nodup
  /-- Letters are about calls that were made. -/
  known : ∀ x ∈ w.letters, x.ticket < w.client.nextTicket
  /-- Calls that are not over are open in the past. -/
  waiting : ∀ c ∈ w.client.callers, Open w.past c.ticket c.goal
  /-- Every call about the value is at one of the stages. -/
  stages : ∀ c ∈ w.client.callers, w.About c.goal → Stage w.letters w.past w.client c
  /-- What the server has answered was asked. -/
  asked : ∀ t g b version, .answered t g b version ∈ w.past → Sent w.letters t g
  /-- Every deed came when it may come. -/
  timely : ∀ before d after, w.past = before ++ d :: after → w.Timely before d

variable {w} {past : List Deed} {t : Ticket} {g : Goal} {more : List Letter}
  {r r' : ClientRun} {c : Caller} {result : Result}

/-! ## What keeps a past in order -/

/-- In the beginning nothing has happened, and the cache is empty. -/
theorem recorded_start (url : String) (settings : ClientSettings) (endpoint : EndpointDescription)
    (credentials : Credentials) (key : Cache.Key) (v : DataValue)
    (makes : Nat → DataValue → DataValue) :
    (start url settings endpoint credentials key v makes).Recorded where
  held := rfl
  good := fun key v hheld => absurd hheld (AttributeCache.holds_ofSettings _)
  single := by simp [start, SharedValue.start, ClientRun.start, promises, Machine.prospects,
    Machine.dues, State.dues, State.waiters, State.completions]
  known := by simp [start]
  waiting := by simp [start, SharedValue.start, ClientRun.start]
  stages := by simp [start, SharedValue.start, ClientRun.start]
  asked := by simp [start, SharedValue.start]
  timely := by simp [start, SharedValue.start]

/-- Letters of calls that are not over change nothing of what has happened. -/
theorem Recorded.timely_extend (h : w.Recorded)
    (hcurrent : ∀ x ∈ more, ∃ c ∈ w.client.callers, x.ticket = c.ticket) (r : ClientRun)
    (versions : List DataValue) (past : List Deed) :
    ∀ before d after, w.past = before ++ d :: after →
      ({ w with
        client := r
        versions := versions
        past := past
        letters := w.letters ++ more } : OwnValue).Timely before d := by
  intro before d after hsplit
  have htimely := h.timely before d after hsplit
  cases d with
  | returned t g result =>
      refine ⟨htimely.1, fun habout => (htimely.2 habout).extend fun x hx hsame => ?_⟩
      obtain ⟨c, hc, hticket⟩ := hcurrent x hx
      exact (h.waiting c hc).2 (.returned t g result) (by simp [hsplit])
        (hsame.symm.trans hticket) rfl
  | _ => exact htimely

/-- No call is made or is over, and every call is at some stage afterwards. -/
structure Rests (w : OwnValue) (r : ClientRun) (more : List Letter) : Prop where
  /-- The calls are those that were there. -/
  callers : r.callers = w.client.callers
  tickets : r.nextTicket = w.client.nextTicket
  /-- The cache has come by nothing. -/
  cache : ∀ key v, r.cache.Holds key v → w.client.cache.Holds key v
  /-- The machine owes each call one answer at most. -/
  single : (r.promises.map Due.ticket).Nodup
  /-- New letters are about calls that are not over. -/
  current : ∀ x ∈ more, ∃ c ∈ w.client.callers, x.ticket = c.ticket
  /-- Every call about the value is at one of the stages, with the new
  letters. -/
  stages : ∀ c ∈ w.client.callers, w.About c.goal → Stage (w.letters ++ more) w.past r c

/-- Where calls rest the past stays in order, for nothing is added to it. -/
theorem Recorded.rests (h : w.Recorded) (hsound : w.toSharedValue.Sound) (hrests : Rests w r more) :
    ({ w with client := r, letters := w.letters ++ more } : OwnValue).Recorded where
  held := h.held
  good := fun key v hheld => h.good key v (hrests.cache key v hheld)
  single := hrests.single
  known := by
    intro x hx
    rw [hrests.tickets]
    rcases List.mem_append.mp hx with hold | hnew
    · exact h.known x hold
    · obtain ⟨c, hc, hticket⟩ := hrests.current x hnew
      exact hticket ▸ hsound.known c hc
  waiting := hrests.callers ▸ h.waiting
  stages := hrests.callers ▸ hrests.stages
  asked := fun t g b version hanswered => (h.asked t g b version hanswered).extend more
  timely := h.timely_extend hrests.current _ _ _

/-- What is done beside the calls fails requests at most, which leaves them at
their stages. -/
theorem Recorded.aside (h : w.Recorded) (hsound : w.toSharedValue.Sound)
    (haside : Aside w.client r) : ({ w with client := r } : OwnValue).Recorded := by
  have hrests : Rests w r [] :=
    { callers := haside.callers
      tickets := haside.tickets
      cache := haside.cache
      single := (haside.promises.map Due.ticket).nodup_iff.mpr h.single
      current := by simp
      stages := fun c hc habout => by
        have hstage := (h.stages c hc habout).others (haside.others c.ticket)
          (fun d howed _ => haside.promises.subset howed) [] (by simp) []
        rwa [List.append_nil w.past] at hstage }
  have hrecorded := h.rests hsound hrests
  rwa [List.append_nil] at hrecorded

/-- **A response comes in** that the server has given, and the call that waits
for it is answered; the others stay at their stages. -/
theorem Recorded.takeIn (h : w.Recorded) (hsound : w.toSharedValue.Sound) {e : ResponseEnvelope}
    (hadmits : w.Admits e) :
    ({ w with
      client := w.client.takeIn e
      letters := w.letters ++ w.post (.received e) } : OwnValue).Recorded := by
  have hstill := still_takeIn w.client e
  have hfewer : ∀ d ∈ (w.client.takeIn e).promises, d ∈ w.client.promises := fun d howed =>
    hstill.promises.subset howed
  have hcurrent : ∀ x ∈ w.post (.received e), ∃ c ∈ w.client.callers, x.ticket = c.ticket ∧
      (w.client.channel.receive e).2.1 = some (.caller c.ticket) := by
    intro x hx
    simp only [post] at hx
    split at hx
    · rename_i t hgets
      split at hx
      · rename_i hthere
        obtain ⟨c, hc, hticket⟩ := List.any_eq_true.mp hthere.2
        obtain rfl : c.ticket = t := by simpa using hticket
        cases List.mem_singleton.mp hx
        exact ⟨c, hc, rfl, hgets⟩
      · cases hx
    · cases hx
  refine h.rests hsound
    { callers := hstill.callers
      tickets := hstill.tickets
      cache := hstill.cache
      single := (hstill.promises.map Due.ticket).nodup_iff.mpr h.single
      current := fun x hx => (hcurrent x hx).imp fun c ⟨hc, hticket, _⟩ => ⟨hc, hticket⟩
      stages := fun c hc habout => ?_ }
  by_cases hgets : (w.client.channel.receive e).2.1 = some (.caller c.ticket)
  · have hpending := pending_of_receive hgets
    have hwaits := mem_awaited_of_pending hpending
    cases h.stages c hc habout with
    | asks habsent => exact absurd hwaits (habsent.alone _)
    | refused _ hgot => exact absurd hwaits (hgot.alone _)
    | answered _ hgot => exact absurd hwaits (hgot.alone _)
    | waits hsettled hunanswered =>
        obtain ⟨version, hanswered, -⟩ := hsound.answered hc (hadmits c hc habout hpending)
        exact .answered (hsettled.fewer fun d howed _ => hfewer d howed) (hunanswered.takeIn hgets)
          hanswered
  · have hstage := (h.stages c hc habout).others (leaves_takeIn hgets)
      (fun d howed _ => hfewer d howed) (w.post (.received e)) (fun x hx hsame => ?_) []
    · rwa [List.append_nil w.past] at hstage
    · obtain ⟨c', hc', hticket, hgets'⟩ := hcurrent x hx
      exact hgets (by rw [hgets', ← hticket, hsame])

/-- A response that comes in is one that the server has given, or is left
out. -/
theorem Recorded.received (h : w.Recorded) (hsound : w.toSharedValue.Sound)
    (e : ResponseEnvelope) : (w.turn (.move (.received e))).Recorded := by
  by_cases hcomes : w.Admits e ∧ w.client.channel.isConnected
  · simp only [turn, SharedValue.move, ClientRun.move, if_pos hcomes.1, if_pos hcomes.2]
    exact h.takeIn hsound hcomes.1
  · have hnothing : w.post (.received e) = [] := by
      simp only [post]
      split
      · rename_i t hgets
        refine if_neg fun hthere => hcomes ⟨hthere.1, ?_⟩
        exact isConnected_of_pending (pending_of_receive hgets)
      · rfl
    have hsame : w.toSharedValue.move (.received e) = w.toSharedValue := by
      simp only [SharedValue.move, ClientRun.move]
      split
      · rename_i hadmits
        rw [if_neg fun hconnected => hcomes ⟨hadmits, hconnected⟩]
      · rfl
    simp only [turn]
    rw [hnothing, hsame, List.append_nil]
    exact h

/-- **A call is over** in one of the ways in which it may be, and leaves the
others at their stages. -/
theorem Recorded.over (h : w.Recorded) (hsound : w.toSharedValue.Sound)
    (hc : c ∈ w.client.callers) (result : Result)
    (hcallers : r.callers = w.client.callers.filter (·.ticket ≠ c.ticket))
    (htickets : r.nextTicket = w.client.nextTicket)
    (hcache : ∀ key v, r.cache.Holds key v → w.client.cache.Holds key v ∨ v.status.isGood)
    (hpromises : r.promises.Sublist w.client.promises)
    (hown : ∀ x ∈ more, x.ticket = c.ticket)
    (hleaves : ∀ t, t ≠ c.ticket → Leaves (.caller t) w.client r)
    (hcomes : w.About c.goal → Comes w.key (w.letters ++ more) w.past c.ticket c.goal result) :
    ({ w with
      client := r
      past := w.past ++ [.returned c.ticket c.goal result]
      letters := w.letters ++ more } : OwnValue).Recorded := by
  have hleft : ∀ c' ∈ r.callers, c' ∈ w.client.callers ∧ c'.ticket ≠ c.ticket := by
    intro c' hc'
    rw [hcallers] at hc'
    simpa using List.mem_filter.mp hc'
  have hcurrent : ∀ x ∈ more, ∃ c ∈ w.client.callers, x.ticket = c.ticket := fun x hx =>
    ⟨c, hc, hown x hx⟩
  refine ⟨?_, fun key v hheld => (hcache key v hheld).elim (h.good key v) id,
    h.single.sublist (hpromises.map _), ?_, ?_, ?_, ?_, ?_⟩
  · exact h.held.trans (congrArg some (stored_append (by simp [Deed.written?])).symm)
  · intro x hx
    rw [htickets]
    rcases List.mem_append.mp hx with hold | hnew
    · exact h.known x hold
    · exact hown x hnew ▸ hsound.known c hc
  · intro c' hc'
    obtain ⟨hold, hother⟩ := hleft c' hc'
    exact (h.waiting c' hold).snoc fun hsame => absurd hsame.symm hother
  · intro c' hc' habout
    obtain ⟨hold, hother⟩ := hleft c' hc'
    exact (h.stages c' hold habout).others (hleaves _ hother)
      (fun d howed _ => hpromises.subset howed)
      more (fun x hx hsame => hother (hsame.symm.trans (hown x hx))) _
  · intro t g b version hanswered
    rcases List.mem_append.mp hanswered with hold | hnew
    · exact (h.asked t g b version hold).extend more
    · cases List.mem_singleton.mp hnew
  · intro before d after hsplit
    refine forall_split_snoc (P := OwnValue.Timely _) (h.timely_extend hcurrent _ _ _) ?_ hsplit
    exact ⟨h.waiting c hc, hcomes⟩

/-- A call that has begun has not sent anything yet, and waits to be given a
session. -/
theorem Recorded.asks (h : w.Recorded) (hsound : w.toSharedValue.Sound)
    (hbegun : Begun w.client c r) (hleaves : Leaves (.caller c.ticket) r r') (past : List Deed) :
    Stage w.letters past r' c :=
  have hfresh := hsound.fresh c.ticket (Nat.le_of_eq hbegun.new.symm)
  .asks ((hfresh.leaves (hbegun.leaves _)).leaves hleaves)
    fun x hx => Nat.ne_of_lt (hbegun.new ▸ h.known x hx)

/-- **A call begins**, under a ticket of which there are no letters. -/
theorem Recorded.begins (h : w.Recorded) (hsound : w.toSharedValue.Sound)
    (hbegun : Begun w.client c r) :
    ({ w with client := r, past := w.past ++ [.began c.ticket c.goal] } : OwnValue).Recorded where
  held := h.held.trans (congrArg some (stored_append (by simp [Deed.written?])).symm)
  good := fun key v hheld => h.good key v (hbegun.cache key v hheld)
  single := hbegun.promises ▸ h.single
  known := fun x hx => hbegun.tickets ▸ Nat.lt_succ_of_lt (h.known x hx)
  waiting := by
    intro c' hc'
    rcases List.mem_append.mp (hbegun.callers ▸ hc') with hold | hown
    · exact (h.waiting c' hold).snoc fun _ => Bool.false_ne_true
    · cases List.mem_singleton.mp hown
      refine ⟨List.mem_append_right _ List.mem_cons_self, fun d hd hsame => ?_⟩
      rcases List.mem_append.mp hd with hd | hd
      · exact absurd (hsame.trans hbegun.new) (Nat.ne_of_lt (hsound.tickets d hd))
      · cases List.mem_singleton.mp hd
        exact Bool.false_ne_true
  stages := by
    intro c' hc' habout
    rcases List.mem_append.mp (hbegun.callers ▸ hc') with hold | hown
    · have hstage := (h.stages c' hold habout).others (hbegun.leaves _)
        (fun d howed _ => hbegun.promises ▸ howed) [] (by simp) [.began c.ticket c.goal]
      rwa [List.append_nil] at hstage
    · cases List.mem_singleton.mp hown
      exact h.asks hsound hbegun (.refl _ r) _
  asked := by
    intro t g b version hanswered
    rcases List.mem_append.mp hanswered with hold | hnew
    · exact h.asked t g b version hold
    · cases List.mem_singleton.mp hnew
  timely := fun before d after hsplit =>
    have hlast : w.Timely w.past (.began c.ticket c.goal) := trivial
    forall_split_snoc (P := w.Timely) h.timely hlast hsplit

/-- **A call uses the channel**, and is over with what has come of that if
something has. -/
theorem Recorded.carriesOn (h : w.Recorded) (hsound : w.toSharedValue.Sound)
    (hc : c ∈ w.client.callers) (hworks : Works (.caller c.ticket) w.client r)
    (hcollects : Collects r c r') (hpromises : r.promises.Sublist w.client.promises)
    (hpromises' : r'.promises.Sublist w.client.promises) (hown : ∀ x ∈ more, x.ticket = c.ticket)
    (hstage : w.About c.goal → Stage (w.letters ++ more) w.past r c) :
    ({ w with
      client := r'
      past := w.past ++ w.returns r' c.ticket c.goal
      letters := w.letters ++ more } : OwnValue).Recorded := by
  cases hcollects with
  | nothing =>
      have hdone : r.done = w.client.done := congrArg (·.2.2.2) hworks.desk
      rw [returns_same _ _ hdone, List.append_nil]
      refine h.rests hsound
        { callers := congrArg (·.1) hworks.desk
          tickets := congrArg (·.2.1) hworks.desk
          cache := fun key v hheld => cache_of_desk hworks.desk ▸ hheld
          single := h.single.sublist (hpromises.map _)
          current := fun x hx => ⟨c, hc, hown x hx⟩
          stages := fun c' hc' habout => ?_ }
      by_cases hsame : c'.ticket = c.ticket
      · obtain rfl := hsound.eq_of_ticket hc' hc hsame
        exact hstage habout
      · have hother := (h.stages c' hc' habout).others
          (hworks.others _ fun heq => hsame (Owner.caller.inj heq))
          (fun d howed _ => hpromises.subset howed) more
          (fun x hx heq => hsame (heq.symm.trans (hown x hx))) []
        rwa [List.append_nil w.past] at hother
  | @ends outcome r₁ hcame hworks' =>
      have hall := hworks.trans hworks'
      have hdone : ({ r₁ with cache := (c.goal.returned r.now r.cache outcome).2 } :
          ClientRun).done = w.client.done := congrArg (·.2.2.2) hall.desk
      have hcallers : r₁.callers = w.client.callers := congrArg (·.1) hall.desk
      rw [returns_finish c _ _ _ hdone]
      refine h.over hsound hc _ (hcallers ▸ rfl) (congrArg (·.2.1) hall.desk)
        (fun key v hheld => ?_)
        hpromises' hown (fun t hother => ?_) fun habout => (hstage habout).comes hcame _ _ _
      · rw [← cache_of_desk hworks.desk]
        exact Goal.good_of_returned hheld
      · exact (hall.others _ fun hsame => hother (Owner.caller.inj hsame)).trans
          (.spared rfl rfl fun _ => id)

/-- **A call goes on** when its turn comes: it sends its request, or takes
what has come of it, or learns that there is no session. -/
theorem Recorded.goOn (h : w.Recorded) (hsound : w.toSharedValue.Sound) (t : Ticket) :
    (w.turn (.move (.caller t))).Recorded := by
  simp only [turn, SharedValue.move, post]
  rcases w.goOn_cases t with ⟨hnone, hsame⟩ | ⟨c, hfound, hc, rfl, hran, hgoes⟩
  · rw [hsame, hnone, List.append_nil]
    exact h
  rw [hfound]
  dsimp only
  have hfewer := promises_runCaller w.client c.ticket
  have hown : ∀ x ∈ w.client.lettersOf c.ticket (w.client.runCaller c.ticket),
      x.ticket = c.ticket := fun x => ticket_of_lettersOf
  rw [← hran] at hfewer hown ⊢
  generalize w.goOn c.ticket = s at hfewer hown hgoes ⊢
  cases hgoes with
  | @told answer result hgiven hlast =>
      refine h.over hsound hc _ rfl rfl (fun key v => .inl) hfewer hown
        (fun t hother => .spared rfl rfl fun _ => id) fun habout => ?_
      have hmem := List.mem_of_find?_eq_some hgiven
      obtain ⟨x, rfl⟩ := session_of_answer hmem (hsound.sessions c hc habout)
      obtain ⟨e, rfl, rfl⟩ := error_of_answered habout hlast
      have hrefusal : w.client.refusal? c.ticket = some e := by simp [refusal?, hgiven]
      obtain ⟨-, hsilent⟩ := (h.stages c hc habout).asks_of_given hmem
      rw [lettersOf_of_refusal hrefusal]
      · exact .refused (List.mem_append_right _ List.mem_cons_self)
          fun q => notMem_snoc hsilent rfl (by simp)
      · rfl
  | @carries r₁ r' hsends hcollects =>
      have hcontinues := hsends.continues.trans (continues_proceed r₁ c.ticket)
      refine h.carriesOn hsound hc hcontinues.toWorks hcollects ?_ hfewer hown fun habout => ?_
      · rw [promises_of_backdrop (backdrop_proceed _ _)]
        exact promises_sends hsends
      · obtain ⟨hstage, hlog⟩ := ((h.stages c hc habout).sends h.single hsends).proceeds
        rwa [lettersOf_congr (hcollects.log.trans hlog)]

/-- **A call is made**: it asks for a session, or finds its value in the
cache, or is about something else. -/
theorem Recorded.call (h : w.Recorded) (hsound : w.toSharedValue.Sound) (id : String)
    (direct : Bool) (g : Goal) : (w.turn (.move (.act (.call id direct g)))).Recorded := by
  simp only [turn, post, SharedValue.move, List.append_nil]
  obtain ⟨c, r, -, hbegun, hmade⟩ := w.call_cases id direct g
  generalize w.toSharedValue.call id direct g = s at hmade
  have hbegan := h.begins hsound hbegun
  have hbegins := hsound.begins hbegun
  have hhere : c ∈ r.callers := by simp [hbegun.callers]
  cases hmade with
  | @found node a v hreading hfleeting hheld =>
      have hcomes : w.About c.goal → Comes w.key (w.letters ++ [])
          (w.past ++ [.began c.ticket c.goal]) c.ticket c.goal (.ok (.data v)) := by
        intro habout
        rw [hreading] at habout ⊢
        obtain rfl : node = w.key.1 := congrArg Prod.fst habout
        obtain rfl : a = w.key.2 := congrArg Prod.snd habout
        exact .cached rfl rfl hfleeting (h.good _ v hheld)
      have hends := hbegan.over hbegins hhere (r := r.finish c (.ok (.data v))) _ rfl rfl
        (fun key v => .inl) (.refl _) (by simp)
        (fun t _ => .spared rfl rfl fun _ hwaits => hwaits) hcomes
      rwa [List.append_nil] at hends
  | @asks command hdue =>
      have hworks := works_pushCommand r .machine command
      have hold : ∀ d ∈ r.promises, d.ticket ≠ c.ticket := fun d howed =>
        Nat.ne_of_lt (hbegun.new ▸ hsound.owed d (hbegun.promises ▸ howed))
      have hnew : ∀ d ∈ command.due?.toList, d.ticket = c.ticket := fun d howed =>
        (hdue d (Option.mem_toList.mp howed)).1
      have hsingle : ((r.pushCommand command).promises.map Due.ticket).Nodup := by
        rw [promises_pushCommand, List.map_append]
        refine List.nodup_append.mpr ⟨hbegan.single, by cases command.due? <;> simp, ?_⟩
        intro t howed t' hasked hsame
        obtain ⟨d, hbefore, rfl⟩ := List.mem_map.mp howed
        obtain ⟨d', hnow, rfl⟩ := List.mem_map.mp hasked
        exact hold d hbefore (hsame.trans (hnew d' hnow))
      have hrests : Rests { w with client := r, past := w.past ++ [.began c.ticket c.goal] }
          (r.pushCommand command) [] :=
        { callers := congrArg (·.1) hworks.desk
          tickets := congrArg (·.2.1) hworks.desk
          cache := fun key v hheld => cache_of_desk hworks.desk ▸ hheld
          single := hsingle
          current := by simp
          stages := fun c' hc' habout => by
            rw [List.append_nil]
            by_cases hown : c'.ticket = c.ticket
            · obtain rfl := hbegins.eq_of_ticket hc' hhere hown
              exact h.asks hsound hbegun (hworks.others _ (by simp)) _
            · have hstage := (hbegan.stages c' hc' habout).others (hworks.others _ (by simp))
                (fun d howed hsame => by
                  rw [promises_pushCommand] at howed
                  refine (List.mem_append.mp howed).resolve_right fun hasked => ?_
                  exact hown (hsame.symm.trans (hnew d hasked))) [] (by simp) []
              rwa [List.append_nil, List.append_nil (_ ++ _)] at hstage }
      have hrecorded := hbegan.rests hbegins hrests
      rwa [List.append_nil] at hrecorded
  | @uses call hother =>
      have hworks := (works_use r (.caller c.ticket) call).trans (works_proceed _ _)
      have hpromises : ((r.use (.caller c.ticket) call).proceed (.caller c.ticket)).promises =
          r.promises :=
        promises_of_backdrop ((backdrop_proceed _ _).trans (backdrop_use _ _ _))
      have hengine := engine_of_core ((core_collect _ c).trans (core_use r (.caller c.ticket) call))
      have hanswers := (answers_collect _ c).trans
        (answers_of_backdrop (backdrop_use r (.caller c.ticket) call))
      have hcarried := hbegan.carriesOn hbegins hhere hworks (collects _ c) (hpromises ▸ .refl _)
        (promises_congr (congrArg Engine.machine hengine) hanswers ▸ .refl _)
        (List.forall_mem_nil _) fun habout => absurd habout hother
      rwa [List.append_nil] at hcarried

/-- **The server answers** a request that it was sent: a read with what it
holds, and a write by holding what it makes of it. -/
theorem Recorded.answer (h : w.Recorded) (t : Ticket) (b : Response) :
    (w.turn (.answer t b)).Recorded := by
  simp only [turn]
  rcases w.answer_cases t b with
    hsame | ⟨c, hc, rfl, habout, htruthful, ⟨handle, hwaits⟩, -, hanswered⟩
  · rw [hsame]
    exact { h with held := by simp [stored] }
  rw [hanswered]
  generalize (w.versions ++ (written? c.goal b).toList).length - 1 = version
  have hsent : Sent w.letters c.ticket c.goal := by
    cases h.stages c hc habout with
    | asks habsent => exact absurd hwaits (habsent.alone handle)
    | refused _ hgot => exact absurd hwaits (hgot.alone handle)
    | waits _ _ hsent => exact hsent
    | answered _ hgot => exact absurd hwaits (hgot.alone handle)
  refine ⟨by simp [stored], h.good, h.single, h.known, fun c' hc' => ?_, fun c' hc' habout => ?_,
    fun t' g' b' version' hanswered => ?_, fun before d after hsplit => ?_⟩
  · exact (h.waiting c' hc').snoc fun _ => Bool.false_ne_true
  · have hstage := (h.stages c' hc' habout).others (.refl _ _) (fun d howed _ => howed)
      [] (by simp) [.answered c.ticket c.goal b version]
    rwa [List.append_nil] at hstage
  · rcases List.mem_append.mp hanswered with hold | hnew
    · exact h.asked t' g' b' version' hold
    · cases List.mem_singleton.mp hnew
      exact hsent
  · refine forall_split_snoc (P := w.Timely) h.timely ?_ hsplit
    refine ⟨habout, h.waiting c hc, fun hreading v hbrought => ?_⟩
    have hheld : w.versions.getLast? = some v := by
      simpa [Truthful, SharedValue.reads, hreading, hbrought] using htruthful
    exact Option.some.inj (hheld.symm.trans h.held)

/-- **Whatever the next turn is, the past stays in order.**  Each kind of turn
is one of the lemmas above. -/
theorem Recorded.turn (h : w.Recorded) (hsound : w.toSharedValue.Sound) (x : Turn) :
    (w.turn x).Recorded := by
  cases x with
  | answer t b => exact h.answer t b
  | care x => exact h.aside hsound (aside_care _ x)
  | move m =>
      by_cases haside : m.isAside
      · have hmoved : w.turn (.move m) = { w with client := w.client.move m } := by
          cases m with
          | act a =>
              cases a with
              | call id direct g => cases haside
              | batch actions => cases haside
              | _ => simp only [OwnValue.turn, post, List.append_nil, SharedValue.move]
          | caller t => cases haside
          | received e => cases haside
          | _ => simp only [OwnValue.turn, post, List.append_nil, SharedValue.move]
        rw [hmoved]
        exact h.aside hsound (aside_move hsound.driven haside)
      · cases m with
        | act a =>
            cases a with
            | call id direct g => exact h.call hsound id direct g
            | batch actions =>
                simp only [OwnValue.turn, post, List.append_nil, SharedValue.move]
                exact h
            | _ => exact absurd rfl haside
        | caller t => exact h.goOn hsound t
        | received e => exact h.received hsound e
        | _ => exact absurd rfl haside

/-- Whatever the next turn is, what the cache holds was brought, since a turn
is one of the dealings. -/
theorem sound_turn (hsound : w.toSharedValue.Sound) (x : Turn) :
    (w.turn x).toSharedValue.Sound := by
  cases x with
  | move m => exact hsound.move m
  | answer t b => exact (hsound.answer t b).grow _
  | care x => exact hsound.aside (hsound.driven.congr rfl) (aside_care _ x)

/-- **Every past is in order**, and what the cache holds was brought; by
induction on the turns. -/
theorem Recorded.turns (h : w.Recorded) (hsound : w.toSharedValue.Sound) (xs : List Turn) :
    (xs.foldl OwnValue.turn w).Recorded ∧ (xs.foldl OwnValue.turn w).toSharedValue.Sound := by
  induction xs generalizing w with
  | nil => exact ⟨h, hsound⟩
  | cons x xs ih => exact ih (h.turn hsound x) (sound_turn hsound x)

end OwnValue

end OpcSession.Simulation
