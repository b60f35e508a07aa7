import OpcSession.Proofs.Client.OwnValue
import OpcSession.Proofs.Client.Staleness

/-!
# After a write of unknown outcome

A write may be over in many ways once its request was sent: the server answers that it has
written the value, or that it has not, or with a fault, or with something else, or no response
comes in.  Whichever it is, the server may have applied the write.  The client drops the value
from its cache where the write returns with success, and keeps it otherwise.

So a read that follows gives a value that the server has held since it applied the write; or,
after a write that has not returned with success, what an earlier read has left in the cache.

* `Happening`, `SharedValue.happen` — dealings, and what is done to the cache;
* `SharedValue.Proceeds`, `SharedValue.Sound.proceeds` — what a happening does to the calls and
  to the server;
* `SharedValue.Follows` — what may be told of a later point;
* `SharedValue.Attempt`, `SharedValue.Aftermath` — a write without a read beside it, and where a
  read has its value from that follows;
* `SharedValue.reads_after_attempts` — the law;
* `SharedValue.stale_after_refusal` — a read that is stale.
-/

namespace OpcSession.Simulation

open Session Client

/-- What may happen next, the cache being seen to as well.  Entries may so be
lost at any time, which a law about what a read gives has to allow. -/
inductive Happening
  /-- A dealing between the client, the server and others. -/
  | deal (d : Dealing)
  | care (x : Cache.Care)

namespace SharedValue

open ClientRun

/-- What comes of a happening; to see to the cache adds nothing to the
past. -/
def happen (s : SharedValue) : Happening → SharedValue
  | .deal d => s.deal d
  | .care x => { s with client := { s.client with cache := s.client.cache.care s.client.now x } }

variable {s s' s'' : SharedValue} {past before between within after during : List Deed}
  {v x : DataValue} {t w : Ticket} {g : Goal} {version applied : Nat} {result : Result}

/-- Whatever happens next, every deed is justified, and what the cache holds
was brought. -/
theorem Sound.happen (h : s.Sound) (e : Happening) : (s.happen e).Sound := by
  cases e with
  | deal d => exact h.deal d
  | care x => exact h.aside (h.driven.congr rfl) (aside_care _ x)

/-- Whatever happens one after the other, every deed is justified, and what
the cache holds was brought. -/
theorem Sound.happens (h : s.Sound) (es : List Happening) :
    (es.foldl SharedValue.happen s).Sound := by
  induction es generalizing s with
  | nil => exact h
  | cons e es ih => exact ih (h.happen e)

/-! ## What a happening does -/

/-- A read has got its value from the server, and has not got it from the
cache. -/
def Fetched (s : SharedValue) (t : Ticket) (v : DataValue) : Prop :=
  ∃ r version, .answered t s.reads r version ∈ s.past ∧ s.versions[version]? = some v

/-- The deeds that one happening adds to the past: none, one, or the beginning
and the end of a call that was over at once. -/
inductive Adds (s : SharedValue) : List Deed → Prop
  /-- Nothing is told of what has happened. -/
  | nothing : Adds s []
  /-- A call has begun, under the next ticket. -/
  | began {g : Goal} : Adds s [.began s.client.nextTicket g]
  /-- A call was over at once.  A read of the value was then not of a node's
  value. -/
  | atOnce {g : Goal} {result : Result} (hlasting : g = s.reads → s.key.2 ≠ .value) :
      Adds s [.began s.client.nextTicket g, .returned s.client.nextTicket g result]
  /-- The server has answered an open call with what it holds now, which is
  the newest version or was before the answer. -/
  | answered {c : Caller} {r : Response} {version : Nat} (hwaiting : c ∈ s.client.callers)
      (hnewest : s.versions.length ≤ version + 1) : Adds s [.answered c.ticket c.goal r version]
  /-- An open call is over.  A read of the value then gives what the server
  has answered. -/
  | returned {c : Caller} {result : Result} (hwaiting : c ∈ s.client.callers)
      (hfetched : ∀ v, c.goal = s.reads → result = .ok (.data v) → s.Fetched c.ticket v) :
      Adds s [.returned c.ticket c.goal result]

/-- At a later point the server has come to hold more at most, and calls that
are open were open before or were made later. -/
structure Later (s s' : SharedValue) : Prop extends Grows s s' where
  tickets : s.client.nextTicket ≤ s'.client.nextTicket
  /-- A call that is open was open before, or was made since. -/
  callers : ∀ c ∈ s'.client.callers, c ∈ s.client.callers ∨ s.client.nextTicket ≤ c.ticket

theorem Later.refl (s : SharedValue) : Later s s where
  key := rfl
  versions := List.prefix_rfl
  tickets := Nat.le_refl _
  callers _ := .inl

theorem Later.trans (h : Later s s') (h' : Later s' s'') : Later s s'' where
  key := h'.key.trans h.key
  versions := h.versions.trans h'.versions
  tickets := Nat.le_trans h.tickets h'.tickets
  callers c hc := by
    rcases h'.callers c hc with hold | hnew
    · exact h.callers c hold
    · exact .inr (Nat.le_trans h.tickets hnew)

/-- **What a happening does**: the server may come to hold more, calls are
made or are over, and what they have done is told. -/
structure Proceeds (s s' : SharedValue) : Prop extends Later s s' where
  /-- Deeds were added behind those before, as one happening may add them. -/
  past : ∃ more, s'.past = s.past ++ more ∧ Adds s more

/-- What the client does, as it is told: the calls may be fewer, and the past
has what one happening adds. -/
theorem Proceeds.of_adds {r : ClientRun} {more : List Deed}
    (htickets : s.client.nextTicket ≤ r.nextTicket)
    (hcallers : ∀ c ∈ r.callers, c ∈ s.client.callers ∨ s.client.nextTicket ≤ c.ticket)
    (hadds : Adds s more) : Proceeds s { s with client := r, past := s.past ++ more } where
  key := rfl
  versions := List.prefix_rfl
  tickets := htickets
  callers := hcallers
  past := ⟨more, rfl, hadds⟩

/-- Nothing is done that would be told, and no call begins or is over. -/
theorem Proceeds.quiet (s : SharedValue) {r : ClientRun} (hcallers : r.callers = s.client.callers)
    (htickets : r.nextTicket = s.client.nextTicket) : Proceeds s { s with client := r } := by
  have hproceeds := Proceeds.of_adds (Nat.le_of_eq htickets.symm)
    (fun c hc => .inl (hcallers ▸ hc)) (Adds.nothing (s := s))
  rwa [List.append_nil] at hproceeds

/-- What a call returns that has used the channel: nothing so far, or one
result; nobody else returns by that. -/
theorem returns_of_collects {c : Caller} {r₁ r' : ClientRun}
    (hworks : Works (.caller c.ticket) s.client r₁) (hcollects : Collects r₁ c r') :
    r'.nextTicket = s.client.nextTicket ∧ (∀ c' ∈ r'.callers, c' ∈ s.client.callers) ∧
      (s.returns r' c.ticket c.goal = [] ∨
        ∃ outcome, r₁.outcome? (.caller c.ticket) = some outcome ∧
          s.returns r' c.ticket c.goal =
            [.returned c.ticket c.goal (c.goal.returned r₁.now r₁.cache outcome).1]) := by
  cases hcollects with
  | nothing =>
      have hcallers : r₁.callers = s.client.callers := congrArg (·.1) hworks.desk
      have hdone : r₁.done = s.client.done := congrArg (·.2.2.2) hworks.desk
      exact ⟨congrArg (·.2.1) hworks.desk, fun c' hc' => hcallers ▸ hc',
        .inl (returns_same _ _ hdone)⟩
  | @ends outcome r₂ hcame hworks' =>
      have hall := hworks.trans hworks'
      have hcallers : r₂.callers = s.client.callers := congrArg (·.1) hall.desk
      have hdone : ({ r₂ with cache := (c.goal.returned r₁.now r₁.cache outcome).2 } :
          ClientRun).done = s.client.done := congrArg (·.2.2.2) hall.desk
      refine ⟨congrArg (·.2.1) hall.desk, fun c' hc' => ?_,
        .inr ⟨outcome, hcame, returns_finish c _ _ _ hdone⟩⟩
      exact hcallers ▸ (List.mem_filter.mp hc').1

/-- A call that goes on adds its end to the past at most. -/
theorem Sound.proceeds_goOn (h : s.Sound) (t : Ticket) : Proceeds s (s.goOn t) := by
  rcases s.goOn_cases t with ⟨-, hsame⟩ | ⟨c, -, hc, rfl, -, hgoes⟩
  · rw [hsame]
    exact .quiet s rfl rfl
  generalize s.goOn c.ticket = s' at hgoes
  cases hgoes with
  | @told answer result hgiven hlast =>
      refine .of_adds (Nat.le_refl _) (fun c' hc' => .inl (List.mem_filter.mp hc').1)
        (.returned hc fun v hreading hbrought => ?_)
      obtain ⟨e, hfailed⟩ := h.fails hc (hreading ▸ rfl) hgiven hlast
      cases hfailed.symm.trans hbrought
  | @carries r₁ r' hsends hcollects =>
      have hcontinues := hsends.continues.trans (continues_proceed r₁ c.ticket)
      obtain ⟨htickets, hcallers, hreturns⟩ := returns_of_collects hcontinues.toWorks hcollects
      refine .of_adds (Nat.le_of_eq htickets.symm) (fun c' hc' => .inl (hcallers c' hc')) ?_
      rcases hreturns with hnothing | ⟨outcome, hcame, his⟩
      · exact hnothing ▸ .nothing
      · refine his ▸ .returned hc fun v hreading hbrought => ?_
        exact h.read_answered hc (fun habout =>
          (hcontinues.exchanges _ (h.exchanges c hc habout)).outcome _ hcame) hreading hbrought

/-- A call that is made adds its beginning, and its end if it is over at
once. -/
theorem proceeds_call (s : SharedValue) (id : String) (direct : Bool) (g : Goal) :
    Proceeds s (s.call id direct g) := by
  obtain ⟨c, r, -, hbegun, hmade⟩ := s.call_cases id direct g
  have hnew : c.ticket = s.client.nextTicket := hbegun.new
  have htickets : s.client.nextTicket ≤ r.nextTicket := hbegun.tickets ▸ Nat.le_succ _
  have hcallers : ∀ c' ∈ r.callers, c' ∈ s.client.callers ∨ s.client.nextTicket ≤ c'.ticket := by
    intro c' hc'
    rcases List.mem_append.mp (hbegun.callers ▸ hc') with hold | hown
    · exact .inl hold
    · cases List.mem_singleton.mp hown
      exact .inr (Nat.le_of_eq hnew.symm)
  generalize s.call id direct g = s' at hmade
  cases hmade with
  | @found node a v hreading hfleeting =>
      rw [List.append_assoc]
      refine .of_adds htickets (fun c' hc' => hcallers c' (List.mem_filter.mp hc').1)
        (hnew ▸ .atOnce fun hwanted => ?_)
      cases hreading.symm.trans hwanted
      exact hfleeting
  | @asks command =>
      have hdesk := (works_pushCommand r .machine command).desk
      have hsame : (r.pushCommand command).callers = r.callers := congrArg (·.1) hdesk
      have htickets' : (r.pushCommand command).nextTicket = r.nextTicket := congrArg (·.2.1) hdesk
      exact .of_adds (htickets' ▸ htickets) (fun c' hc' => hcallers c' (hsame ▸ hc'))
        (hnew ▸ .began)
  | @uses call hother =>
      have hworks := (works_use r (.caller c.ticket) call).trans (works_proceed _ _)
      obtain ⟨htickets', hcallers', hreturns⟩ := returns_of_collects
        (s := { s with client := r }) hworks (collects _ c)
      rw [List.append_assoc]
      refine .of_adds (Nat.le_trans htickets (Nat.le_of_eq htickets'.symm))
        (fun c' hc' => hcallers c' (hcallers' c' hc')) ?_
      rcases hreturns with hnothing | ⟨outcome, -, his⟩
      · rw [hnothing]
        exact hnew ▸ .began
      · rw [his]
        exact hnew ▸ .atOnce fun hreading => absurd (hreading ▸ rfl) hother

/-- Whatever move the client makes, it adds to the past what one happening
may. -/
theorem Sound.proceeds_move (h : s.Sound) (m : Move) : Proceeds s (s.move m) := by
  have hmoved := s.move_cases m
  generalize s.move m = s' at hmoved
  cases hmoved with
  | aside haside =>
      have hstill := (aside_move h.driven haside).toStill
      exact .quiet s hstill.callers hstill.tickets
  | calls => exact s.proceeds_call _ _ _
  | goesOn => exact h.proceeds_goOn _
  | @takesIn e =>
      have hstill := still_takeIn s.client e
      exact .quiet s hstill.callers hstill.tickets
  | nothing => exact .quiet s rfl rfl

theorem proceeds_answer (s : SharedValue) (t : Ticket) (b : Response) :
    Proceeds s (s.answer t b) := by
  rcases s.answer_cases t b with hsame | ⟨c, hc, rfl, -, -, -, -, hanswered⟩
  · rw [hsame]
    exact .quiet s rfl rfl
  · have hnewest : s.versions.length ≤
        (s.versions ++ (written? c.goal b).toList).length - 1 + 1 := by
      rw [List.length_append]
      omega
    rw [hanswered]
    exact { Later.refl s with
      versions := List.prefix_append _ _
      past := ⟨_, rfl, .answered hc hnewest⟩ }

/-- Whatever happens, it adds to the past what one happening may. -/
theorem Sound.proceeds (h : s.Sound) (e : Happening) : Proceeds s (s.happen e) := by
  cases e with
  | deal d =>
      cases d with
      | move m => exact h.proceeds_move m
      | answer t b => exact proceeds_answer s t b
      | change v =>
          exact { Later.refl s with
            versions := List.prefix_append _ _
            past := ⟨[], (List.append_nil _).symm, .nothing⟩ }
  | care x => exact .quiet s rfl rfl

/-! ## From one point on -/

/-- **What may be told of a later point.**  What has happened since, has
happened to calls that were open or were made later, and whoever was answered
was answered with what the server held last, or has come to hold since. -/
structure Follows (s s' : SharedValue) : Prop extends Later s s' where
  /-- Deeds were added behind those before, about calls that were open or have
  been made since, and with versions no older than the last. -/
  past : ∃ more, s'.past = s.past ++ more ∧ ∀ d ∈ more,
    ((∃ c ∈ s.client.callers, c.ticket = d.ticket) ∨ s.client.nextTicket ≤ d.ticket) ∧
      ∀ version ∈ d.version?, s.versions.length ≤ version + 1

theorem Follows.refl (s : SharedValue) : Follows s s where
  toLater := .refl s
  past := ⟨[], (List.append_nil _).symm, List.forall_mem_nil _⟩

theorem Follows.trans (h : Follows s s') (h' : Follows s' s'') : Follows s s'' where
  toLater := h.toLater.trans h'.toLater
  past := by
    obtain ⟨more, hpast, htold⟩ := h.past
    obtain ⟨more', hpast', htold'⟩ := h'.past
    refine ⟨more ++ more', by rw [hpast', hpast, List.append_assoc], fun d hd => ?_⟩
    rcases List.mem_append.mp hd with hfirst | hsecond
    · exact htold d hfirst
    obtain ⟨hwhose, hnewest⟩ := htold' d hsecond
    refine ⟨?_, fun version his => Nat.le_trans h.versions.length_le (hnewest version his)⟩
    rcases hwhose with ⟨c, hc, hticket⟩ | hnew
    · rcases h.callers c hc with hold | hnew
      · exact .inl ⟨c, hold, hticket⟩
      · exact .inr (hticket ▸ hnew)
    · exact .inr (Nat.le_trans h.tickets hnew)

theorem Proceeds.follows (h : Proceeds s s') : Follows s s' where
  toLater := h.toLater
  past := by
    obtain ⟨more, hpast, hadds⟩ := h.past
    refine ⟨more, hpast, fun d hd => ?_⟩
    cases hadds with
    | nothing => cases hd
    | began =>
        obtain rfl := List.mem_singleton.mp hd
        exact ⟨.inr (Nat.le_refl _), nofun⟩
    | atOnce =>
        simp only [List.mem_cons, List.not_mem_nil, or_false] at hd
        rcases hd with rfl | rfl <;> exact ⟨.inr (Nat.le_refl _), nofun⟩
    | answered hwaiting hnewest =>
        obtain rfl := List.mem_singleton.mp hd
        refine ⟨.inl ⟨_, hwaiting, rfl⟩, fun version his => ?_⟩
        cases his
        exact hnewest
    | returned hwaiting =>
        obtain rfl := List.mem_singleton.mp hd
        exact ⟨.inl ⟨_, hwaiting, rfl⟩, nofun⟩

/-- Happenings one after the other lead to a point that follows. -/
theorem Sound.follows (h : s.Sound) (es : List Happening) :
    Follows s (es.foldl SharedValue.happen s) := by
  induction es generalizing s with
  | nil => exact .refl s
  | cons e es ih => exact (h.proceeds e).follows.trans (ih (h.happen e))

/-! ## Values of nodes -/

/-- A read of a node's value gives nothing but what the server has answered to
it: such a value is never kept. -/
def Fleeting (s : SharedValue) : Prop :=
  s.key.2 = .value → ∀ t v, .returned t s.reads (.ok (.data v)) ∈ s.past → s.Fetched t v

/-- What was fetched was fetched, whatever the past and the server have come
to. -/
theorem Fetched.grows {more : List Deed} (h : s.Fetched t v) (hgrows : Grows s s')
    (hpast : s'.past = s.past ++ more) : s'.Fetched t v := by
  obtain ⟨r, version, hanswered, hheld⟩ := h
  refine ⟨r, version, ?_, hgrows.held hheld⟩
  rw [hpast, hgrows.reads]
  exact List.mem_append_left _ hanswered

/-- After one more happening reads of a node's value still give nothing but
what the server has answered, since the cache never holds any. -/
theorem Fleeting.proceeds (h : s.Fleeting) (hproceeds : Proceeds s s') : s'.Fleeting := by
  obtain ⟨more, hpast, hadds⟩ := hproceeds.past
  intro hnode t v hreturned
  rw [hproceeds.key] at hnode
  rw [hpast, hproceeds.reads] at hreturned
  rcases List.mem_append.mp hreturned with hold | hnew
  · exact (h hnode t v hold).grows hproceeds.toGrows hpast
  · cases hadds with
    | nothing => cases hnew
    | began => cases List.mem_singleton.mp hnew
    | atOnce hlasting =>
        simp only [List.mem_cons, List.not_mem_nil, or_false] at hnew
        rcases hnew with hsame | hsame
        · cases hsame
        · injection hsame with hticket hreading
          exact absurd hnode (hlasting hreading.symm)
    | answered => cases List.mem_singleton.mp hnew
    | returned hwaiting hfetched =>
        injection List.mem_singleton.mp hnew with hticket hreading hbrought
        exact (hticket ▸ hfetched v hreading.symm hbrought.symm).grows hproceeds.toGrows hpast

theorem Fleeting.happens (h : s.Fleeting) (hsound : s.Sound) (es : List Happening) :
    (es.foldl SharedValue.happen s).Fleeting := by
  induction es generalizing s with
  | nil => exact h
  | cons e es ih => exact ih (h.proceeds (hsound.proceeds e)) (hsound.happen e)

/-! ## The law -/

/-- Between two points a call to write a value was made and was over, in
whatever way, and no read went on beside it.  Meanwhile the server has come to
hold the value, whatever it has answered. -/
structure Attempt (s s' : SharedValue) (w : Ticket) (x : DataValue) (result : Result)
    (during : List Deed) (applied : Nat) : Prop where
  /-- These deeds are what has happened in the meantime. -/
  past : s'.past = s.past ++ during
  /-- No read of the value was open when it began. -/
  alone : ∀ c ∈ s.client.callers, c.goal ≠ s.reads
  /-- No read of the value was made while it lasted. -/
  undisturbed : ∀ d ∈ during, d.goal ≠ s.reads
  /-- The write began in the meantime. -/
  began : .began w (s.writes x) ∈ during
  /-- The write has returned with this result. -/
  returned : .returned w (s.writes x) result ∈ during
  /-- What it wrote is newer than what was held before. -/
  since : s.versions.length ≤ applied
  /-- The server has held what was written, under this number. -/
  holds : s'.versions[applied]? = some x

/-- Where a read has its value from that begins after a write was over, with
this result; `between` is what happened before the read began, and `within`
what happened until it was over. -/
inductive Aftermath (s s' : SharedValue) (result : Result) (during between within : List Deed)
    (applied : Nat) (v : DataValue) : Prop
  /-- The server has held it since it applied the write, or made it then. -/
  | current {i : Nat} (hsince : applied ≤ i) (hheld : s'.versions[i]? = some v)
  /-- The write has not returned with success.  The read gives at once what a
  read had left in the cache before the write, and what is written is no
  node's value. -/
  | kept (hunsure : result ≠ .ok .nothing) (hlasting : s.key.2 ≠ .value) (hatOnce : within = [])
      (hsourced : s.Sourced s.past v)
      (hunwritten : ∀ w x, .returned w (s.writes x) (.ok .nothing) ∉ during ++ between)

/-- A value that was in the cache at a point the server had held until
then. -/
theorem Follows.sourced (h : Follows s s') (hsound : s.Sound) (hsourced : s'.Sourced s.past v) :
    s.Sourced s.past v := by
  obtain ⟨before, t, r, version, since, hsplit, hanswered, hheld, hunwritten⟩ := hsourced
  rw [h.reads] at hsplit hanswered
  rw [h.writes] at hunwritten
  obtain ⟨early, late, rfl⟩ := List.append_of_mem hanswered
  have hjustified := hsound.told early (.answered t s.reads r version)
    (late ++ .returned t s.reads (.ok (.data v)) :: since) (by simp [hsplit])
  have hgiven : version < s.versions.length := hjustified.1
  obtain ⟨more, hsame⟩ := h.versions
  rw [← hsame, List.getElem?_append_left hgiven] at hheld
  exact ⟨_, t, r, version, since, hsplit, hanswered, hheld, hunwritten⟩

section Law

variable {s₀ s₁ s₂ : SharedValue} {rest : List Deed}

/-- **A read that is over after the write gets what the server has held since
it applied that**, if it is answered at all: no read went on beside the write,
so it was answered later. -/
theorem Attempt.answered_since (h : Attempt s₀ s₁ w x result during applied) (hsound : s₀.Sound)
    (hall : Follows s₀ s₂) (hlater : Follows s₁ s₂) (hsplit : s₂.past = s₁.past ++ rest)
    {result' : Result} {r : Response} (hreturned : .returned t s₂.reads result' ∈ rest)
    (hanswered : .answered t s₂.reads r version ∈ s₂.past) : applied ≤ version := by
  rw [hsplit, h.past, hall.reads] at hanswered
  rcases List.mem_append.mp hanswered with hpast | hnew
  · rcases List.mem_append.mp hpast with hearly | hmeanwhile
    · obtain ⟨more, hpast, htold⟩ := hall.past
      have hsame : more = during ++ rest := by
        refine List.append_cancel_left (hpast.symm.trans ?_)
        rw [hsplit, h.past, List.append_assoc]
      rcases (htold _ (hsame ▸ List.mem_append_right _ hreturned)).1 with
        ⟨c, hc, hticket⟩ | hunknown
      · exact absurd (hsound.goals c hc _ hearly hticket.symm).symm (h.alone c hc)
      · exact absurd (hsound.tickets _ hearly) (Nat.not_lt_of_le hunknown)
    · exact absurd rfl (h.undisturbed _ hmeanwhile)
  · obtain ⟨more, hpast, htold⟩ := hlater.past
    obtain rfl : more = rest := List.append_cancel_left (hpast.symm.trans hsplit)
    have hnewest : s₁.versions.length ≤ version + 1 := (htold _ hnew).2 version rfl
    have hthere : applied < s₁.versions.length := (List.getElem?_eq_some_iff.mp h.holds).1
    omega

/-- A read after an attempt gives what the server has held since; or what was
in the cache before, if the write has not returned with success. -/
theorem Attempt.aftermath (h : Attempt s₀ s₁ w x result during applied) (hsound : s₀.Sound)
    (hsound' : s₂.Sound) (hall : Follows s₀ s₂) (hlater : Follows s₁ s₂) (hfleeting : s₂.Fleeting)
    (hsplit : s₂.past = s₁.past ++ (between ++ .began t s₂.reads ::
      (within ++ .returned t s₂.reads (.ok (.data v)) :: after))) :
    Aftermath s₀ s₂ result during between within applied v := by
  have hreturned : .returned t s₂.reads (.ok (.data v)) ∈ between ++ .began t s₂.reads ::
      (within ++ .returned t s₂.reads (.ok (.data v)) :: after) := by simp
  have htold := hsound'.told
  rw [hsplit, ← List.append_assoc] at htold
  rcases htold.read_cases with ⟨r, version, hanswered, hheld⟩ | ⟨hatOnce, hsourced⟩
  · have hanswered : .answered t s₂.reads r version ∈ s₂.past := by simp [hsplit, hanswered]
    exact .current (h.answered_since hsound hall hlater hsplit hreturned hanswered) hheld
  by_cases hnode : s₂.key.2 = .value
  · -- A node's value is never in the cache.
    obtain ⟨r, version, hanswered, hheld⟩ :=
      hfleeting hnode t v (hsplit ▸ List.mem_append_right _ hreturned)
    exact .current (h.answered_since hsound hall hlater hsplit hreturned hanswered) hheld
  rw [h.past, List.append_assoc] at hsourced
  rcases hsourced.before_or_since with
    ⟨hsourced, hunwritten⟩ | ⟨other, r, version, earlier, since, hbrought, hanswered, hheld, -⟩
  · rw [hall.writes] at hunwritten
    refine .kept (fun hsame => ?_) (hall.key ▸ hnode) hatOnce
      (hall.sourced hsound hsourced) hunwritten
    exact hunwritten w x (List.mem_append_left _ (hsame ▸ h.returned))
  · -- The read that brought it was not over while the write went on.
    have hbrought' : .returned other s₂.reads (.ok (.data v)) ∈ during ++ between :=
      hbrought ▸ List.mem_append_right _ List.mem_cons_self
    have hsince' := (List.mem_append.mp hbrought').resolve_left
      fun hmeanwhile => h.undisturbed _ hmeanwhile hall.reads
    have hanswered : .answered other s₂.reads r version ∈ s₂.past := by
      rw [hsplit, h.past, List.append_assoc, ← List.append_assoc during, hbrought]
      simp only [List.mem_append] at hanswered ⊢
      exact hanswered.imp_right fun hearly => .inl (.inl hearly)
    exact .current (h.answered_since hsound hall hlater hsplit
      (List.mem_append_left _ hsince') hanswered)
      hheld

end Law

/-- **What a read gives that follows a write of unknown outcome.**  Whatever
has happened before, and whatever was done to the cache: if no read went on
beside the write, and the server has come to hold what was written until the
write was over, then a read that begins later gives a value that the server
has held since.  Only where the write has not returned with success it may
give what a read had left in the cache before, unless that is a node's
value. -/
theorem reads_after_attempts (url : String) (settings : ClientSettings)
    (endpoint : EndpointDescription) (credentials : Credentials) (key : Cache.Key)
    (initial : DataValue) (es₀ es₁ es₂ : List Happening)
    (during between within after : List Deed) (w t : Ticket) (x v : DataValue) (result : Result)
    (applied : Nat) :
    let s₀ := es₀.foldl happen (start url settings endpoint credentials key initial)
    let s₁ := es₁.foldl happen s₀
    let s₂ := es₂.foldl happen s₁
    Attempt s₀ s₁ w x result during applied →
    s₂.past = s₁.past ++ (between ++ .began t s₂.reads ::
        (within ++ .returned t s₂.reads (.ok (.data v)) :: after)) →
      Aftermath s₀ s₂ result during between within applied v := by
  intro s₀ s₁ s₂ hattempt hsplit
  have hfirst := sound_start url settings endpoint credentials key initial
  have hfleeting : (start url settings endpoint credentials key initial).Fleeting :=
    fun _ t v hreturned => absurd hreturned List.not_mem_nil
  have hsound : s₀.Sound := hfirst.happens es₀
  have hsound₁ : s₁.Sound := hsound.happens es₁
  have hfleeting₁ : s₁.Fleeting := (hfleeting.happens hfirst es₀).happens hsound es₁
  have hlater : Follows s₁ s₂ := hsound₁.follows es₂
  exact hattempt.aftermath hsound (hsound₁.happens es₂) ((hsound.follows es₁).trans hlater) hlater
    (hfleeting₁.happens hsound₁ es₂) hsplit

/-! ## A write that is refused and applied -/

/-- The server answers that it has not written the name in time, though it
has. -/
def toldLate : ResponseEnvelope where
  handle := 4
  body := { header := .good 4, body := .write [.badTimeout] }

/-- The name is read, so it is in the cache afterwards. -/
def readingName : List Happening :=
  (overtaking.take 11 ++ [.move (.received toldOld), .move (.caller 0)] : List Dealing).map .deal

/-- It is written, and the server comes to hold it, but answers that it was
too late. -/
def refusingName : List Happening :=
  ([.move (.act (.call "write" false (.write .null .displayName newName))), .move .machine,
    .move (.caller 1), .change newName, .answer 1 toldLate.body, .move (.received toldLate),
    .move (.caller 1)] : List Dealing).map .deal

/-- It is read again, after the write was refused. -/
def rereadingName : List Happening := [.deal (look "again")]

/-- The client and the server before the write, when it is over, and at
last. -/
def nameRead : SharedValue := readingName.foldl happen label

/-- The client and the server after the write was refused. -/
def nameRefused : SharedValue := refusingName.foldl happen nameRead

/-- The client and the server after the name was read again. -/
def nameReread : SharedValue := rereadingName.foldl happen nameRefused

/-- What happens while the name is written: the write begins, is answered with
an error, and returns with that. -/
def whileWritten : List Deed :=
  [.began 1 (nameRead.writes newName), .answered 1 (nameRead.writes newName) toldLate.body 1,
    .returned 1 (nameRead.writes newName) (.error (.status .badTimeout))]

/-- The refused write is such an attempt, with no read beside it. -/
theorem attempt_nameRefused :
    Attempt nameRead nameRefused 1 newName (.error (.status .badTimeout)) whileWritten 1 where
  past := by decide +kernel
  alone := by
    have hnobody : nameRead.client.callers = [] := by decide +kernel
    simp [hnobody]
  undisturbed := by decide +kernel
  began := by decide +kernel
  returned := by decide +kernel
  since := by decide +kernel
  holds := by decide +kernel

/-- The request to write the name was sent, so the server may have applied
it. -/
theorem sent_nameRefused : ∃ e connection, .sent e connection ∈ nameRefused.client.log ∧
    (nameRead.writes newName).Requests e.body := by
  have hgoal : nameRead.writes newName = .write .null .displayName newName := by decide +kernel
  have hasked : nameRefused.client.log.any fun o => o.sent?.any fun e => e.body.body =
      .write [{ node := .null, attributeId := .displayName, value := newName }] := by
    decide +kernel
  obtain ⟨o, ho, hwrites⟩ := List.any_eq_true.mp hasked
  cases o with
  | sent e connection =>
      refine ⟨e, connection, ho, ?_⟩
      rw [hgoal]
      exact of_decide_eq_true (p := e.body.body = _) hwrites
  | _ => cases hwrites

/-- The past after the name was read again, cut where that begins and is
over. -/
theorem past_nameReread :
    nameReread.past = nameRefused.past ++ ([] ++ .began 2 nameReread.reads ::
      ([] ++ .returned 2 nameReread.reads (.ok (.data oldName)) :: [])) := by
  decide +kernel

/-- The name that is read again was left in the cache by the first read, since
the write that the server refused did not make the client forget it. -/
theorem reads_after_attempts_nameRefused :
    Attempt nameRead nameRefused 1 newName (.error (.status .badTimeout)) whileWritten 1 ∧
      nameReread.past = nameRefused.past ++ ([] ++ .began 2 nameReread.reads ::
        ([] ++ .returned 2 nameReread.reads (.ok (.data oldName)) :: [])) ∧
      Aftermath nameRead nameReread (.error (.status .badTimeout)) whileWritten [] [] 1 oldName :=
  ⟨attempt_nameRefused, past_nameReread,
    reads_after_attempts _ _ _ _ _ _ readingName refusingName rereadingName _ _ _ _ _ _ _ _ _ _
      attempt_nameRefused past_nameReread⟩

/-- **A write that was refused may leave a stale value.**  It is not so that a
read that follows a write, where the request was sent and the server has
applied it, gives the value held before only if the server has come to hold
that again: where the answer is a status that is not good, the name is left in
the cache. -/
theorem stale_after_refusal :
    ¬ ∀ (es₀ es₁ es₂ : List Happening) (during between within after : List Deed) (w t : Ticket)
        (x v : DataValue) (result : Result) (applied : Nat),
      let s₀ := es₀.foldl happen label
      let s₁ := es₁.foldl happen s₀
      let s₂ := es₂.foldl happen s₁
      Attempt s₀ s₁ w x result during applied → (∀ d ∈ during, d.ticket = w) →
      (∃ e connection, .sent e connection ∈ s₁.client.log ∧ (s₀.writes x).Requests e.body) →
      s₂.past = s₁.past ++ (between ++ .began t s₂.reads ::
          (within ++ .returned t s₂.reads (.ok (.data v)) :: after)) →
      s₀.versions.getLast? = some v → ∃ i, applied ≤ i ∧ s₂.versions[i]? = some v := by
  intro hclaim
  have hown : ∀ d ∈ whileWritten, d.ticket = 1 := by decide +kernel
  have hbefore : nameRead.versions.getLast? = some oldName := by decide +kernel
  have hstale := hclaim readingName refusingName rereadingName whileWritten [] [] [] 1 2 newName
    oldName (.error (.status .badTimeout)) 1
  dsimp only at hstale
  rw [← nameRead, ← nameRefused, ← nameReread] at hstale
  have hheld := hstale attempt_nameRefused hown sent_nameRefused past_nameReread hbefore
  have hversions : nameReread.versions = [oldName, newName] := by decide +kernel
  rw [hversions] at hheld
  obtain ⟨i, hsince, hheld⟩ := hheld
  match i with
  | 0 => cases hsince
  | 1 => exact absurd hheld (by decide)
  | i + 2 => cases hheld

end SharedValue

end OpcSession.Simulation
