import OpcSession.Proofs.Session.Course
import OpcSession.Proofs.Session.Provenance

/-!
# What becomes of the subscriptions of a session before

A server that creates a session knows nothing of the subscriptions that the
session before it had.  They are to be transferred to the new session, and
publishing is to start afresh.  The machine sees to both at the *debut* of a
session, when it comes into use for the first time: whether it does is decided
by the event that leads to the state in which a session is in use, not by the
session.  So if the connection is lost at that very moment nobody makes up for
it, and a session that is then reactivated is used without them.

* `Run.Chaptered` — every session goes back to the answer in which it was
  created, and if it has been in use to its debut;
* `Run.subscriptions_adopted_iff` — the law: what is done for the subscriptions
  since that answer is done exactly if the debut found the connection up;
* `Run.subscriptions_abandoned_at_debut` — why it says no more.
-/

namespace OpcSession.Session

/-- Somebody keeps subscriptions whenever the machine looks for them. -/
def Occurrence.Managed : Occurrence → Prop
  | taking s | ended s _ => s.subscriptionIds?.isSome
  | _ => True

/-! ## What is done for subscriptions -/

/-- Whether a call asks for subscriptions to be transferred to the session. -/
def Call.transfers : Call → Bool
  | send { body := .transferSubscriptions _ _, .. } => true
  | _ => false

/-- Whether an effect serves to give a session the subscriptions of another:
to ask for the transfer, or to start publishing afresh after it. -/
def Effect.adopts : Effect → Bool
  | startedPublishing reset => reset
  | call c => c.transfers
  | _ => false

def Happening.adopts : Happening → Bool
  | did f => f.adopts
  | _ => false

/-- A session with a token was asked to take over subscriptions, all of them
and in their order. -/
def TransferAsked (token : NodeId) (ids : List UInt32) (xs : List Happening) : Prop :=
  ∃ request, .did (.call (.send request)) ∈ xs ∧ request.header.token = token ∧
    request.body = .transferSubscriptions ids true

theorem not_adopts_of_quiet {f : Effect} (hquiet : f.isQuiet) : ¬ f.adopts := by
  cases f <;> first | exact Bool.false_ne_true | cases hquiet

/-- What a move does: it is published, gives up the watcher or the timer, or
is quiet. -/
theorem Moves.effect_cases {Q : Event → Prop} {m : Machine} {event : Event} {move : State.Move}
    {p : Progress} (h : Moves Q m event move p) {f : Effect} (hf : f ∈ p.effects) :
    (∃ t, f = .published t) ∨ (∃ epoch, f = .unwatched epoch) ∨
      (∃ epoch, f = .unscheduled epoch) ∨ f.isQuiet := by
  obtain ⟨rest, hquiet, heffects⟩ := h.effects
  rw [heffects, List.cons_append, List.mem_cons, List.mem_append] at hf
  rcases hf with rfl | hf | hf
  · exact .inl ⟨_, rfl⟩
  · cases hst : m.state <;> simp [hst, Machine.leave, Machine.answers] at hf
    · exact .inr (.inl ⟨_, hf⟩)
    · obtain ⟨t, -, rfl⟩ := hf
      exact .inr (.inr (.inr rfl))
    · exact .inr (.inr (.inl ⟨_, hf⟩))
  · exact .inr (.inr (.inr (hquiet f hf)))

/-- What a move does is not done for subscriptions; they are seen to when the
state has been entered. -/
theorem Moves.not_adopts {Q : Event → Prop} {m : Machine} {event : Event} {move : State.Move}
    {p : Progress} (h : Moves Q m event move p) : ∀ f ∈ p.effects, ¬ f.adopts := by
  intro f hf
  rcases h.effect_cases hf with ⟨_, rfl⟩ | ⟨_, rfl⟩ | ⟨_, rfl⟩ | hquiet
  · exact Bool.false_ne_true
  · exact Bool.false_ne_true
  · exact Bool.false_ne_true
  · exact not_adopts_of_quiet hquiet

/-- A course does nothing for subscriptions but on the way, and by its
call. -/
theorem Course.adopts_run {s : Surroundings} {owed : Owed} {m : Machine} {c : Course} {f : Effect}
    (hf : f ∈ (c.run s owed m).effects) (hadopts : f.adopts) :
    f ∈ c.before ∨ ∃ call, c.ending.call? = some call ∧ f = .call call := by
  rcases List.mem_append.mp hf with hf | hf
  · exact .inl hf
  · right
    rcases c.ending.waits_or_rests with ⟨awaiting, call, hwaits⟩ | hrests
    · rw [hwaits] at hf ⊢
      exact ⟨call, rfl, List.mem_singleton.mp hf⟩
    · exact absurd hadopts (not_adopts_of_quiet
        ((Ending.concludes_of_rests hrests s owed (Listeners.raiseOnly_any _)).quiet f hf))

theorem not_adopts_of_private {f : Effect} (h : f.isPrivate) : ¬ f.adopts :=
  not_adopts_of_quiet (quiet_of_private h)

/-- **To enter a state something is done for subscriptions only at a debut**
that finds the connection up. -/
theorem Enters.debut {s : Surroundings} {event : Event} {epoch : Nat} {st : State} {c : Course}
    {owed : Owed} {m : Machine} {f : Effect} (h : Enters s event epoch st c)
    (hf : f ∈ (c.run s owed m).effects) (hadopts : f.adopts) :
    event = .activateSucceeded ∧ s.connected = true := by
  rcases Course.adopts_run hf hadopts with hf | ⟨call, hmade, rfl⟩
  · cases h with
    | activating hhidden => exact absurd hadopts (not_adopts_of_private (hhidden f hf))
    | refused hhidden => exact absurd hadopts (not_adopts_of_private (hhidden f hf))
    | transfers hup _ hfresh => exact ⟨hfresh, hup⟩
    | publishes hup =>
        rcases List.mem_cons.mp hf with rfl | hf
        · cases hadopts
        · cases List.mem_singleton.mp hf
          exact ⟨by simpa [Effect.adopts] using hadopts, hup⟩
    | lost =>
        cases List.mem_singleton.mp hf
        cases hadopts
    | unmanaged =>
        cases List.mem_singleton.mp hf
        cases hadopts
    | delayed =>
        cases List.mem_singleton.mp hf
        cases hadopts
    | _ => cases hf
  · cases h with
    | transfers hup _ hfresh => exact ⟨hfresh, hup⟩
    | _ => cases hmade <;> cases hadopts

/-- Subscriptions are transferred at a debut only, which is known by the event
that led to the state. -/
theorem Enters.fresh_of_transfer {s : Surroundings} {event : Event} {epoch : Nat} {st : State}
    {c : Course} {ids : List UInt32} {call : Call} (h : Enters s event epoch st c)
    (hending : c.ending = .waits (.transfer ids) call) : event = .activateSucceeded := by
  cases h with
  | transfers _ _ hfresh => exact hfresh
  | _ => cases hending

/-- After a call something is done for subscriptions only if it was the call
that transferred them. -/
theorem Resumes.transferred_of_adopts {s : Surroundings} {o : Outcome} {a : Awaiting} {st : State}
    {c : Course} {owed : Owed} {m : Machine} {f : Effect} (h : Resumes s o a st c)
    (hf : f ∈ (c.run s owed m).effects) (hadopts : f.adopts) : ∃ ids, a = .transfer ids := by
  rcases Course.adopts_run hf hadopts with hf | ⟨call, hmade, rfl⟩
  · cases h with
    | fails hhidden => exact absurd hadopts (not_adopts_of_private (hhidden f hf))
    | reconnected hhidden => exact absurd hadopts (not_adopts_of_private (hhidden f hf))
    | transferred => exact ⟨_, rfl⟩
    | _ => cases hf
  · cases h with
    | _ => cases hmade <;> cases hadopts

/-- After a call no transfer begins: it is asked for on entry or not at
all. -/
theorem Resumes.ending_ne_transfer {s : Surroundings} {o : Outcome} {a : Awaiting} {st : State}
    {c : Course} {ids : List UInt32} {call : Call} (h : Resumes s o a st c) :
    c.ending ≠ .waits (.transfer ids) call := by
  cases h <;> simp

/-- Once subscriptions were transferred publishing starts afresh, whatever the
server has answered. -/
theorem Resumes.started {s : Surroundings} {o : Outcome} {ids : List UInt32} {st : State}
    {c : Course} {owed : Owed} {m : Machine} (h : Resumes s o (.transfer ids) st c) :
    .startedPublishing true ∈ (c.run s owed m).effects := by
  cases h with
  | fails _ hwhy =>
      rcases hwhy with hattempts | _ | _ | ⟨hactivating | hactivating, -⟩ | _ | hattempts <;>
        contradiction
  | transferred => exact List.mem_append_left _ (List.mem_cons_of_mem _ List.mem_cons_self)

/-! ## Whose session a state holds -/

/-- What the server knows a session by: its token and its id, which no
activation changes. -/
def identity (session : Session) : NodeId × NodeId := (session.token, session.sessionId)

namespace State

/-- The session that has not been in use yet, by what the server knows it
by. -/
def nascent? : State → Option (NodeId × NodeId)
  | creating _ created => created.map identity
  | activating _ session => some session.identity
  | _ => none

/-- The session that is or has been in use, and is not given up. -/
def seasoned? : State → Option (NodeId × NodeId)
  | active _ session | reactivateDelay session _ _ | reactivateExecute session _ _ _ =>
    some session.identity
  | _ => none

/-- A session that was reactivated is still the same to the server. -/
def Steady : State → Prop
  | reactivateExecute previous _ _ session => ∀ s ∈ session, s.identity = previous.identity
  | _ => True

variable {st st' : State} {e : Event} {move : Move} {id : NodeId × NodeId}

theorem nascent?_of_bare (h : st.bare = st'.bare) : st.nascent? = st'.nascent? := by
  have hbare : ∀ st : State, st.bare.nascent? = st.nascent? := by intro st; cases st <;> rfl
  rw [← hbare st, h, hbare]

theorem seasoned?_of_bare (h : st.bare = st'.bare) : st.seasoned? = st'.seasoned? := by
  have hbare : ∀ st : State, st.bare.seasoned? = st.seasoned? := by intro st; cases st <;> rfl
  rw [← hbare st, h, hbare]

theorem steady_of_bare (h : st.bare = st'.bare) : st.Steady ↔ st'.Steady := by
  have hbare : ∀ st : State, st.bare.Steady ↔ st.Steady := by intro st; cases st <;> exact .rfl
  rw [← hbare st, h, hbare]

/-- A state holds one session at a time, so one that has not been in use is
the only one. -/
theorem seasoned?_of_nascent (h : st.nascent? = some id) : st.seasoned? = none := by
  cases st <;> first | rfl | cases h

/-- A session that has not been in use comes from the state before. -/
theorem nascent?_of_transition? (h : st.transition? e = some move)
    (hnascent : move.next.nascent? = some id) : st.nascent? = some id := by
  unfold transition? at h
  split at h <;> cases h <;> first | exact hnascent | cases hnascent

/-- A session that has been in use comes from the state before, or has its
debut. -/
theorem seasoned?_of_transition? (hsteady : st.Steady) (h : st.transition? e = some move)
    (hseasoned : move.next.seasoned? = some id) :
    (e ≠ .activateSucceeded ∧ st.seasoned? = some id) ∨
      (e = .activateSucceeded ∧ st.kind = .activating ∧ st.nascent? = some id) := by
  unfold transition? at h
  split at h <;> cases h
  case h_15 previous delay ws session =>
    refine .inl ⟨by simp, ?_⟩
    cases session with
    | none => exact hseasoned
    | some session => rw [← hseasoned]; exact congrArg some (hsteady session rfl).symm
  case h_5 => exact .inr ⟨rfl, rfl, hseasoned⟩
  all_goals first
    | exact .inl ⟨by simp, hseasoned⟩
    | cases hseasoned

/-- The one event that makes the debut of a session, and the one state in
which it does. -/
theorem activating_of_transition? (h : st.transition? .activateSucceeded = some move) :
    ∃ ws session, st = activating ws session ∧ move.next = active ws session := by
  cases st with
  | creating ws created => cases created <;> cases h
  | activating ws session =>
      cases h
      exact ⟨_, _, rfl, rfl⟩
  | _ => cases h

theorem steady_of_transition? (h : st.transition? e = some move) : move.next.Steady := by
  unfold transition? at h
  split at h <;> cases h <;> simp [Steady]

theorem active_of_bare {session : Session} (h : st.bare = active [] session) :
    ∃ ws, st = active ws session := by
  cases st <;> cases h
  exact ⟨_, rfl⟩

/-- A move to where a session is to be created leaves every session behind. -/
theorem forgets_of_transition? (h : st.transition? e = some move)
    (hcreating : move.next.kind = .creating) :
    move.next.nascent? = none ∧ move.next.seasoned? = none := by
  unfold transition? at h
  split at h <;> cases h <;> first | exact ⟨rfl, rfl⟩ | cases hcreating

end State

/-- After a call the session that has not been in use is the one before, or
the one that the server has just created. -/
theorem Resumes.nascent? {s : Surroundings} {o : Outcome} {a : Awaiting} {st : State} {c : Course}
    {id : NodeId × NodeId} (h : Resumes s o a st c) (hnascent : c.state.nascent? = some id) :
    st.nascent? = some id ∨ (a = .createSession ∧
      ∃ created, o.created? = some created ∧ (created.token, created.sessionId) = id) := by
  cases h with
  | created hanswered =>
      obtain ⟨created, hanswer, rfl⟩ := Run.created?_of_createdSession hanswered
      exact .inr ⟨rfl, created, hanswer, Option.some.inj hnascent⟩
  | _ => exact .inl hnascent

theorem Resumes.seasoned? {s : Surroundings} {o : Outcome} {a : Awaiting} {st : State} {c : Course}
    (h : Resumes s o a st c) : c.state.seasoned? = st.seasoned? := by
  cases h <;> rfl

theorem Resumes.steady {s : Surroundings} {o : Outcome} {a : Awaiting} {st : State} {c : Course}
    (h : Resumes s o a st c) (hsteady : st.Steady) : c.state.Steady := by
  cases h with
  | reactivated => rintro session ⟨⟩; rfl
  | created | activated => trivial
  | _ => exact hsteady

/-- To enter a state does nothing to its session, but gives up an abandoned
one. -/
theorem Enters.keeps {s : Surroundings} {event : Event} {epoch : Nat} {st : State} {c : Course}
    (h : Enters s event epoch st c) : c.state.nascent? = st.nascent? ∧
      c.state.seasoned? = st.seasoned? ∧ (st.Steady → c.state.Steady) := by
  cases h <;> exact ⟨rfl, rfl, id⟩

/-! ## Where sessions come from -/

/-- The point where a session was created: what the server answered to the
machine that waited for it. -/
structure Origin where
  before : Run
  surroundings : Surroundings
  /-- The answer that created the session. -/
  answer : Outcome

/-- The point where a session came into use for the first time, with what the
machine found there. -/
structure Debut where
  /-- The run before the success of the activation was taken. -/
  before : Run
  surroundings : Surroundings

def Origin.after (x : Origin) : Run := x.before.happen (.ended x.surroundings x.answer)

def Debut.after (d : Debut) : Run := d.before.happen (.taking d.surroundings)

/-- A session was created at the origin, no other has been asked for since,
and so the run has come to where it is. -/
structure Origin.Leads (x : Origin) (id : NodeId × NodeId) (since : List Happening) (r : Run) :
    Prop where
  reachable : Reachable Occurrence.Managed x.before
  managed : x.surroundings.subscriptionIds?.isSome
  asked : x.before.machine.entry?.map (·.awaiting) = some .createSession
  created : ∃ created, x.answer.created? = some created ∧ (created.token, created.sessionId) = id
  goes : Reaches Occurrence.Managed x.after r
  history : r.history = x.before.history ++ since
  last : ∀ t, .did (.published t) ∈ since → t.target ≠ .creating

/-- The session of an origin has its debut, and so the run has come to where
it is. -/
structure Debut.Follows (d : Debut) (x : Origin) (r : Run) : Prop where
  managed : d.surroundings.subscriptionIds?.isSome
  goes : Reaches Occurrence.Managed x.after d.before
  activating : d.before.machine.state.kind = .activating
  active : d.after.machine.state.kind = .active
  since : Reaches Occurrence.Managed d.after r

/-- Whether the machine waits for subscriptions to be transferred, whichever
they are. -/
def Machine.Transferring (m : Machine) : Prop :=
  ∃ ids, m.entry?.map (·.awaiting) = some (.transfer ids)

/-- What a debut comes to: everything that is to be done for the
subscriptions, if it finds the connection up, and else nothing. -/
structure Debut.Adopts (d : Debut) (token : NodeId) (since : List Happening) (m : Machine) :
    Prop where
  /-- Where the connection was lost nothing has been done for
  subscriptions. -/
  lost : d.surroundings.connected = false → (∀ y ∈ since, ¬ y.adopts) ∧ ¬ m.Transferring
  /-- Otherwise the transfer of all that there were was asked for, -/
  asked : d.surroundings.connected = true → ∀ ids, d.surroundings.subscriptionIds? = some ids →
    ids ≠ [] → TransferAsked token ids since
  /-- and once it is over publishing has started afresh. -/
  started : d.surroundings.connected = true →
    m.Transferring ∨ .did (.startedPublishing true) ∈ since

section Onward

variable {r : Run} {o : Occurrence} {since more : List Happening} {id : NodeId × NodeId}

/-- The origin of a session is still its origin after what happens next, as
long as no other session is asked for. -/
theorem Origin.Leads.onward {x : Origin} (h : x.Leads id since r) (hmanaged : o.Managed)
    (hhistory : (r.happen o).history = r.history ++ more)
    (hlast : ∀ t, .did (.published t) ∈ more → t.target ≠ .creating) :
    x.Leads id (since ++ more) (r.happen o) where
  reachable := h.reachable
  managed := h.managed
  asked := h.asked
  created := h.created
  goes := .step o h.goes hmanaged
  history := by rw [hhistory, h.history, List.append_assoc]
  last := by
    intro t ht
    rcases List.mem_append.mp ht with ht | ht
    · exact h.last t ht
    · exact hlast t ht

theorem Debut.Follows.onward {d : Debut} {x : Origin} (h : d.Follows x r) (hmanaged : o.Managed) :
    d.Follows x (r.happen o) :=
  { h with since := .step o h.since hmanaged }

/-- Nothing is done for subscriptions, but to go on with their transfer: none
begins, and one that ends starts publishing. -/
structure Machine.Hands (m m' : Machine) (more : List Happening) : Prop where
  adopts : ∀ y ∈ more, y.adopts → m.Transferring
  begun : m'.Transferring → m.Transferring
  ended : m.Transferring → m'.Transferring ∨ .did (.startedPublishing true) ∈ more

theorem TransferAsked.mono {token : NodeId} {ids : List UInt32} (h : TransferAsked token ids since)
    (more : List Happening) : TransferAsked token ids (since ++ more) := by
  obtain ⟨request, hsent, hasks⟩ := h
  exact ⟨request, List.mem_append_left _ hsent, hasks⟩

theorem Debut.Adopts.onward {d : Debut} {token : NodeId} {m m' : Machine}
    (h : d.Adopts token since m) (hhands : m.Hands m' more) :
    d.Adopts token (since ++ more) m' where
  lost := by
    intro hdown
    obtain ⟨hnothing, hidle⟩ := h.lost hdown
    refine ⟨?_, fun hbusy => hidle (hhands.begun hbusy)⟩
    intro y hy hadopts
    rcases List.mem_append.mp hy with hy | hy
    · exact hnothing y hy hadopts
    · exact hidle (hhands.adopts y hy hadopts)
  asked := fun hup ids hmanaged hany => (h.asked hup ids hmanaged hany).mono more
  started := by
    intro hup
    rcases h.started hup with hbusy | hdone
    · rcases hhands.ended hbusy with hbusy | hdone
      · exact .inl hbusy
      · exact .inr (List.mem_append_right _ hdone)
    · exact .inr (List.mem_append_left _ hdone)

end Onward

namespace Run

/-- **The invariant of the beginnings.**  A session that has not been in use
was created at some point, and nothing has been done for subscriptions since;
one that has been in use had its debut after that. -/
structure Chaptered (r : Run) : Prop where
  /-- What is being reactivated is the session that was in use. -/
  steady : r.machine.state.Steady
  /-- For a session that is new nothing has been done yet. -/
  nascent : ∀ id, r.machine.state.nascent? = some id →
    ∃ (x : Origin) (since : List Happening), x.Leads id since r ∧ ∀ y ∈ since, ¬ y.adopts
  /-- For any other all was done at its debut. -/
  seasoned : ∀ id, r.machine.state.seasoned? = some id →
    ∃ (x : Origin) (d : Debut) (since : List Happening), x.Leads id since r ∧ d.Follows x r ∧
      d.Adopts id.1 since r.machine

theorem chaptered_start : Chaptered {} where
  steady := trivial
  nascent := by simp [State.nascent?]
  seasoned := by simp [State.seasoned?]

variable {A : Prop} {r : Run} {o : Occurrence} {more : List Happening}

/-- Subscriptions are transferred to a session in use, so a transfer is over
once the session is left. -/
theorem Sound.active_of_transferring (h : r.Sound A) (hbusy : r.machine.Transferring) :
    r.machine.state.kind = .active := by
  obtain ⟨ids, hawaiting⟩ := hbusy
  obtain ⟨entry, hwaiting, htransfer⟩ := Option.map_eq_some_iff.mp hawaiting
  have hfits := h.fits entry hwaiting
  rw [htransfer] at hfits
  cases hst : r.machine.state <;> rw [hst] at hfits <;> first | rfl | exact hfits.elim

/-- Whatever happens to the sessions that were there before, they keep their
beginnings. -/
theorem Chaptered.keep (h : r.Chaptered) (hsound : r.Sound A) (hmanaged : o.Managed)
    (hhistory : (r.happen o).history = r.history ++ more)
    (hsteady : (r.happen o).machine.state.Steady)
    (hnascent : ∀ id, (r.happen o).machine.state.nascent? = some id →
      r.machine.state.nascent? = some id)
    (hseasoned : ∀ id, (r.happen o).machine.state.seasoned? = some id →
      r.machine.state.seasoned? = some id)
    (hlast : ∀ t, .did (.published t) ∈ more → t.target = .creating →
      (r.happen o).machine.state.nascent? = none ∧ (r.happen o).machine.state.seasoned? = none)
    (hhands : r.machine.Hands (r.happen o).machine more) : (r.happen o).Chaptered where
  steady := hsteady
  nascent := by
    intro id hthere
    obtain ⟨x, since, hleads, hnothing⟩ := h.nascent id (hnascent id hthere)
    refine ⟨x, since ++ more, hleads.onward hmanaged hhistory ?_, ?_⟩
    · intro t ht hcreating
      rw [(hlast t ht hcreating).1] at hthere
      cases hthere
    intro y hy hadopts
    rcases List.mem_append.mp hy with hy | hy
    · exact hnothing y hy hadopts
    · -- Subscriptions are transferred only to a session that is in use.
      have hactive := hsound.active_of_transferring (hhands.adopts y hy hadopts)
      have hbefore := hnascent id hthere
      cases hst : r.machine.state <;> rw [hst] at hactive hbefore <;> cases hactive
      cases hbefore
  seasoned := by
    intro id hthere
    obtain ⟨x, d, since, hleads, hfollows, hadopts⟩ := h.seasoned id (hseasoned id hthere)
    refine ⟨x, d, since ++ more, hleads.onward hmanaged hhistory ?_, hfollows.onward hmanaged,
      hadopts.onward hhands⟩
    intro t ht hcreating
    rw [(hlast t ht hcreating).2] at hthere
    cases hthere

/-- A step that serves callers, and what came before it, does nothing for
subscriptions, nor to the sessions. -/
theorem Chaptered.serves (h : r.Chaptered) (hsound : r.Sound A) (hmanaged : o.Managed) {r₀ : Run}
    {x : Happening} {p : Progress} (hnext : r.happen o = r₀.proceed p)
    (hmachine : Serves r₀.machine p) (hstate : r₀.machine.state = r.machine.state)
    (hidle : ¬ r.machine.Transferring) (hentry : r₀.machine.entry? = r.machine.entry?)
    (hhistory : r₀.history = r.history ++ [x]) (hother : ∀ f, x ≠ .did f) :
    (r.happen o).Chaptered := by
  have hbare : (r.happen o).machine.state.bare = r.machine.state.bare := by
    rw [hnext, machine_proceed, hmachine.bare, hstate]
  have heffects : ∀ f, .did f ∈ x :: p.effects.map .did → f.isQuiet :=
    fun f hf => hmachine.quiet f (mem_news hother hf)
  have hlonger : (r.happen o).history = r.history ++ x :: p.effects.map .did := by
    rw [hnext, history_proceed, hhistory]
    simp
  refine h.keep hsound hmanaged hlonger ?_ ?_ ?_ ?_ ?_
  · exact (State.steady_of_bare hbare).mpr h.steady
  · rw [State.nascent?_of_bare hbare]
    exact fun _ hthere => hthere
  · rw [State.seasoned?_of_bare hbare]
    exact fun _ hthere => hthere
  · intro t ht
    cases heffects _ ht
  · have hbusy : (r.happen o).machine.Transferring ↔ r.machine.Transferring := by
      rw [Machine.Transferring, hnext, machine_proceed, hmachine.entry, hentry]
      rfl
    refine ⟨?_, hbusy.mp, fun htransferring => absurd htransferring hidle⟩
    intro y hy hadopts
    cases y with
    | did f => exact absurd hadopts (not_adopts_of_quiet (heffects f hy))
    | _ => cases hadopts

theorem transferring_run {s : Surroundings} {owed : Owed} {m : Machine} {c : Course}
    (hbusy : (c.run s owed m).machine.Transferring) :
    ∃ ids call, c.ending = .waits (.transfer ids) call := by
  obtain ⟨ids, hawaiting⟩ := hbusy
  rw [Course.entry_run] at hawaiting
  obtain ⟨st, before, ending⟩ := c
  cases ending with
  | waits a call =>
      cases hawaiting
      exact ⟨ids, call, rfl⟩
  | _ => cases hawaiting

/-- **What the debut of a session comes to** depends on whether it finds the
connection up. -/
theorem adopts_of_debut (d : Debut) (owed : Owed) (m : Machine) {since : List Happening}
    {epoch : Nat} {ws : List Ticket} {session : Session} {c : Course}
    (hnothing : ∀ y ∈ since, ¬ y.adopts) (hmanaged : d.surroundings.subscriptionIds?.isSome)
    (henters : Enters d.surroundings .activateSucceeded epoch (.active ws session) c) :
    d.Adopts session.token
      (since ++ (c.run d.surroundings owed m).effects.map .did)
      (c.run d.surroundings owed m).machine where
  lost := by
    intro hdown
    constructor
    · intro y hy hadopts
      rcases List.mem_append.mp hy with hy | hy
      · exact hnothing y hy hadopts
      · obtain ⟨f, hf, rfl⟩ := List.mem_map.mp hy
        have hup := (henters.debut hf hadopts).2
        rw [hdown] at hup
        cases hup
    · intro hbusy
      obtain ⟨ids, call, hending⟩ := transferring_run hbusy
      cases henters with
      | transfers hup => rw [hdown] at hup; cases hup
      | _ => cases hending
  asked := by
    intro hup ids hlisted hany
    cases henters with
    | lost hdown => rw [hdown] at hup; cases hup
    | unmanaged _ hnobody => rw [hnobody] at hlisted; cases hlisted
    | transfers _ hmanaged =>
        rw [hmanaged] at hlisted
        cases hlisted
        refine ⟨d.surroundings.transferRequest session ids,
          List.mem_append_right _ (List.mem_map.mpr ⟨_, ?_, rfl⟩), rfl, rfl⟩
        exact List.mem_append_right _ List.mem_cons_self
    | publishes _ hmanaged hnone =>
        rw [hmanaged] at hlisted
        cases hlisted
        exact absurd (hnone rfl) hany
  started := by
    intro hup
    cases henters with
    | lost hdown => rw [hdown] at hup; cases hup
    | unmanaged _ hnobody => rw [hnobody] at hmanaged; cases hmanaged
    | transfers _ _ _ _ => exact .inl ⟨_, rfl⟩
    | publishes _ _ hnone =>
        refine .inr (List.mem_append_right _ (List.mem_map.mpr ⟨_, ?_, rfl⟩))
        exact List.mem_append_left _ (List.mem_cons_of_mem _ List.mem_cons_self)

/-- What is published tells where the machine has come to, by the kind of the
state. -/
theorem target_of_moves {Q : Event → Prop} {m : Machine} {event : Event} {move : State.Move}
    {p : Progress} (h : Moves Q m event move p) {t : Transition}
    (ht : .published t ∈ p.effects) : t.target = move.next.kind := by
  have hpublished : t ∈ p.effects.filterMap Effect.published? :=
    List.mem_filterMap.mpr ⟨_, ht, rfl⟩
  rw [h.published] at hpublished
  rw [List.mem_singleton.mp hpublished]

/-- A run has moved: it holds the session of the state that it has moved to,
and its history tells so.  Nothing is done for subscriptions before the state
is entered. -/
structure Moved (r r' : Run) (move : State.Move) (before after : List Happening) : Prop where
  steady : r'.machine.state.Steady
  nascent : r'.machine.state.nascent? = move.next.nascent?
  seasoned : r'.machine.state.seasoned? = move.next.seasoned?
  history : r'.history = r.history ++ (before ++ after)
  aside : ∀ y ∈ before, ¬ y.adopts
  last : ∀ t, .did (.published t) ∈ before ++ after → t.target = move.next.kind

section Moving

variable {Q : Event → Prop} {s : Surroundings} {c : Command} {rest : List Command} {e : Event}
  {move : State.Move} {p : Progress} {epoch : Nat} {course : Course} {owed : Owed}
  {before : List Happening}

theorem moved_of_moves {r' : Run} (hmoves : r.machine.state.transition? e = some move)
    (hdeparts : Moves Q (r.dequeue c rest).machine e move p)
    (henters : Enters s e epoch p.machine.state course)
    (hnext : r' = (r.dequeue c rest).proceed (p.andThen (course.run s owed))) :
    Moved r r' move (.taken c :: p.effects.map .did)
      ((course.run s owed p.machine).effects.map .did) := by
  have hbare : r'.machine.state.bare = course.state.bare := by
    rw [hnext, machine_proceed]
    exact Course.bare_run
  obtain ⟨hnascent, hseasoned, hsteady⟩ := henters.keeps
  exact {
    steady := (State.steady_of_bare hbare).mpr
      (hsteady ((State.steady_of_bare hdeparts.bare).mpr (State.steady_of_transition? hmoves)))
    nascent := by rw [State.nascent?_of_bare hbare, hnascent, State.nascent?_of_bare hdeparts.bare]
    seasoned := by
      rw [State.seasoned?_of_bare hbare, hseasoned, State.seasoned?_of_bare hdeparts.bare]
    history := by
      rw [hnext, history_proceed, history_dequeue]
      simp [Progress.andThen]
    aside := by
      intro y hy
      rcases List.mem_cons.mp hy with rfl | hy
      · exact Bool.false_ne_true
      · obtain ⟨f, hf, rfl⟩ := List.mem_map.mp hy
        exact hdeparts.not_adopts f hf
    last := by
      intro t ht
      rcases List.mem_append.mp ht with ht | ht
      · exact target_of_moves hdeparts (mem_news (by simp) ht)
      · obtain ⟨f, hf, heq⟩ := List.mem_map.mp ht
        cases heq
        exact absurd hf (Course.still_run henters.aside) }

/-- A session comes into use for the first time, and is given the
subscriptions on this occasion if the connection is still there. -/
theorem Chaptered.debut (h : r.Chaptered) (hmanaged : s.subscriptionIds?.isSome)
    (hmoves : r.machine.state.transition? .activateSucceeded = some move)
    (hbare : p.machine.state.bare = move.next.bare)
    (henters : Enters s .activateSucceeded epoch p.machine.state course)
    (hmachine : (r.happen (.taking s)).machine = (course.run s owed p.machine).machine)
    (hmoved : Moved r (r.happen (.taking s)) move before
      ((course.run s owed p.machine).effects.map .did)) :
    (r.happen (.taking s)).Chaptered := by
  obtain ⟨ws, session, hst, hnext⟩ := State.activating_of_transition? hmoves
  obtain ⟨x, since, hleads, hnothing⟩ := h.nascent session.identity (by rw [hst]; rfl)
  have hinUse : p.machine.state.bare = .active [] session := by
    rw [hbare, hnext]
    rfl
  obtain ⟨ws', hactive⟩ := State.active_of_bare hinUse
  rw [hactive] at henters
  have hcalm : ∀ y ∈ since ++ before, ¬ y.adopts := by
    intro y hy
    rcases List.mem_append.mp hy with hy | hy
    · exact hnothing y hy
    · exact hmoved.aside y hy
  have hadopts := adopts_of_debut ⟨r, s⟩ owed p.machine hcalm hmanaged henters
  have helsewhere : ∀ t, Happening.did (.published t) ∈ before ++
      (course.run s owed p.machine).effects.map .did → t.target ≠ .creating := by
    intro t ht
    rw [hmoved.last t ht, hnext]
    simp [State.kind]
  refine ⟨hmoved.steady, ?_, ?_⟩
  · intro id hthere
    rw [hmoved.nascent, hnext] at hthere
    cases hthere
  · intro id hthere
    rw [hmoved.seasoned, hnext] at hthere
    cases hthere
    refine ⟨x, ⟨r, s⟩, _, hleads.onward hmanaged hmoved.history helsewhere, ?_, ?_⟩
    · exact {
        managed := hmanaged
        goes := hleads.goes
        activating := by rw [hst]; rfl
        active := by
          show (r.happen (.taking s)).machine.state.kind = .active
          rw [hmachine, Course.kind_run, henters.kind]
          rfl
        since := .refl }
    · rw [List.append_assoc] at hadopts
      rw [hmachine]
      exact hadopts

/-- Any other move does nothing for subscriptions: it creates no session, and
is no debut. -/
theorem Chaptered.passes (h : r.Chaptered) (hsound : r.Sound A)
    (hmanaged : s.subscriptionIds?.isSome)
    (hother : e ≠ .activateSucceeded) (hmoves : r.machine.state.transition? e = some move)
    (henters : Enters s e epoch p.machine.state course) (huntouched : ¬ r.machine.Transferring)
    (hmachine : (r.happen (.taking s)).machine = (course.run s owed p.machine).machine)
    (hmoved : Moved r (r.happen (.taking s)) move before
      ((course.run s owed p.machine).effects.map .did)) :
    (r.happen (.taking s)).Chaptered := by
  refine h.keep hsound hmanaged hmoved.history hmoved.steady ?_ ?_ ?_ ?_
  · intro id hthere
    rw [hmoved.nascent] at hthere
    exact State.nascent?_of_transition? hmoves hthere
  · intro id hthere
    rw [hmoved.seasoned] at hthere
    rcases State.seasoned?_of_transition? h.steady hmoves hthere with ⟨-, hbefore⟩ | ⟨hsucceeded, -⟩
    · exact hbefore
    · exact absurd hsucceeded hother
  · intro t ht hcreating
    rw [hmoved.nascent, hmoved.seasoned]
    exact State.forgets_of_transition? hmoves ((hmoved.last t ht).symm.trans hcreating)
  · refine ⟨?_, ?_, fun hbusy => absurd hbusy huntouched⟩
    · intro y hy hadopts
      rcases List.mem_append.mp hy with hy | hy
      · exact absurd hadopts (hmoved.aside y hy)
      · obtain ⟨f, hf, rfl⟩ := List.mem_map.mp hy
        exact absurd (henters.debut hf hadopts).1 hother
    · intro hbusy
      rw [hmachine] at hbusy
      obtain ⟨ids, call, hending⟩ := transferring_run hbusy
      exact absurd (henters.fresh_of_transfer hending) hother

/-- **A move keeps the beginnings of sessions**, and makes the debut of the
one that comes into use. -/
theorem Chaptered.moves (h : r.Chaptered) (hsound : r.Sound A)
    (hmanaged : s.subscriptionIds?.isSome)
    (huntouched : ¬ r.machine.Transferring) (hmoves : r.machine.state.transition? e = some move)
    (hdeparts : Moves Q (r.dequeue c rest).machine e move p)
    (henters : Enters s e epoch p.machine.state course)
    (hnext : r.happen (.taking s) = (r.dequeue c rest).proceed (p.andThen (course.run s owed))) :
    (r.happen (.taking s)).Chaptered := by
  have hmoved := moved_of_moves hmoves hdeparts henters hnext
  have hmachine : (r.happen (.taking s)).machine = (course.run s owed p.machine).machine := by
    rw [hnext, machine_proceed]
    rfl
  by_cases hfresh : e = .activateSucceeded
  · subst hfresh
    exact h.debut hmanaged hmoves hdeparts.bare henters hmachine hmoved
  · exact h.passes hsound hmanaged hfresh hmoves henters huntouched hmachine hmoved

end Moving

section Resuming

variable {s : Surroundings} {outcome : Outcome} {entry : Entry} {course : Course}

theorem adopting_of_resumes {m : Machine} {owed : Owed} {a : Awaiting} {st : State}
    (hresumes : Resumes s outcome a st course) {y : Happening}
    (hy : y ∈ .returned outcome :: (course.run s owed m).effects.map .did) (hadopts : y.adopts) :
    ∃ ids, a = .transfer ids := by
  rcases List.mem_cons.mp hy with rfl | hy
  · cases hadopts
  · obtain ⟨f, hf, rfl⟩ := List.mem_map.mp hy
    exact hresumes.transferred_of_adopts hf hadopts

/-- After a call no transfer begins, and one that has ended has started
publishing. -/
theorem hands_of_resumes {m : Machine} (hwaiting : m.entry? = some entry)
    (hresumes : Resumes s outcome entry.awaiting m.state course) :
    m.Hands (course.run s entry.owed m).machine
      (.returned outcome :: (course.run s entry.owed m).effects.map .did) := by
  have hbusy : m.Transferring ↔ ∃ ids, entry.awaiting = .transfer ids := by
    simp [Machine.Transferring, hwaiting]
  refine ⟨fun y hy hadopts => hbusy.mpr (adopting_of_resumes hresumes hy hadopts), ?_, ?_⟩
  · intro htransferring
    obtain ⟨ids, call, hending⟩ := transferring_run htransferring
    exact absurd hending hresumes.ending_ne_transfer
  · intro htransferring
    obtain ⟨ids, hawaiting⟩ := hbusy.mp htransferring
    rw [hawaiting] at hresumes
    exact .inr (news_of_mem hresumes.started)

/-- **Going on after a call keeps the beginnings of sessions**, and begins one
that the server has created. -/
theorem Chaptered.resumes (h : r.Chaptered) (hsound : r.Sound A)
    (hreachable : Reachable Occurrence.Managed r) (hmanaged : s.subscriptionIds?.isSome)
    (hwaiting : r.machine.entry? = some entry)
    (hresumes : Resumes s outcome entry.awaiting r.machine.state course)
    (hnext : r.happen (.ended s outcome) =
      (r.record (.returned outcome)).proceed (course.run s entry.owed r.machine)) :
    (r.happen (.ended s outcome)).Chaptered := by
  have hmachine : (r.happen (.ended s outcome)).machine =
      (course.run s entry.owed r.machine).machine := by
    rw [hnext, machine_proceed]
  have hbare : (r.happen (.ended s outcome)).machine.state.bare = course.state.bare := by
    rw [hmachine]
    exact Course.bare_run
  have hhistory : (r.happen (.ended s outcome)).history = r.history ++
      .returned outcome :: (course.run s entry.owed r.machine).effects.map .did := by
    rw [hnext, history_proceed, history_record, List.append_assoc]
    rfl
  have hstill : ∀ t, Happening.did (.published t) ∉ Happening.returned outcome ::
      (course.run s entry.owed r.machine).effects.map .did :=
    fun t ht => Course.still_run hresumes.aside (mem_news (by simp) ht)
  by_cases hcreated : ∃ id, (r.happen (.ended s outcome)).machine.state.nascent? = some id ∧
      r.machine.state.nascent? ≠ some id
  · obtain ⟨id, hthere, hnew⟩ := hcreated
    rw [State.nascent?_of_bare hbare] at hthere
    obtain ⟨hcreating, hanswer⟩ := (hresumes.nascent? hthere).resolve_left hnew
    have horigin : (⟨r, s, outcome⟩ : Origin).Leads id _ (r.happen (.ended s outcome)) := {
      reachable := hreachable
      managed := hmanaged
      asked := by rw [hwaiting, ← hcreating]; rfl
      created := hanswer
      goes := .refl
      history := hhistory
      last := fun t ht => absurd ht (hstill t) }
    refine ⟨(State.steady_of_bare hbare).mpr (hresumes.steady h.steady), ?_, ?_⟩
    · intro id' hthere'
      rw [State.nascent?_of_bare hbare, hthere] at hthere'
      cases hthere'
      refine ⟨_, _, horigin, fun y hy hadopts => ?_⟩
      obtain ⟨ids, htransfer⟩ := adopting_of_resumes hresumes hy hadopts
      cases hcreating.symm.trans htransfer
    · intro id' hthere'
      rw [State.seasoned?_of_bare hbare, State.seasoned?_of_nascent hthere] at hthere'
      cases hthere'
  · refine h.keep hsound hmanaged hhistory ?_ ?_ ?_ ?_
      (hmachine ▸ hands_of_resumes hwaiting hresumes)
    · exact (State.steady_of_bare hbare).mpr (hresumes.steady h.steady)
    · intro id hthere
      exact Decidable.of_not_not fun hnew => hcreated ⟨id, hthere, hnew⟩
    · intro id hthere
      rw [State.seasoned?_of_bare hbare, hresumes.seasoned?] at hthere
      exact hthere
    · exact fun t ht => absurd ht (hstill t)

end Resuming

/-- **Everything that can happen keeps the beginnings of sessions.**  A
session begins when it is created, makes its debut by one move, and is
followed from there. -/
theorem Chaptered.happen (h : r.Chaptered) (hsound : r.Sound A)
    (hreachable : Reachable Occurrence.Managed r) (hmanaged : o.Managed) :
    (r.happen o).Chaptered := by
  have hbecomes := hsound.becomes o
  generalize hnext : r.happen o = r' at hbecomes
  cases hbecomes with
  | stays hhistory hstate hepoch hentry hqueue =>
      subst hnext
      have hbusy : (r.happen o).machine.Transferring ↔ r.machine.Transferring := by
        rw [Machine.Transferring, hentry]
        rfl
      have hsame : (r.happen o).history = r.history ++ [] := by rw [hhistory, List.append_nil]
      refine h.keep hsound hmanaged hsame ?_ ?_ ?_
        (by simp) ⟨by simp, hbusy.mp, fun htransferring => .inl (hbusy.mpr htransferring)⟩
      · rw [hstate]
        exact h.steady
      · rw [hstate]
        exact fun _ hthere => hthere
      · rw [hstate]
        exact fun _ hthere => hthere
  | @takes s c rest p htaking hidle hqueue _ hobeys =>
      subst htaking
      have huntouched : ¬ r.machine.Transferring := by
        rintro ⟨ids, hawaiting⟩
        rw [hidle] at hawaiting
        cases hawaiting
      rw [← hnext]
      rcases hobeys.serves_or_moves with ⟨hserves, -⟩ | ⟨e, move, course, -, hmoves, henters, rfl⟩
      · exact h.serves hsound hmanaged hnext hserves rfl huntouched rfl (history_dequeue r c rest)
          (by simp)
      · exact h.moves hsound hmanaged huntouched hmoves
          ((r.dequeue c rest).machine.departs s e move _)
          henters hnext
  | resumes hended hwaiting _ hresumes =>
      subst hended
      rw [← hnext]
      exact h.resumes hsound hreachable hmanaged hwaiting hresumes hnext

/-! ## The law -/

theorem adopts_of_asked {token : NodeId} {ids : List UInt32} {since : List Happening}
    (h : TransferAsked token ids since) : ∃ y ∈ since, y.adopts := by
  obtain ⟨request, hsent, -, hbody⟩ := h
  refine ⟨_, hsent, ?_⟩
  obtain ⟨header, body'⟩ := request
  cases hbody
  rfl

/-- **A session takes over the subscriptions exactly if its debut finds the
connection up.**  Whenever a session is in use and its state has been entered,
there is the answer in which the server created it, and after that the moment
when it first came into use.  Since that answer publishing has been started
afresh, and where there are subscriptions the server has been asked under the
token of the session to transfer them all, if the connection was up at the
debut, and neither if it was not: no later reactivation makes up for it. -/
theorem subscriptions_adopted_iff (h : Reachable Occurrence.Managed r)
    (hidle : r.machine.entry? = none) {session : Session}
    (hactive : r.machine.state.activeSession? = some session) :
    ∃ (x : Origin) (d : Debut) (since : List Happening),
      x.Leads session.identity since r ∧ d.Follows x r ∧
      (.did (.startedPublishing true) ∈ since ↔ d.surroundings.connected) ∧
      ∀ ids, d.surroundings.subscriptionIds? = some ids → ids ≠ [] →
        (TransferAsked session.token ids since ↔ d.surroundings.connected) := by
  have hboth : Reachable Occurrence.Managed r ∧ r.Sound False ∧ r.Chaptered :=
    Reaches.invariant
      (I := fun r => Reachable Occurrence.Managed r ∧ r.Sound False ∧ r.Chaptered)
      ⟨.refl, sound_start False, chaptered_start⟩
      (fun r o hmanaged h => ⟨.step o h.1 hmanaged, h.2.1.happen False.elim,
        h.2.2.happen h.2.1 h.1 hmanaged⟩) h
  have hseasoned : r.machine.state.seasoned? = some session.identity := by
    cases hst : r.machine.state <;> rw [hst] at hactive <;> cases hactive
    rfl
  obtain ⟨x, d, since, hleads, hfollows, hadopts⟩ := hboth.2.2.seasoned _ hseasoned
  have hrests : ¬ r.machine.Transferring := by
    rintro ⟨ids, hawaiting⟩
    rw [hidle] at hawaiting
    cases hawaiting
  refine ⟨x, d, since, hleads, hfollows, ?_, ?_⟩
  · constructor
    · intro hstarted
      cases hup : d.surroundings.connected with
      | true => rfl
      | false => exact absurd rfl ((hadopts.lost hup).1 _ hstarted)
    · exact fun hup => (hadopts.started hup).resolve_left hrests
  · intro ids hlisted hany
    constructor
    · intro hasked
      obtain ⟨y, hy, hadopting⟩ := adopts_of_asked hasked
      cases hup : d.surroundings.connected with
      | true => rfl
      | false => exact absurd hadopting ((hadopts.lost hup).1 y hy)
    · exact fun hup => hadopts.asked hup ids hlisted hany

/-! ## A connection that is lost at the wrong moment -/

/-- A caller asks for a session; the connection is lost just before it comes
into use, and the session is reactivated over another one. -/
def lapse (token : NodeId) (nonce : ByteString) : List Occurrence :=
  let s : Surroundings := { Surroundings.placid with subscriptionIds? := some [1, 3] }
  [.asked (.getSession 7), .taking s, .ended s .done, .ended s (creation token), .taking s,
    .ended s (activation nonce), .taking { s with connected := false }, .taking s, .fired true 0,
    .taking s, .ended s .done, .ended s (activation nonce), .taking s]

theorem managed_lapse (token : NodeId) (nonce : ByteString) :
    ∀ o ∈ lapse token nonce, o.Managed := by
  simp [lapse, Occurrence.Managed]

/-- The session that comes into use in the end had its debut while the
connection was down. -/
theorem subscriptions_adopted_iff_lapse :
    let r : Run := (lapse ⟨1, .numeric 9⟩ .null).foldl Run.happen {}
    r.machine.entry? = none ∧ ∃ session, r.machine.state.activeSession? = some session ∧
      session.token = ⟨1, .numeric 9⟩ ∧
      ∃ (x : Origin) (d : Debut) (since : List Happening),
        x.Leads session.identity since r ∧ d.Follows x r ∧
        (.did (.startedPublishing true) ∈ since ↔ d.surroundings.connected) ∧
        ∀ ids, d.surroundings.subscriptionIds? = some ids → ids ≠ [] →
          (TransferAsked session.token ids since ↔ d.surroundings.connected) :=
  ⟨rfl, _, rfl, rfl,
    subscriptions_adopted_iff (Reaches.ofList _ (managed_lapse ⟨1, .numeric 9⟩ .null)) rfl rfl⟩

/-- **A session may be in use without the subscriptions.**  It is not so that
publishing has been started afresh whenever a session is in use, its state has
been entered and the connection is not known to be lost. -/
theorem subscriptions_abandoned_at_debut :
    ¬ ∀ r : Run, Reachable Occurrence.Managed r → r.machine.entry? = none →
      r.machine.state.kind = .active → ¬ r.machine.Queued .connectionLost →
      .did (.startedPublishing true) ∈ r.history := by
  intro hclaim
  have hnever : ((lapse .null .null).foldl Run.happen {}).history.any (·.adopts) = false := by
    decide
  have hstarted := hclaim _ (Reaches.ofList _ (managed_lapse .null .null)) rfl rfl
    (by simp [Machine.Queued, show ((lapse .null .null).foldl Run.happen {}).machine.queue = []
      from rfl])
  exact List.any_eq_false.mp hnever _ hstarted rfl

end Run

end OpcSession.Session
