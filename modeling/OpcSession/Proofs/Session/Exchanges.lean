import OpcSession.Proofs.Session.Steps

/-!
# What the machine and the server have said to each other

The history of a run tells which calls of the channel were made and how each
of them ended.  Two of these exchanges matter for the session in use: the
latest in which the server created a session, and the latest in which the
machine asked for one to be activated.

* `Run.exchanges` — the calls in the history, the latest first;
* `Exchange.created?`, `Exchange.activation?` — what they were about;
* `exchanges_proceed` — a step adds the calls that it makes.
-/

namespace OpcSession.Session

/-- A call of the channel, and how it ended if it has.  The machine makes one
call at a time, so a history can be read as a list of these. -/
structure Exchange where
  call : Call
  outcome? : Option Outcome := none

/-- Whether a call asks for a session to be created, which is the only request
with this body. -/
def Call.creates : Call → Bool
  | send { body := .createSession _, .. } => true
  | _ => false

/-- The token of the session that a call asks to be activated, be it for the
first time or again. -/
def Call.activates? : Call → Option NodeId
  | send { header, body := .activateSession _ } => some header.token
  | _ => none

/-- Whether a call asks for neither, so that its answer says nothing about
which session there is. -/
def Call.isPlain : Call → Bool
  | send { body := .createSession _, .. } | send { body := .activateSession _, .. } => false
  | _ => true

/-- The session that a server says it created, if the call ended with such an
answer. -/
def Outcome.created? : Outcome → Option SessionCreated
  | response { body := .createSession created, .. } => some created
  | _ => none

/-- The nonce of a server that says it activated a session, which the next
activation has to sign. -/
def Outcome.nonce? : Outcome → Option ByteString
  | response { body := .activateSession nonce _, .. } => some nonce
  | _ => none

theorem Call.creates.activates? {c : Call} (h : c.creates) : c.activates? = none := by
  unfold creates at h
  split at h
  · rfl
  · cases h

theorem Call.not_creates_of_activates {c : Call} {token : NodeId}
    (h : c.activates? = some token) : c.creates = false := by
  cases hc : c.creates with
  | false => rfl
  | true =>
      rw [creates.activates? hc] at h
      cases h

theorem Call.isPlain.activates? {c : Call} (h : c.isPlain) : c.activates? = none := by
  unfold isPlain at h
  unfold Call.activates?
  split
  · cases h
  · rfl

theorem Call.isPlain.creates {c : Call} (h : c.isPlain) : c.creates = false := by
  unfold isPlain at h
  unfold Call.creates
  split
  · cases h
  · rfl

namespace Exchange

/-- The session that was created, if that is what the exchange came to. -/
def created? (x : Exchange) : Option SessionCreated :=
  if x.call.creates then x.outcome?.bind Outcome.created? else none

/-- The token that an activation was asked for under, and how that ended. -/
def activation? (x : Exchange) : Option (NodeId × Option Outcome) :=
  x.call.activates?.map fun token => (token, x.outcome?)

end Exchange

/-- What an entry of a history adds to the exchanges before it: a call begins
one, and an outcome ends the one that was begun last. -/
def Happening.note (xs : List Exchange) : Happening → List Exchange
  | did (.call c) => { call := c } :: xs
  | returned o => match xs with
    | { call, outcome? := none } :: rest => { call := call, outcome? := some o } :: rest
    | _ => xs
  | _ => xs

/-- The calls that were made along a run, the latest first, as its history
tells them. -/
def Run.exchanges (r : Run) : List Exchange := r.history.foldl Happening.note []

/-- The session that the server created last, by the latest call that it
answered so. -/
def Run.lastCreated? (r : Run) : Option SessionCreated :=
  r.exchanges.findSome? Exchange.created?

/-- The latest request to activate a session, and how it ended, if it has. -/
def Run.lastActivation? (r : Run) : Option (NodeId × Option Outcome) :=
  r.exchanges.findSome? Exchange.activation?

/-! ## What exchanges were about -/

section About

variable {c : Call} {o : Option Outcome} {xs : List Exchange}

/-- A call that has not ended creates nothing, whatever it asks for. -/
theorem lastCreated_unanswered (c : Call) (xs : List Exchange) :
    ({ call := c } :: xs).findSome? Exchange.created? = xs.findSome? Exchange.created? := by
  rw [List.findSome?_cons]
  cases c.creates <;> simp [Exchange.created?]

theorem lastCreated_other (h : c.creates = false) :
    ({ call := c, outcome? := o } :: xs).findSome? Exchange.created? =
      xs.findSome? Exchange.created? := by
  rw [List.findSome?_cons]
  simp [Exchange.created?, h]

theorem lastActivation_other (h : c.activates? = none) :
    ({ call := c, outcome? := o } :: xs).findSome? Exchange.activation? =
      xs.findSome? Exchange.activation? := by
  rw [List.findSome?_cons]
  simp [Exchange.activation?, h]

/-- What the server has answered to the latest request to create a session. -/
theorem lastCreated_answered {created : SessionCreated} {o : Outcome} (h : c.creates)
    (hanswer : o.created? = some created) :
    ({ call := c, outcome? := some o } :: xs).findSome? Exchange.created? = some created := by
  rw [List.findSome?_cons]
  simp [Exchange.created?, h, hanswer]

theorem lastActivation_asked {token : NodeId} (h : c.activates? = some token) :
    ({ call := c, outcome? := o } :: xs).findSome? Exchange.activation? = some (token, o) := by
  rw [List.findSome?_cons]
  simp [Exchange.activation?, h]

end About

/-! ## How exchanges come about -/

section Noting

variable {r : Run}

theorem exchanges_proceed (p : Progress) :
    (r.proceed p).exchanges = (p.effects.map Happening.did).foldl Happening.note r.exchanges :=
  List.foldl_append

/-- Only calls begin an exchange, so effects that make none leave the account
as it is. -/
theorem note_quiet {xs : List Exchange} {fs : List Effect}
    (hsilent : ∀ f ∈ fs, ∀ c, f ≠ .call c) :
    (fs.map Happening.did).foldl Happening.note xs = xs := by
  induction fs with
  | nil => rfl
  | cons f fs ih =>
      have hf : Happening.note xs (.did f) = xs := by
        have hnotCall := hsilent f List.mem_cons_self
        cases f <;> first | rfl | exact absurd rfl (hnotCall _)
      rw [List.map_cons, List.foldl_cons, hf]
      exact ih fun g hg => hsilent g (List.mem_cons_of_mem _ hg)

/-- A quiet effect is no call. -/
theorem ne_call_of_quiet {f : Effect} (hquiet : f.isQuiet) (c : Call) :
    f ≠ .call c := by
  rintro rfl
  cases hquiet

theorem exchanges_proceed_silent {p : Progress}
    (hsilent : ∀ f ∈ p.effects, ∀ c, f ≠ .call c) : (r.proceed p).exchanges = r.exchanges := by
  rw [exchanges_proceed, note_quiet hsilent]

theorem exchanges_proceed_quiet {p : Progress} (hquiet : ∀ f ∈ p.effects, f.isQuiet) :
    (r.proceed p).exchanges = r.exchanges :=
  exchanges_proceed_silent fun f hf => ne_call_of_quiet (hquiet f hf)

theorem exchanges_waitFor (owed : Owed) (a : Awaiting) (c : Call) :
    (r.proceed (r.machine.waitFor owed a c)).exchanges = { call := c } :: r.exchanges :=
  exchanges_proceed _

theorem exchanges_dequeue (c : Command) (rest : List Command) :
    (r.dequeue c rest).exchanges = r.exchanges :=
  List.foldl_append

/-- The call that was made last has ended, and its outcome is put beside it;
the exchanges before it stay as they were. -/
theorem exchanges_returned {c : Call} {rest : List Exchange}
    (hpending : r.exchanges = { call := c } :: rest) (o : Outcome) :
    (r.record (.returned o)).exchanges = { call := c, outcome? := some o } :: rest := by
  have hnoted : (r.record (.returned o)).exchanges =
      Happening.note r.exchanges (.returned o) := List.foldl_append
  rw [hnoted, hpending]
  rfl

/-- To move makes no call: the state that is left is given up, and the next
has still to be entered. -/
theorem Moves.silent {Q : Event → Prop} {m : Machine} {event : Event} {move : State.Move}
    {p : Progress} (h : Moves Q m event move p) : ∀ f ∈ p.effects, ∀ c, f ≠ .call c := by
  obtain ⟨rest, hquiet, heffects⟩ := h.effects
  intro f hf c
  rw [heffects, List.cons_append, List.mem_cons, List.mem_append] at hf
  rcases hf with rfl | hf | hf
  · simp
  · rintro rfl
    cases hst : m.state <;> simp [hst, Machine.leave, Machine.answers] at hf
  · exact ne_call_of_quiet (hquiet f hf) c

/-- To move begins no exchange. -/
theorem Moves.exchanges {Q : Event → Prop} {event : Event} {move : State.Move}
    {p : Progress} (h : Moves Q r.machine event move p) :
    (r.proceed p).exchanges = r.exchanges :=
  exchanges_proceed_silent h.silent

end Noting

end OpcSession.Session
