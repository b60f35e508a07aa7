import OpcSession.Proofs.Client.Following
import OpcSession.Proofs.Session.Warning

/-!
# Which faults cost a client its session

A client that has a session in use gives it up as invalid when a response
comes in that says so.  The fault is told by its status alone: the channel does
not say which request it answers, and so neither whose session it is about.
The law is therefore about the time of the response: it came in while the
session was in use.  A fault that answers a request made under an older session
is not told apart from one that concerns the session in use.

* `Chronicle` — a client with the tidings of its moves;
* `invalidated_on_fault` — the law;
* `invalidated_by_fault_of_another_session` — why it says no more.
-/

namespace OpcSession.Simulation

open Session Client

/-- What there is to tell of the moves of a client: what it sends, what comes
in, and how its machine moves, in one order. -/
inductive Tiding
  | sent (e : RequestEnvelope)
  /-- A response came in on the connection in use. -/
  | received (e : ResponseEnvelope)
  /-- The machine went from one state to another. -/
  | moved (t : Transition)
deriving DecidableEq

namespace Tiding

/-- The move that is told of, if one is. -/
def moved? : Tiding → Option Transition
  | moved t => some t
  | _ => none

/-- The moves of the machine among the tidings, in their order. -/
def moves (xs : List Tiding) : List Transition := xs.filterMap moved?

/-- Of tidings that come after others the moves come after theirs. -/
@[simp] theorem moves_append (xs ys : List Tiding) : moves (xs ++ ys) = moves xs ++ moves ys :=
  List.filterMap_append

theorem moves_cons_moved (t : Transition) (xs : List Tiding) :
    moves (.moved t :: xs) = t :: moves xs := rfl

theorem moves_cons_received (e : ResponseEnvelope) (xs : List Tiding) :
    moves (.received e :: xs) = moves xs := rfl

@[simp] theorem moves_map_moved (ts : List Transition) : moves (ts.map .moved) = ts := by
  induction ts with
  | nil => rfl
  | cons t ts ih => exact congrArg _ ih

@[simp] theorem moves_map_sent (es : List RequestEnvelope) : moves (es.map .sent) = [] := by
  induction es with
  | nil => rfl
  | cons e es ih => exact ih

end Tiding

/-- The request that was seen to be sent, among all that can be seen from
outside. -/
def ClientRun.Observation.sent? : ClientRun.Observation → Option RequestEnvelope
  | sent e _ => some e
  | _ => none

/-- A response that says of a session that it is invalid.  It does not say of
which, since it answers a request by its handle alone. -/
def Invalidates (e : ResponseEnvelope) : Prop := e.body.fault? = some .badSessionIdInvalid

/-- It can be read off a response whether it is one of these. -/
instance (e : ResponseEnvelope) : Decidable (Invalidates e) :=
  inferInstanceAs (Decidable (_ = _))

/-- A client, and the tidings of what it has done so far.  The client itself
forgets both requests and responses, so the law is stated of the chronicle. -/
structure Chronicle where
  /-- The client as it is now. -/
  client : ClientRun
  /-- The tidings in the order of the moves. -/
  tidings : List Tiding := []

namespace ClientRun

/-- What a move takes in: a response, if there is a connection for it. -/
def takes (r : ClientRun) : Move → List Tiding
  | .received e => if r.channel.isConnected then [.received e] else []
  | _ => []

/-- The tidings of a move: what comes in by it, how the machine moves, and
what it sends then. -/
def news (r : ClientRun) (m : Move) : List Tiding :=
  r.takes m ++ ((r.move m).transitions.drop r.transitions.length).map .moved
    ++ (((r.move m).log.drop r.log.length).filterMap Observation.sent?).map .sent

theorem moves_takes (r : ClientRun) (m : Move) : Tiding.moves (r.takes m) = [] := by
  cases m with
  | received e =>
      simp only [takes]
      split <;> rfl
  | _ => rfl

/-- The moves in the tidings are those that were published, so the chronicle
leaves none out. -/
theorem moves_news (r : ClientRun) (m : Move) :
    Tiding.moves (r.news m) = (r.move m).transitions.drop r.transitions.length := by
  rw [news, Tiding.moves_append, Tiding.moves_append, moves_takes, Tiding.moves_map_moved,
    Tiding.moves_map_sent, List.nil_append, List.append_nil]

/-- A response that comes in on the connection in use is told first. -/
theorem news_received (r : ClientRun) (e : ResponseEnvelope) (hconnected : r.channel.isConnected) :
    ∃ rest, r.news (.received e) = .received e :: rest := by
  rw [news, takes, if_pos hconnected, List.append_assoc]
  exact ⟨_, rfl⟩

end ClientRun

namespace Chronicle

/-- The chronicle goes on with a move of the client, whose tidings come after
those before. -/
def after (c : Chronicle) (m : ClientRun.Move) : Chronicle where
  client := c.client.move m
  tidings := c.tidings ++ c.client.news m

/-- A response that came in while the machine was in its `k`-th state said
that the session is invalid. -/
def Warned (c : Chronicle) (k : Nat) : Prop :=
  ∃ earlier e since, c.tidings = earlier ++ .received e :: since ∧
    (Tiding.moves earlier).length = k ∧ Invalidates e

/-- Along with the client goes a run of the session machine that makes the
same moves and keeps to the warnings in the tidings. -/
def Backed (c : Chronicle) : Prop :=
  ∃ run : Run, run.Sound False ∧ run.Heeds c.Warned ∧ run.engine = c.client.engine ∧
    run.transitions = Tiding.moves c.tidings

variable {c : Chronicle}

/-- The client in a chronicle makes the moves that it would make without
one. -/
theorem client_foldl_after (ms : List ClientRun.Move) (c : Chronicle) :
    (ms.foldl after c).client = ms.foldl ClientRun.move c.client := by
  induction ms generalizing c with
  | nil => rfl
  | cons m ms ih => exact ih (c.after m)

/-- Whatever a client does next, a session that was warned of stays so. -/
theorem Warned.after {k : Nat} (h : c.Warned k) (m : ClientRun.Move) : (c.after m).Warned k := by
  obtain ⟨earlier, e, since, hsplit, hmoves, hinvalidates⟩ := h
  exact ⟨earlier, e, since ++ c.client.news m, by simp [Chronicle.after, hsplit], hmoves,
    hinvalidates⟩

/-- Nobody but the channel claims a session to be invalid.  Whoever raises
such an event by hand could end a session that no fault was about. -/
abbrev Careful (m : ClientRun.Move) : Prop := m.RaisesOnly (· ≠ .sessionInvalid)

/-- What a client does by itself claims nothing; only its surroundings can be
careless. -/
theorem raisesOnly_of_own {Q : Event → Prop} {m : ClientRun.Move} (hown : ¬ m.isAct) :
    m.RaisesOnly Q := by
  cases m with
  | act a => exact absurd rfl hown
  | _ => trivial

theorem backed_start (url : String) (settings : ClientSettings)
    (endpoint : EndpointDescription) (credentials : Credentials) :
    Backed { client := .start url settings endpoint credentials } :=
  ⟨{}, Run.sound_start False, Run.heeds_start (by simp [Listeners.RaiseOnly, Listeners.snapshot])
    rfl rfl rfl, rfl, rfl⟩

/-- A warning that comes of a move is of the state that the machine is in. -/
theorem warned_of_causes {m : ClientRun.Move} {capacity : Nat} {n : Notice}
    (hcauses : c.client.Causes m (.noticed capacity n)) (hwarns : n.Warns) :
    (c.after m).Warned (Tiding.moves c.tidings).length := by
  cases m with
  | received e =>
      obtain ⟨hconnected, -, hfault⟩ := hcauses
      obtain ⟨rest, hnews⟩ := c.client.news_received e hconnected
      rw [Notice.eq_of_warns hwarns] at hfault
      obtain ⟨status, hinvalid, hsame⟩ := Option.map_eq_some_iff.mp hfault.symm
      cases hsame
      exact ⟨c.tidings, e, rest, by rw [after, hnews], rfl, hinvalid⟩
  | cut =>
      obtain ⟨-, rfl⟩ := hcauses
      cases hwarns
  | act a => cases hcauses
  | _ => exact hcauses.elim

/-- A careful move leaves every claim backed by a fault that came in while the
session was in use. -/
theorem Backed.after {m : ClientRun.Move} (h : c.Backed) (hcareful : Careful m) :
    (c.after m).Backed := by
  obtain ⟨run, hsound, hheeds, hengine, htransitions⟩ := h
  have hwarned : run.Heeds (c.after m).Warned := hheeds.mono fun k hk => hk.after m
  have hepoch : run.machine.epoch = (Tiding.moves c.tidings).length := by
    rw [hsound.moves, ← Run.length_transitions, htransitions]
  by_cases hforgets : m = .forget
  · subst hforgets
    exact ⟨run, hsound, hwarned, hengine, by simp [Chronicle.after, ClientRun.moves_news,
      ClientRun.move, htransitions]⟩
  · obtain ⟨run', hreaches, hengine', ts, hpublished, hpublished'⟩ :=
      ClientRun.follows_move c.client m hcareful hforgets run hsound hheeds.listeners hengine
    -- Warnings are of the state in which the move begins: what gives notice
    -- does not move the machine.
    have halong : run'.Sound False ∧ run'.Heeds (c.after m).Warned ∧
        ∀ capacity n, c.client.Causes m (.noticed capacity n) →
          run'.machine.epoch = (Tiding.moves c.tidings).length := by
      refine Reaches.invariant (I := fun run => run.Sound False ∧ run.Heeds (c.after m).Warned ∧
        ∀ capacity n, c.client.Causes m (.noticed capacity n) →
          run.machine.epoch = (Tiding.moves c.tidings).length)
        ⟨hsound, hwarned, fun _ _ _ => hepoch⟩ ?_ hreaches
      rintro run o ⟨hraises, hcauses⟩ ⟨hsound, hwarned, hepoch⟩
      refine ⟨hsound.happen False.elim, hwarned.happen hsound hraises ?_, ?_⟩
      · rintro capacity n rfl hwarns
        rw [hepoch capacity n hcauses]
        exact warned_of_causes hcauses hwarns
      · intro capacity n hnotice
        obtain ⟨capacity', n', rfl⟩ := ClientRun.causes_notice hnotice hcauses
        exact hepoch capacity n hnotice
    refine ⟨run', halong.1, halong.2.1, hengine', ?_⟩
    rw [hpublished, htransitions]
    simp [Chronicle.after, ClientRun.moves_news, hpublished']

theorem Backed.afterAll (h : c.Backed) (ms : List ClientRun.Move)
    (hcareful : ∀ m ∈ ms, Careful m) : (ms.foldl Chronicle.after c).Backed := by
  induction ms generalizing c with
  | nil => exact h
  | cons m ms ih =>
      have hfirst := h.after (hcareful m List.mem_cons_self)
      exact ih hfirst fun m' hm' => hcareful m' (List.mem_cons_of_mem _ hm')

/-- In a chronicle that is backed the machine gave its session up as invalid
only when it was warned. -/
theorem Backed.warned (h : c.Backed) {before after : List Tiding} {t : Transition}
    (hsplit : c.tidings = before ++ .moved t :: after) (hinvalid : t.event = .sessionInvalid) :
    c.Warned (Tiding.moves before).length := by
  obtain ⟨run, -, hheeds, -, htransitions⟩ := h
  refine hheeds.past (Tiding.moves before) t (Tiding.moves after) ?_ hinvalid
  rw [htransitions, hsplit, Tiding.moves_append, Tiding.moves_cons_moved]

/-- A response that came in after as many moves as there are before a move
came in before it, and no move is between the two. -/
theorem received_before {before after earlier since : List Tiding} {t : Transition}
    {e : ResponseEnvelope}
    (hsplit : before ++ .moved t :: after = earlier ++ .received e :: since)
    (hmoves : (Tiding.moves earlier).length = (Tiding.moves before).length) :
    ∃ between, before = earlier ++ .received e :: between ∧ ∀ t', .moved t' ∉ between := by
  rcases List.append_eq_append_iff.mp hsplit with ⟨more, rfl, hrest⟩ | ⟨more, rfl, hrest⟩
  · cases more with
    | nil => cases hrest
    | cons x more =>
        cases hrest
        rw [Tiding.moves_append, Tiding.moves_cons_moved, List.length_append,
          List.length_cons] at hmoves
        omega
  · cases more with
    | nil => cases hrest
    | cons x more =>
        cases hrest
        refine ⟨more, rfl, ?_⟩
        intro t' ht'
        rw [Tiding.moves_append, Tiding.moves_cons_received, List.length_append] at hmoves
        have hsome : t' ∈ Tiding.moves more := List.mem_filterMap.mpr ⟨_, ht', rfl⟩
        have hpositive := List.length_pos_of_mem hsome
        omega

/-- **A session in use is given up on a fault that comes in while it is in
use.**  Whatever a client does and whatever its peer answers, in whatever
order: when the machine leaves a session that it holds to be invalid, a
response has come in on the connection in use that says so, and it has come in
since the machine moved to the state that it leaves. -/
theorem invalidated_on_fault (url : String) (settings : ClientSettings)
    (endpoint : EndpointDescription) (credentials : Credentials) (ms : List ClientRun.Move)
    (hcareful : ∀ m ∈ ms, Careful m) (before after : List Tiding) (t : Transition)
    (hsplit : (ms.foldl Chronicle.after
      { client := .start url settings endpoint credentials }).tidings =
        before ++ .moved t :: after)
    (hinvalid : t.event = .sessionInvalid) :
    ∃ earlier e since, before = earlier ++ .received e :: since ∧ Invalidates e ∧
      ∀ t', .moved t' ∉ since := by
  have hstart := backed_start url settings endpoint credentials
  obtain ⟨earlier, e, since, hfound, hmoves, hinvalidates⟩ :=
    (hstart.afterAll ms hcareful).warned hsplit hinvalid
  obtain ⟨between, heq, hstill⟩ := received_before (hsplit.symm.trans hfound) hmoves
  exact ⟨earlier, e, between, heq, hinvalidates, hstill⟩

/-- **Every rehearsal has such a chronicle.**  What a client does when things
are done to it one after the other, and its tasks run in between, is among
what the law is about. -/
theorem chronicle_of_performs (actions : List ClientRun.Action)
    (hcareful : ∀ a ∈ actions, a.RaisesOnly (· ≠ .sessionInvalid)) (c : Chronicle) :
    ∃ ms : List ClientRun.Move, (∀ m ∈ ms, Careful m) ∧
      (ms.foldl Chronicle.after c).client =
        actions.foldl (fun r a => (r.perform a).2) c.client := by
  induction actions generalizing c with
  | nil => exact ⟨[], by simp, rfl⟩
  | cons a rest ih =>
      obtain ⟨ms, hown, hperformed⟩ := c.client.perform_moves a
      obtain ⟨ms', hcareful', hperformed'⟩ := ih
        (fun a' ha' => hcareful a' (List.mem_cons_of_mem _ ha'))
        ((.forget :: .act a :: ms).foldl Chronicle.after c)
      refine ⟨.forget :: .act a :: ms ++ ms', ?_, ?_⟩
      · intro m hm
        rcases List.mem_append.mp hm with hm | hm
        · rcases List.mem_cons.mp hm with rfl | hm
          · trivial
          · rcases List.mem_cons.mp hm with rfl | hm
            · exact hcareful a List.mem_cons_self
            · exact raisesOnly_of_own (hown m hm)
        · exact hcareful' m hm
      · rw [List.foldl_append, hperformed', client_foldl_after, List.foldl_cons, List.foldl_cons,
          ← hperformed]
        rfl

/-! ## A fault that comes late -/

/-- The server answers that it has created a session, and names the token of
it. -/
def created (handle : UInt32) (token : NodeId) : ClientRun.Move :=
  .received {
    handle := handle
    body := {
      header := .good handle
      body := .createSession { (default : SessionCreated) with token := token } } }

/-- The server answers that it has activated a session, with nothing to
remark. -/
def activated (handle : UInt32) : ClientRun.Move :=
  .received {
    handle := handle
    body := { header := .good handle, body := .activateSession .null [] } }

/-- The server answers that it does not know the session of a request. -/
def refused (handle : UInt32) : ClientRun.Move :=
  .received {
    handle := handle
    body := {
      header := { handle := handle, result := .badSessionIdInvalid }
      body := .serviceFault } }

/-- Two calls read a value under one session.  The server refuses the second,
the client creates another session in its place, and only then the server
refuses the first. -/
def lateRefusal : List ClientRun.Move :=
  [.act (.call "first" false (.read .null .value)), .machine, .machine,
    created 1 ⟨1, .numeric 1⟩, .machine, .machine, activated 2, .machine, .machine, .caller 0,
    .act (.call "second" false (.read .null .value)), .machine, .caller 1, refused 4, .watcher,
    .machine, .machine, created 5 ⟨1, .numeric 2⟩, .machine, .machine, activated 6, .machine,
    .machine, refused 3, .watcher]

theorem careful_lateRefusal : ∀ m ∈ lateRefusal, Careful m := by
  simp [lateRefusal, Careful, created, activated, refused, ClientRun.Move.RaisesOnly,
    ClientRun.Action.RaisesOnly]

/-- The chronicle of a client that has not done anything, at an endpoint
without security. -/
def plant : Chronicle where
  client := .start "plant" { session := { sessionName := "plant" } } (.unsecured "plant")
    .anonymous

/-- The chronicle of the moves that a client makes from the start, whatever
they are. -/
def ofMoves (ms : List ClientRun.Move) : Chronicle := ms.foldl after plant

/-- The session that was in use is given up at the next move. -/
theorem news_lateRefusal : (ofMoves lateRefusal).client.news .machine =
    [.moved ⟨.active, .sessionInvalid, .creating⟩] := by
  decide +kernel

/-- The law at work: a fault that came in while the session was in use, and
the machine leaves the session because of it. -/
theorem invalidated_on_fault_late :
    (ofMoves (lateRefusal ++ [.machine])).tidings =
        (ofMoves lateRefusal).tidings ++ [.moved ⟨.active, .sessionInvalid, .creating⟩] ∧
      ∃ earlier e since, (ofMoves lateRefusal).tidings = earlier ++ .received e :: since ∧
        Invalidates e ∧ ∀ t', .moved t' ∉ since := by
  have hsplit : (ofMoves (lateRefusal ++ [.machine])).tidings =
      (ofMoves lateRefusal).tidings ++ [.moved ⟨.active, .sessionInvalid, .creating⟩] := by
    rw [ofMoves, List.foldl_append, List.foldl_cons, List.foldl_nil, after, ← ofMoves,
      news_lateRefusal]
  have hcareful : ∀ m ∈ lateRefusal ++ [.machine], Careful m := by
    intro m hm
    rcases List.mem_append.mp hm with hm | hm
    · exact careful_lateRefusal m hm
    · cases List.mem_singleton.mp hm
      trivial
  exact ⟨hsplit, invalidated_on_fault _ _ _ _ _ hcareful _ _ _ hsplit rfl⟩

/-- The handles of the responses that say of a session that it is invalid. -/
def faults (c : Chronicle) : List UInt32 :=
  c.tidings.filterMap fun
    | .received e => if Invalidates e then some e.handle else none
    | _ => none

/-- The handles of the requests that were made under a token, by which a fault
can be told to answer one of them. -/
def madeUnder (c : Chronicle) (token : NodeId) : List UInt32 :=
  c.tidings.filterMap fun
    | .sent e => if e.body.header.token = token then some e.handle else none
    | _ => none

/-- **A fault may cost a client a session that it does not concern.**  It is
not so that the machine gives a session up as invalid only if a request that
was made under the token of that session was answered so: a late answer to a
request under the session before it is enough. -/
theorem invalidated_by_fault_of_another_session :
    ¬ ∀ (ms : List ClientRun.Move), (∀ m ∈ ms, Careful m) →
      ∀ session t, (ofMoves ms).client.engine.machine.state.activeSession? = some session →
        .moved t ∈ (ofMoves ms).client.news .machine → t.event = .sessionInvalid →
        ∃ handle ∈ (ofMoves ms).faults, handle ∈ (ofMoves ms).madeUnder session.token := by
  intro hclaim
  have hinUse : (ofMoves lateRefusal).client.engine.machine.state.activeSession?.map (·.token) =
      some ⟨1, .numeric 2⟩ := by
    decide +kernel
  have hfaults : (ofMoves lateRefusal).faults = [4, 3] := by decide +kernel
  have hrequests : (ofMoves lateRefusal).madeUnder ⟨1, .numeric 2⟩ = [6] := by decide +kernel
  obtain ⟨session, hactive, htoken⟩ := Option.map_eq_some_iff.mp hinUse
  obtain ⟨handle, hfault, hrequest⟩ := hclaim lateRefusal careful_lateRefusal session _ hactive
    (by rw [news_lateRefusal]; exact List.mem_cons_self) rfl
  rw [hfaults] at hfault
  rw [htoken, hrequests] at hrequest
  cases List.mem_singleton.mp hrequest
  simp at hfault

end Chronicle

end OpcSession.Simulation
