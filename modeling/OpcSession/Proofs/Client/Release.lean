import OpcSession.Proofs.Client.Abstaining
import OpcSession.Proofs.Client.Faults

/-!
# A client lets go of its connection

The link of a client whose callers leave the connection to the machine follows
the state of the machine.  Where the machine rests without a session, or has
just closed one, the link has been given up, whatever came of closing the
connection.  Anywhere else there is a link, alive or not, as soon as the machine
has connected.

* `ClientRun.Moored` — what the link of a client has to do with its machine;
* `ClientRun.Moored.move` — what every move keeps;
* `ClientRun.connection_let_go` — the law, for the machine by itself and for a
  client.
-/

namespace OpcSession.Session

/-! ## Where there is no link -/

namespace State

/-- The states in which there may be no link: those of a machine that parts
from the server, and the one in which it connects. -/
def Unlinked (st : State) : Prop :=
  (st.kind = .inactive ∨ st.kind = .closing) ∨ st.bare = creating [] none

/-- Whether a state goes without a link does not depend on who waits in it. -/
theorem Unlinked.bare {st st' : State} (h : st.Unlinked) (hsame : st'.bare = st.bare) :
    st'.Unlinked := by
  rw [Unlinked, kind_eq_of_bare hsame, hsame]
  exact h

/-- Without a link the machine moves to where it parts from the server, or to
where it connects. -/
theorem Unlinked.next {st : State} {e : Event} {move : Move} (h : st.Unlinked)
    (hmoves : st.transition? e = some move) :
    move.next.kind = .inactive ∨ move.next = creating [] none := by
  rcases h with (hinactive | hclosing) | hcreating
  · cases st <;> cases hinactive
    cases e <;> cases hmoves
    exact .inr rfl
  · cases st <;> cases hclosing
    cases e <;> cases hmoves
    · exact .inr rfl
    · exact .inl rfl
  · cases st <;> cases hcreating
    cases e <;> cases hmoves <;> exact .inl rfl

end State

/-- A machine that has moved to create a session connects, before it does
anything else there. -/
theorem Enters.connects {s : Surroundings} {event : Event} {epoch : Nat} {st : State} {c : Course}
    {owed : Owed} (h : Enters s event epoch st c) (hcreating : st.bare = .creating [] none) :
    c.state.bare = .creating [] none ∧
      c.ending.entry? owed = some { awaiting := .connectToCreate, owed := owed } := by
  cases h <;> first | exact ⟨hcreating, rfl⟩ | cases hcreating

end OpcSession.Session

namespace OpcSession.Simulation

open Session Client

namespace ClientRun

/-! ## The link and the machine -/

/-- **There is no link where the machine has parted from the server, and there
is one where the machine needs it.** -/
structure Moored (r : ClientRun) : Prop where
  /-- Where the machine rests without a session, or closes one and waits for
  nothing, the link has been given up. -/
  released : r.engine.machine.entry? = none →
    r.engine.machine.state.kind = .inactive ∨ r.engine.machine.state.kind = .closing →
      r.line? = none
  /-- Where there is no link, the state is one that goes without. -/
  unlinked : r.line? = none → r.engine.machine.state.Unlinked
  /-- A machine that is to create a session and has no link yet waits to be
  connected. -/
  connecting : r.line? = none → r.engine.machine.state.kind = .creating →
    ∀ entry, r.engine.machine.entry? = some entry → entry.awaiting = .connectToCreate

variable {r r' : ClientRun}

/-- In the beginning there is no session, and no link. -/
theorem moored_start (url : String) (settings : ClientSettings) (endpoint : EndpointDescription)
    (credentials : Credentials) : (start url settings endpoint credentials).Moored where
  released _ _ := rfl
  unlinked _ := .inl (.inl rfl)
  connecting _ hcreating := nomatch hcreating

/-- What depends on the state, on what the machine waits for, and on whether
there is a link. -/
theorem Moored.congr (h : r.Moored)
    (hbare : r'.engine.machine.state.bare = r.engine.machine.state.bare)
    (hentry : r'.engine.machine.entry? = r.engine.machine.entry?)
    (hline : r'.line? = none ↔ r.line? = none) : r'.Moored where
  released := by
    rw [hentry, State.kind_eq_of_bare hbare, hline]
    exact h.released
  unlinked hnone := (h.unlinked (hline.mp hnone)).bare hbare
  connecting := by
    rw [hentry, State.kind_eq_of_bare hbare, hline]
    exact h.connecting

/-- A command is taken.  To leave a state needs no link; to enter one says
which call is made first. -/
theorem Moored.takes (h : r.Moored) {s : Surroundings} {c : Command} {rest : List Command}
    {p : Progress} (hidle : r.engine.machine.entry? = none)
    (hobeys : ({ r.engine.machine with queue := rest } : Machine).Obeys s c p)
    (hengine : r'.engine = (r.engine.step fun _ => p).1) (hline : r'.line? = r.line?) :
    r'.Moored := by
  have hmachine : r'.engine.machine = p.machine := by rw [hengine, machine_step]
  rcases hobeys.serves_or_moves with ⟨hserves, -⟩ | ⟨e, move, course, -, hmoves, henters, rfl⟩
  · exact h.congr (by rw [hmachine]; exact hserves.bare) (by rw [hmachine]; exact hserves.entry)
      (by rw [hline])
  · have hdeparts := ({ r.engine.machine with queue := rest } : Machine).departs s e move c.waiter?
    have hkind : course.state.kind = move.next.kind :=
      henters.kind.trans (State.kind_eq_of_bare hdeparts.bare)
    have hentry : r'.engine.machine.entry? = course.ending.entry? c.owed := by
      rw [hmachine]
      exact Course.entry_run
    have hbare : r'.engine.machine.state.bare = course.state.bare := by
      rw [hmachine]
      exact Course.bare_run
    have hnext : r'.line? = none → move.next.kind = .inactive ∨ move.next = .creating [] none :=
      fun hnone => (h.unlinked (hline ▸ hnone)).next hmoves
    have hcreates (hnext : move.next = .creating [] none) :
        course.state.bare = .creating [] none ∧
          course.ending.entry? c.owed = some { awaiting := .connectToCreate, owed := c.owed } :=
      henters.connects (by rw [hdeparts.bare, hnext]; rfl)
    refine ⟨?_, ?_, ?_⟩
    · rw [hentry, State.kind_eq_of_bare hbare]
      intro hrests hparts
      obtain rfl := henters.closed_of_rests (Ending.entry?_eq_none.mp hrests) hparts
      obtain ⟨session, cs, hclosing⟩ := State.closing_of_disconnectSucceeded hmoves
      have hclosing : r.engine.machine.state = .closing session cs := hclosing
      rw [hline]
      exact h.released hidle (.inr (by rw [hclosing]; rfl))
    · intro hnone
      rcases hnext hnone with hinactive | hcreating
      · exact .inl (.inl ((State.kind_eq_of_bare hbare).trans (hkind.trans hinactive)))
      · exact .inr (hbare.trans (hcreates hcreating).1)
    · intro hnone hcreating entry' hwaiting
      rcases hnext hnone with hinactive | hnext
      · rw [State.kind_eq_of_bare hbare, hkind, hinactive] at hcreating
        cases hcreating
      · rw [hentry, (hcreates hnext).2] at hwaiting
        cases hwaiting
        rfl

/-- The machine disconnects only where it parts from the server, with or
without a session to close. -/
theorem parts_of_disconnects {a : Awaiting} {st : State} (h : disconnects a) (hfits : a.Fits st) :
    st.kind = .inactive ∨ st.kind = .closing := by
  cases a <;> cases h <;> cases st <;> first | exact .inl rfl | exact .inr rfl | exact hfits.elim

/-- The machine goes on after its call.  Only after it was to disconnect is
the link gone, and then it rests or moves on to rest. -/
theorem Moored.resumes (h : r.Moored) {s : Surroundings} {outcome : Outcome} {entry : Entry}
    {course : Course} (hwaiting : r.engine.machine.entry? = some entry)
    (hfits : entry.awaiting.Fits r.engine.machine.state)
    (hresumes : Resumes s outcome entry.awaiting r.engine.machine.state course)
    (hengine : r'.engine = (r.engine.step fun m => course.run s entry.owed m).1)
    (hclosed : disconnects entry.awaiting → r'.line? = none)
    (hopened : connects entry.awaiting → r'.line? = none → ∃ e, outcome = .failed e)
    (hkept : disconnects entry.awaiting = false → r'.line? = none → r.line? = none) :
    r'.Moored := by
  have hmachine : r'.engine.machine = (course.run s entry.owed r.engine.machine).machine := by
    rw [hengine, machine_step]
  have hentry' : r'.engine.machine.entry? = course.ending.entry? entry.owed := by
    rw [hmachine]
    exact Course.entry_run
  have hbare : r'.engine.machine.state.bare = course.state.bare := by
    rw [hmachine]
    exact Course.bare_run
  have hkind : r'.engine.machine.state.kind = r.engine.machine.state.kind :=
    (State.kind_eq_of_bare hbare).trans hresumes.kind
  -- What is left without a link by a call that did not disconnect had failed to
  -- connect.
  have hfailed : r'.line? = none → ¬ (r.engine.machine.state.kind = .inactive ∨
      r.engine.machine.state.kind = .closing) →
      course.state.bare = .creating [] none ∧ course.ending.entry? entry.owed = none := by
    intro hnone helsewhere
    have hkeeps : disconnects entry.awaiting = false :=
      Bool.eq_false_iff.mpr fun hdisconnects => helsewhere (parts_of_disconnects hdisconnects hfits)
    have hbefore := hkept hkeeps hnone
    have hcreating := (h.unlinked hbefore).resolve_left helsewhere
    have hconnecting :=
      h.connecting hbefore (by rw [← State.kind_bare, hcreating]; rfl) entry hwaiting
    obtain ⟨awaiting, owed⟩ := entry
    obtain rfl : awaiting = .connectToCreate := hconnecting
    obtain ⟨e, rfl⟩ := hopened rfl hnone
    cases hresumes with
    | connected hup => exact absurd rfl (hup e)
    | fails hhidden hwhy => exact ⟨hcreating, rfl⟩
  refine ⟨?_, ?_, ?_⟩
  · rw [hentry', hkind]
    intro hrests hparts
    rcases hresumes.disconnected_of_rests hfits (Ending.entry?_eq_none.mp hrests) hparts with
      hdropped | hclosed'
    · exact hclosed (by rw [hdropped]; rfl)
    · exact hclosed (by rw [hclosed']; rfl)
  · intro hnone
    by_cases hparts : r.engine.machine.state.kind = .inactive ∨
      r.engine.machine.state.kind = .closing
    · exact .inl (hkind ▸ hparts)
    · exact .inr (hbare.trans (hfailed hnone hparts).1)
  · intro hnone hcreating entry'' hwaiting'
    have helsewhere : ¬ (r.engine.machine.state.kind = .inactive ∨
        r.engine.machine.state.kind = .closing) := by
      rw [← hkind, hcreating]
      simp
    rw [hentry', (hfailed hnone helsewhere).2] at hwaiting'
    cases hwaiting'

/-- While the machine waits on, a line comes or goes only as it is about to
connect or to disconnect. -/
theorem Moored.waits (h : r.Moored) (horderly : r.Orderly) (hengine : r'.engine = r.engine)
    (hahead : Ahead (r.engine.machine.entry?.map (·.awaiting)) r r') : r'.Moored := by
  have hkept : r'.line? = none → ¬ (r.engine.machine.state.kind = .inactive ∨
      r.engine.machine.state.kind = .closing) → r.line? = none := by
    intro hnone helsewhere
    refine hahead.kept ?_ hnone
    intro b hb
    obtain ⟨entry, hwaiting, rfl⟩ := Option.map_eq_some_iff.mp hb
    exact Bool.eq_false_iff.mpr fun hdisconnects =>
      helsewhere (parts_of_disconnects hdisconnects (horderly.fits hwaiting))
  refine ⟨?_, ?_, ?_⟩
  · rw [hengine]
    intro hidle hparts
    rw [hahead.line (by rw [hidle]; nofun)]
    exact h.released hidle hparts
  · rw [hengine]
    intro hnone
    by_cases hparts : r.engine.machine.state.kind = .inactive ∨
      r.engine.machine.state.kind = .closing
    · exact .inl hparts
    · exact h.unlinked (hkept hnone hparts)
  · rw [hengine]
    intro hnone hcreating
    exact h.connecting (hkept hnone (by rw [hcreating]; simp)) hcreating

/-- **Every move keeps the link to the machine**, as long as callers leave the
connection to it. -/
theorem Moored.move (h : r.Moored) (horderly : r.Orderly) {m : Move} (habstains : m.Abstains) :
    (r.move m).Moored := by
  by_cases hmachine : m = .machine
  · subst hmachine
    have hadvances := horderly.advances.1
    generalize r.move .machine = r' at hadvances ⊢
    cases hadvances with
    | waits hengine hahead => exact h.waits horderly hengine hahead
    | takes hattended hconnected hidle hqueue hobeys hengine hline =>
        exact h.takes hidle hobeys hengine hline
    | resumes hwaiting hresumes hengine hclosed hopened hkeeps hkept =>
        exact h.resumes hwaiting (horderly.fits hwaiting) hresumes hengine hclosed hopened hkept
  · have hstays := (horderly.stirs habstains hmachine).2.stays
    exact h.congr (by rw [hstays.state]) hstays.entry hstays.line

/-! ## Who is told that it is disconnected -/

/-- What is answered was among the effects of the step, where some answers
were there before and may have been taken since. -/
theorem mem_of_sublist {α : Type} {xs ys zs : List α} {x : α}
    (h : (xs ++ ys).Sublist (xs ++ zs)) (hx : x ∈ ys) : x ∈ zs :=
  ((List.append_sublist_append_left xs).mp h).subset hx

/-- An answer among the effects of a step is one of its effects. -/
theorem answered_of_mem {fs : List Effect} {t : Ticket} {answer : Session.Answer}
    (h : (t, answer) ∈ fs.filterMap answer?) : .answered t answer ∈ fs := by
  obtain ⟨f, hf, heq⟩ := List.mem_filterMap.mp h
  cases f <;> cases heq
  exact hf

/-- **Whoever is told that it is disconnected is told so when there is no
link.** -/
theorem Moored.told (h : r.Moored) (horderly : r.Orderly) {m : Move} (habstains : m.Abstains)
    {t : Ticket} {more : List (Ticket × Session.Answer)}
    (hanswers : (r.move m).answers = r.answers ++ more) (htold : (t, .disconnected) ∈ more) :
    (r.move m).line? = none := by
  -- Nothing but a step of the machine answers anybody.
  have hsilent : ¬ (r.move m).answers.Sublist r.answers := by
    intro honward
    rw [hanswers] at honward
    have hnone := honward.length_le
    rw [List.length_append] at hnone
    have hsome := List.length_pos_of_mem htold
    omega
  by_cases hmachine : m = .machine
  · subst hmachine
    have hadvances := horderly.advances.1
    generalize r.move .machine = r' at hadvances hanswers hsilent ⊢
    cases hadvances with
    | waits hengine hahead => exact absurd hahead.answers hsilent
    | takes hattended hconnected hidle hqueue hobeys hengine hline hanswered =>
        rw [hanswers] at hanswered
        rw [hline]
        refine h.released hidle ?_
        rcases hobeys.disconnects (answered_of_mem (mem_of_sublist hanswered htold)) with
          hinactive | ⟨hclosing, -⟩
        · exact .inl hinactive
        · exact .inr hclosing
    | @resumes s outcome entry course hwaiting hresumes hengine hclosed hopened hkeeps hkept
      hanswered =>
        rw [hanswers] at hanswered
        obtain ⟨run, hreachable, heq⟩ := horderly.run
        have hparts := (Run.parts_of_reachable hreachable).2
        have howes : entry.owed = .disconnect t → r.engine.machine.state.kind = .inactive ∨
            r.engine.machine.state.kind = .closing := by
          rw [← heq] at hwaiting ⊢
          exact hparts.owed hwaiting
        have hdropping := hresumes.disconnects (horderly.fits hwaiting) howes
          (answered_of_mem (mem_of_sublist hanswered htold))
        exact hclosed (by rw [hdropping]; rfl)
  · exact absurd (horderly.stirs habstains hmachine).1.answers hsilent

/-! ## The law -/

/-- Without a line the channel has no link at all. -/
theorem link_of_line (h : r.line? = none) : r.channel.link? = none :=
  Option.map_eq_none_iff.mp h

/-- **A machine that rests without a session has let go of the connection, and
nobody is told that it is disconnected before.**

Along every run of the machine, whatever is asked and however its calls end:
when it rests without a session the channel was never connected, or it was
disconnected after the last time it was connected; the same holds whenever a
caller is told that it is disconnected; and if the machine held a session when
it took that caller's command, the server was asked to close that very session
right before the channel was disconnected, whatever came of either.

Along all moves of a client whose callers leave the connection to the machine:
when the machine rests without a session there is no link, and there is none
after a move in which anybody is told that it is disconnected. -/
theorem connection_let_go :
    (∀ run : Run, Reachable (fun _ => True) run →
      (run.machine.entry? = none → run.machine.state.kind = .inactive → HungUp run.exchanges) ∧
      (∀ t before after, run.history = before ++ .did (.answered t .disconnected) :: after →
        HungUp (dealings before)) ∧
      ∀ t rest s session, run.machine.entry? = none →
        run.machine.queue = .disconnect t :: rest → run.machine.state.held? = some session →
        ∀ later, Reaches (fun _ => True) (run.happen (.taking s)) later → ∀ before after,
          later.history =
            (run.history ++ before) ++ .did (.answered t .disconnected) :: after →
          .did (.answered t .disconnected) ∉ before →
          Severed session.token (dealings (run.history ++ before))) ∧
    ∀ url settings endpoint credentials (ms : List Move), (∀ m ∈ ms, m.Abstains) →
      let r := ms.foldl ClientRun.move (start url settings endpoint credentials)
      (r.engine.machine.entry? = none → r.engine.machine.state.kind = .inactive →
        r.channel.link? = none) ∧
      ∀ m : Move, m.Abstains → ∀ more t, (r.move m).answers = r.answers ++ more →
        (t, .disconnected) ∈ more → (r.move m).channel.link? = none := by
  constructor
  · intro run hreachable
    have hparts := (Run.parts_of_reachable hreachable).2
    refine ⟨?_, fun t before after => Run.hungUp_when_told hreachable, ?_⟩
    · intro hidle hinactive
      exact hparts.rests hidle (by rw [State.kind_bare]; exact hinactive)
    · intro t rest s session hidle hqueue hheld later hreaches before after hsplit hfirst
      exact Run.severed_when_told hreachable hidle hqueue hheld hreaches hsplit hfirst
  · intro url settings endpoint credentials ms habstain
    have hstart := orderly_start url settings endpoint credentials
    obtain ⟨horderly, hmoored⟩ := hstart.along (moored_start url settings endpoint credentials)
      (fun r m horderly habstains h => h.move horderly habstains) habstain
    refine ⟨fun hidle hinactive => link_of_line (hmoored.released hidle (.inl hinactive)), ?_⟩
    intro m habstains more t hanswers htold
    exact link_of_line (hmoored.told horderly habstains hanswers htold)

/-! ## Where closing fails -/

/-- A caller asks to be disconnected while a session is in use, with nothing
closed so far. -/
def dismissed : Run :=
  (opening 1 ⟨1, .numeric 7⟩ .null ++ [Occurrence.asked (.disconnect 2)]).foldl Run.happen {}

/-- Neither closing the session nor disconnecting succeeds, and the machine
goes on to rest all the same. -/
def broken : List Occurrence :=
  let e : SessionError := .transport "reset"
  [.ended .placid (.failed e), .ended .placid (.failed e), .taking .placid]

/-- A call gets a session and another one closes it.  The connection is lost
before the server has answered, and closing it fails. -/
def farewell : List Move :=
  [.act (.script "close" (.sendError "broken")), .act (.call "first" true .session), .machine,
    .machine, Chronicle.created 1 ⟨1, .numeric 1⟩, .machine, .machine, Chronicle.activated 2,
    .machine, .machine, .caller 0, .act (.call "second" true .close), .machine, .cut, .machine,
    .machine]

/-- None of these moves makes a call that connects or disconnects. -/
theorem abstain_farewell : ∀ m ∈ farewell, m.Abstains := by
  simp [farewell, Move.Abstains, Action.Abstains, Chronicle.created, Chronicle.activated]

/-- The law where everything fails: the session is closed once, then the
channel disconnects once, and the link is gone though neither has
succeeded. -/
theorem connection_let_go_broken :
    let parted := broken.foldl Run.happen (dismissed.happen (.taking .placid))
    let r := farewell.foldl ClientRun.move Chronicle.plant.client
    (parted.machine.entry? = none ∧ parted.machine.state.kind = .inactive ∧
        HungUp parted.exchanges) ∧
      (∃ before, parted.history = (dismissed.history ++ before) ++
          [.did (.answered 2 .disconnected)] ∧
        HungUp (dealings (dismissed.history ++ before)) ∧
        Severed ⟨1, .numeric 7⟩ (dealings (dismissed.history ++ before))) ∧
      (1, .disconnected) ∈ (r.move .machine).answers ∧ (r.move .machine).channel.link? = none ∧
      (r.move .machine).engine.machine.state.kind = .inactive := by
  intro parted r
  have hreachable : Reachable (fun _ => True) dismissed := Reaches.ofList _ fun _ _ => trivial
  have hlater : Reaches (fun _ => True) (dismissed.happen (.taking .placid)) parted :=
    Reaches.ofList _ fun _ _ => trivial
  have hall : Reachable (fun _ => True) parted :=
    (Reaches.step (.taking .placid) hreachable trivial).trans hlater
  have hsplit : parted.history = (dismissed.history ++ (parted.history.take 24).drop 15) ++
      [.did (.answered 2 .disconnected)] := rfl
  have hfirst : .did (.answered 2 .disconnected) ∉ (parted.history.take 24).drop 15 := by
    have huntold : ((parted.history.take 24).drop 15).any
        (·.answered? = some (.disconnection 2)) = false := rfl
    intro htold
    exact absurd rfl (List.any_eq_false.mp huntold _ htold)
  have hreleased : ∀ m : Move, m.Abstains → ∀ more t, (r.move m).answers = r.answers ++ more →
      (t, .disconnected) ∈ more → (r.move m).channel.link? = none :=
    (connection_let_go.2 "plant" { session := { sessionName := "plant" } } (.unsecured "plant")
      .anonymous farewell abstain_farewell).2
  have hnone : r.answers = [] := List.isEmpty_iff.mp (by decide +kernel)
  have htold : (1, .disconnected) ∈ (r.move .machine).answers := by
    have hany : (r.move .machine).answers.any
        (fun p => (Effect.answered p.1 p.2).due? = some (.disconnection 1)) := by
      decide +kernel
    obtain ⟨⟨t, answer⟩, hgiven, his⟩ := List.any_eq_true.mp hany
    cases answer <;> simp [Effect.due?] at his
    subst his
    exact hgiven
  have hanswers : (r.move .machine).answers = r.answers ++ (r.move .machine).answers := by
    rw [hnone, List.nil_append]
  refine ⟨⟨rfl, rfl, (connection_let_go.1 parted hall).1 rfl rfl⟩, ⟨_, hsplit, ?_, ?_⟩,
    htold, ?_, ?_⟩
  · exact (connection_let_go.1 parted hall).2.1 2 _ [] hsplit
  · exact (connection_let_go.1 dismissed hreachable).2.2 2 [] .placid _ rfl rfl rfl parted
      hlater _ []
      hsplit hfirst
  · exact hreleased .machine trivial _ 1 hanswers htold
  · decide +kernel

end ClientRun

end OpcSession.Simulation
