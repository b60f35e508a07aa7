import OpcSession.Proofs.Client.Faults
import OpcSession.Proofs.Client.Watching

/-!
# Faults that the watcher does not get to read

Notices wait for the watcher in a mailbox of limited size, from which the oldest are lost.
A fault that says that the session in use is invalid is reported by the time the watcher has
nothing more to read, unless as many notices as the mailbox holds have come in after it
before the watcher next read.

* `Engine.Reported`, `Engine.Tells` — what the watcher has reported, or has yet to read;
* `Run.Sound.reported_happen`, `Run.Sound.tells_happen` — it stays so in one state;
* `ClientRun.Since` — what is so as long as the machine is in one state;
* `ClientRun.invalid_fault_reported` — the law.
-/

namespace OpcSession.Session

open Client

/-! ## The mailbox -/

namespace Engine

/-- To keep the newest entries each time that one comes in is to keep the
newest of all. -/
theorem newest_append {α : Type} (capacity : Nat) (xs ys : List α) :
    newest capacity (newest capacity xs ++ ys) = newest capacity (xs ++ ys) := by
  unfold newest
  rw [← List.drop_append_of_le_length (Nat.sub_le xs.length capacity), List.drop_drop]
  congr 1
  simp only [List.length_append, List.length_drop]
  omega

/-- The newest of some notices are as many as fit, or all. -/
theorem length_newest {α : Type} (capacity : Nat) (xs : List α) :
    (newest capacity xs).length = min capacity xs.length := by
  rw [newest, List.length_drop]
  omega

/-- An event that the watcher raises is queued in the current epoch, so the
machine will come to it before it does anything about a later state. -/
def Reported (e : Engine) : Prop :=
  e.machine.Queued .sessionInvalid ∨ e.machine.Queued .connectionLost

/-- The watcher has reported something, or it has yet to read notices of which
these came last, as far as its mailbox holds them. -/
def Tells (ns : List Notice) (e : Engine) : Prop :=
  e.Reported ∨ ∃ w old, e.watcher? = some w ∧ w.unread = newest Channel.mailbox (old ++ ns)

/-- A notice comes in while there is a watcher, or after it has reported
already; nothing of it is lost so far. -/
theorem tells_notify {e : Engine} (h : e.Reported ∨ e.watcher?.isSome) (n : Notice) :
    (e.notify Channel.mailbox n).Tells [n] := by
  refine h.imp_right fun hwatching => ?_
  obtain ⟨w, hwatching⟩ := Option.isSome_iff_exists.mp hwatching
  refine ⟨{ w with unread := newest Channel.mailbox (w.unread ++ [n]) }, w.unread, ?_, rfl⟩
  rw [Engine.notify, hwatching]
  rfl

/-- One more notice comes in, which may push the oldest out of the mailbox. -/
theorem Tells.notify {ns : List Notice} {e : Engine} (h : e.Tells ns) (n : Notice) :
    (e.notify Channel.mailbox n).Tells (ns ++ [n]) := by
  refine h.imp_right ?_
  rintro ⟨w, old, hwatching, hunread⟩
  refine ⟨{ w with unread := newest Channel.mailbox (w.unread ++ [n]) }, old, ?_, ?_⟩
  · rw [Engine.notify, hwatching]
    rfl
  · rw [hunread, newest_append, List.append_assoc]

/-- A notice that came in is not read without a trace: what is left in an
empty mailbox was reported. -/
theorem Tells.reported {since : List Notice} {n : Notice} {e : Engine} (h : e.Tells (n :: since))
    (hempty : ∀ w, e.watcher? = some w → w.unread = []) : e.Reported := by
  refine h.resolve_right ?_
  rintro ⟨w, old, hwatching, hunread⟩
  have hlength := congrArg List.length hunread
  rw [hempty w hwatching, length_newest] at hlength
  simp only [List.length_nil, List.length_append, List.length_cons, Channel.mailbox] at hlength
  omega

/-- The watcher that reads reports what gives rise to an event, if its mailbox
held it. -/
theorem Tells.watch {since : List Notice} {n : Notice} {e : Engine} (h : e.Tells (n :: since))
    (howned : ∀ w, e.watcher? = some w → w.epoch = e.machine.epoch)
    (hroom : since.length < Channel.mailbox) (hraises : n.event?.isSome) :
    (e.watch true).Reported := by
  rcases h with hreported | ⟨w, old, hwatching, hunread⟩
  · have hkept : ∀ event, e.machine.Queued event → (e.watch true).machine.Queued event := by
      intro event hqueued
      rcases e.watch_cases with ⟨hmachine, -⟩ | ⟨_, _, _, -, -, -, hmachine, -⟩
      · rwa [hmachine]
      · rw [hmachine]
        exact List.mem_append_left _ hqueued
    exact hreported.imp (hkept _) (hkept _)
  · have hheld : n ∈ w.unread := by
      rw [hunread]
      exact mem_newest hroom old n
    obtain ⟨event, hseen⟩ : ∃ event, w.unread.findSome? Notice.event? = some event := by
      rw [← Option.isSome_iff_exists, List.findSome?_isSome_iff]
      exact ⟨n, hheld, hraises⟩
    have hmachine : (e.watch true).machine = e.machine.push (.stamped event e.machine.epoch) := by
      rw [← howned w hwatching]
      exact machine_watch hwatching hseen
    have hqueued : (e.watch true).machine.Queued event := by
      rw [hmachine]
      exact List.mem_append_right _ List.mem_cons_self
    obtain ⟨n', -, hraised⟩ := List.exists_of_findSome?_eq_some hseen
    rcases Notice.lost_or_invalid hraised with rfl | rfl
    · exact .inr hqueued
    · exact .inl hqueued

end Engine

/-! ## In one state -/

/-- What neither gives notice to the watcher nor lets it read; whatever is
unread stays unread then. -/
def Occurrence.isBeside : Occurrence → Bool
  | noticed _ _ | watching _ => false
  | _ => true

namespace Run

variable {r : Run} {o : Occurrence} {e : Event}

/-- The machine does not move, or the epoch goes on.  So as long as the epoch
is the same, the state is the same, with its watcher. -/
theorem Sound.still_or_later (hsound : r.Sound False) (o : Occurrence) :
    (r.happen o).machine.epoch = r.machine.epoch ∧ (r.happen o).transitions = r.transitions ∨
      r.machine.epoch < (r.happen o).machine.epoch := by
  have hlater := (hsound.happen (o := o) False.elim).moves
  rw [hlater, hsound.moves, ← length_transitions, ← length_transitions]
  rcases (hsound.turns o).transitions_cases with hsame | ⟨_, _, _, _, _, _, _, hmore⟩
  · exact .inl ⟨congrArg List.length hsame, hsame⟩
  · rw [hmore, List.length_append, List.length_singleton]
    exact .inr (Nat.lt_succ_self _)

theorem Sound.epoch_le (hsound : r.Sound False) (o : Occurrence) :
    r.machine.epoch ≤ (r.happen o).machine.epoch := by
  rcases hsound.still_or_later o with ⟨hsame, -⟩ | hlater <;> omega

theorem Sound.still_of_epoch (hsound : r.Sound False)
    (hsame : (r.happen o).machine.epoch = r.machine.epoch) :
    (r.happen o).transitions = r.transitions := by
  rcases hsound.still_or_later o with ⟨-, hstill⟩ | hlater
  · exact hstill
  · omega

/-- What is queued in a state stays queued while the machine is in it: it
would move the machine if it was taken. -/
theorem Sound.queued_happen (hsound : r.Sound False) (hqueued : r.machine.Queued e)
    (hsame : (r.happen o).machine.epoch = r.machine.epoch) : (r.happen o).machine.Queued e := by
  have hstill := hsound.still_of_epoch hsame
  rw [Machine.Queued, hsame]
  cases hsound.turns o with
  | rests _ _ hqueue =>
      obtain ⟨news, hqueue⟩ := hqueue
      rw [hqueue]
      exact List.mem_append_left _ hqueued
  | @takes c rest hhead _ htransitions hqueue =>
      obtain ⟨news, hqueue⟩ := hqueue
      rw [Machine.Queued, hhead, List.mem_cons] at hqueued
      rw [hqueue]
      refine List.mem_append_left _ (hqueued.resolve_left ?_)
      rintro rfl
      obtain ⟨move, hmoves⟩ := hsound.moves_of_stamped hhead
      rw [htransitions, List.append_right_eq_self] at hstill
      simp [Command.event?, State.published] at hstill
      cases hmoves.symm.trans hstill

/-- What was reported stays queued, as long as the machine is in the state
that it was reported in. -/
theorem Sound.reported_happen (hsound : r.Sound False) (h : r.engine.Reported)
    (hsame : (r.happen o).machine.epoch = r.machine.epoch) : (r.happen o).engine.Reported :=
  h.imp (hsound.queued_happen · hsame) (hsound.queued_happen · hsame)

/-- The watcher of a state is left alone by what neither gives it notice nor
lets it read. -/
theorem Sound.watcher_happen (hsound : r.Sound False) {w : Watcher}
    (hwatching : r.engine.watcher? = some w) (hbeside : o.isBeside)
    (hsame : (r.happen o).machine.epoch = r.machine.epoch) :
    (r.happen o).engine.watcher? = some w := by
  have hstill := hsound.still_of_epoch hsame
  have hbecomes := hsound.becomes o
  cases o with
  | asked c =>
      exact r.asked_cases (motive := (·.engine.watcher? = some w)) hwatching fun _ => hwatching
  | noticed | watching => cases hbeside
  | fired attended id =>
      simp only [Run.happen, Run.fire]
      split
      · exact hwatching
      · cases attended <;> exact hwatching
  | elapsed | listening => exact hwatching
  | taking s =>
      revert hstill
      refine r.taking_cases
        (motive := fun r' => r'.transitions = r.transitions → r'.engine.watcher? = some w)
        (fun _ => hwatching) fun c rest _ _ hstill => ?_
      have hobeys := Machine.obey_obeys s (r.dequeue c rest).machine c
      rcases hobeys.serves_or_moves with ⟨hserves, -⟩ | ⟨e, move, course, hevent, hmoves, -, -⟩
      · rw [watcher_proceed, Engine.watcherAfter_quiet _ hserves.quiet]
        exact hwatching
      · rw [transitions_proceed, transitions_dequeue, Machine.obey_published, hevent,
          List.append_right_eq_self] at hstill
        simp [State.published] at hstill
        cases hmoves.symm.trans hstill
  | ended s outcome =>
      refine r.ended_cases (motive := (·.engine.watcher? = some w)) hwatching
        fun entry hwaiting => ?_
      have hfits := hsound.fits entry hwaiting
      obtain ⟨course, hresumes, hrun⟩ := Machine.resume_course s outcome hwaiting hfits
      have hactive := (hsound.watcher w hwatching).1
      rw [watcher_proceed, hrun, Course.watcher_run]
      exact (hresumes.transfers hfits hactive _).2.2.2.trans hwatching

/-- What the watcher has yet to read stays in the mailbox through whatever
happens beside it. -/
theorem Sound.tells_happen (hsound : r.Sound False) {ns : List Notice} (h : r.engine.Tells ns)
    (hbeside : o.isBeside) (hsame : (r.happen o).machine.epoch = r.machine.epoch) :
    (r.happen o).engine.Tells ns := by
  refine h.imp (hsound.reported_happen · hsame) ?_
  rintro ⟨w, old, hwatching, hunread⟩
  exact ⟨w, old, hsound.watcher_happen hwatching hbeside hsame, hunread⟩

end Run

end OpcSession.Session

namespace OpcSession.Simulation

open Session Client

namespace ClientRun

/-! ## What moves give notice of -/

/-- Whether a move may give notice to whoever watches the channel; only what
comes in from the other side does. -/
def Move.notifies : Move → Bool
  | .received _ | .cut => true
  | _ => false

/-- The notice that a move gives to whoever watches the channel.  A response
that is no fault gives none, and neither does anything without a
connection. -/
def notice? (r : ClientRun) : Move → Option Notice
  | .received e => if r.channel.isConnected then e.body.fault?.map .serviceFault else none
  | .cut => if r.channel.isConnected then some .inactive else none
  | _ => none

/-- The notices that come of moves, in order; how many there are decides what
a full mailbox loses. -/
def notices (r : ClientRun) : List Move → List Notice
  | [] => []
  | m :: ms => (r.notice? m).toList ++ (r.move m).notices ms

/-- A move gives one notice at most, so few moves fill no mailbox. -/
theorem length_notices_le (r : ClientRun) (ms : List Move) :
    (r.notices ms).length ≤ ms.length := by
  induction ms generalizing r with
  | nil => exact Nat.le_refl _
  | cons m ms ih =>
      have hrest := ih (r.move m)
      have hone : (r.notice? m).toList.length ≤ 1 := by cases r.notice? m <;> simp
      rw [notices, List.length_append, List.length_cons]
      omega

variable {r r' : ClientRun} {k : Nat} {T : Engine → Prop} {ns : List Notice}

/-- A move of the watcher is what a watcher does in a run. -/
theorem engine_runWatcher (r : ClientRun) : r.runWatcher.engine = r.engine.watch true := by
  unfold runWatcher
  dsimp only
  split
  · exact engine_of_core (core_wake _ _)
  · rfl

/-- The end of the connection is told to whoever watches, and concerns the
engine in no other way. -/
theorem engine_cut (r : ClientRun) : r.cut.engine = r.engine.notify Channel.mailbox .inactive := by
  refine (engine_notify _ _).trans ?_
  rw [engine_of_core (core_abandon _ _)]

/-- A move that gives notice does nothing else to the machine with its
watcher. -/
theorem engine_of_notifies {m : Move} (hnotifies : m.notifies) :
    (r.move m).engine = (r.notice? m).elim r.engine (r.engine.notify Channel.mailbox) := by
  cases m with
  | received e =>
      rw [move, notice?]
      split
      · rw [engine_takeIn]
        cases e.body.fault? <;> rfl
      · rfl
  | cut =>
      rw [move, notice?]
      split
      · exact engine_cut r
      · rfl
  | _ => cases hnotifies

/-- What comes of any other move, unless the watcher reads, is beside the
watcher. -/
theorem beside_of_causes {m : Move} {o : Occurrence} (hcauses : r.Causes m o)
    (hreads : m ≠ .watcher) (hsilent : ¬ m.notifies) : o.isBeside := by
  cases m with
  | watcher => exact absurd rfl hreads
  | received | cut => exact absurd rfl hsilent
  | act a => cases o <;> first | rfl | cases hcauses
  | machine => cases o <;> first | rfl | exact hcauses.elim
  | _ => exact hcauses.elim

/-! ## While the machine is in one state -/

/-- The machine has moved on from a state, or something is so of it with its
watcher. -/
structure Since (k : Nat) (T : Engine → Prop) (r : ClientRun) : Prop where
  /-- The machine has been in this epoch, or is beyond it. -/
  epoch : k ≤ r.engine.machine.epoch
  /-- As long as it has not left the epoch, this is so of its engine. -/
  holds : r.engine.machine.epoch = k → T r.engine

theorem Since.congr (h : r.Since k T) (hengine : r'.engine = r.engine) : r'.Since k T :=
  ⟨hengine ▸ h.epoch, hengine ▸ h.holds⟩

/-- What the session machine keeps in one state while what a move causes
happens, the move keeps. -/
theorem Since.along {m : Move} (h : r.Since k T) (hdriven : r.Driven)
    (hkept : ∀ (run : Run) (o : Occurrence), run.Sound False → r.Causes m o →
      (run.happen o).machine.epoch = run.machine.epoch → T run.engine → T (run.happen o).engine) :
    (r.move m).Since k T := by
  by_cases hforgets : m = .forget
  · rw [hforgets]
    exact h.congr rfl
  obtain ⟨run, hreachable, hengine⟩ := hdriven
  have hsound := Run.sound_of_reachable (fun _ _ => False.elim) hreachable
  obtain ⟨run', hreaches, hengine', -⟩ :=
    follows_move r m (move_raisesOnly_any m) hforgets run hsound
    (Listeners.raiseOnly_any _) hengine
  have hbegins : run.Sound False ∧ k ≤ run.machine.epoch ∧
      (run.machine.epoch = k → T run.engine) := by
    rw [Run.machine, hengine]
    exact ⟨hsound, h.epoch, h.holds⟩
  have hends : run'.Sound False ∧ k ≤ run'.machine.epoch ∧
      (run'.machine.epoch = k → T run'.engine) := by
    refine Reaches.invariant (I := fun run => run.Sound False ∧ k ≤ run.machine.epoch ∧
      (run.machine.epoch = k → T run.engine)) hbegins ?_ hreaches
    rintro run o ⟨-, hcauses⟩ ⟨hsound, hepoch, hholds⟩
    have hle := hsound.epoch_le o
    refine ⟨hsound.happen False.elim, Nat.le_trans hepoch hle, fun hcurrent => ?_⟩
    have hbefore : run.machine.epoch = k := by omega
    exact hkept run o hsound hcauses (hcurrent.trans hbefore.symm) (hholds hbefore)
  rw [Run.machine, hengine'] at hends
  exact ⟨hends.2.1, hends.2.2⟩

/-- **What the watcher has reported stays reported** as long as the machine
does not move, whatever moves the client makes. -/
theorem Since.reported (h : r.Since k Engine.Reported) (hdriven : r.Driven) (m : Move) :
    (r.move m).Since k Engine.Reported :=
  h.along hdriven fun _ _ hsound _ hsame hreported => hsound.reported_happen hreported hsame

/-- **Notices come into the mailbox one after the other**, until the watcher
reads. -/
theorem Since.tells (h : r.Since k (Engine.Tells ns)) (hdriven : r.Driven) {m : Move}
    (hreads : m ≠ .watcher) : (r.move m).Since k (Engine.Tells (ns ++ (r.notice? m).toList)) := by
  by_cases hnotifies : m.notifies
  · have hengine := engine_of_notifies (r := r) hnotifies
    cases hgiven : r.notice? m with
    | none =>
        rw [hgiven] at hengine
        rw [Option.toList_none, List.append_nil]
        exact h.congr hengine
    | some n =>
        rw [hgiven] at hengine
        refine ⟨hengine ▸ h.epoch, fun hcurrent => ?_⟩
        rw [hengine] at hcurrent ⊢
        exact (h.holds hcurrent).notify n
  · have hsilent : r.notice? m = none := by
      cases m <;> first | rfl | exact absurd rfl hnotifies
    rw [hsilent, Option.toList_none, List.append_nil]
    exact h.along hdriven fun _ _ hsound hcauses hsame htells =>
      hsound.tells_happen htells (beside_of_causes hcauses hreads hnotifies) hsame

/-- The watcher reads.  If no more came in after a notice than the mailbox has
room for beside it, the notice is still there, and is reported. -/
theorem Since.reads {n : Notice} (h : r.Since k (Engine.Tells (n :: ns))) (hdriven : r.Driven)
    (hroom : ns.length < Channel.mailbox) (hraises : n.event?.isSome) :
    (r.move .watcher).Since k Engine.Reported := by
  obtain ⟨run, hsound, hengine⟩ := hdriven.sound
  have howned := hsound.watcher
  rw [Run.WatcherOwned, Run.machine, hengine] at howned
  have hreading : (r.move .watcher).engine = r.engine.watch true := engine_runWatcher r
  have hepoch : (r.engine.watch true).machine.epoch = r.engine.machine.epoch := by
    rcases r.engine.watch_cases with
      ⟨hmachine, -⟩ | ⟨_, _, _, -, -, -, hmachine, -⟩ <;> rw [hmachine]
    rfl
  refine ⟨?_, fun hcurrent => ?_⟩
  · rw [hreading, hepoch]
    exact h.epoch
  · rw [hreading, hepoch] at hcurrent
    rw [hreading]
    exact (h.holds hcurrent).watch (fun w hwatching => (howned w hwatching).2) hroom hraises

/-- However many moves a client makes, its machine does what session machines
do. -/
theorem Driven.foldl (hdriven : r.Driven) (ms : List Move) :
    (ms.foldl ClientRun.move r).Driven := by
  induction ms generalizing r with
  | nil => exact hdriven
  | cons m ms ih => exact ih (hdriven.move m)

/-- What was reported stays reported through any number of moves. -/
theorem Since.reported_foldl (h : r.Since k Engine.Reported) (hdriven : r.Driven) (ms : List Move) :
    (ms.foldl move r).Since k Engine.Reported := by
  induction ms generalizing r with
  | nil => exact h
  | cons m ms ih => exact ih (h.reported hdriven m) (hdriven.move m)

/-- What came in is in the mailbox with all that came after it, through any
number of moves in which the watcher does not read. -/
theorem Since.tells_foldl (h : r.Since k (Engine.Tells ns)) (hdriven : r.Driven) {ms : List Move}
    (hunread : .watcher ∉ ms) : (ms.foldl move r).Since k (Engine.Tells (ns ++ r.notices ms)) := by
  induction ms generalizing r ns with
  | nil =>
      rw [notices, List.append_nil]
      exact h
  | cons m ms ih =>
      have hfirst := h.tells hdriven fun hreads => hunread (hreads ▸ List.mem_cons_self)
      rw [notices, ← List.append_assoc]
      exact ih hfirst (hdriven.move m) fun hreads => hunread (List.mem_cons_of_mem _ hreads)

/-- In a session in use something has been reported, or the watcher is
there. -/
theorem Driven.watched (hdriven : r.Driven) (hactive : r.engine.machine.state.kind = .active) :
    r.engine.Reported ∨ r.engine.watcher?.isSome := by
  obtain ⟨run, hsound, hengine⟩ := hdriven.sound
  have hwatched := hsound.watched trivial
  have hraises := @Run.Sound.raises _ _ hsound
  rw [Run.Watched, Run.machine, hengine] at hwatched
  rw [Run.machine, hengine] at hraises
  rcases hwatched hactive with hwatching | ⟨e, hqueued⟩
  · exact .inr hwatching
  · refine .inl ?_
    have hraised := hraises hqueued
    cases hst : r.engine.machine.state <;> rw [hst] at hactive hraised <;> cases hactive
    rcases hraised with rfl | rfl
    · exact .inr hqueued
    · exact .inl hqueued

/-- Notice is given while a session is in use: of what the watcher has yet to
read it is the last, or something has been reported before. -/
theorem since_noticed (hdriven : r.Driven) (hactive : r.engine.machine.state.kind = .active)
    {m : Move} {n : Notice} (hnotifies : m.notifies) (hgiven : r.notice? m = some n) :
    (r.move m).Since r.engine.machine.epoch (Engine.Tells [n]) := by
  have hengine := engine_of_notifies (r := r) hnotifies
  rw [hgiven] at hengine
  refine ⟨hengine ▸ Nat.le_refl _, fun _ => ?_⟩
  rw [hengine]
  exact Engine.tells_notify (hdriven.watched hactive) n

/-- **No fault that says that the session in use is invalid is lost, but to
too many others.**

Whatever a client does and whatever its peer answers, in whatever order its
tasks run: let such a fault come in while a session is in use.  As long as the
machine is in that same state, and as soon as the watcher has nothing more to
read, that the session is invalid or that the connection is lost is queued,
stamped with the current epoch, unless at least as many notices as the mailbox
holds have come in after the fault before the watcher read next. -/
theorem invalid_fault_reported (url : String) (settings : ClientSettings)
    (endpoint : EndpointDescription) (credentials : Credentials) (before after : List Move)
    (e : ResponseEnvelope) :
    let r := before.foldl ClientRun.move (start url settings endpoint credentials)
    let r' := after.foldl ClientRun.move (r.move (.received e))
    r.engine.machine.state.kind = .active →
      r.notice? (.received e) = some (.serviceFault .badSessionIdInvalid) →
      r'.engine.machine.epoch = r.engine.machine.epoch →
      (∀ w, r'.engine.watcher? = some w → w.unread = []) →
      r'.engine.Reported ∨
        ∃ between later, after = between ++ .watcher :: later ∧ .watcher ∉ between ∧
          Channel.mailbox ≤ ((r.move (.received e)).notices between).length := by
  intro r r' hactive hinvalid hsame hempty
  have hdriven : r.Driven := (orderly_start url settings endpoint credentials).run.foldl before
  have hfirst := since_noticed hdriven hactive rfl hinvalid
  by_cases hreads : .watcher ∈ after
  · obtain ⟨between, later, hsplit, hunread⟩ := List.eq_append_cons_of_mem hreads
    rcases Nat.lt_or_ge ((r.move (.received e)).notices between).length Channel.mailbox with
      hroom | hmany
    · have htold := hfirst.tells_foldl (hdriven.move _) hunread
      have hreported := (htold.reads ((hdriven.move _).foldl between) hroom rfl).reported_foldl
        (((hdriven.move _).foldl between).move _) later
      have halong : r' = later.foldl ClientRun.move
          ((between.foldl ClientRun.move (r.move (.received e))).move .watcher) := by
        rw [show r' = after.foldl ClientRun.move (r.move (.received e)) from rfl, hsplit,
          List.foldl_append, List.foldl_cons]
      rw [← halong] at hreported
      exact .inl (hreported.holds hsame)
    · exact .inr ⟨between, later, hsplit, hunread, hmany⟩
  · have htold := (hfirst.tells_foldl (hdriven.move _) hreads).holds hsame
    exact .inl (htold.reported hempty)

/-! ## Where a fault is lost -/

/-- The server answers with a fault, under a handle that nobody waits for; it
is told all the same. -/
def faulting (status : StatusCode) : ResponseEnvelope where
  handle := 0
  body := { header := { handle := 0, result := status }, body := .serviceFault }

/-- Other faults come in one after the other before the watcher reads, as many
as are asked for. -/
def burst (n : Nat) : List Move :=
  List.replicate n (.received (faulting .badTimeout)) ++ [.watcher]

/-- The law at work: as many faults as leave room for the one before them, and
it is reported. -/
theorem invalid_fault_reported_among_others :
    let r := settled.foldl ClientRun.move Chronicle.plant.client
    let r' := (burst 31).foldl ClientRun.move (r.move (.received (faulting .badSessionIdInvalid)))
    r.engine.machine.state.kind = .active ∧
      r.notice? (.received (faulting .badSessionIdInvalid)) =
        some (.serviceFault .badSessionIdInvalid) ∧
      r'.engine.machine.epoch = r.engine.machine.epoch ∧ r'.engine.watcher? = none ∧
      r'.engine.Reported := by
  intro r r'
  have hactive : r.engine.machine.state.kind = .active := by decide +kernel
  have hinvalid : r.notice? (.received (faulting .badSessionIdInvalid)) =
      some (.serviceFault .badSessionIdInvalid) := by decide +kernel
  have hsame : r'.engine.machine.epoch = r.engine.machine.epoch := by decide +kernel
  have hgone : r'.engine.watcher? = none := by decide +kernel
  have hempty : ∀ w, r'.engine.watcher? = some w → w.unread = [] := by
    rw [hgone]
    rintro w ⟨⟩
  refine ⟨hactive, hinvalid, hsame, hgone, ?_⟩
  have hlaw := invalid_fault_reported "plant" { session := { sessionName := "plant" } }
    (.unsecured "plant") .anonymous settled (burst 31) (faulting .badSessionIdInvalid)
  -- The client is named again, so that what was evaluated above is not evaluated anew.
  rw [show start "plant" { session := { sessionName := "plant" } } (.unsecured "plant") .anonymous =
    Chronicle.plant.client from rfl] at hlaw
  extract_lets at hlaw
  refine (hlaw hactive hinvalid hsame hempty).resolve_right ?_
  rintro ⟨between, later, hsplit, -, hmany⟩
  have hfew := Nat.le_trans hmany (length_notices_le _ between)
  have hlength := congrArg List.length hsplit
  simp only [burst, List.length_append, List.length_replicate, List.length_cons,
    List.length_nil] at hlength
  simp only [Channel.mailbox] at hfew
  omega

/-- **A fault may be lost among others.**  The server says that it does not
know the session in use, but by the time the watcher reads, as many other
faults have come in as the mailbox holds: nothing is left for the watcher to
read, and nothing has been reported. -/
theorem invalid_fault_lost :
    ¬ ∀ (before after : List Move) (e : ResponseEnvelope),
      let r := before.foldl ClientRun.move Chronicle.plant.client
      let r' := after.foldl ClientRun.move (r.move (.received e))
      r.engine.machine.state.kind = .active →
        r.notice? (.received e) = some (.serviceFault .badSessionIdInvalid) →
        r'.engine.machine.epoch = r.engine.machine.epoch →
        (∀ w, r'.engine.watcher? = some w → w.unread = []) →
        r'.engine.Reported := by
  intro hclaim
  have hlaw := hclaim settled (burst 32) (faulting .badSessionIdInvalid) (by decide +kernel)
    (by decide +kernel) (by decide +kernel)
  have hread : (((burst 32).foldl ClientRun.move
      ((settled.foldl ClientRun.move Chronicle.plant.client).move
        (.received (faulting .badSessionIdInvalid)))).engine.watcher?.map (·.unread)) =
          some [] := by
    decide +kernel
  have hqueue : ((burst 32).foldl ClientRun.move
      ((settled.foldl ClientRun.move Chronicle.plant.client).move
        (.received (faulting .badSessionIdInvalid)))).engine.machine.queue = [] := by
    decide +kernel
  have hreported := hlaw fun w hwatching => by
    rw [hwatching] at hread
    exact Option.some.inj hread
  rw [Engine.Reported, Machine.Queued, Machine.Queued, hqueue] at hreported
  simp at hreported

end ClientRun

end OpcSession.Simulation
