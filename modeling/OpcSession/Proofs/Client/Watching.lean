import OpcSession.Proofs.Client.Release

/-!
# A session in use and its connection

While a session is in use the end of its connection does not go unnoticed: the
connection is alive, or the watcher has yet to read that it has ended, or an
event that leaves the session is on its way.  Nor is a connection reported lost
that is alive: as long as the machine is in one state the link is the same, and
no link comes back to life.

* `ClientRun.Watchful` — what the machine and its watcher know of the link;
* `ClientRun.Watchful.move` — what every move keeps;
* `ClientRun.Orderly.lasts` — the link while the machine is in one state;
* `ClientRun.connection_watched` — the law.
-/

namespace OpcSession.Session

/-- A course watches, or stops watching, only before it ends; how it ends
calls, answers or moves on. -/
theorem Course.watcher_run {s : Surroundings} {owed : Owed} {m : Machine} {c : Course}
    (w : Option Watcher) :
    (c.run s owed m).effects.foldl Engine.watcherAfter w =
      c.before.foldl Engine.watcherAfter w := by
  rw [run, Progress.andThen, List.foldl_append]
  rcases c.ending.waits_or_rests with ⟨awaiting, call, hwaits⟩ | hrests
  · rw [hwaits]
    rfl
  · exact Engine.watcherAfter_quiet _
      (Ending.concludes_of_rests hrests s owed (Listeners.raiseOnly_any _)).quiet

/-- A session comes into use with a watcher that has nothing to read yet.
Either there is a connection, or it is reported lost. -/
theorem Enters.watched {s : Surroundings} {event : Event} {epoch : Nat} {st : State} {c : Course}
    (h : Enters s event epoch st c) (hactive : st.kind = .active) (w : Option Watcher) :
    c.before.foldl Engine.watcherAfter w = some { epoch := epoch } ∧
      (s.connected = true ∧ c.ending.followUp? = none ∨
        s.connected = false ∧ c.ending.followUp? = some .connectionLost) := by
  cases h with
  | lost hdown => exact ⟨rfl, .inr ⟨hdown, rfl⟩⟩
  | unmanaged hup => exact ⟨rfl, .inl ⟨hup, rfl⟩⟩
  | transfers hup => exact ⟨rfl, .inl ⟨hup, rfl⟩⟩
  | publishes hup => exact ⟨rfl, .inl ⟨hup, rfl⟩⟩
  | _ => cases hactive

/-- While a session is in use the machine waits for nothing but a transfer,
and goes on as it was. -/
theorem Resumes.transfers {s : Surroundings} {o : Outcome} {a : Awaiting} {st : State} {c : Course}
    (h : Resumes s o a st c) (hfits : a.Fits st) (hactive : st.kind = .active)
    (w : Option Watcher) :
    (∃ ids, a = .transfer ids) ∧ c.state = st ∧ c.ending.followUp? = none ∧
      c.before.foldl Engine.watcherAfter w = w := by
  cases st <;> cases hactive
  cases a <;> first | exact hfits.elim | skip
  cases h with
  | transferred => exact ⟨⟨_, rfl⟩, rfl, rfl, rfl⟩
  | fails hhidden hwhy => cases hwhy.attempts

namespace Engine

/-- The watcher has yet to read that the connection has ended.  It will report
that as soon as it runs. -/
def Alarmed (e : Engine) : Prop := ∃ w, e.watcher? = some w ∧ .inactive ∈ w.unread

/-- A notice is not lost as long as fewer come after it than there is room
for. -/
theorem mem_newest {α : Type} {capacity : Nat} {since : List α} (hroom : since.length < capacity)
    (xs : List α) (x : α) : x ∈ newest capacity (xs ++ x :: since) := by
  rw [newest, List.drop_append_of_le_length]
  · exact List.mem_append_right _ List.mem_cons_self
  · rw [List.length_append, List.length_cons]
    omega

/-- That the connection ends does not get lost while there is a watcher. -/
theorem alarmed_notify {e : Engine} {w : Watcher} (hwatching : e.watcher? = some w) {capacity : Nat}
    (hroom : 0 < capacity) : (e.notify capacity .inactive).Alarmed := by
  refine ⟨{ w with unread := newest capacity (w.unread ++ [.inactive]) }, ?_, mem_newest hroom _ _⟩
  rw [notify, hwatching]
  rfl

/-- A fault is not taken for the end of the connection, though it may push the
notice of one out of the mailbox. -/
theorem alarmed_of_fault {e : Engine} {capacity : Nat} {status : StatusCode}
    (h : (e.notify capacity (.serviceFault status)).Alarmed) : e.Alarmed := by
  obtain ⟨w', hwatching', hunread⟩ := h
  obtain ⟨w, hwatching, rfl⟩ := Option.map_eq_some_iff.mp hwatching'
  refine ⟨w, hwatching, ?_⟩
  rcases List.mem_append.mp (List.mem_of_mem_drop hunread) with hold | hnew
  · exact hold
  · cases List.mem_singleton.mp hnew

/-- To read its mailbox the watcher passes over what is of no concern, or
raises the event of what is and has nothing more to do. -/
theorem watch_cases (e : Engine) :
    ((e.watch true).machine = e.machine ∧ ¬ (e.watch true).Alarmed ∧ ¬ e.Alarmed) ∨
      ∃ w n event, e.watcher? = some w ∧ n ∈ w.unread ∧ n.event? = some event ∧
        (e.watch true).machine = e.machine.push (.stamped event w.epoch) ∧
        ¬ (e.watch true).Alarmed := by
  unfold watch
  split
  · rename_i hnone
    refine .inl ⟨rfl, ?_, ?_⟩ <;> rintro ⟨w, hwatching, -⟩ <;> cases hnone.symm.trans hwatching
  · rename_i w hwatching
    split
    · rename_i hnothing
      refine .inl ⟨rfl, ?_, ?_⟩
      · rintro ⟨w', ⟨⟩, hunread⟩
        cases hunread
      · rintro ⟨w', hwatching', hunread⟩
        cases hwatching.symm.trans hwatching'
        cases List.findSome?_eq_none_iff.mp hnothing _ hunread
    · rename_i event hfound
      obtain ⟨n, hunread, hraises⟩ := List.exists_of_findSome?_eq_some hfound
      refine .inr ⟨w, n, event, hwatching, hunread, hraises, rfl, ?_⟩
      rintro ⟨w', ⟨⟩, -⟩

end Engine

/-- Only the end of the connection is reported as its loss; a fault that is
reported makes the session invalid. -/
theorem Notice.eq_inactive {n : Notice} (h : n.event? = some .connectionLost) : n = .inactive := by
  cases n with
  | inactive => rfl
  | serviceFault status =>
      simp only [Notice.event?, Option.ite_none_right_eq_some] at h
      cases h.2

end OpcSession.Session

namespace OpcSession.Simulation

open Session Client

namespace ClientRun

/-! ## What is known of the link -/

/-- **What the machine and its watcher know of the link of a session in
use.** -/
structure Watchful (r : ClientRun) : Prop where
  /-- While a session is in use its connection is alive, or that it has ended
  is known, or is on its way to the machine. -/
  noticed : r.engine.machine.state.kind = .active →
    r.channel.isConnected ∨ r.engine.Alarmed ∨ ∃ e, r.engine.machine.Queued e
  /-- While a session is in use nobody says that the connection was lost, or
  has that in the mailbox, unless it was. -/
  ended : r.engine.machine.state.kind = .active →
    r.engine.machine.Queued .connectionLost ∨ r.engine.Alarmed → ¬ r.channel.isConnected

variable {r r' : ClientRun}

theorem watchful_start (url : String) (settings : ClientSettings) (endpoint : EndpointDescription)
    (credentials : Credentials) : (start url settings endpoint credentials).Watchful where
  noticed hactive := nomatch hactive
  ended hactive := nomatch hactive

theorem isConnected_congr (hline : r'.line? = r.line?) :
    r'.channel.isConnected ↔ r.channel.isConnected := by
  rw [isConnected_iff, isConnected_iff, hline]

/-- What is queued in the current epoch depends on the queue and the epoch
alone. -/
theorem queued_congr {m m' : Machine} {e : Event} (hepoch : m'.epoch = m.epoch)
    (hqueue : .stamped e m.epoch ∈ m'.queue ↔ .stamped e m.epoch ∈ m.queue) :
    m'.Queued e ↔ m.Queued e := by
  rw [Machine.Queued, hepoch, hqueue, Machine.Queued]

/-- What depends on the kind of the state, on the connection, on what is
queued and on what is unread. -/
theorem Watchful.congr (h : r.Watchful)
    (hkind : r'.engine.machine.state.kind = r.engine.machine.state.kind)
    (hline : r'.line? = r.line?)
    (hqueued : ∀ e, r'.engine.machine.Queued e ↔ r.engine.machine.Queued e)
    (halarmed : r'.engine.Alarmed ↔ r.engine.Alarmed) : r'.Watchful where
  noticed := by
    simp only [hkind, isConnected_congr hline, hqueued, halarmed]
    exact h.noticed
  ended := by
    simp only [hkind, isConnected_congr hline, hqueued, halarmed]
    exact h.ended

/-- Something is asked, but nobody reports the connection lost; so nothing
false is said, and nothing that was known is forgotten. -/
theorem Watchful.asks (h : r.Watchful) (hengine : Asks r.engine r'.engine)
    (hline : r'.line? = r.line?) : r'.Watchful := by
  obtain ⟨news, hqueue, hother⟩ := hengine.queue
  have halarmed : r'.engine.Alarmed ↔ r.engine.Alarmed := by
    rw [Engine.Alarmed, Engine.Alarmed, hengine.watcher]
  refine ⟨?_, ?_⟩
  · rw [hengine.state, isConnected_congr hline, halarmed]
    intro hactive
    refine (h.noticed hactive).imp_right (Or.imp_right ?_)
    rintro ⟨e, hqueued⟩
    refine ⟨e, ?_⟩
    rw [Machine.Queued, hengine.epoch, hqueue]
    exact List.mem_append_left _ hqueued
  · rw [hengine.state, isConnected_congr hline, halarmed, Machine.Queued, hengine.epoch, hqueue]
    intro hactive hlost
    refine h.ended hactive (hlost.imp_left fun hqueued => ?_)
    refine (List.mem_append.mp hqueued).resolve_right fun hnew => ?_
    exact hother _ hnew _ rfl

/-- The watcher reads its mailbox: if that the connection has ended was in it,
it is reported now. -/
theorem Watchful.watches (h : r.Watchful) (horderly : r.Orderly)
    (hengine : r'.engine = r.engine.watch true) (hline : r'.line? = r.line?) : r'.Watchful := by
  obtain ⟨run, hsound, heq⟩ := horderly.sound
  have howned := hsound.watcher
  rw [Run.WatcherOwned, Run.machine, heq] at howned
  have hcases := r.engine.watch_cases
  rw [← hengine] at hcases
  rcases hcases with
    ⟨hmachine, hquiet', hquiet⟩ | ⟨w, n, event, hwatching, hunread, hraises, hmachine, hquiet⟩
  · exact h.congr (by rw [hmachine]) hline (fun e => by rw [hmachine])
      ⟨fun halarmed => absurd halarmed hquiet', fun halarmed => absurd halarmed hquiet⟩
  · have hepoch := (howned w hwatching).2
    refine ⟨fun _ => .inr (.inr ⟨event, ?_⟩), ?_⟩
    · rw [hmachine, Machine.Queued, Machine.push, hepoch]
      exact List.mem_append_right _ List.mem_cons_self
    · rw [hmachine, isConnected_congr hline]
      intro hactive hlost
      refine h.ended hactive ?_
      rcases hlost with hlost | halarmed
      · rcases List.mem_append.mp hlost with hold | hnew
        · exact .inl hold
        · obtain ⟨rfl, -⟩ := Command.stamped.inj (List.mem_singleton.mp hnew)
          exact .inr ⟨w, hwatching, Notice.eq_inactive hraises ▸ hunread⟩
      · exact absurd halarmed hquiet

/-- The connection ends: either the watcher is still to read that it has, or
it has raised an event before. -/
theorem watchful_of_ends (horderly : r.Orderly)
    (hengine : r'.engine = r.engine.notify Channel.mailbox .inactive)
    (hline : r'.line? = r.line?.map fun l => (l.1, false)) : r'.Watchful := by
  have hdead : ¬ r'.channel.isConnected := by
    rw [isConnected_iff, hline]
    rintro ⟨connection, halive⟩
    obtain ⟨l, -, heq⟩ := Option.map_eq_some_iff.mp halive
    cases heq
  refine ⟨fun hactive => .inr ?_, fun _ _ => hdead⟩
  obtain ⟨run, hsound, heq⟩ := horderly.sound
  have hwatched := hsound.watched trivial
  rw [Run.Watched, Run.machine, heq] at hwatched
  rw [hengine] at hactive ⊢
  rcases hwatched hactive with hwatching | hqueued
  · obtain ⟨w, hwatching⟩ := Option.isSome_iff_exists.mp hwatching
    exact .inl (Engine.alarmed_notify hwatching (by decide))
  · exact .inr hqueued

/-- What happens around the machine: the end of the connection is noticed
where it happens, and read where it is reported. -/
theorem Watchful.stirs (h : r.Watchful) (horderly : r.Orderly) (hstirs : Stirs r r') :
    r'.Watchful := by
  cases hstirs with
  | asks hengine hline => exact h.asks hengine hline
  | watches hengine hline => exact h.watches horderly hengine hline
  | hears hconnected hengine hline =>
      refine ⟨fun _ => .inl ((isConnected_congr hline).mpr hconnected), ?_⟩
      rw [hengine, isConnected_congr hline]
      exact fun hactive hlost => h.ended hactive (hlost.imp_right Engine.alarmed_of_fault)
  | ends hengine hline => exact watchful_of_ends horderly hengine hline

/-- In a session in use the machine is about nothing that concerns the
line. -/
theorem Orderly.keepsLine (h : r.Orderly) (hactive : r.engine.machine.state.kind = .active) :
    KeepsLine (r.engine.machine.entry?.map (·.awaiting)) := by
  intro b hb
  obtain ⟨entry, hwaiting, rfl⟩ := Option.map_eq_some_iff.mp hb
  have hfits := h.fits hwaiting
  cases hst : r.engine.machine.state <;> rw [hst] at hactive hfits <;> cases hactive
  cases ha : entry.awaiting <;> rw [ha] at hfits <;> first | exact hfits.elim | exact ⟨rfl, rfl⟩

/-- Where no session is in use nothing needs to be known of the link. -/
theorem watchful_elsewhere (h : r.engine.machine.state.kind ≠ .active) : r.Watchful :=
  ⟨fun hactive => absurd hactive h, fun hactive => absurd hactive h⟩

/-- The machine waits on, and its errand keeps the line where a session is in
use. -/
theorem Watchful.waits (h : r.Watchful) (horderly : r.Orderly) (hengine : r'.engine = r.engine)
    (hahead : Ahead (r.engine.machine.entry?.map (·.awaiting)) r r') : r'.Watchful := by
  by_cases hactive : r.engine.machine.state.kind = .active
  · exact h.congr (by rw [hengine]) (hahead.line (horderly.keepsLine hactive))
      (fun e => by rw [hengine])
      (by rw [hengine])
  · exact watchful_elsewhere (by rwa [hengine])

/-- The machine goes on after its call.  Where that brings a session into use,
it begins to watch a connection that is alive, or finds at once that it is
not. -/
theorem Watchful.resumes (h : r.Watchful) {s : Surroundings} {outcome : Outcome} {entry : Entry}
    {course : Course} (hfits : entry.awaiting.Fits r.engine.machine.state)
    (hresumes : Resumes s outcome entry.awaiting r.engine.machine.state course)
    (hengine : r'.engine = (r.engine.step fun m => course.run s entry.owed m).1)
    (hkeeps : KeepsLine (some entry.awaiting) → r'.line? = r.line?) : r'.Watchful := by
  have hmachine : r'.engine.machine = (course.run s entry.owed r.engine.machine).machine := by
    rw [hengine, machine_step]
  have hkind : r'.engine.machine.state.kind = r.engine.machine.state.kind := by
    rw [hmachine, Course.kind_run, hresumes.kind]
  by_cases hactive : r.engine.machine.state.kind = .active
  · obtain ⟨⟨ids, htransfer⟩, -, hnothing, hwatcher⟩ :=
      hresumes.transfers hfits hactive r.engine.watcher?
    have hline : r'.line? = r.line? := hkeeps (by rintro _ ⟨⟩; rw [htransfer]; exact ⟨rfl, rfl⟩)
    have hsame : r'.engine.watcher? = r.engine.watcher? := by
      rw [hengine, Engine.step, Engine.foldl_apply]
      exact (Course.watcher_run _).trans hwatcher
    refine h.congr hkind hline (fun e => ⟨fun hqueued => ?_, fun hqueued => ?_⟩)
      (by rw [Engine.Alarmed, Engine.Alarmed, hsame])
    · rw [hmachine] at hqueued
      refine (Course.queued_run hqueued).resolve_right fun hraised => ?_
      rw [hnothing] at hraised
      cases hraised
    · obtain ⟨raised, -, hqueue⟩ :=
        Course.queue_run course s entry.owed (Listeners.raiseOnly_any r.engine.machine.listeners)
      rw [hmachine, Machine.Queued, Course.epoch_run, hqueue]
      exact List.mem_append_left _ (List.mem_append_left _ hqueued)
  · exact watchful_elsewhere (by rwa [hkind])

/-- A session has come into use in a state of which nothing is queued yet. -/
theorem watchful_of_enters {s : Surroundings} {event : Event} {owed : Owed} {m : Machine}
    {course : Course} {w : Option Watcher} (hattended : s.attended)
    (hconnected : s.connected = true ↔ ∃ connection, r'.line? = some (connection, true))
    (henters : Enters s event m.epoch m.state course) (hactive : m.state.kind = .active)
    (hnew : ∀ e, ¬ m.Queued e) (hmachine : r'.engine.machine = (course.run s owed m).machine)
    (hwatcher : r'.engine.watcher? = (course.run s owed m).effects.foldl Engine.watcherAfter w) :
    r'.Watchful := by
  obtain ⟨hfresh, houtcome⟩ := henters.watched hactive w
  have hquiet : ¬ r'.engine.Alarmed := by
    rintro ⟨w', hwatching, hunread⟩
    rw [hwatcher, Course.watcher_run, hfresh] at hwatching
    cases hwatching
    cases hunread
  rcases houtcome with ⟨hup, hnothing⟩ | ⟨hdown, hreported⟩
  · have hup := r'.isConnected_iff.mpr (hconnected.mp hup)
    refine ⟨fun _ => .inl hup, fun _ hlost => ?_⟩
    rcases hlost with hlost | halarmed
    · rw [hmachine] at hlost
      rcases Course.queued_run hlost with hold | hraised
      · exact absurd hold (hnew _)
      · rw [hnothing] at hraised
        cases hraised
    · exact absurd halarmed hquiet
  · have hdown : ¬ r'.channel.isConnected := by
      rw [isConnected_iff, ← hconnected, hdown]
      simp
    refine ⟨fun _ => .inr (.inr ⟨.connectionLost, ?_⟩), fun _ _ => hdown⟩
    obtain ⟨raised, -, hqueue⟩ :=
      Course.queue_run course s owed (Listeners.raiseOnly_any m.listeners)
    rw [hmachine, Machine.Queued, Course.epoch_run, hqueue, hreported, Machine.outcome,
      if_pos hattended]
    exact List.mem_append_right _ List.mem_cons_self

/-- A command is taken.  In the state that a session is in use in, the machine
looks at the connection when it enters. -/
theorem Watchful.takes (h : r.Watchful) (horderly : r.Orderly) {s : Surroundings} {c : Command}
    {rest : List Command} {p : Progress} (hattended : s.attended)
    (hconnected : s.connected = true ↔ ∃ connection, r'.line? = some (connection, true))
    (hqueue : r.engine.machine.queue = c :: rest)
    (hobeys : ({ r.engine.machine with queue := rest } : Machine).Obeys s c p)
    (hengine : r'.engine = (r.engine.step fun _ => p).1) (hline : r'.line? = r.line?) :
    r'.Watchful := by
  have hmachine : r'.engine.machine = p.machine := by rw [hengine, machine_step]
  have hwatcher : r'.engine.watcher? = p.effects.foldl Engine.watcherAfter r.engine.watcher? := by
    rw [hengine, Engine.step, Engine.foldl_apply]
  obtain ⟨run, hsound, heq⟩ := horderly.sound
  rw [← heq] at hqueue
  rcases hobeys.serves_or_moves with ⟨hserves, hstill⟩ | ⟨e, move, course, -, -, henters, rfl⟩
  · have hsame : r'.engine.watcher? = r.engine.watcher? := by
      rw [hwatcher, Engine.watcherAfter_quiet _ hserves.quiet]
    refine h.congr (by rw [hmachine]; exact hserves.kind) hline (fun e => ?_)
      (by rw [Engine.Alarmed, Engine.Alarmed, hsame])
    rw [hmachine]
    -- What was stamped in this state would have moved the machine.
    have hother : c ≠ .stamped e r.engine.machine.epoch := by
      rintro rfl
      obtain ⟨move, hmoves⟩ := hsound.moves_of_stamped (by rw [Run.machine, hqueue, heq])
      rw [Run.machine, heq] at hmoves
      cases hmoves.symm.trans (hstill e (by simp [Command.event?]))
    refine queued_congr hserves.epoch ?_
    rw [hserves.queue, ← heq, hqueue, List.mem_cons, heq]
    exact ⟨.inr, fun hqueued => hqueued.resolve_left (Ne.symm hother)⟩
  · by_cases hactive : r'.engine.machine.state.kind = .active
    · have hdeparts :=
        ({ r.engine.machine with queue := rest } : Machine).departs s e move c.waiter?
      rw [← hdeparts.epoch] at henters
      rw [Progress.andThen, List.foldl_append] at hwatcher
      refine watchful_of_enters hattended hconnected henters ?_ ?_ hmachine hwatcher
      · rw [hmachine] at hactive
        exact henters.kind.symm.trans (Course.kind_run.symm.trans hactive)
      · refine hdeparts.unraised fun e' k hold => ?_
        have hle := hsound.stamps_le (e := e') (k := k) (by
          rw [Run.machine, hqueue]
          exact List.mem_cons_of_mem _ hold)
        rwa [Run.machine, heq] at hle
    · exact watchful_elsewhere hactive

/-- **Every move keeps what is known of the link**, as long as callers leave
the connection to the machine. -/
theorem Watchful.move (h : r.Watchful) (horderly : r.Orderly) {m : Move} (habstains : m.Abstains) :
    (r.move m).Watchful := by
  by_cases hmachine : m = .machine
  · subst hmachine
    have hadvances := horderly.advances.1
    generalize r.move .machine = r' at hadvances ⊢
    cases hadvances with
    | waits hengine hahead => exact h.waits horderly hengine hahead
    | takes hattended hconnected hidle hqueue hobeys hengine hline =>
        exact h.takes horderly hattended hconnected hqueue hobeys hengine hline
    | resumes hwaiting hresumes hengine hclosed hopened hkeeps =>
        exact h.resumes (horderly.fits hwaiting) hresumes hengine hkeeps
  · exact h.stirs horderly (horderly.stirs habstains hmachine).2

/-! ## While the machine is in one state -/

/-- The machine has moved on, or it is where it was; then a session that is in
use has the same link, which has not come back to life. -/
structure Lasts (r r' : ClientRun) : Prop where
  epoch : r.engine.machine.epoch ≤ r'.engine.machine.epoch
  /-- In one epoch the machine is in one state. -/
  kind : r'.engine.machine.epoch = r.engine.machine.epoch →
    r'.engine.machine.state.kind = r.engine.machine.state.kind
  /-- While a session is in use in one epoch, the link is the same, and at
  most it has ended. -/
  line : r'.engine.machine.epoch = r.engine.machine.epoch →
    r.engine.machine.state.kind = .active →
      r'.line? = r.line? ∨ r'.line? = r.line?.map fun l => (l.1, false)

theorem Lasts.refl (r : ClientRun) : Lasts r r :=
  ⟨Nat.le_refl _, fun _ => rfl, fun _ _ => .inl rfl⟩

/-- What lasts through both of two stretches lasts through all: an epoch that
has ended is not come back to. -/
theorem Lasts.trans {r'' : ClientRun} (h : Lasts r r') (h' : Lasts r' r'') : Lasts r r'' := by
  have hbetween : r''.engine.machine.epoch = r.engine.machine.epoch →
      r'.engine.machine.epoch = r.engine.machine.epoch ∧
        r''.engine.machine.epoch = r'.engine.machine.epoch := by
    intro hsame
    have hle := h.epoch
    have hle' := h'.epoch
    omega
  refine ⟨Nat.le_trans h.epoch h'.epoch, fun hsame => ?_, fun hsame hactive => ?_⟩
  · obtain ⟨hfirst, hsecond⟩ := hbetween hsame
    exact (h'.kind hsecond).trans (h.kind hfirst)
  · obtain ⟨hfirst, hsecond⟩ := hbetween hsame
    have hline := h.line hfirst hactive
    have hline' := h'.line hsecond ((h.kind hfirst).trans hactive)
    rcases hline with hline | hline <;> rcases hline' with hline' | hline' <;> rw [hline', hline]
    · exact .inl rfl
    · exact .inr rfl
    · exact .inr rfl
    · exact .inr (by rw [Option.map_map]; rfl)

/-- Every move lets the link last as long as the machine does not move. -/
theorem Orderly.lasts (h : r.Orderly) {m : Move} (habstains : m.Abstains) : Lasts r (r.move m) := by
  by_cases hmachine : m = .machine
  · subst hmachine
    have hadvances := h.advances.1
    generalize r.move .machine = r' at hadvances ⊢
    cases hadvances with
    | waits hengine hahead =>
        refine ⟨Nat.le_of_eq (by rw [hengine]), fun _ => by rw [hengine], fun _ hactive => .inl ?_⟩
        exact hahead.line (h.keepsLine hactive)
    | @takes s c rest p hattended hconnected hidle hqueue hobeys hengine hline =>
        have hmachine : r'.engine.machine = p.machine := by rw [hengine, machine_step]
        rcases hobeys.serves_or_moves with ⟨hserves, -⟩ | ⟨e, move, course, -, -, henters, rfl⟩
        · exact ⟨Nat.le_of_eq (by rw [hmachine, hserves.epoch]),
            fun _ => by rw [hmachine]; exact hserves.kind, fun _ _ => .inl hline⟩
        · have hdeparts :=
            ({ r.engine.machine with queue := rest } : Machine).departs s e move c.waiter?
          have hepoch : r'.engine.machine.epoch = r.engine.machine.epoch + 1 := by
            rw [hmachine]
            exact Course.epoch_run.trans hdeparts.epoch
          exact ⟨by omega, fun hsame => by omega, fun hsame => by omega⟩
    | @resumes s outcome entry course hwaiting hresumes hengine hclosed hopened hkeeps =>
        have hmachine : r'.engine.machine = (course.run s entry.owed r.engine.machine).machine := by
          rw [hengine, machine_step]
        refine ⟨Nat.le_of_eq (by rw [hmachine, Course.epoch_run]),
          fun _ => by rw [hmachine, Course.kind_run, hresumes.kind], fun _ hactive => .inl ?_⟩
        have hline := h.keepsLine hactive
        rw [hwaiting] at hline
        exact hkeeps hline
  · have hstirs := (h.stirs habstains hmachine).2
    have hstays := hstirs.stays
    refine ⟨Nat.le_of_eq (by rw [hstays.epoch]), fun _ => by rw [hstays.state], fun _ _ => ?_⟩
    cases hstirs with
    | ends hengine hline => exact .inr hline
    | asks hengine hline | watches hengine hline | hears hconnected hengine hline =>
        exact .inl hline

/-! ## The law -/

/-- The line is what is seen of a link, which is there. -/
theorem link_of_line_some {connection : ConnectionId} {alive : Bool}
    (h : r.line? = some (connection, alive)) :
    ∃ link, r.channel.link? = some link ∧ link.connection = connection ∧ link.alive = alive := by
  obtain ⟨link, hlink, heq⟩ := Option.map_eq_some_iff.mp h
  cases heq
  exact ⟨link, hlink, rfl, rfl⟩

/-- A session in use has a link, since to have none goes only with states that
are without a session. -/
theorem Moored.linked (h : r.Moored) (hactive : r.engine.machine.state.kind = .active) :
    r.line? ≠ none := by
  intro hnone
  rcases h.unlinked hnone with (hinactive | hclosing) | hcreating
  · cases hactive.symm.trans hinactive
  · cases hactive.symm.trans hclosing
  · have hkind := congrArg State.kind hcreating
    rw [State.kind_bare, hactive] at hkind
    cases hkind

/-- As long as the machine is in one state its link is the same, and does not
come back to life. -/
theorem Lasts.links (h : Lasts r r') (hsame : r'.engine.machine.epoch = r.engine.machine.epoch)
    (hactive : r.engine.machine.state.kind = .active) (hlinked : r.line? ≠ none) :
    ∃ link link', r.channel.link? = some link ∧ r'.channel.link? = some link' ∧
      link'.connection = link.connection ∧ (link'.alive → link.alive) ∧
      (r'.channel.isConnected ↔ link'.alive) := by
  obtain ⟨⟨connection, alive⟩, hline⟩ := Option.ne_none_iff_exists'.mp hlinked
  obtain ⟨link, hlink, rfl, rfl⟩ := link_of_line_some hline
  have hconnected : ∀ {link'}, r'.channel.link? = some link' →
      (r'.channel.isConnected ↔ link'.alive) := by
    intro link' hlink'
    simp [isConnected_iff, line?, hlink']
  rcases h.line hsame hactive with hline' | hline'
  · obtain ⟨link', hlink', hconnection, halive⟩ := link_of_line_some (hline'.trans hline)
    exact ⟨link, link', hlink, hlink', hconnection, fun hup => halive ▸ hup, hconnected hlink'⟩
  · rw [hline] at hline'
    obtain ⟨link', hlink', hconnection, halive⟩ := link_of_line_some hline'
    refine ⟨link, link', hlink, hlink', hconnection, fun hup => ?_, hconnected hlink'⟩
    cases halive.symm.trans hup

/-- **A session in use does not outlive its connection unnoticed, and is not
given up for a connection that is alive.**

Along all moves of a client whose callers leave the connection to the machine,
whatever is raised and in whatever order its tasks run: while a session is in
use the connection is alive, or the watcher has yet to read that it has ended,
or an event stamped with the current epoch is queued that leaves the session.
From then on as long as the machine is in that same state its link is over the
same connection; and once the state has stamped that the connection is lost,
the link is not alive. -/
theorem connection_watched (url : String) (settings : ClientSettings)
    (endpoint : EndpointDescription) (credentials : Credentials) (ms₁ ms₂ : List Move)
    (habstain : ∀ m ∈ ms₁ ++ ms₂, m.Abstains) :
    let r₁ := ms₁.foldl ClientRun.move (start url settings endpoint credentials)
    let r₂ := ms₂.foldl ClientRun.move r₁
    r₁.engine.machine.state.kind = .active →
      (r₁.channel.isConnected ∨
        (∃ w, r₁.engine.watcher? = some w ∧ w.epoch = r₁.engine.machine.epoch ∧
          .inactive ∈ w.unread) ∨
        ∃ e, r₁.engine.machine.Queued e ∧ (r₁.engine.machine.state.transition? e).isSome) ∧
      (r₂.engine.machine.epoch = r₁.engine.machine.epoch →
        ∃ link₁ link₂, r₁.channel.link? = some link₁ ∧ r₂.channel.link? = some link₂ ∧
          link₂.connection = link₁.connection ∧ (link₂.alive → link₁.alive) ∧
          (r₂.engine.machine.Queued .connectionLost → ¬ link₂.alive)) := by
  intro r₁ r₂ hactive
  have habstain₁ : ∀ m ∈ ms₁, m.Abstains := fun m hm => habstain m (List.mem_append_left _ hm)
  have habstain₂ : ∀ m ∈ ms₂, m.Abstains := fun m hm => habstain m (List.mem_append_right _ hm)
  obtain ⟨horderly₁, hwatchful₁, hmoored₁⟩ : r₁.Orderly ∧ r₁.Watchful ∧ r₁.Moored :=
    (orderly_start url settings endpoint credentials).along
      (I := fun r => r.Watchful ∧ r.Moored) ⟨watchful_start .., moored_start ..⟩
      (fun r m horderly habstains h => ⟨h.1.move horderly habstains, h.2.move horderly habstains⟩)
        habstain₁
  obtain ⟨-, hwatchful₂, hlasts⟩ : r₂.Orderly ∧ r₂.Watchful ∧ Lasts r₁ r₂ :=
    horderly₁.along (I := fun r => r.Watchful ∧ Lasts r₁ r) ⟨hwatchful₁, .refl r₁⟩
      (fun r m horderly habstains h =>
        ⟨h.1.move horderly habstains, h.2.trans (horderly.lasts habstains)⟩)
      habstain₂
  constructor
  · obtain ⟨run, hsound, heq⟩ := horderly₁.sound
    refine (hwatchful₁.noticed hactive).imp_right (Or.imp ?_ ?_)
    · rintro ⟨w, hwatching, hunread⟩
      have howned := hsound.watcher
      rw [Run.WatcherOwned, Run.machine, heq] at howned
      exact ⟨w, hwatching, (howned w hwatching).2, hunread⟩
    · rintro ⟨e, hqueued⟩
      have hraises := hsound.raises (e := e)
      rw [Run.machine, heq] at hraises
      exact ⟨e, hqueued, (hraises hqueued).moves⟩
  · intro hsame
    obtain ⟨link₁, link₂, hlink₁, hlink₂, hconnection, halive, hconnected⟩ :=
      hlasts.links hsame hactive (hmoored₁.linked hactive)
    refine ⟨link₁, link₂, hlink₁, hlink₂, hconnection, halive, fun hlost => ?_⟩
    rw [← hconnected]
    exact hwatchful₂.ended ((hlasts.kind hsame).trans hactive) (.inl hlost)

/-! ## Where the connection is lost -/

/-- A call gets a session: the machine connects, creates one and activates it,
and the call is answered. -/
def settled : List Move :=
  [.act (.call "first" true .session), .machine, .machine, Chronicle.created 1 ⟨1, .numeric 1⟩,
    .machine, .machine, Chronicle.activated 2, .machine, .machine]

/-- The connection ends, and the watcher reads that it has, before the machine
goes on. -/
def lapsed : List Move := [.cut, .watcher]

/-- None of these moves makes a call that connects or disconnects. -/
theorem abstain_lapsed : ∀ m ∈ settled ++ lapsed, m.Abstains := by
  simp [settled, lapsed, Move.Abstains, Action.Abstains, Chronicle.created, Chronicle.activated]

/-- The law at work: the connection ends while a session is in use, and an
event that leaves the session is queued. -/
theorem connection_watched_lapsed :
    let r₁ := settled.foldl ClientRun.move Chronicle.plant.client
    let r₂ := lapsed.foldl ClientRun.move r₁
    r₁.engine.machine.state.kind = .active ∧ r₁.channel.isConnected ∧
      r₂.engine.machine.Queued .connectionLost ∧
      ∃ link₁ link₂, r₁.channel.link? = some link₁ ∧ r₂.channel.link? = some link₂ ∧
        link₂.connection = link₁.connection ∧ ¬ link₂.alive := by
  intro r₁ r₂
  have hactive : r₁.engine.machine.state.kind = .active := by decide +kernel
  have hsame : r₂.engine.machine.epoch = r₁.engine.machine.epoch := by decide +kernel
  have hlost : r₂.engine.machine.Queued .connectionLost := by
    unfold Machine.Queued
    decide +kernel
  have hlaw := connection_watched "plant" { session := { sessionName := "plant" } }
    (.unsecured "plant") .anonymous settled lapsed abstain_lapsed
  -- The client is named again, so that what was evaluated above is not evaluated anew.
  rw [show start "plant" { session := { sessionName := "plant" } } (.unsecured "plant") .anonymous =
    Chronicle.plant.client from rfl] at hlaw
  obtain ⟨link₁, link₂, hlink₁, hlink₂, hconnection, -, hended⟩ := (hlaw hactive).2 hsame
  exact ⟨hactive, by decide +kernel, hlost, link₁, link₂, hlink₁, hlink₂, hconnection, hended hlost⟩

end ClientRun

end OpcSession.Simulation
