import OpcSession.Proofs.Session.Entering

/-!
# The session machine is never stranded

A state that nothing will ever move again would keep its callers waiting for
good.  While anyone is left to use the machine, no state is like that: the
outcome of its entry is in the queue, or its timer or its watcher is still
there, or what they raised is in the queue.

* `Run.Movable.fresh` — a state that is left takes its timer and its watcher
  along;
* `Run.Sound.happen` — everything that can happen keeps `Run.Sound`;
* `Run.never_stranded` — the law, with the fate of stamped events.
-/

namespace OpcSession.Session

/-- Somebody who could use the machine is left at that moment, so that events
can still be sent to it. -/
def Occurrence.Attended : Occurrence → Prop
  | taking s | ended s _ => s.attended
  | watching attended | fired attended _ => attended
  | _ => True

namespace Run

variable {A : Prop} {r : Run}

/-! ## To move and to take commands -/

/-- All that a move needs of the point where it happens.  It is less than the
invariant, which is broken while a command is being obeyed. -/
structure Movable (r : Run) : Prop where
  stamps : ∀ e k, .stamped e k ∈ r.machine.queue → k ≤ r.machine.epoch
  timer : r.TimerOwned
  watcher : r.WatcherOwned
  moves : r.machine.epoch = r.moves

theorem Sound.stamps_le (h : r.Sound A) {e : Event} {k : Nat}
    (hk : .stamped e k ∈ r.machine.queue) : k ≤ r.machine.epoch := by
  rcases h.stamps e k hk with hlt | ⟨rfl, -⟩
  · exact Nat.le_of_lt hlt
  · exact Nat.le_refl _

theorem Sound.dequeue_movable (h : r.Sound A) {c : Command} {rest : List Command}
    (hqueue : r.machine.queue = c :: rest) : (r.dequeue c rest).Movable where
  stamps := fun _ _ hk => h.stamps_le (by rw [hqueue]; exact List.mem_cons_of_mem _ hk)
  timer := h.timer
  watcher := h.watcher
  moves := by simpa using h.moves

/-- A state that is left takes its timer along, so none is left to fire in the
next. -/
theorem TimerOwned.leave (h : r.TimerOwned) :
    ((Machine.leave r.machine.state r.machine.epoch).foldl Engine.timersAfter
      r.engine.timers).waiting = [] := by
  rcases h with hnone | ⟨hdelay, t, hone, htask⟩
  · cases hst : r.machine.state with
    | closing session completions =>
        rw [Machine.leave, Engine.timersAfter_quiet _ (quiet_answers _ _)]
        exact hnone
    | _ => simp [Machine.leave, Engine.timersAfter, hnone]
  · cases hst : r.machine.state <;> rw [hst] at hdelay <;> cases hdelay
    simp [Machine.leave, Engine.timersAfter, hone, htask, Timers.cancel, Timers.isWaiting]

/-- A state that is left takes its watcher along, so none is left to see
anything in the next. -/
theorem WatcherOwned.leave (h : r.WatcherOwned) :
    (Machine.leave r.machine.state r.machine.epoch).foldl Engine.watcherAfter
      r.engine.watcher? = none := by
  cases hw : r.engine.watcher? with
  | none =>
      cases hst : r.machine.state with
      | closing session completions =>
          rw [Machine.leave, Engine.watcherAfter_quiet _ (quiet_answers _ _)]
      | _ => rfl
  | some w =>
      obtain ⟨hactive, hepoch⟩ := h w hw
      cases hst : r.machine.state <;> rw [hst] at hactive <;> cases hactive
      simp [Machine.leave, Engine.watcherAfter, hepoch]

/-- **Every move leads to a fresh state.**  What was stamped before is out of
date by the new epoch, and timer and watcher are given up. -/
theorem Movable.fresh {Q : Event → Prop} {event : Event} {move : State.Move} {p : Progress}
    (h : r.Movable) (hblank : move.next.Blank) (hp : Moves Q r.machine event move p) :
    (r.proceed p).Fresh := by
  obtain ⟨rest, hquiet, heffects⟩ := hp.effects
  exact {
    blank := by
      rw [machine_proceed]
      exact State.blank_of_bare hp.bare hblank
    stamps := by
      intro e k hk
      obtain ⟨raised, -, hqueue⟩ := hp.queue
      rw [machine_proceed, hqueue, List.mem_append] at hk
      rw [machine_proceed, hp.epoch]
      rcases hk with hk | hk
      · exact Nat.lt_succ_of_le (h.stamps e k hk)
      · simp at hk
    timer := by
      rw [timers_proceed, heffects, List.cons_append, List.foldl_cons, List.foldl_append,
        Engine.timersAfter_quiet _ hquiet]
      exact h.timer.leave
    watcher := by
      rw [watcher_proceed, heffects, List.cons_append, List.foldl_cons, List.foldl_append,
        Engine.watcherAfter_quiet _ hquiet]
      exact h.watcher.leave
    moves := by
      rw [machine_proceed, hp.epoch, hp.moves, h.moves] }

/-- An event that moves the machine is handled soundly: the next state is
fresh, and is entered from there. -/
theorem Movable.handle {s : Surroundings} (h : r.Movable) (hattended : A → s.attended)
    {event : Event} (hmoves : (r.machine.state.transition? event).isSome)
    (waiter : Option Ticket) (owed : Owed) :
    (r.proceed (r.machine.handle s event waiter owed)).Sound A := by
  obtain ⟨move, hmove⟩ := Option.isSome_iff_exists.mp hmoves
  have hmoved := Machine.move_moves (m := r.machine) (Q := fun _ => True) s event move
    fun _ _ _ _ _ => trivial
  have hjoined := hmoved.join (f := fun m => waiter.elim { machine := m } m.attach)
    (Machine.join_serves _ waiter)
  have hfresh := h.fresh (State.transition?_blank hmove) hjoined
  unfold Machine.handle
  simp only [hmove]
  rw [proceed_andThen]
  exact hfresh.enter hattended event owed

/-- An event that is ignored leaves the machine as it was, but for its caller;
one that is not moves it. -/
theorem Sound.handle {s : Surroundings} (h : r.Sound A) (hattended : A → s.attended)
    (event : Event) (waiter : Option Ticket) (owed : Owed) :
    (r.proceed (r.machine.handle s event waiter owed)).Sound A := by
  cases hmove : r.machine.state.transition? event with
  | some move =>
      have hmovable : r.Movable := ⟨fun _ _ hk => h.stamps_le hk, h.timer, h.watcher, h.moves⟩
      exact hmovable.handle hattended (by rw [hmove]; rfl) waiter owed
  | none =>
      unfold Machine.handle
      simp only [hmove]
      have hserves := (Machine.join_serves r.machine waiter).andThen
        (f := fun m => m.pay owed) (Machine.pay_serves _ owed)
      exact h.alike (alike_of_serves hserves)

/-- The queue may change as long as it keeps what is stamped with the current
epoch, and what comes in is what the state itself can raise. -/
theorem Sound.requeue (h : r.Sound A) {queue : List Command}
    (hstamps : ∀ e k, .stamped e k ∈ queue → .stamped e k ∈ r.machine.queue ∨
      k = r.machine.epoch ∧ r.machine.state.Raises e ∧
        (r.machine.entry? = none ∨ r.machine.state.kind = .active))
    (hkept : ∀ e, r.machine.Queued e → .stamped e r.machine.epoch ∈ queue) :
    (r.withMachine { r.machine with queue := queue }).Sound A where
  stamps := by
    intro e k hk
    rcases hstamps e k hk with hk | hown
    · exact h.stamps e k hk
    · exact .inr hown
  fits := h.fits
  outcome := by
    intro ha hidle hending
    obtain ⟨e, he⟩ := h.outcome ha hidle hending
    exact ⟨e, hkept e he⟩
  timer := h.timer
  delayed := by
    intro ha hdelay
    rcases h.delayed ha hdelay with hwaiting | ⟨e, he⟩
    · exact .inl hwaiting
    · exact .inr ⟨e, hkept e he⟩
  watcher := h.watcher
  watched := by
    intro ha hactive
    rcases h.watched ha hactive with hwatching | ⟨e, he⟩
    · exact .inl hwatching
    · exact .inr ⟨e, hkept e he⟩
  moves := h.moves

/-- A command that is not an event of the current epoch may leave the queue:
nothing depends on it. -/
theorem Sound.dequeue (h : r.Sound A) {c : Command} {rest : List Command}
    (hqueue : r.machine.queue = c :: rest)
    (hother : ∀ e, c ≠ .stamped e r.machine.epoch) : (r.dequeue c rest).Sound A := by
  have htaken : (r.withMachine { r.machine with queue := rest }).Sound A := by
    apply h.requeue
    · intro e k hk
      rw [hqueue]
      exact .inl (List.mem_cons_of_mem _ hk)
    · intro e he
      rw [Machine.Queued, hqueue, List.mem_cons] at he
      exact he.resolve_left fun heq => hother e heq.symm
  exact htaken.alike ⟨rfl, rfl, rfl, rfl, rfl, rfl, moves_dequeue r c rest⟩

/-- **Every command is carried out soundly.**  A stale event is dropped, and a
request for the session in use is answered where it stands. -/
theorem Sound.take {s : Surroundings} (h : r.Sound A) (hattended : A → s.attended)
    {c : Command} {rest : List Command} (hqueue : r.machine.queue = c :: rest) :
    ((r.dequeue c rest).proceed ((r.dequeue c rest).machine.obey s c)).Sound A := by
  cases c with
  | stamped e k =>
      by_cases hcurrent : k = r.machine.epoch
      · have hk : .stamped e k ∈ r.machine.queue := by
          rw [hqueue]
          exact List.mem_cons_self
        -- The event was raised by the very state that takes it.
        rcases h.stamps e k hk with hlt | ⟨-, hraises, -⟩
        · omega
        · rw [Machine.obey_current s (r.dequeue (.stamped e k) rest).machine e hcurrent]
          exact (h.dequeue_movable hqueue).handle hattended hraises.moves none .nobody
      · rw [Machine.obey_stale s (r.dequeue (.stamped e k) rest).machine e hcurrent,
          proceed_silent]
        exact h.dequeue hqueue (by rintro _ ⟨⟩; exact hcurrent rfl)
  | event e ticket =>
      have htaken := h.dequeue hqueue (by simp)
      cases ticket with
      | none => exact htaken.handle hattended e none .nobody
      | some t => exact htaken.handle hattended e none (.state t)
  | getSession t =>
      have htaken := h.dequeue hqueue (by simp)
      unfold Machine.obey
      dsimp only
      split
      · exact htaken.alike (alike_of_quiet (by simp [Effect.isQuiet]))
      · exact htaken.handle hattended .sessionRequested (some t) .nobody
  | disconnect t =>
      have htaken := h.dequeue hqueue (by simp)
      exact htaken.handle hattended .disconnectRequested none (.disconnect t)

/-! ## What happens around the machine -/

/-- A command that is not stamped may be asked for at any time. -/
theorem Sound.asked (h : r.Sound A) {c : Command} (hunstamped : ¬ c.isStamped) :
    (r.withMachine (r.machine.push c)).Sound A := by
  apply h.requeue
  · intro e k hk
    rcases List.mem_append.mp hk with hk | hk
    · exact .inl hk
    · rw [List.mem_singleton] at hk
      subst hk
      exact absurd rfl hunstamped
  · exact fun e he => List.mem_append_left _ he

/-- An event that the state itself can raise may come in, once the state has
been entered. -/
theorem Sound.raised (h : r.Sound A) {e : Event} (hraises : r.machine.state.Raises e)
    (hentered : r.machine.entry? = none ∨ r.machine.state.kind = .active) :
    (r.withMachine (r.machine.push (.stamped e r.machine.epoch))).Sound A := by
  apply h.requeue
  · intro e' k hk
    rcases List.mem_append.mp hk with hk | hk
    · exact .inl hk
    · cases List.mem_singleton.mp hk
      exact .inr ⟨rfl, hraises, hentered⟩
  · exact fun e he => List.mem_append_left _ he

/-- The watcher goes when it has seen what ends its watch, and has raised that
before. -/
theorem Sound.watch (h : r.Sound A) {someone : Bool} (hattended : A → someone) :
    ({ r with engine := r.engine.watch someone } : Run).Sound A := by
  unfold Engine.watch
  split
  · exact h
  · rename_i w hw
    obtain ⟨hactive, hepoch⟩ := h.watcher w hw
    split
    · exact h.alike ⟨rfl, rfl, rfl, rfl, rfl, by simp [hw], rfl⟩
    · rename_i event hseen
      obtain ⟨n, -, hn⟩ := List.exists_of_findSome?_eq_some hseen
      have hraises : r.machine.state.Raises event := by
        cases hst : r.machine.state <;> rw [hst] at hactive <;> cases hactive
        cases n with
        | inactive => cases hn; exact .inl rfl
        | serviceFault status =>
            simp only [Notice.event?, Option.ite_none_right_eq_some] at hn
            cases hn.2
            exact .inr rfl
      have hraised := h.raised hraises (.inr hactive)
      have hqueued : (r.machine.push (.stamped event w.epoch)).Queued event := by
        simp [Machine.Queued, Machine.push, hepoch]
      rw [← hepoch] at hraised
      cases someone with
      | true =>
          exact { hraised with
            watcher := by
              rintro w' ⟨⟩
            watched := fun _ _ => .inr ⟨event, hqueued⟩ }
      | false =>
          exact { h with
            watcher := by
              rintro w' ⟨⟩
            watched := fun ha => absurd (hattended ha) (by simp) }

/-- A timer that fires has done what it was for, and raises the event that
ends the wait. -/
theorem Sound.fire (h : r.Sound A) {someone : Bool} (hattended : A → someone) (id : Nat) :
    (r.fire someone id).Sound A := by
  unfold Run.fire
  split
  · exact h
  · rename_i timer hfound
    rcases h.timer with hnone | ⟨hdelay, t, hone, htask⟩
    · simp [hnone] at hfound
    · rw [hone] at hfound
      have hsame : t = timer := List.mem_singleton.mp (List.mem_of_find?_eq_some hfound) |>.symm
      subst hsame
      have hraises : r.machine.state.Raises .reactivateRequested := by
        cases hst : r.machine.state <;> rw [hst] at hdelay <;> cases hdelay
        rfl
      have hraised := h.raised hraises (.inl (h.idle_of_delay hdelay))
      have hqueued : (r.machine.push (.stamped .reactivateRequested t.task)).Queued
          .reactivateRequested := by
        simp [Machine.Queued, Machine.push, htask]
      rw [← htask] at hraised
      cases someone with
      | true =>
          exact { hraised with
            timer := .inl (by simp [hone, Engine.raise])
            delayed := fun _ _ => .inr ⟨.reactivateRequested, hqueued⟩ }
      | false =>
          exact { h with
            timer := .inl (by simp [hone, Engine.raise])
            delayed := fun ha => absurd (hattended ha) (by simp) }

/-! ## The law -/

/-- **Everything that can happen keeps the invariant**, while anyone is left
to use the machine. -/
theorem Sound.happen (h : r.Sound A) {o : Occurrence} (hattended : A → o.Attended) :
    (r.happen o).Sound A := by
  cases o with
  | asked c =>
      refine r.asked_cases (motive := (·.Sound A)) h fun hunstamped => ?_
      exact h.asked hunstamped
  | taking s =>
      refine r.taking_cases (motive := (·.Sound A)) h fun c rest _ hqueue => ?_
      exact h.take hattended hqueue
  | ended s o =>
      refine r.ended_cases (motive := (·.Sound A)) h fun _ _ => ?_
      have hstill : (r.record (.returned o)).moves = r.moves :=
        r.moves_record (by simp [Happening.isMove])
      have hrecorded : (r.record (.returned o)).Sound A :=
        h.alike ⟨rfl, rfl, rfl, rfl, rfl, rfl, hstill⟩
      exact hrecorded.resume hattended o
  | noticed capacity n =>
      refine h.alike ⟨rfl, rfl, rfl, rfl, rfl, ?_, rfl⟩
      simp only [Run.happen, Engine.notify, Option.map_map]
      rfl
  | watching someone => exact h.watch hattended
  | fired someone id => exact h.fire hattended id
  | elapsed d => exact h.alike ⟨rfl, rfl, rfl, rfl, rfl, rfl, rfl⟩
  | listening ls => exact h.alike ⟨rfl, rfl, rfl, rfl, rfl, rfl, rfl⟩

theorem sound_of_reachable {P : Occurrence → Prop} (hattended : ∀ o, P o → A → o.Attended)
    (h : Reachable P r) : r.Sound A :=
  Reaches.invariant (sound_start A) (fun _ o hallowed h => h.happen (hattended o hallowed)) h

theorem sound_foldl (os : List Occurrence) : (os.foldl Run.happen {}).Sound False :=
  sound_of_reachable (fun _ _ => False.elim)
    (Reaches.ofList (P := fun _ => True) os fun _ _ => trivial)

/-- What keeps a machine that waits for no call from being stranded: by the
kind of its state, an event, a timer or a watcher that will move it. -/
structure Unstranded (r : Run) : Prop where
  /-- How its entry came out is in the queue, and will move it. -/
  outcome : r.machine.state.kind.endsInEvent →
    ∃ e, r.machine.Queued e ∧ (r.machine.state.transition? e).isSome
  /-- The timer of the wait runs, or has raised its event. -/
  delayed : r.machine.state.kind = .reactivateDelay →
    (∃ t, r.engine.timers.waiting = [t] ∧ t.task = r.machine.epoch) ∨
      r.machine.Queued .reactivateRequested
  /-- The connection is watched, or its watcher has raised an event. -/
  watched : r.machine.state.kind = .active →
    (∃ w, r.engine.watcher? = some w ∧ w.epoch = r.machine.epoch) ∨
      r.machine.Queued .connectionLost ∨ r.machine.Queued .sessionInvalid
  /-- No timer waits in any other state. -/
  timer : r.machine.state.kind ≠ .reactivateDelay → r.engine.timers.waiting = []

/-- What is stamped with the current epoch comes from the current state, and
no state before it. -/
theorem Sound.raises (h : r.Sound A) {e : Event} (hqueued : r.machine.Queued e) :
    r.machine.state.Raises e := by
  rcases h.stamps e _ hqueued with hlt | ⟨-, hraises, -⟩
  · omega
  · exact hraises

/-- What was stamped in the current state moves the machine when its turn
comes. -/
theorem Sound.moves_of_stamped (h : r.Sound A) {e : Event} {rest : List Command}
    (hqueue : r.machine.queue = .stamped e r.machine.epoch :: rest) :
    ∃ move, r.machine.state.transition? e = some move := by
  have hqueued : r.machine.Queued e := by
    rw [Machine.Queued, hqueue]
    exact List.mem_cons_self
  exact Option.isSome_iff_exists.mp (h.raises hqueued).moves

theorem Sound.unstranded (h : r.Sound True) (hidle : r.machine.entry? = none) : r.Unstranded where
  outcome := by
    intro hending
    obtain ⟨e, he⟩ := h.outcome trivial hidle hending
    exact ⟨e, he, (h.raises he).moves⟩
  delayed := by
    intro hdelay
    rcases h.timer with hnone | ⟨-, t, hone, htask⟩
    · obtain ⟨e, he⟩ := (h.delayed trivial hdelay).resolve_left fun hsome => hsome hnone
      have hraises := h.raises he
      cases hst : r.machine.state <;> rw [hst] at hdelay hraises <;> cases hdelay
      cases hraises
      exact .inr he
    · exact .inl ⟨t, hone, htask⟩
  watched := by
    intro hactive
    rcases h.watched trivial hactive with hwatching | ⟨e, he⟩
    · obtain ⟨w, hw⟩ := Option.isSome_iff_exists.mp hwatching
      exact .inl ⟨w, hw, (h.watcher w hw).2⟩
    · have hraises := h.raises he
      cases hst : r.machine.state <;> rw [hst] at hactive hraises <;> cases hactive
      rcases hraises with rfl | rfl
      · exact .inr (.inl he)
      · exact .inr (.inr he)
  timer := by
    intro hother
    exact h.timer.resolve_right fun howned => hother howned.1

/-- From one point of a run to the next, commands leave the queue at its front
and come in at its end, and the events that come in stamped are stamped with
the epoch that is current then. -/
def Brings (r r' : Run) : Prop :=
  ∃ n news, r'.machine.queue = r.machine.queue.drop n ++ news ∧
    ∀ e k, .stamped e k ∈ news → k = r'.machine.epoch

theorem brings_nothing {r' : Run} (hqueue : r'.machine.queue = r.machine.queue) :
    r.Brings r' :=
  ⟨0, [], by simp [hqueue], by simp⟩

/-- Whatever happens, what comes into the queue is of its time: it is stamped
with the epoch in which it was raised, or not at all. -/
theorem Sound.news (h : r.Sound A) (o : Occurrence) : r.Brings (r.happen o) := by
  have hanyone : r.machine.listeners.RaiseOnly fun _ => True := fun _ _ _ _ _ => trivial
  cases o with
  | asked c =>
      refine r.asked_cases (motive := r.Brings) (brings_nothing rfl) fun hunstamped => ?_
      refine ⟨0, [c], rfl, ?_⟩
      intro e k hk
      cases List.mem_singleton.mp hk
      exact absurd rfl hunstamped
  | taking s =>
      refine r.taking_cases (motive := r.Brings) (brings_nothing rfl) fun c rest _ hqueue => ?_
      have hleaves := (r.dequeue c rest).machine.obey_leaves s hanyone c
      obtain ⟨news, hqueue', hnews⟩ := hleaves.queue
      refine ⟨1, news, by simpa [hqueue] using hqueue', ?_⟩
      intro e k hk
      rcases hnews _ hk with ⟨_, ⟨⟩, _⟩ | ⟨_, heq, _⟩
      cases heq
      rw [machine_proceed]
  | ended s o =>
      refine r.ended_cases (motive := r.Brings) (brings_nothing rfl) fun _ _ => ?_
      have hadds := r.machine.resume_adds s hanyone o
      obtain ⟨news, hqueue, hnews⟩ := hadds.queue
      refine ⟨0, news, by simpa using hqueue, ?_⟩
      intro e k hk
      rcases hnews _ hk with ⟨_, ⟨⟩, _⟩ | ⟨_, heq, _⟩
      cases heq
      rw [machine_proceed, hadds.epoch]
  | watching someone =>
      simp only [Run.happen, Engine.watch]
      split
      · exact brings_nothing rfl
      · rename_i w hw
        split
        · exact brings_nothing rfl
        · rename_i event _
          cases someone with
          | false => exact brings_nothing rfl
          | true =>
              refine ⟨0, [.stamped event w.epoch], rfl, ?_⟩
              intro e k hk
              cases List.mem_singleton.mp hk
              exact (h.watcher w hw).2
  | fired someone id =>
      simp only [Run.happen, Run.fire]
      split
      · exact brings_nothing rfl
      · rename_i timer hfound
        cases someone with
        | false => exact brings_nothing rfl
        | true =>
            refine ⟨0, [.stamped .reactivateRequested timer.task], rfl, ?_⟩
            intro e k hk
            cases List.mem_singleton.mp hk
            rcases h.timer with hnone | ⟨-, t, hone, htask⟩
            · simp [hnone] at hfound
            · rw [hone] at hfound
              cases List.mem_singleton.mp (List.mem_of_find?_eq_some hfound)
              exact htask
  | noticed capacity n => exact brings_nothing rfl
  | elapsed d => exact brings_nothing rfl
  | listening ls => exact brings_nothing rfl

/-- **No state strands the machine.**  While anyone is left to use it, a
machine that waits for no call has the event before it that will move it, or a
timer or a watcher that will raise one; and no timer outlives its delay.

Moreover an event that is raised bears the number of moves made by then, so
that it tells the state it comes from, and it is applied to no other state:
once the machine has moved on it is dropped. -/
theorem never_stranded (h : Reachable Occurrence.Attended r) :
    (r.machine.entry? = none → r.Unstranded) ∧
      (∀ o : Occurrence, o.Attended →
        ∃ n news, (r.happen o).machine.queue = r.machine.queue.drop n ++ news ∧
          ∀ e k, .stamped e k ∈ news →
            k = (r.happen o).moves ∧ (r.happen o).machine.state.Raises e) ∧
      ∀ s e k rest, r.machine.entry? = none → r.machine.queue = .stamped e k :: rest →
        let taken := r.dequeue (.stamped e k) rest
        r.happen (.taking s) =
          if k = r.moves then taken.proceed (taken.machine.handle s e none .nobody)
          else taken := by
  have hsound : r.Sound True := sound_of_reachable (fun _ hattended _ => hattended) h
  refine ⟨hsound.unstranded, ?_, ?_⟩
  · intro o hattended
    have hafter := hsound.happen fun _ => hattended
    obtain ⟨n, news, hqueue, hstamps⟩ := hsound.news o
    refine ⟨n, news, hqueue, ?_⟩
    intro e k hk
    have hcurrent := hstamps e k hk
    have hqueued : (r.happen o).machine.Queued e := by
      rw [Machine.Queued, hqueue, ← hcurrent]
      exact List.mem_append_right _ hk
    exact ⟨hcurrent.trans hafter.moves, hafter.raises hqueued⟩
  · intro s e k rest hidle hqueue
    dsimp only
    rw [happen_taking r s hidle hqueue, ← hsound.moves]
    by_cases hcurrent : k = r.machine.epoch
    · rw [if_pos hcurrent,
        Machine.obey_current s (r.dequeue (.stamped e k) rest).machine e hcurrent]
    · rw [if_neg hcurrent,
        Machine.obey_stale s (r.dequeue (.stamped e k) rest).machine e hcurrent]
      exact proceed_silent _ _

/-- A session that has just come into use is watched, in the epoch in which it
did. -/
theorem never_stranded_in_use :
    let r : Run := (opening 7 .null .null).foldl Run.happen {}
    r.machine.entry? = none ∧ r.machine.state.kind = .active ∧
      ((∃ w, r.engine.watcher? = some w ∧ w.epoch = r.machine.epoch) ∨
        r.machine.Queued .connectionLost ∨ r.machine.Queued .sessionInvalid) := by
  have hattended : ∀ o ∈ opening 7 .null .null, o.Attended := by
    simp [opening, Occurrence.Attended, Surroundings.placid]
  have hlaw := never_stranded (Reaches.ofList _ hattended)
  exact ⟨rfl, rfl, (hlaw.1 rfl).watched rfl⟩

end Run

end OpcSession.Session
