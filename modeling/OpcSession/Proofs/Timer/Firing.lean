import OpcSession.Proofs.Lists
import OpcSession.Timer.Program

/-!
# When timers fire

On a clock timers are scheduled and cancelled and time is advanced, from outside and by the tasks
of timers that fire.  To advance the clock is to run the tasks that are due, one after the other,
until none is due any more; a task that advances the clock itself begins another such run within
the first.  A *journal* keeps the timers of a clock, the runs that have not come to their end, and
all that happened, in order.

* `Timer.first?_before` — which timer is taken;
* `Timers.Journal.happen` — what may happen on a clock, in any order;
* `Timers.Entry.Right` — what has to be so of what happens, by what happened before;
* `Timers.Journal.Kept.happen` — what is so all along, kept by whatever happens.
-/

namespace OpcSession

/-! ## The timer that is taken first -/

namespace Timer

variable {α : Type} {a b c t : Timer α} {ts : List (Timer α)}

/-- One timer is to be taken before another if it is due earlier, or was
scheduled earlier for the same time. -/
theorem before_iff : a.before b ↔
    a.deadline.nanos < b.deadline.nanos ∨ (a.deadline = b.deadline ∧ a.id < b.id) := by
  simp [before]

/-- What is to be taken before something earlier is to be taken before it. -/
theorem before_trans (h : a.before b) (h' : b.before c) : a.before c := by
  rw [before_iff] at *
  rcases h with hearlier | ⟨hsame, hfirst⟩
  · rcases h' with hearlier' | ⟨hsame', -⟩
    · exact .inl (Nat.lt_trans hearlier hearlier')
    · exact .inl (hsame' ▸ hearlier)
  · rcases h' with hearlier' | ⟨hsame', hfirst'⟩
    · exact .inl (hsame ▸ hearlier')
    · exact .inr ⟨hsame.trans hsame', Nat.lt_trans hfirst hfirst'⟩

/-- Of two timers one is to be taken before the other, since their numbers
differ. -/
theorem before_or_before (hother : a.id ≠ b.id) : a.before b ∨ b.before a := by
  rw [before_iff, before_iff]
  rcases Nat.lt_trichotomy a.deadline.nanos b.deadline.nanos with hearlier | hsame | hlater
  · exact .inl (.inl hearlier)
  · have hsame : a.deadline = b.deadline := by
      cases ha : a.deadline
      cases hb : b.deadline
      simpa [ha, hb] using hsame
    rcases Nat.lt_or_gt_of_ne hother with hfirst | hsecond
    · exact .inl (.inr ⟨hsame, hfirst⟩)
    · exact .inr (.inr ⟨hsame.symm, hsecond⟩)
  · exact .inr (.inl hlater)

/-- There is a first timer exactly where there is one at all. -/
theorem first?_eq_none : first? ts = none ↔ ts = [] := by
  cases ts with
  | nil => simp [first?]
  | cons t ts =>
      simp only [first?]
      split <;> simp

/-- The first timer is one of them, and not something else. -/
theorem mem_of_first? (h : first? ts = some t) : t ∈ ts := by
  induction ts generalizing t with
  | nil => cases h
  | cons u us ih =>
      simp only [first?] at h
      split at h
      · cases h
        exact List.mem_cons_self
      · rename_i v hfirst
        cases h
        split
        · exact List.mem_cons_of_mem _ (ih hfirst)
        · exact List.mem_cons_self

/-- **The first timer is before all others.**  It is found by going through
them once; that they are sorted is not needed. -/
theorem first?_before (hdistinct : ts.Pairwise (·.id ≠ ·.id)) (h : first? ts = some t) :
    ∀ u ∈ ts, u = t ∨ t.before u := by
  induction ts generalizing t with
  | nil => cases h
  | cons u us ih =>
      obtain ⟨hothers, hdistinct⟩ := List.pairwise_cons.mp hdistinct
      simp only [first?] at h
      cases hfirst : first? us with
      | none =>
          rw [hfirst] at h
          cases h
          rw [first?_eq_none.mp hfirst]
          intro v hv
          exact .inl (List.mem_singleton.mp hv)
      | some v =>
          rw [hfirst] at h
          cases h
          have hleast := ih hdistinct hfirst
          have hother := hothers v (mem_of_first? hfirst)
          by_cases hsooner : v.before u
          · rw [if_pos hsooner]
            intro w hw
            rcases List.mem_cons.mp hw with rfl | hw
            · exact .inr hsooner
            · exact hleast w hw
          · rw [if_neg hsooner]
            have hfirst : u.before v := (before_or_before hother).resolve_right hsooner
            intro w hw
            rcases List.mem_cons.mp hw with rfl | hw
            · exact .inl rfl
            · rcases hleast w hw with rfl | hlater
              · exact .inr hfirst
              · exact .inr (before_trans hfirst hlater)

end Timer

/-! ## What happens on a clock -/

namespace Timers

variable {α : Type}

/-- What may happen on a clock, from outside or by a task that has begun.  A
task is not one occurrence: what it does are occurrences of their own. -/
inductive Occurrence (α : Type)
  /-- A timer is scheduled, to be due after a while. -/
  | schedule (delay : Duration) (task : α)
  /-- Somebody tries to cancel a timer, which may have fired already. -/
  | cancel (id : Nat)
  /-- Time is advanced, and a run of what is due begins within the one that is
  going on, if one is. -/
  | advance (by_ : Duration)
  /-- The next timer that is due fires, and its task begins; nothing happens
  where none is due. -/
  | fire
  /-- Nothing is due any more, and the run that began last comes to its
  end. -/
  | rest

/-- What is written down of what happens, with all that somebody could have
been told of it. -/
inductive Entry (α : Type)
  /-- A timer was scheduled, with its number and when it is due. -/
  | scheduled (t : Timer α)
  /-- Somebody cancelled a timer, and was told whether that stopped it, or
  came too late. -/
  | cancelled (id : Nat) (won : Bool)
  /-- A run began at this time. -/
  | began (run : Nat) (now : Duration)
  /-- A timer fired in this run, at this time. -/
  | fired (run : Nat) (t : Timer α) (now : Duration)
  /-- A run has come to its end and answers how many tasks it ran. -/
  | rested (run : Nat) (now : Duration) (ran : Nat)

/-- A run that has not come to its end, by its number, and how many tasks it
has run so far. -/
structure Ongoing where
  run : Nat
  /-- How many tasks it has run so far. -/
  ran : Nat := 0

/-- The timers on a clock, the runs that have not come to their end, the one
that began last first, how many runs have begun, and all that happened. -/
structure Journal (α : Type) where
  /-- The timers of the clock, and its time. -/
  timers : Timers α := {}
  /-- The runs that have not come to their end, the innermost first. -/
  active : List Ongoing := []
  /-- How many runs have begun, by which they are numbered. -/
  begun : Nat := 0
  history : List (Entry α) := []

namespace Entry

/-- The timer that was scheduled, if that is what was written down. -/
def scheduled? : Entry α → Option (Timer α)
  | scheduled t => some t
  | _ => none

/-- The timer that fired, if that is what was written down. -/
def fired? : Entry α → Option (Timer α)
  | fired _ t _ => some t
  | _ => none

/-- Whether a timer with this number does not wait any more, because it has
fired or was cancelled. -/
def ends (id : Nat) : Entry α → Bool
  | fired _ t _ => t.id = id
  | cancelled id' won => won ∧ id' = id
  | _ => false

/-- Whether a task began that was run by this run, and by none that began
within it. -/
def ranBy (run : Nat) : Entry α → Bool
  | fired run' _ _ => run' = run
  | _ => false

/-- The run that an entry is about, if it is about one. -/
def run? : Entry α → Option Nat
  | began run _ | fired run _ _ | rested run _ _ => some run
  | _ => none

end Entry

/-- The timers that were scheduled, in that order. -/
def scheduledIn (history : List (Entry α)) : List (Timer α) := history.filterMap Entry.scheduled?

/-- The timers that have fired, in that order. -/
def firedIn (history : List (Entry α)) : List (Timer α) := history.filterMap Entry.fired?

/-- The timers that were scheduled and have neither fired nor been cancelled;
these and no others are to be on the clock. -/
def pendingIn (history : List (Entry α)) : List (Timer α) :=
  (scheduledIn history).filter fun t => !history.any (·.ends t.id)

/-- What has to be so of what happens, by what happened before.  Numbers are
given out in order; who cancels is told the truth; only what is pending and
due fires, and first what is before the rest; and a run ends where nothing is
due. -/
def Entry.Right (past : List (Entry α)) : Entry α → Prop
  | scheduled t => ∀ u ∈ scheduledIn past, u.id < t.id
  | cancelled id won => won = true ↔ ∃ t ∈ pendingIn past, t.id = id
  | began run _ => ∀ x ∈ past, x.run? ≠ some run
  | fired run t now => t ∈ pendingIn past ∧ t.deadline ≤ now ∧
      (∃ since, .began run since ∈ past) ∧ ∀ at_ ran, .rested run at_ ran ∉ past
  | rested run now ran => ran = past.countP (·.ranBy run) ∧
      ∀ t ∈ pendingIn past, ¬ t.deadline ≤ now

namespace Journal

/-- What becomes of a journal by what happens; a run goes on only while one
has begun and not come to its end. -/
def happen (j : Journal α) : Occurrence α → Journal α
  | .schedule delay task =>
    let (id, timers) := j.timers.schedule delay task
    { j with
      timers := timers
      history := j.history ++ [.scheduled ⟨id, j.timers.now + delay, task⟩] }
  | .cancel id =>
    let (won, timers) := j.timers.cancel id
    { j with timers := timers, history := j.history ++ [.cancelled id won] }
  | .advance by_ =>
    let timers := j.timers.elapse by_
    { timers := timers
      active := { run := j.begun } :: j.active
      begun := j.begun + 1
      history := j.history ++ [.began j.begun timers.now] }
  | .fire =>
    match j.active, j.timers.takeDue? with
    | p :: others, some (t, timers) =>
      { j with
        timers := timers
        active := { p with ran := p.ran + 1 } :: others
        history := j.history ++ [.fired p.run t j.timers.now] }
    | _, _ => j
  | .rest =>
    match j.active, j.timers.takeDue? with
    | p :: others, none =>
      { j with
        active := others
        history := j.history ++ [.rested p.run j.timers.now p.ran] }
    | _, _ => j

/-- A run that has not come to its end, with what was written down of it. -/
structure Counted (history : List (Entry α)) (p : Ongoing) : Prop where
  /-- It has counted the tasks that it ran. -/
  ran : p.ran = history.countP (·.ranBy p.run)
  began : ∃ since, .began p.run since ∈ history
  /-- And has not come to its end. -/
  unrested : ∀ at_ ran, .rested p.run at_ ran ∉ history

/-- What is so of a journal all along.  The timers that wait are those that
its history says are pending, and every entry was right when it was written
down. -/
structure Kept (j : Journal α) : Prop where
  /-- What waits on the clock is what the history says is pending. -/
  waiting : j.timers.waiting = pendingIn j.history
  /-- Timers were numbered in the order in which they were scheduled. -/
  numbers : (scheduledIn j.history).map (·.id) = List.range j.timers.nextId
  /-- Only timers that were scheduled fired or were cancelled. -/
  known : ∀ x ∈ j.history, ∀ id, x.ends id → id < j.timers.nextId
  /-- What has fired was due by now. -/
  behind : ∀ t ∈ firedIn j.history, t.deadline ≤ j.timers.now
  /-- What has fired is before all that waits. -/
  ahead : ∀ t ∈ firedIn j.history, ∀ u ∈ j.timers.waiting, t.before u
  /-- What has fired has fired in order. -/
  order : (firedIn j.history).Pairwise (·.before ·)
  /-- Runs were numbered in the order in which they began. -/
  runs : ∀ x ∈ j.history, ∀ run, x.run? = some run → run < j.begun
  distinct : j.active.Pairwise (·.run ≠ ·.run)
  /-- Each run that goes on has counted right, and has not ended. -/
  active : ∀ p ∈ j.active, Counted j.history p
  /-- Every entry was right when it was written down. -/
  right : ∀ past x rest, j.history = past ++ x :: rest → x.Right past

variable {j : Journal α} {history : List (Entry α)} {x : Entry α} {t : Timer α}

/-- Where nothing has happened nothing waits, and nothing can be wrong. -/
theorem kept_start : Kept ({} : Journal α) where
  waiting := rfl
  numbers := rfl
  known := by simp
  behind := by simp [firedIn]
  ahead := by simp [firedIn]
  order := .nil
  runs := by simp
  distinct := .nil
  active := by simp
  right := by simp

/-! ## One entry more -/

/-- Of one more entry the timer that it scheduled, if it did, was scheduled
last. -/
theorem scheduledIn_snoc :
    scheduledIn (history ++ [x]) = scheduledIn history ++ x.scheduled?.toList := by
  rw [scheduledIn, List.filterMap_append]
  cases h : x.scheduled? <;> simp [scheduledIn, h]

/-- Of one more entry the timer that fired, if one did, has fired last. -/
theorem firedIn_snoc : firedIn (history ++ [x]) = firedIn history ++ x.fired?.toList := by
  rw [firedIn, List.filterMap_append]
  cases h : x.fired? <;> simp [firedIn, h]

/-- What is no timer that is scheduled can only end some that wait. -/
theorem pendingIn_snoc (hnone : x.scheduled? = none) :
    pendingIn (history ++ [x]) = (pendingIn history).filter fun t => !x.ends t.id := by
  rw [pendingIn, scheduledIn_snoc, hnone, Option.toList_none, List.append_nil, pendingIn,
    List.filter_filter]
  refine List.filter_congr fun t _ => ?_
  simp [Bool.and_comm]

/-- A timer that is scheduled waits, behind those that wait already. -/
theorem pendingIn_scheduled (hunknown : ∀ x ∈ history, ¬ x.ends t.id) :
    pendingIn (history ++ [.scheduled t]) = pendingIn history ++ [t] := by
  have hsame : ∀ u : Timer α, (history ++ [Entry.scheduled t]).any (·.ends u.id) =
      history.any (·.ends u.id) := by
    intro u
    rw [List.any_append]
    exact Bool.or_false _
  have hwaits : history.any (·.ends t.id) = false := by simpa using hunknown
  rw [pendingIn, scheduledIn_snoc]
  simp only [hsame, Entry.scheduled?, Option.toList_some, List.filter_append]
  rw [List.filter_cons_of_pos (by rw [hwaits]; rfl), pendingIn]
  rfl

/-- A run that an entry is not about is as it was, so runs can be counted one
by one. -/
theorem Counted.snoc {p : Ongoing} (h : Counted history p) (hother : x.run? ≠ some p.run) :
    Counted (history ++ [x]) p where
  ran := by
    have helsewhere : ¬ x.ranBy p.run := by
      intro hran
      cases x with
      | fired run t now => exact hother (congrArg some (by simpa [Entry.ranBy] using hran))
      | _ => cases hran
    rw [List.countP_append, List.countP_singleton, if_neg helsewhere]
    exact h.ran
  began := h.began.imp fun _ hbegan => List.mem_append_left _ hbegan
  unrested := by
    intro at_ ran hrested
    rcases List.mem_append.mp hrested with hold | hnew
    · exact h.unrested at_ ran hold
    · cases List.mem_singleton.mp hnew
      exact hother rfl

theorem Kept.sorted (h : j.Kept) : (scheduledIn j.history).Pairwise (·.id < ·.id) := by
  have hsorted := List.pairwise_lt_range (n := j.timers.nextId)
  rw [← h.numbers] at hsorted
  exact List.pairwise_map.mp hsorted

/-- The number that comes next is beyond all that were given out. -/
theorem Kept.lt_next (h : j.Kept) : ∀ t ∈ scheduledIn j.history, t.id < j.timers.nextId := by
  intro t ht
  have hnumber := List.mem_map_of_mem (f := Timer.id) ht
  rw [h.numbers] at hnumber
  exact List.mem_range.mp hnumber

/-- Timers wait in the order in which they were scheduled. -/
theorem Kept.waiting_sorted (h : j.Kept) : j.timers.waiting.Pairwise (·.id < ·.id) := by
  rw [h.waiting]
  exact h.sorted.sublist List.filter_sublist

theorem Kept.waiting_lt (h : j.Kept) : ∀ t ∈ j.timers.waiting, t.id < j.timers.nextId := by
  intro t ht
  rw [h.waiting] at ht
  exact h.lt_next t (List.mem_filter.mp ht).1

/-- What has fired was scheduled before, and so has an older number than what
comes. -/
theorem Kept.fired_lt (h : j.Kept) : ∀ t ∈ firedIn j.history, t.id < j.timers.nextId := by
  intro t ht
  obtain ⟨x, hx, hfired⟩ := List.mem_filterMap.mp ht
  cases x with
  | fired run u now =>
      cases hfired
      exact h.known _ hx t.id (by simp [Entry.ends])
  | _ => cases hfired

/-- **One entry more.**  What has to be so of it, by what happened before, and
of what it makes of the timers. -/
theorem Kept.note (h : j.Kept) {j' : Journal α} (hhistory : j'.history = j.history ++ [x])
    (hwaiting : j'.timers.waiting = pendingIn j'.history)
    (hnumbers : (scheduledIn j'.history).map (·.id) = List.range j'.timers.nextId)
    (hnext : j.timers.nextId ≤ j'.timers.nextId) (hknown : ∀ id, x.ends id → id < j'.timers.nextId)
    (hnow : j.timers.now ≤ j'.timers.now) (hbegun : j.begun ≤ j'.begun)
    (hrun : ∀ run, x.run? = some run → run < j'.begun)
    (hfired : ∀ t, x.fired? = some t → t ∈ j.timers.waiting ∧ t.deadline ≤ j'.timers.now ∧
      ∀ u ∈ j'.timers.waiting, t.before u)
    (hahead : ∀ t ∈ firedIn j.history, ∀ u ∈ j'.timers.waiting, u ∈ j.timers.waiting ∨ t.before u)
    (hdistinct : j'.active.Pairwise (·.run ≠ ·.run))
    (hactive : ∀ p ∈ j'.active, Counted j'.history p) (hright : x.Right j.history) : j'.Kept where
  waiting := hwaiting
  numbers := hnumbers
  known := by
    intro y hy id hends
    rw [hhistory] at hy
    rcases List.mem_append.mp hy with hold | hnew
    · exact Nat.lt_of_lt_of_le (h.known y hold id hends) hnext
    · cases List.mem_singleton.mp hnew
      exact hknown id hends
  behind := by
    intro t ht
    rw [hhistory, firedIn_snoc] at ht
    rcases List.mem_append.mp ht with hold | hnew
    · exact Nat.le_trans (h.behind t hold) hnow
    · exact (hfired t (Option.mem_toList.mp hnew)).2.1
  ahead := by
    intro t ht u hu
    rw [hhistory, firedIn_snoc] at ht
    rcases List.mem_append.mp ht with hold | hnew
    · exact (hahead t hold u hu).elim (h.ahead t hold u) id
    · exact (hfired t (Option.mem_toList.mp hnew)).2.2 u hu
  order := by
    rw [hhistory, firedIn_snoc]
    refine List.pairwise_append.mpr ⟨h.order, ?_, ?_⟩
    · cases x.fired? <;> simp
    · intro t ht u hu
      exact h.ahead t ht u (hfired u (Option.mem_toList.mp hu)).1
  runs := by
    intro y hy number habout
    rw [hhistory] at hy
    rcases List.mem_append.mp hy with hold | hnew
    · exact Nat.lt_of_lt_of_le (h.runs y hold number habout) hbegun
    · cases List.mem_singleton.mp hnew
      exact hrun number habout
  distinct := hdistinct
  active := hactive
  right := by
    intro past y rest hsplit
    rw [hhistory] at hsplit
    exact forall_split_snoc (P := fun past y => y.Right past) h.right hright hsplit

/-- A timer is scheduled.  It is due no earlier than now, so it is behind all
that has fired. -/
theorem Kept.schedule (h : j.Kept) (delay : Duration) (task : α) :
    (j.happen (.schedule delay task)).Kept := by
  have hunknown : ∀ x ∈ j.history, ¬ x.ends j.timers.nextId := fun x hx hends =>
    Nat.lt_irrefl _ (h.known x hx _ hends)
  have hwaits := pendingIn_scheduled (t := ⟨j.timers.nextId, j.timers.now + delay, task⟩) hunknown
  refine h.note (x := .scheduled ⟨j.timers.nextId, j.timers.now + delay, task⟩) rfl ?_ ?_
    (Nat.le_succ _) (by rintro id ⟨⟩) (Nat.le_refl _) (Nat.le_refl _) (by rintro run ⟨⟩)
    (by rintro t ⟨⟩) ?_ h.distinct ?_ h.lt_next
  · rw [← h.waiting] at hwaits
    exact hwaits.symm
  · have hone : (scheduledIn (j.happen (.schedule delay task)).history).map (·.id) =
        (scheduledIn j.history).map (·.id) ++ [j.timers.nextId] := by
      simp [happen, Timers.schedule, scheduledIn_snoc, Entry.scheduled?]
    rw [hone, h.numbers]
    exact List.range_succ.symm
  · -- The deadline of the new timer has not come before now, and its number is new.
    intro t ht u hu
    rcases List.mem_append.mp hu with hold | hnew
    · exact .inl hold
    · cases List.mem_singleton.mp hnew
      have hdue : t.deadline.nanos ≤ j.timers.now.nanos := h.behind t ht
      refine .inr (Timer.before_iff.mpr ?_)
      rcases Nat.lt_or_ge t.deadline.nanos (j.timers.now.nanos + delay.nanos) with hearlier | hlate
      · exact .inl hearlier
      · have hsame : t.deadline.nanos = j.timers.now.nanos + delay.nanos := by omega
        exact .inr ⟨congrArg Duration.mk hsame, h.fired_lt t ht⟩
  · exact fun p hp => (h.active p hp).snoc (by rintro ⟨⟩)

theorem isWaiting_iff {timers : Timers α} {id : Nat} :
    timers.isWaiting id ↔ ∃ t ∈ timers.waiting, t.id = id := by
  simp [isWaiting]

/-- What is left when somebody has tried to cancel a timer: all but that one;
and the answer says whether it was there. -/
theorem cancel_spec (timers : Timers α) (id : Nat) :
    (timers.cancel id).1 = timers.isWaiting id ∧
      (timers.cancel id).2.waiting = timers.waiting.filter
        (fun t => !(Entry.cancelled id (timers.cancel id).1 : Entry α).ends t.id) ∧
      (timers.cancel id).2.nextId = timers.nextId ∧ (timers.cancel id).2.now = timers.now := by
  unfold Timers.cancel
  split
  · rename_i hwaits
    refine ⟨hwaits.symm, List.filter_congr fun t _ => ?_, rfl, rfl⟩
    simp [Entry.ends, eq_comm]
  · rename_i hgone
    refine ⟨by simpa using hgone, (List.filter_eq_self.mpr fun t _ => ?_).symm, rfl, rfl⟩
    simp [Entry.ends]

/-- A timer is cancelled, or is not there to be cancelled any more. -/
theorem Kept.cancel (h : j.Kept) (id : Nat) : (j.happen (.cancel id)).Kept := by
  obtain ⟨hwon, hleft, hnext, hnow⟩ := cancel_spec j.timers id
  have hwaits : (j.timers.cancel id).1 = true ↔ ∃ t ∈ j.timers.waiting, t.id = id := by
    rw [hwon]
    exact isWaiting_iff
  have hfewer : ∀ t ∈ (j.timers.cancel id).2.waiting, t ∈ j.timers.waiting := by
    rw [hleft]
    exact fun t ht => (List.mem_filter.mp ht).1
  refine h.note (x := .cancelled id (j.timers.cancel id).1) rfl ?_ ?_ (Nat.le_of_eq hnext.symm) ?_
    (Nat.le_of_eq (congrArg Duration.nanos hnow.symm)) (Nat.le_refl _) (by rintro run ⟨⟩)
    (by rintro t ⟨⟩) (fun t _ u hu => .inl (hfewer u hu)) h.distinct ?_ ?_
  · rw [happen, pendingIn_snoc rfl, ← h.waiting]
    exact hleft
  · simp only [happen, scheduledIn_snoc, Entry.scheduled?, Option.toList_none, List.append_nil,
      hnext]
    exact h.numbers
  · intro id' hends
    obtain ⟨hstopped, rfl⟩ : (j.timers.cancel id).1 = true ∧ id = id' := by
      simpa [Entry.ends] using hends
    obtain ⟨t, ht, rfl⟩ := hwaits.mp hstopped
    exact hnext ▸ h.waiting_lt t ht
  · exact fun p hp => (h.active p hp).snoc (by rintro ⟨⟩)
  · rw [Entry.Right, ← h.waiting]
    exact hwaits

/-- Time is advanced, and a run begins; what has fired was due all the
more. -/
theorem Kept.advance (h : j.Kept) (by_ : Duration) : (j.happen (.advance by_)).Kept := by
  have hfresh : ∀ x ∈ j.history, x.run? ≠ some j.begun := fun x hx habout =>
    Nat.lt_irrefl _ (h.runs x hx _ habout)
  have hnone : j.history.countP (·.ranBy j.begun) = 0 := by
    refine List.countP_eq_zero.mpr fun x hx hran => ?_
    cases x with
    | fired run t now =>
        exact hfresh _ hx (congrArg some (by simpa [Entry.ranBy] using hran))
    | _ => cases hran
  refine h.note (x := .began j.begun (j.timers.elapse by_).now) rfl ?_ ?_ (Nat.le_refl _)
    (by rintro id ⟨⟩) (Nat.le_add_right _ _) (Nat.le_succ _) ?_ (by rintro t ⟨⟩)
    (fun t _ u hu => .inl hu) ?_ ?_ hfresh
  · rw [happen, pendingIn_snoc rfl, ← h.waiting]
    exact (List.filter_eq_self.mpr fun _ _ => rfl).symm
  · simp only [happen, scheduledIn_snoc, Entry.scheduled?, Option.toList_none, List.append_nil]
    exact h.numbers
  · rintro run ⟨⟩
    exact Nat.lt_succ_self _
  · refine List.pairwise_cons.mpr ⟨fun p hp hsame => ?_, h.distinct⟩
    obtain ⟨since, hbegan⟩ := (h.active p hp).began
    exact hfresh _ hbegan (congrArg some hsame.symm)
  · intro p hp
    rcases List.mem_cons.mp hp with rfl | hp
    · refine ⟨?_, ⟨_, List.mem_append_right _ List.mem_cons_self⟩, fun at_ ran hrested => ?_⟩
      · rw [happen, List.countP_append, hnone]
        rfl
      · rcases List.mem_append.mp hrested with hold | hnew
        · exact hfresh _ hold rfl
        · cases List.mem_singleton.mp hnew
    · refine (h.active p hp).snoc fun habout => ?_
      obtain ⟨since, hbegan⟩ := (h.active p hp).began
      exact hfresh _ hbegan habout.symm

/-- What is taken is due, and before all else that waits; the rest goes on
waiting. -/
theorem Kept.taken (h : j.Kept) {timers : Timers α}
    (htaken : j.timers.takeDue? = some (t, timers)) :
    t ∈ j.timers.waiting ∧ t.deadline ≤ j.timers.now ∧
      timers = { j.timers with waiting := j.timers.waiting.filter (·.id ≠ t.id) } ∧
      ∀ u ∈ timers.waiting, t.before u := by
  obtain ⟨u, hfirst, hsame⟩ := Option.map_eq_some_iff.mp htaken
  cases hsame
  obtain ⟨hwaits, hdue⟩ := List.mem_filter.mp (Timer.mem_of_first? hfirst)
  have hdue : t.deadline ≤ j.timers.now := by simpa using hdue
  refine ⟨hwaits, hdue, rfl, fun u hu => ?_⟩
  obtain ⟨hu, hother⟩ := List.mem_filter.mp hu
  have hother : u.id ≠ t.id := by simpa using hother
  by_cases hlate : u.deadline ≤ j.timers.now
  · have hdistinct : (j.timers.waiting.filter (·.deadline ≤ j.timers.now)).Pairwise
        (·.id ≠ ·.id) :=
      (h.waiting_sorted.imp Nat.ne_of_lt).sublist List.filter_sublist
    have hleast := Timer.first?_before hdistinct hfirst u
      (List.mem_filter.mpr ⟨hu, by simpa using hlate⟩)
    exact hleast.resolve_left fun hsame => hother (congrArg Timer.id hsame)
  · have hlater : j.timers.now.nanos < u.deadline.nanos := Nat.lt_of_not_le hlate
    exact Timer.before_iff.mpr (.inl (Nat.lt_of_le_of_lt hdue hlater))

/-- The next timer fires, and is counted by the innermost run. -/
theorem Kept.fire (h : j.Kept) : (j.happen .fire).Kept := by
  simp only [happen]
  split
  · rename_i p others t timers hactive htaken
    obtain ⟨hwaits, hdue, rfl, hfirst⟩ := h.taken htaken
    have hcounted := h.active p (hactive ▸ List.mem_cons_self)
    obtain ⟨hapart, hdistinct⟩ := List.pairwise_cons.mp (hactive ▸ h.distinct)
    refine h.note (x := .fired p.run t j.timers.now) rfl ?_ ?_ (Nat.le_refl _) ?_ (Nat.le_refl _)
      (Nat.le_refl _) ?_ ?_ (fun _ _ u hu => .inl (List.mem_filter.mp hu).1) ?_ ?_ ?_
    · rw [pendingIn_snoc rfl, ← h.waiting]
      refine List.filter_congr fun u _ => ?_
      simp [Entry.ends, eq_comm]
    · simp only [scheduledIn_snoc, Entry.scheduled?, Option.toList_none, List.append_nil]
      exact h.numbers
    · intro id hends
      obtain rfl : t.id = id := by simpa [Entry.ends] using hends
      exact h.waiting_lt t hwaits
    · rintro run ⟨⟩
      obtain ⟨since, hbegan⟩ := hcounted.began
      exact h.runs _ hbegan p.run rfl
    · rintro u ⟨⟩
      exact ⟨hwaits, hdue, hfirst⟩
    · exact List.pairwise_cons.mpr ⟨hapart, hdistinct⟩
    · intro q hq
      rcases List.mem_cons.mp hq with rfl | hq
      · refine ⟨?_, hcounted.began.imp fun _ => List.mem_append_left _, fun at_ ran hrested => ?_⟩
        · rw [List.countP_append, hcounted.ran]
          simp [Entry.ranBy]
        · rcases List.mem_append.mp hrested with hold | hnew
          · exact hcounted.unrested at_ ran hold
          · cases List.mem_singleton.mp hnew
      · refine (h.active q (hactive ▸ List.mem_cons_of_mem _ hq)).snoc fun habout => ?_
        exact hapart q hq (Option.some.inj habout)
    · exact ⟨h.waiting ▸ hwaits, hdue, hcounted.began, hcounted.unrested⟩
  · exact h

/-- A run comes to its end, where nothing is due any more. -/
theorem Kept.rest (h : j.Kept) : (j.happen .rest).Kept := by
  simp only [happen]
  split
  · rename_i p others hactive hnothing
    have hcounted := h.active p (hactive ▸ List.mem_cons_self)
    obtain ⟨hapart, hdistinct⟩ := List.pairwise_cons.mp (hactive ▸ h.distinct)
    refine h.note (x := .rested p.run j.timers.now p.ran) rfl ?_ ?_ (Nat.le_refl _)
      (by rintro id ⟨⟩) (Nat.le_refl _) (Nat.le_refl _) ?_ (by rintro t ⟨⟩)
      (fun t _ u hu => .inl hu) hdistinct ?_ ?_
    · rw [pendingIn_snoc rfl, ← h.waiting]
      exact (List.filter_eq_self.mpr fun _ _ => rfl).symm
    · simp only [scheduledIn_snoc, Entry.scheduled?, Option.toList_none, List.append_nil]
      exact h.numbers
    · rintro run ⟨⟩
      obtain ⟨since, hbegan⟩ := hcounted.began
      exact h.runs _ hbegan p.run rfl
    · intro q hq
      refine (h.active q (hactive ▸ List.mem_cons_of_mem _ hq)).snoc fun habout => ?_
      exact hapart q hq (Option.some.inj habout)
    · refine ⟨hcounted.ran, fun t ht hdue => ?_⟩
      have hempty := Timer.first?_eq_none.mp (Option.map_eq_none_iff.mp hnothing)
      have hlisted : t ∈ j.timers.waiting.filter (·.deadline ≤ j.timers.now) :=
        List.mem_filter.mpr ⟨h.waiting ▸ ht, decide_eq_true hdue⟩
      rw [hempty] at hlisted
      cases hlisted
  · exact h

/-- **Whatever happens keeps it**: to schedule, to cancel, to advance, to
fire, and to come to an end. -/
theorem Kept.happen (h : j.Kept) (o : Occurrence α) : (j.happen o).Kept := by
  cases o with
  | schedule delay task => exact h.schedule delay task
  | cancel id => exact h.cancel id
  | advance by_ => exact h.advance by_
  | fire => exact h.fire
  | rest => exact h.rest

theorem Kept.foldl (h : j.Kept) (os : List (Occurrence α)) :
    (os.foldl Journal.happen j).Kept := by
  induction os generalizing j with
  | nil => exact h
  | cons o os ih => exact ih (h.happen o)

end Journal

end Timers

end OpcSession
