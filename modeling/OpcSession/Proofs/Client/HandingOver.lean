import OpcSession.Proofs.Client.Bystanders

/-!
# Requests that are handed over late

The connection may take its time over a frame, and until it has taken it the owner of
the request is held back, while responses come in and the link may be lost.  A client that
makes moves hands each frame over at once.  Nothing is missed by that: what happens
before a frame has been handed over might as well have happened after.

* `ClientRun.handOver_takeIn` — a response that comes in before;
* `ClientRun.handOver_cut` — a link that is lost before.
-/

namespace OpcSession.Simulation

open Session Client

namespace ClientRun

/-! ## Responses -/

section Responses

variable (r : ClientRun) (o : Owner) (a : Activity)

/-- It is all the same whether a task is made ready before an owner begins
something or after. -/
theorem wake_setActivity (t : Task) : (r.setActivity o a).wake t = (r.wake t).setActivity o a := by
  by_cases hready : t ∈ r.ready <;> simp [wake, setActivity, dropActivity, hready]

/-- A notice may likewise be given before or after, if one is given at all. -/
theorem elim_notify_setActivity (n? : Option Notice) :
    n?.elim (r.setActivity o a) (r.setActivity o a).notify =
      (n?.elim r r.notify).setActivity o a := by
  cases n? with
  | none => rfl
  | some n =>
      simp only [Option.elim_some, notify]
      rw [apply_ite (setActivity · o a), ← wake_setActivity]
      rfl

/-- Something has come of what an owner did, and what it started on last is
not looked at any more. -/
theorem conclude_setActivity_self (x : Outcome) :
    (r.setActivity o a).conclude o x = r.conclude o x := by
  simp [conclude, setActivity, dropActivity]

theorem conclude_setActivity {o' : Owner} (hother : o' ≠ o) (x : Outcome) :
    (r.setActivity o a).conclude o' x = (r.conclude o' x).setActivity o a := by
  simp [conclude, setActivity, dropActivity, Ne.symm hother, Bool.and_comm]

/-- To be ready changes nothing of what anybody has to return with. -/
theorem outcomes_wake (t : Task) : (r.wake t).outcomes = r.outcomes := by
  unfold wake
  split <;> rfl

variable {r o} {e : ResponseEnvelope}

/-- An owner goes on with the response that it waits for, whatever it had
started on. -/
theorem takeIn_setActivity_self
    (hown : (r.channel.pending.find? (·.1 = e.handle)).map (·.2) = some o) :
    (r.setActivity o a).takeIn e = r.takeIn e := by
  have hnoted := elim_notify_setActivity { r with channel := r.channel.withdraw e.handle } o a
    (e.body.fault?.map .serviceFault)
  have hown' : ((r.setActivity o a).channel.pending.find? (·.1 = e.handle)).map (·.2) = some o :=
    hown
  simp only [takeIn, Channel.receive, hown, hown', Option.elim_some]
  refine congrArg (·.wake (taskOf o)) (Eq.trans ?_ (conclude_setActivity_self _ o a _))
  exact congrArg (·.conclude o (Channel.outcome e.body)) hnoted

/-- An owner may start on something before a response to another comes in or
after. -/
theorem takeIn_setActivity
    (hother : (r.channel.pending.find? (·.1 = e.handle)).map (·.2) ≠ some o) :
    (r.setActivity o a).takeIn e = (r.takeIn e).setActivity o a := by
  have hnoted := elim_notify_setActivity { r with channel := r.channel.withdraw e.handle } o a
    (e.body.fault?.map .serviceFault)
  cases howner : (r.channel.pending.find? (·.1 = e.handle)).map (·.2) with
  | none =>
      have howner' :
          ((r.setActivity o a).channel.pending.find? (·.1 = e.handle)).map (·.2) = none := howner
      simp only [takeIn, Channel.receive, howner, howner', Option.elim_none]
      exact hnoted
  | some o' =>
      have hdistinct : o' ≠ o := fun hsame => hother (hsame ▸ howner)
      have howner' :
          ((r.setActivity o a).channel.pending.find? (·.1 = e.handle)).map (·.2) = some o' :=
        howner
      simp only [takeIn, Channel.receive, howner, howner', Option.elim_some]
      rw [← wake_setActivity, ← conclude_setActivity _ o a hdistinct, ← hnoted]
      rfl

theorem settings_takeIn : (r.takeIn e).settings = r.settings := by
  obtain ⟨r₁, rfl | ⟨n, rfl⟩, ⟨htaken, -⟩ | ⟨o, -, htaken⟩⟩ := r.takeIn_eq e <;> rw [htaken] <;>
    simp [wake, notify, conclude, dropActivity, apply_ite ClientRun.settings]

/-- No time goes by while a response is taken in, so a deadline that is
counted from then on is the same. -/
theorem elapsed_takeIn : (r.takeIn e).elapsed = r.elapsed := by
  obtain ⟨r₁, rfl | ⟨n, rfl⟩, ⟨htaken, -⟩ | ⟨o, -, htaken⟩⟩ := r.takeIn_eq e <;> rw [htaken] <;>
    simp [wake, notify, conclude, dropActivity, apply_ite ClientRun.elapsed]

/-- After a handle is withdrawn an owner still waits under the others. -/
theorem awaits_withdraw (c : Channel) (handle handle' : UInt32) (o : Owner) :
    (c.withdraw handle).awaits handle' o = (c.awaits handle' o && !decide (handle' = handle)) := by
  unfold Channel.awaits Channel.pending Channel.current? Channel.withdraw
  cases c.link? with
  | none => rfl
  | some link => cases hlink : link.alive <;> simp [hlink, Option.filter]

/-- An owner whose request was handed over waits for the response, if it waits
at all. -/
theorem handOver_waits {envelope : RequestEnvelope}
    (htimed : r.settings.transport.requestDuration ≠ .zero)
    (hawaits : r.channel.awaits envelope.handle o) :
    r.handOver o envelope none = r.setActivity o (.exchanging envelope.handle
      envelope.body.service (r.elapsed + r.settings.transport.requestDuration)) := by
  rw [handOver, if_pos hawaits]
  exact if_neg htimed

/-- **A response that comes in before a request has been handed over** might
as well come in after.  It is the one that the request is for, and its owner
goes on with it either way; or it is for another, and the owner goes on
waiting either way. -/
theorem handOver_takeIn (envelope : RequestEnvelope) (e : ResponseEnvelope)
    (htimed : r.settings.transport.requestDuration ≠ .zero)
    (hawaits : r.channel.awaits envelope.handle o)
    (hlone : ∀ p ∈ r.channel.pending, p.1 = envelope.handle ↔ p.2 = o) :
    (r.takeIn e).handOver o envelope none = (r.handOver o envelope none).takeIn e := by
  have hwaits : (envelope.handle, o) ∈ r.channel.pending := by
    simpa [Channel.awaits] using hawaits
  rw [handOver_waits htimed hawaits]
  by_cases hown : (r.channel.pending.find? (·.1 = e.handle)).map (·.2) = some o
  · have hhandle : e.handle = envelope.handle := by
      obtain ⟨p, hfound, rfl⟩ := Option.map_eq_some_iff.mp hown
      have hp : p.1 = e.handle := by simpa using List.find?_some hfound
      exact hp.symm.trans ((hlone p (List.mem_of_find?_eq_some hfound)).mpr rfl)
    have hgone : ¬ (r.takeIn e).channel.awaits envelope.handle o := by
      rw [channel_takeIn, awaits_withdraw, hhandle]
      simp
    have hcame : (r.takeIn e).outcomes.any (·.1 = o) := by
      simp only [takeIn, Channel.receive, hown, Option.elim_some, outcomes_wake]
      simp [conclude]
    rw [takeIn_setActivity_self _ hown, handOver, if_neg hgone, if_pos hcame]
  · have hhandle : envelope.handle ≠ e.handle := by
      intro hsame
      obtain ⟨p, hfound⟩ : ∃ p, r.channel.pending.find? (·.1 = e.handle) = some p :=
        Option.isSome_iff_exists.mp
          (List.find?_isSome.mpr ⟨_, hwaits, by simpa using hsame⟩)
      have hp : p.1 = e.handle := by simpa using List.find?_some hfound
      have howner := (hlone p (List.mem_of_find?_eq_some hfound)).mp (hp.trans hsame.symm)
      exact hown (by rw [hfound, Option.map_some, howner])
    have hstill : (r.takeIn e).channel.awaits envelope.handle o := by
      rw [channel_takeIn, awaits_withdraw, hawaits]
      simpa using hhandle
    have htimed' : (r.takeIn e).settings.transport.requestDuration ≠ .zero := by
      rwa [settings_takeIn]
    rw [takeIn_setActivity _ hown, handOver_waits htimed' hstill, settings_takeIn, elapsed_takeIn]

end Responses

/-! ## The end of the link -/

/-- What an owner does and what has come of it, once the request that it waits
for is lost with its link. -/
def afterLoss (x? : Option Outcome) : Option Activity → Option Activity × Option Outcome
  | some (.exchanging _ service _) => (none, x?.or (some (.failed (Channel.abandoned service))))
  | a? => (a?, x?)

/-- Who has been told of the loss is not told again: it waits for nothing any
more. -/
theorem afterLoss_afterLoss (x? : Option Outcome) (a? : Option Activity) :
    afterLoss (afterLoss x? a?).2 (afterLoss x? a?).1 = afterLoss x? a? := by
  match a? with
  | some (.exchanging ..) | none | some .connecting | some (.dialing _) | some .disconnecting
  | some .closing => rfl

/-- What it means for an owner that one request is lost, be it its own or
that of another. -/
theorem abandon_singleton (r : ClientRun) (o : Owner) (p : UInt32 × Owner) :
    ((r.abandon [p]).activity? o, (r.abandon [p]).outcome? o) =
      if p.2 = o then afterLoss (r.outcome? o) (r.activity? o)
      else (r.activity? o, r.outcome? o) := by
  obtain ⟨handle, o'⟩ := p
  simp only [abandon, List.foldl_cons, List.foldl_nil]
  split
  · rename_i service _ hexchanging
    rw [activity?_wake, outcome?_wake, activity?_conclude, outcome?_conclude]
    by_cases hsame : o' = o
    · subst hsame
      rw [if_pos rfl, if_pos rfl, if_pos rfl, hexchanging]
      rfl
    · rw [if_neg (Ne.symm hsame), if_neg (Ne.symm hsame), if_neg hsame, Option.or_none]
  · rename_i hidle
    unfold afterLoss
    split
    · split
      · rename_i hsame _ _ _ _ hexchanging
        exact absurd (hsame ▸ hexchanging) (hidle _ _ _)
      · rfl
    · rfl

/-- Whoever waits for a response is told that the request is lost; nothing
comes of what anybody else does. -/
theorem abandon_afterLoss (r : ClientRun) (o : Owner) (pending : List (UInt32 × Owner)) :
    ((r.abandon pending).activity? o, (r.abandon pending).outcome? o) =
      if pending.any (·.2 = o) then afterLoss (r.outcome? o) (r.activity? o)
      else (r.activity? o, r.outcome? o) := by
  induction pending generalizing r with
  | nil => rfl
  | cons p rest ih =>
      have hfirst := r.abandon_singleton o p
      have hlater := ih (r.abandon [p])
      by_cases hsame : p.2 = o
      · rw [if_pos hsame] at hfirst
        have hactivity :
            (r.abandon [p]).activity? o = (afterLoss (r.outcome? o) (r.activity? o)).1 :=
          congrArg Prod.fst hfirst
        have houtcome :
            (r.abandon [p]).outcome? o = (afterLoss (r.outcome? o) (r.activity? o)).2 :=
          congrArg Prod.snd hfirst
        rw [hactivity, houtcome, afterLoss_afterLoss, ite_self] at hlater
        exact hlater.trans (by simp [hsame])
      · rw [if_neg hsame] at hfirst
        obtain ⟨hactivity, houtcome⟩ := Prod.mk.inj hfirst
        rw [hactivity, houtcome] at hlater
        rw [List.any_cons, decide_eq_false hsame, Bool.false_or]
        exact hlater

variable {r : ClientRun} {o : Owner}

/-- When the link ends, whoever is pending is told by what it does, and the
others stay as they are. -/
theorem cut_afterLoss (r : ClientRun) (o : Owner) :
    (r.cut.activity? o, r.cut.outcome? o) =
      if r.channel.pending.any (·.2 = o) then afterLoss (r.outcome? o) (r.activity? o)
      else (r.activity? o, r.outcome? o) := by
  unfold cut
  dsimp only
  rw [activity?_notify, outcome?_notify]
  exact abandon_afterLoss _ o _

theorem not_awaits_cut (r : ClientRun) (handle : UInt32) (o : Owner) :
    ¬ r.cut.channel.awaits handle o := by
  unfold cut
  dsimp only
  rw [channel_notify, channel_abandon]
  simp only [Channel.finish, Channel.awaits, Channel.pending, Channel.current?]
  cases r.channel.link? <;> simp [Option.filter]

/-- **A link that is lost before a request has been handed over** might as
well be lost after: its owner is told of that by the same words, and the
others are told what they would have been told. -/
theorem handOver_cut {r : ClientRun} {o : Owner} (envelope : RequestEnvelope)
    (htimed : r.settings.transport.requestDuration ≠ .zero)
    (hawaits : r.channel.awaits envelope.handle o) (hidle : r.activity? o = none)
    (hnothing : r.outcome? o = none) (o' : Owner) :
    ((r.cut.handOver o envelope none).activity? o', (r.cut.handOver o envelope none).outcome? o') =
      ((r.handOver o envelope none).cut.activity? o',
        (r.handOver o envelope none).cut.outcome? o') := by
  have hpending : r.channel.pending.any (·.2 = o) := by
    have hwaits : (envelope.handle, o) ∈ r.channel.pending := by
      simpa [Channel.awaits] using hawaits
    exact List.any_eq_true.mpr ⟨_, hwaits, by simp⟩
  have hbefore := r.cut_afterLoss o
  rw [if_pos hpending, hidle, hnothing] at hbefore
  obtain ⟨hstill, hnone⟩ := Prod.mk.inj hbefore
  have hfailed : r.cut.handOver o envelope none =
      r.cut.conclude o (.failed (Channel.abandoned envelope.body.service)) := by
    rw [handOver, if_neg (r.not_awaits_cut _ o), if_neg]
    rw [outcome?, Option.map_eq_none_iff, List.find?_eq_none] at hnone
    simpa using fun x hx => hnone (o, x) hx (by simp)
  rw [hfailed, activity?_conclude, outcome?_conclude, handOver_waits htimed hawaits, cut_afterLoss,
    activity?_setActivity, outcome?_setActivity, channel_setActivity]
  by_cases hsame : o' = o
  · subst hsame
    rw [if_pos rfl, if_pos rfl, if_pos hpending, if_pos rfl, hnone, hnothing]
    rfl
  · rw [if_neg hsame, if_neg hsame, if_neg hsame, Option.or_none, cut_afterLoss]

end ClientRun

end OpcSession.Simulation
